import PublicIntelligence.Lib.Encoding

namespace PublicIntelligence.Encoding

open Text

/-- A character of UTF-8 that is not all there yet: its bits so far, how many bytes are to come, and
between what the next of them has to lie. -/
structure Partial where
  code : Nat
  needed : Nat
  least : Nat
  most : Nat
deriving DecidableEq

/-- A decoder between two bytes. -/
abbrev StreamState := Option Partial

/-- The first byte of a character: what it says by itself, and what it waits for. -/
def firstByte (b : UInt8) : Text × StreamState :=
  let n := b.toNat
  if n < 0x80 then ([point n], none)
  else if 0xc2 ≤ n ∧ n ≤ 0xdf then ([], some ⟨n - 0xc0, 1, 0x80, 0xbf⟩)
  else if 0xe0 ≤ n ∧ n ≤ 0xef then
    ([], some ⟨n - 0xe0, 2, if n = 0xe0 then 0xa0 else 0x80, if n = 0xed then 0x9f else 0xbf⟩)
  else if 0xf0 ≤ n ∧ n ≤ 0xf4 then
    ([], some ⟨n - 0xf0, 3, if n = 0xf0 then 0x90 else 0x80, if n = 0xf4 then 0x8f else 0xbf⟩)
  else ([replacement], none)

/-- The next byte. One that does not go on with the character that is open stands for itself. -/
def pushByte : StreamState → UInt8 → Text × StreamState
  | none, b => firstByte b
  | some p, b =>
    let n := b.toNat
    if p.least ≤ n ∧ n ≤ p.most then
      let code := p.code * 64 + (n - 0x80)
      if p.needed ≤ 1 then ([point code], none) else ([], some ⟨code, p.needed - 1, 0x80, 0xbf⟩)
    else (replacement :: (firstByte b).1, (firstByte b).2)

def pushBytes : StreamState → Bytes → Text × StreamState
  | s, [] => ([], s)
  | s, b :: bs => ((pushByte s b).1 ++ (pushBytes (pushByte s b).2 bs).1, (pushBytes (pushByte s b).2 bs).2)

/-- What is left of a text where a byte order mark at the start of all goes, and whether the start is
behind. -/
def skipMark : Bool → Text → Text × Bool
  | true, t => (t, true)
  | false, [] => ([], false)
  | false, c :: cs => (if c = 0xfeff then cs else c :: cs, true)

structure StreamDecoder where
  state : StreamState
  bomSeen : Bool

namespace StreamDecoder

def start : StreamDecoder := ⟨none, false⟩

/-- Decode the next bytes of a stream. Those of a character that is not all there yet are kept. -/
def decode (d : StreamDecoder) (bs : Bytes) : Text × StreamDecoder :=
  let read := pushBytes d.state bs
  let said := skipMark d.bomSeen read.1
  (said.1, ⟨read.2, said.2⟩)

def decodeAll : StreamDecoder → List Bytes → List Text
  | _, [] => []
  | d, bs :: rest => (d.decode bs).1 :: (d.decode bs).2.decodeAll rest

end StreamDecoder

section
variable {s : StreamState}

theorem pushBytes_append (s : StreamState) (bs bs' : Bytes) :
    pushBytes s (bs ++ bs') =
      ((pushBytes s bs).1 ++ (pushBytes (pushBytes s bs).2 bs').1, (pushBytes (pushBytes s bs).2 bs').2) := by
  induction bs generalizing s with
  | nil => rfl
  | cons b bs ih =>
    rw [List.cons_append, pushBytes, ih, pushBytes]
    simp only [List.append_assoc]

theorem skipMark_append (seen : Bool) (t u : Text) :
    skipMark seen (t ++ u) =
      ((skipMark seen t).1 ++ (skipMark (skipMark seen t).2 u).1, (skipMark (skipMark seen t).2 u).2) := by
  cases seen with
  | true => rfl
  | false =>
    cases t with
    | nil => rfl
    | cons c cs =>
      simp only [List.cons_append, skipMark]
      split <;> rfl

/-- What a decoder makes of a stream does not depend on where the stream is cut. -/
theorem decode_append (d : StreamDecoder) (bs bs' : Bytes) :
    d.decode (bs ++ bs') =
      ((d.decode bs).1 ++ ((d.decode bs).2.decode bs').1, ((d.decode bs).2.decode bs').2) := by
  unfold StreamDecoder.decode
  simp only [pushBytes_append, skipMark_append]

theorem decodeAll_flatten (d : StreamDecoder) (chunks : List Bytes) :
    (d.decodeAll chunks).flatten = (d.decode chunks.flatten).1 := by
  induction chunks generalizing d with
  | nil =>
    obtain ⟨s, seen⟩ := d
    cases seen <;> rfl
  | cons bs rest ih =>
    rw [StreamDecoder.decodeAll, List.flatten_cons, List.flatten_cons, ih, decode_append]

theorem pushBytes_open (h : firstByte b = ([], s)) (bs : Bytes) : pushBytes none (b :: bs) = pushBytes s bs := by
  rw [pushBytes, pushByte, h]
  rfl

/-- A byte that goes on with the open character. -/
theorem pushByte_next (hm : m < 64) (hlow : least ≤ 0x80 + m) (hup : 0x80 + m ≤ most) :
    pushByte (some ⟨code, needed, least, most⟩) (byte (0x80 + m)) =
      if needed ≤ 1 then ([point (code * 64 + m)], none)
      else ([], some ⟨code * 64 + m, needed - 1, 0x80, 0xbf⟩) := by
  have hb : (byte (0x80 + m)).toNat = 0x80 + m := toNat_byte (by omega)
  rw [pushByte, hb]
  simp only [hlow, hup, and_self, if_true, Nat.add_sub_cancel_left]

theorem pushBytes_more (hm : m < 64) (hlow : least ≤ 0x80 + m) (hup : 0x80 + m ≤ most) (bs : Bytes) :
    pushBytes (some ⟨code, k + 2, least, most⟩) (byte (0x80 + m) :: bs) =
      pushBytes (some ⟨code * 64 + m, k + 1, 0x80, 0xbf⟩) bs := by
  rw [pushBytes, pushByte_next hm hlow hup, if_neg (by omega)]
  rfl

theorem pushBytes_last (hm : m < 64) : pushBytes (some ⟨code, 1, 0x80, 0xbf⟩) [byte (0x80 + m)] =
    ([point (code * 64 + m)], none) := by
  rw [pushBytes, pushByte_next hm (by omega) (by omega), if_pos (Nat.le_refl 1)]
  rfl

/-- The bytes of one character are that character. -/
theorem pushBytes_encodePoint {c : CodePoint} (hc : isSurrogate c = false) :
    pushBytes none (encodePoint c) = ([c], none) := by
  obtain ⟨n, hn⟩ := c
  have hs : ¬ (0xd800 ≤ n ∧ n ≤ 0xdfff) := by simpa [isSurrogate] using hc
  have hmod : ∀ m, m % 64 < 64 := fun m => Nat.mod_lt m (by omega)
  have hpoint : ∀ m, m = n → ([point m], (none : StreamState)) = ([⟨n, hn⟩], none) := by
    rintro m rfl
    rw [point_eq (c := ⟨m, hn⟩) rfl]
  unfold encodePoint
  simp only
  split
  · rename_i hone
    have h0 : (byte n).toNat = n := toNat_byte (by omega)
    rw [pushBytes, pushByte, firstByte, h0, if_pos hone]
    exact hpoint n rfl
  split
  · have h0 : (byte (0xc0 + n / 64)).toNat = 0xc0 + n / 64 := toNat_byte (by omega)
    have hfirst : firstByte (byte (0xc0 + n / 64)) = ([], some ⟨n / 64, 1, 0x80, 0xbf⟩) := by
      rw [firstByte, h0, if_neg (by omega), if_pos (by omega), Nat.add_sub_cancel_left]
    rw [pushBytes_open hfirst, pushBytes_last (hmod _)]
    exact hpoint _ (by omega)
  split
  · have h0 : (byte (0xe0 + n / 4096)).toNat = 0xe0 + n / 4096 := toNat_byte (by omega)
    have hfirst : firstByte (byte (0xe0 + n / 4096)) =
        ([], some ⟨n / 4096, 2, if 0xe0 + n / 4096 = 0xe0 then 0xa0 else 0x80,
          if 0xe0 + n / 4096 = 0xed then 0x9f else 0xbf⟩) := by
      rw [firstByte, h0, if_neg (by omega), if_neg (by omega), if_pos (by omega), Nat.add_sub_cancel_left]
    -- the second byte rules out what is too small, and the surrogates
    rw [pushBytes_open hfirst, pushBytes_more (hmod _) (by split <;> omega) (by split <;> omega),
      pushBytes_last (hmod _)]
    exact hpoint _ (by omega)
  · have h0 : (byte (0xf0 + n / 262144)).toNat = 0xf0 + n / 262144 := toNat_byte (by omega)
    have hfirst : firstByte (byte (0xf0 + n / 262144)) =
        ([], some ⟨n / 262144, 3, if 0xf0 + n / 262144 = 0xf0 then 0x90 else 0x80,
          if 0xf0 + n / 262144 = 0xf4 then 0x8f else 0xbf⟩) := by
      rw [firstByte, h0, if_neg (by omega), if_neg (by omega), if_neg (by omega), if_pos (by omega),
        Nat.add_sub_cancel_left]
    rw [pushBytes_open hfirst, pushBytes_more (hmod _) (by split <;> omega) (by split <;> omega),
      pushBytes_more (hmod _) (by omega) (by omega), pushBytes_last (hmod _)]
    exact hpoint _ (by omega)

/-- Encoded text is decoded to itself, and no character is left open. -/
theorem pushBytes_encode {t : Text} (ht : Scalar t) : pushBytes none (t.flatMap encodePoint) = (t, none) := by
  induction t with
  | nil => rfl
  | cons c t ih =>
    obtain ⟨hc, ht⟩ := scalar_cons.mp ht
    rw [List.flatMap_cons, pushBytes_append, pushBytes_encodePoint hc, ih ht]
    rfl

/-- However an encoded text comes in, its pieces are the text, unless it begins with a byte order mark. -/
theorem decodeAll_encode {t : Text} (ht : Scalar t) (hbom : t.head? ≠ some 0xfeff) {chunks : List Bytes}
    (h : chunks.flatten = t.flatMap encodePoint) : (StreamDecoder.start.decodeAll chunks).flatten = t := by
  have hsaid : (skipMark false t).1 = t := by
    cases t with
    | nil => rfl
    | cons c cs => exact if_neg fun hc => hbom (congrArg some hc)
  have hread : (StreamDecoder.start.decode (t.flatMap encodePoint)).1 =
      (skipMark false (pushBytes none (t.flatMap encodePoint)).1).1 := rfl
  rw [decodeAll_flatten, h, hread, pushBytes_encode ht, hsaid]

example : StreamDecoder.start.decodeAll [[0xe2, 0x82], [0xac, 0xf0], [0x9f], [0x41]] =
    [[], [0x20ac], [], [replacement, 0x41]] := by
  decide

end
end PublicIntelligence.Encoding
