import PublicIntelligence.Lib.Text

namespace PublicIntelligence

abbrev Bytes := List UInt8

namespace Encoding

open Text

def byte (n : Nat) : UInt8 := UInt8.ofNat n

def point (n : Nat) : CodePoint := Fin.ofNat 0x110000 n

/-- What a text that cannot be decoded shows in place of the bad bytes. -/
def replacement : CodePoint := 0xfffd

def encodePoint (c : CodePoint) : Bytes :=
  let n := c.val
  if n < 0x80 then [byte n]
  else if n < 0x800 then [byte (0xc0 + n / 64), byte (0x80 + n % 64)]
  else if n < 0x10000 then
    [byte (0xe0 + n / 4096), byte (0x80 + n / 64 % 64), byte (0x80 + n % 64)]
  else
    [byte (0xf0 + n / 262144), byte (0x80 + n / 4096 % 64), byte (0x80 + n / 64 % 64),
      byte (0x80 + n % 64)]

/-- `str.encode("utf-8")`, which refuses a lone surrogate. -/
def encode (t : Text) : Option Bytes := if Scalar t then some (t.flatMap encodePoint) else none

def isTail (b : UInt8) : Bool := 0x80 ≤ b.toNat && b.toNat ≤ 0xbf

/-- The second byte of a sequence must rule out overlong forms, surrogates (unless
they `pass`) and values past the last code point. -/
def isSecond (pass : Bool) (b0 b1 : UInt8) : Bool :=
  isTail b1 &&
    (b0.toNat != 0xe0 || 0xa0 ≤ b1.toNat) && (pass || b0.toNat != 0xed || b1.toNat ≤ 0x9f) &&
    (b0.toNat != 0xf0 || 0x90 ≤ b1.toNat) && (b0.toNat != 0xf4 || b1.toNat ≤ 0x8f)

/-- The code point that starts with `b0`, if there is one, and how many of the
bytes after `b0` belong to it, or to the part that is replaced as a whole. -/
def readPoint (pass : Bool) (b0 : UInt8) (bs : Bytes) : Option CodePoint × Nat :=
  let n := b0.toNat
  if n < 0x80 then (some (point n), 0)
  else if 0xc2 ≤ n ∧ n ≤ 0xdf then
    match bs with
    | b1 :: _ =>
      if isTail b1 then (some (point ((n - 0xc0) * 64 + (b1.toNat - 0x80))), 1) else (none, 0)
    | _ => (none, 0)
  else if 0xe0 ≤ n ∧ n ≤ 0xef then
    match bs with
    | b1 :: b2 :: _ =>
      if !isSecond pass b0 b1 then (none, 0)
      else if !isTail b2 then (none, 1)
      else (some (point ((n - 0xe0) * 4096 + (b1.toNat - 0x80) * 64 + (b2.toNat - 0x80))), 2)
    | [b1] => (none, if isSecond pass b0 b1 then 1 else 0)
    | _ => (none, 0)
  else if 0xf0 ≤ n ∧ n ≤ 0xf4 then
    match bs with
    | b1 :: b2 :: b3 :: _ =>
      if !isSecond pass b0 b1 then (none, 0)
      else if !isTail b2 then (none, 1)
      else if !isTail b3 then (none, 2)
      else (some (point ((n - 0xf0) * 262144 + (b1.toNat - 0x80) * 4096 + (b2.toNat - 0x80) * 64 +
        (b3.toNat - 0x80))), 3)
    | [b1, b2] => (none, if !isSecond pass b0 b1 then 0 else if isTail b2 then 2 else 1)
    | [b1] => (none, if isSecond pass b0 b1 then 1 else 0)
    | _ => (none, 0)
  else (none, 0)

/-- Decode after `skip` bytes of the current sequence. `bad` stands for a sequence
that is not valid; without it the text is refused. -/
def decodeFrom (pass : Bool) (bad : Option CodePoint) : Nat → Bytes → Option Text
  | _, [] => some []
  | skip + 1, _ :: bs => decodeFrom pass bad skip bs
  | 0, b :: bs =>
    let (c, more) := readPoint pass b bs
    match c <|> bad with
    | none => none
    | some c => (decodeFrom pass bad more bs).map (c :: ·)

/-- `bytes.decode("utf-8")` -/
def decode (bs : Bytes) : Option Text := decodeFrom false none 0 bs

/-- `bytes.decode("utf-8", errors="replace")` -/
def decodeReplace (bs : Bytes) : Text := (decodeFrom false (some replacement) 0 bs).getD []

/-- `bytes.decode("utf-8", "surrogatepass")` -/
def decodePass (bs : Bytes) : Option Text := decodeFrom true none 0 bs

/-- Code units of 16 bits to text; lone surrogates pass. -/
def joinUnits : List Nat → Text
  | [] => []
  | [u] => [point u]
  | u :: v :: us =>
    if isHigh (point u) && isLow (point v) then
      point (0x10000 + (u - 0xd800) * 0x400 + (v - 0xdc00)) :: joinUnits us
    else point u :: joinUnits (v :: us)

def units16 (big : Bool) : Bytes → Option (List Nat)
  | [] => some []
  | [_] => none
  | a :: b :: bs =>
    (units16 big bs).map ((if big then a.toNat * 256 + b.toNat else b.toNat * 256 + a.toNat) :: ·)

def decode16 (big : Bool) (bs : Bytes) : Option Text := (units16 big bs).map joinUnits

def decode32 (big : Bool) : Bytes → Option Text
  | [] => some []
  | a :: b :: c :: d :: bs =>
    let hi := if big then a.toNat * 256 + b.toNat else d.toNat * 256 + c.toNat
    let lo := if big then c.toNat * 256 + d.toNat else b.toNat * 256 + a.toNat
    if hi * 65536 + lo < 0x110000 then (decode32 big bs).map (point (hi * 65536 + lo) :: ·) else none
  | _ => none

/-- `b.decode(json.detect_encoding(b), "surrogatepass")` -/
def decodeDetected (bs : Bytes) : Option Text :=
  match bs with
  | 0x00 :: 0x00 :: 0xfe :: 0xff :: rest => decode32 true rest
  | 0xff :: 0xfe :: 0x00 :: 0x00 :: rest => decode32 false rest
  | 0xfe :: 0xff :: rest => decode16 true rest
  | 0xff :: 0xfe :: rest => decode16 false rest
  | 0xef :: 0xbb :: 0xbf :: rest => decodePass rest
  | a :: b :: c :: d :: _ =>
    if a = 0 then if b = 0 then decode32 true bs else decode16 true bs
    else if b = 0 then if c = 0 ∧ d = 0 then decode32 false bs else decode16 false bs
    else decodePass bs
  | [a, b] => if a = 0 then decode16 true bs else if b = 0 then decode16 false bs else decodePass bs
  | _ => decodePass bs

section

theorem toNat_byte (h : n < 256) : (byte n).toNat = n := by
  rw [byte, UInt8.toNat_ofNat', Nat.mod_eq_of_lt h]

theorem point_eq {c : CodePoint} (h : n = c.val) : point n = c := by
  subst h
  exact Fin.ofNat_val_eq_self c

theorem isTail_byte (h : n < 64) : isTail (byte (0x80 + n)) = true := by
  simp only [isTail, toNat_byte (show 0x80 + n < 256 by omega), Bool.and_eq_true, decide_eq_true_eq]
  omega

theorem isSecond_of_strict (pass : Bool) (h : isSecond false b0 b1 = true) : isSecond pass b0 b1 = true := by
  cases pass with
  | false => exact h
  | true =>
    simp only [isSecond, Bool.false_or, Bool.and_eq_true] at h
    simp [isSecond, h]

/-- Reading back what was written for one code point. -/
theorem readPoint_encode (pass : Bool) (c : CodePoint) (hc : isSurrogate c = false) (rest : Bytes) :
    ∃ b tl, encodePoint c = b :: tl ∧
      readPoint pass b (tl ++ rest) = (some c, tl.length) := by
  obtain ⟨n, hn⟩ := c
  have hs : ¬ (0xd800 ≤ n ∧ n ≤ 0xdfff) := by simpa [isSurrogate] using hc
  unfold encodePoint
  simp only
  split
  · refine ⟨_, _, rfl, ?_⟩
    have h0 : (byte n).toNat = n := toNat_byte (by omega)
    simp only [readPoint, h0]
    rw [if_pos (by assumption), point_eq (c := ⟨n, hn⟩) rfl]
    rfl
  split
  · refine ⟨_, _, rfl, ?_⟩
    have h0 : (byte (0xc0 + n / 64)).toNat = 0xc0 + n / 64 := toNat_byte (by omega)
    have h1 : (byte (0x80 + n % 64)).toNat = 0x80 + n % 64 := toNat_byte (by omega)
    simp only [readPoint, h0, List.cons_append, List.nil_append, isTail_byte (Nat.mod_lt n (by omega)),
      h1]
    rw [if_neg (by omega), if_pos (by omega), if_pos trivial, point_eq (c := ⟨n, hn⟩) (by simp; omega)]
    rfl
  split
  · refine ⟨_, _, rfl, ?_⟩
    have h0 : (byte (0xe0 + n / 4096)).toNat = 0xe0 + n / 4096 := toNat_byte (by omega)
    have h1 : (byte (0x80 + n / 64 % 64)).toNat = 0x80 + n / 64 % 64 := toNat_byte (by omega)
    have h2 : (byte (0x80 + n % 64)).toNat = 0x80 + n % 64 := toNat_byte (by omega)
    have hsec : isSecond pass (byte (0xe0 + n / 4096)) (byte (0x80 + n / 64 % 64)) = true := by
      refine isSecond_of_strict pass ?_
      simp only [isSecond, isTail, h0, h1]
      simp
      omega
    simp only [readPoint, h0, List.cons_append, List.nil_append, isTail_byte (Nat.mod_lt n (by omega)),
      hsec, h1, h2]
    rw [if_neg (by omega), if_neg (by omega), if_pos (by omega), if_neg (by simp), if_neg (by simp),
      point_eq (c := ⟨n, hn⟩) (by simp; omega)]
    rfl
  · refine ⟨_, _, rfl, ?_⟩
    have h0 : (byte (0xf0 + n / 262144)).toNat = 0xf0 + n / 262144 := toNat_byte (by omega)
    have h1 : (byte (0x80 + n / 4096 % 64)).toNat = 0x80 + n / 4096 % 64 := toNat_byte (by omega)
    have h2 : (byte (0x80 + n / 64 % 64)).toNat = 0x80 + n / 64 % 64 := toNat_byte (by omega)
    have h3 : (byte (0x80 + n % 64)).toNat = 0x80 + n % 64 := toNat_byte (by omega)
    have hsec : isSecond pass (byte (0xf0 + n / 262144)) (byte (0x80 + n / 4096 % 64)) = true := by
      refine isSecond_of_strict pass ?_
      simp only [isSecond, isTail, h0, h1]
      simp
      omega
    simp only [readPoint, h0, List.cons_append, List.nil_append, isTail_byte (Nat.mod_lt _ (by omega)),
      hsec, h1, h2, h3]
    rw [if_neg (by omega), if_neg (by omega), if_neg (by omega), if_pos (by omega), if_neg (by simp),
      if_neg (by simp), if_neg (by simp), point_eq (c := ⟨n, hn⟩) (by simp; omega)]
    rfl

theorem decodeFrom_skip (pass : Bool) (bad : Option CodePoint) (tl rest : Bytes) :
    decodeFrom pass bad tl.length (tl ++ rest) = decodeFrom pass bad 0 rest := by
  induction tl with
  | nil => rfl
  | cons b tl ih => rw [List.length_cons, List.cons_append, decodeFrom, ih]

/-- Whatever stands for bad bytes, valid UTF-8 never needs it. -/
theorem decodeFrom_encode {t : Text} (ht : Scalar t) (pass : Bool) (bad : Option CodePoint) :
    decodeFrom pass bad 0 (t.flatMap encodePoint) = some t := by
  induction t with
  | nil => rfl
  | cons c t ih =>
    obtain ⟨hc, ht⟩ := scalar_cons.mp ht
    obtain ⟨b, tl, he, hread⟩ := readPoint_encode pass c hc (t.flatMap encodePoint)
    rw [List.flatMap_cons, he, List.cons_append, decodeFrom, hread]
    simp only [decodeFrom_skip, ih ht, Option.map_some, HOrElse.hOrElse,
      OrElse.orElse, Option.orElse]

theorem encode_some {t : Text} : encode t = some bs ↔ Scalar t ∧ t.flatMap encodePoint = bs := by
  unfold encode
  split <;> simp_all

theorem encode_isSome {t : Text} : (encode t).isSome = true ↔ Scalar t := by
  rw [Option.isSome_iff_exists]
  exact ⟨fun ⟨_, h⟩ => (encode_some.mp h).1, fun h => ⟨_, encode_some.mpr ⟨h, rfl⟩⟩⟩

theorem decode_encode {t : Text} (h : encode t = some bs) : decode bs = some t := by
  obtain ⟨ht, rfl⟩ := encode_some.mp h
  exact decodeFrom_encode ht false none

theorem decodeReplace_encode {t : Text} (h : encode t = some bs) : decodeReplace bs = t := by
  obtain ⟨ht, rfl⟩ := encode_some.mp h
  rw [decodeReplace, decodeFrom_encode ht, Option.getD_some]

/-- Bytes that begin with a brace and no NUL after it are taken for UTF-8. -/
theorem decodeDetected_brace (hb : b ≠ 0) (bs : Bytes) :
    decodeDetected (0x7b :: b :: bs) = decodePass (0x7b :: b :: bs) := by
  match bs with
  | [] =>
    change (if b = 0 then decode16 false [0x7b, b] else decodePass [0x7b, b]) = _
    rw [if_neg hb]
  | [c] => rfl
  | c :: d :: bs =>
    change (if b = 0 then if c = 0 ∧ d = 0 then decode32 false _ else decode16 false _ else decodePass _) = _
    rw [if_neg hb]

/-- Text that begins with a brace and no NUL after it is detected to be what it is. -/
theorem decodeDetected_encode {t : Text} {b : UInt8} {bs : Bytes} (h : encode t = some (0x7b :: b :: bs))
    (hb : b ≠ 0) : decodeDetected (0x7b :: b :: bs) = some t := by
  obtain ⟨ht, hbytes⟩ := encode_some.mp h
  rw [decodeDetected_brace hb, decodePass, ← hbytes, decodeFrom_encode ht]

theorem encode_injective {t u : Text} (ht : encode t = some bs) (hu : encode u = some bs) :
    t = u :=
  Option.some.inj ((decode_encode ht).symm.trans (decode_encode hu))

end
end Encoding
end PublicIntelligence
