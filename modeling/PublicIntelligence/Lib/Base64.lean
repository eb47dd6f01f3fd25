import PublicIntelligence.Lib.Encoding

namespace PublicIntelligence.Base64

open Text Encoding

def alphabet : Text := text "ABCDEFGHIJKLMNOPQRSTUVWXYZabcdefghijklmnopqrstuvwxyz0123456789+/"

def pad : CodePoint := ofChar '='

def sextet (v : Nat) : CodePoint := alphabet.getD v pad

/-- `base64.b64encode`, as text. -/
def b64encode : Bytes → Text
  | [] => []
  | [a] => [sextet (a.toNat / 4), sextet (a.toNat % 4 * 16), pad, pad]
  | [a, b] =>
    [sextet (a.toNat / 4), sextet (a.toNat % 4 * 16 + b.toNat / 16), sextet (b.toNat % 16 * 4), pad]
  | a :: b :: c :: bs =>
    sextet (a.toNat / 4) :: sextet (a.toNat % 4 * 16 + b.toNat / 16) ::
      sextet (b.toNat % 16 * 4 + c.toNat / 64) :: sextet (c.toNat % 64) :: b64encode bs

def value (c : CodePoint) : Option Nat :=
  let n := c.val
  if 65 ≤ n ∧ n ≤ 90 then some (n - 65)
  else if 97 ≤ n ∧ n ≤ 122 then some (n - 71)
  else if 48 ≤ n ∧ n ≤ 57 then some (n + 4)
  else if n = 43 then some 62
  else if n = 47 then some 63
  else none

/-- `binascii.a2b_base64` after `quad` characters of a group of four, with the bits
`left` over from them and `pads` padding characters seen. Characters outside the
alphabet are skipped, and nothing is read after the padding of a group. -/
def decodeFrom (quad left pads : Nat) : Text → Option Bytes
  | [] => if quad = 0 then some [] else none
  | c :: cs =>
    if c = pad then
      if quad < 2 then decodeFrom quad left pads cs
      else if 4 ≤ quad + (pads + 1) then some []
      else decodeFrom quad left (pads + 1) cs
    else
      match value c with
      | none => decodeFrom quad left pads cs
      | some v =>
        match quad with
        | 0 => decodeFrom 1 v 0 cs
        | 1 => (decodeFrom 2 (v % 16) 0 cs).map (byte (left * 4 + v / 16) :: ·)
        | 2 => (decodeFrom 3 (v % 4) 0 cs).map (byte (left * 16 + v / 4) :: ·)
        | _ => (decodeFrom 0 0 0 cs).map (byte (left * 64 + v) :: ·)

/-- `base64.b64decode` of a string, or `none` where it raises a `ValueError`. -/
def b64decode (t : Text) : Option Bytes :=
  if t.all fun c => c.val < 128 then decodeFrom 0 0 0 t else none

section

theorem value_sextet (h : v < 64) : value (sextet v) = some v := by
  have hall : ∀ w : Fin 64, value (sextet w) = some w.val := by decide +kernel
  exact hall ⟨v, h⟩

theorem sextet_ne_pad (h : v < 64) : sextet v ≠ pad := by
  have hpad : value pad = none := by decide
  intro heq
  have hv := value_sextet h
  rw [heq, hpad] at hv
  cases hv

theorem sextet_ascii (v : Nat) : (sextet v).val < 128 := by
  have hall : ((pad :: alphabet).all fun c => decide (c.val < 128)) = true := by decide +kernel
  refine of_decide_eq_true (List.all_eq_true.mp hall _ ?_)
  rw [sextet, List.getD_eq_getElem?_getD]
  cases hc : alphabet[v]? with
  | none => exact List.mem_cons_self
  | some c => exact List.mem_cons_of_mem _ (List.mem_of_getElem? hc)

theorem decodeFrom_sextet (quad left pads : Nat) (h : v < 64) (cs : Text) :
    decodeFrom quad left pads (sextet v :: cs) =
      match quad with
      | 0 => decodeFrom 1 v 0 cs
      | 1 => (decodeFrom 2 (v % 16) 0 cs).map (byte (left * 4 + v / 16) :: ·)
      | 2 => (decodeFrom 3 (v % 4) 0 cs).map (byte (left * 16 + v / 4) :: ·)
      | _ => (decodeFrom 0 0 0 cs).map (byte (left * 64 + v) :: ·) := by
  rw [decodeFrom, if_neg (sextet_ne_pad h), value_sextet h]

theorem byte_eq {a : UInt8} (h : n = a.toNat) : byte n = a := by
  subst h
  exact UInt8.ofNat_toNat

theorem decodeFrom_encode (bs : Bytes) : decodeFrom 0 0 0 (b64encode bs) = some bs := by
  match bs with
  | [] => rfl
  | [a] =>
    have ha := a.toNat_lt
    simp only [b64encode, decodeFrom_sextet _ _ _ (show a.toNat / 4 < 64 by omega),
      decodeFrom_sextet _ _ _ (show a.toNat % 4 * 16 < 64 by omega)]
    rw [byte_eq (a := a) (by omega)]
    rfl
  | [a, b] =>
    have ha := a.toNat_lt
    have hb := b.toNat_lt
    simp only [b64encode, decodeFrom_sextet _ _ _ (show a.toNat / 4 < 64 by omega),
      decodeFrom_sextet _ _ _ (show a.toNat % 4 * 16 + b.toNat / 16 < 64 by omega),
      decodeFrom_sextet _ _ _ (show b.toNat % 16 * 4 < 64 by omega)]
    rw [byte_eq (a := a) (by omega), byte_eq (a := b) (by omega)]
    rfl
  | a :: b :: c :: bs =>
    have ha := a.toNat_lt
    have hb := b.toNat_lt
    have hc := c.toNat_lt
    simp only [b64encode, decodeFrom_sextet _ _ _ (show a.toNat / 4 < 64 by omega),
      decodeFrom_sextet _ _ _ (show a.toNat % 4 * 16 + b.toNat / 16 < 64 by omega),
      decodeFrom_sextet _ _ _ (show b.toNat % 16 * 4 + c.toNat / 64 < 64 by omega),
      decodeFrom_sextet _ _ _ (show c.toNat % 64 < 64 by omega), decodeFrom_encode bs]
    rw [byte_eq (a := a) (by omega), byte_eq (a := b) (by omega), byte_eq (a := c) (by omega)]
    rfl

theorem b64encode_ascii (bs : Bytes) : ∀ c ∈ b64encode bs, c.val < 128 := by
  have hpad : pad.val < 128 := by decide +kernel
  match bs with
  | [] => exact fun c hc => absurd hc List.not_mem_nil
  | [a] => simp [b64encode, sextet_ascii, hpad]
  | [a, b] => simp [b64encode, sextet_ascii, hpad]
  | a :: b :: c :: bs => simpa [b64encode, sextet_ascii] using b64encode_ascii bs

/-- What was encoded is decoded. -/
theorem b64decode_encode (bs : Bytes) : b64decode (b64encode bs) = some bs := by
  rw [b64decode, if_pos (by simpa using b64encode_ascii bs), decodeFrom_encode]

end

end PublicIntelligence.Base64
