import Mathlib.Algebra.Group.Nat.Defs
import Mathlib.Data.List.Basic
import PublicIntelligence.Lib.Encoding

namespace PublicIntelligence.Framing

/-- The low bytes of a number, most significant first. -/
def bigEndian : (width n : Nat) → Bytes
  | 0, _ => []
  | width + 1, n => bigEndian width (n / 256) ++ [UInt8.ofNat n]

/-- `n.to_bytes(width, "big")`, or `none` where it overflows. -/
def toBytes (width n : Nat) : Option Bytes := if n < 256 ^ width then some (bigEndian width n) else none

/-- `int.from_bytes(bs, "big")` -/
def fromBytes (bs : Bytes) : Nat := bs.foldl (fun n b => 256 * n + b.toNat) 0

theorem length_bigEndian (width n : Nat) : (bigEndian width n).length = width := by
  induction width generalizing n with
  | zero => rfl
  | succ width ih => rw [bigEndian, List.length_append, ih, List.length_singleton]

theorem fromBytes_bigEndian (h : n < 256 ^ width) : fromBytes (bigEndian width n) = n := by
  induction width generalizing n with
  | zero =>
    rw [Nat.pow_zero] at h
    exact (Nat.lt_one_iff.mp h).symm
  | succ width ih =>
    have hhead : fromBytes (bigEndian width (n / 256)) = n / 256 := ih (by omega)
    unfold fromBytes at hhead ⊢
    rw [bigEndian, List.foldl_append, hhead, List.foldl_cons, List.foldl_nil, UInt8.toNat_ofNat']
    omega

/-- A body behind a magic word, and behind a header with its length. -/
def frame (magic : Bytes) (width : Nat) (header body : Bytes) : Option Bytes :=
  (toBytes width header.length).map fun length => magic ++ length ++ header ++ body

/-- The header and the body of a frame, or `none` for bytes without the magic word. Slices that reach
beyond the end are cut short. -/
def unframe (magic : Bytes) (width : Nat) (raw : Bytes) : Option (Bytes × Bytes) :=
  if magic.isPrefixOf raw then
    let length := fromBytes ((raw.drop magic.length).take width)
    let rest := raw.drop (magic.length + width)
    some (rest.take length, rest.drop length)
  else none

/-- A frame is made of every header whose length has a word. -/
theorem frame_total (magic body : Bytes) (h : header.length < 256 ^ width) :
    ∃ raw, frame magic width header body = some raw :=
  ⟨_, congrArg (Option.map fun length => magic ++ length ++ header ++ body) (if_pos h)⟩

theorem unframe_frame (h : frame magic width header body = some raw) :
    unframe magic width raw = some (header, body) := by
  obtain ⟨length, hlength, rfl⟩ := Option.map_eq_some_iff.mp h
  unfold toBytes at hlength
  split at hlength
  · rename_i hlt
    cases hlength
    have hword := length_bigEndian width header.length
    have hback := fromBytes_bigEndian hlt
    generalize bigEndian width header.length = word at hword hback
    subst hword
    have hmagic : magic.isPrefixOf (magic ++ word ++ header ++ body) = true := by
      rw [List.isPrefixOf_iff_prefix, List.append_assoc, List.append_assoc]
      exact List.prefix_append _ _
    have htail : (magic ++ word ++ header ++ body).drop magic.length = word ++ (header ++ body) := by
      rw [List.append_assoc, List.append_assoc, List.drop_left]
    have hrest : (magic ++ word ++ header ++ body).drop (magic.length + word.length) = header ++ body := by
      rw [← List.drop_drop, htail, List.drop_left]
    simp only [unframe, hmagic, if_true, htail, List.take_left, hback, hrest, List.drop_left]
  · cases hlength

end PublicIntelligence.Framing
