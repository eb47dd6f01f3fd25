import Mathlib.Data.List.TakeWhile
import Mathlib.Data.Nat.Digits.Lemmas
import PublicIntelligence.Lib.Json

namespace PublicIntelligence.Json

open Text Encoding

section Strings

theorem hexValue_hexDigit : ∀ n < 16, hexValue (hexDigit n) = some n := by
  decide

theorem hexUnit_escape (h : n < 65536) :
    hexUnit (hexDigit (n / 4096 % 16)) (hexDigit (n / 256 % 16)) (hexDigit (n / 16 % 16))
      (hexDigit (n % 16)) = some n := by
  have hd : ∀ m, hexValue (hexDigit (m % 16)) = some (m % 16) := fun m =>
    hexValue_hexDigit _ (Nat.mod_lt m (by omega))
  simp only [hexUnit, hd, Option.bind_eq_bind, Option.bind_some, Option.pure_def, Option.some.injEq]
  omega

/-- What the scanner makes of one written character. -/
def pieces (ascii : Bool) (c : CodePoint) : List (Bool × CodePoint) :=
  if shortEscapes.lookup c = none ∧ (c.val < 0x20 ∨ ascii = true ∧ 0x7f ≤ c.val) then
    if c.val < 0x10000 then [(true, c)]
    else [(true, point (highUnit c.val)), (true, point (lowUnit c.val))]
  else [(false, c)]

theorem scanUnits_plain (hq : c ≠ quoteMark) (hb : c ≠ backslash) (hc : ¬ c.val < 0x20) (t : Text) :
    scanUnits (c :: t) = (scanUnits t).map fun (us, rest) => ((false, c) :: us, rest) := by
  rw [scanUnits.eq_def]
  simp only [hq, hb, hc, if_false]

theorem scanUnits_letter (he : e ≠ ofChar 'u') (hu : unescape e = some c) (t : Text) :
    scanUnits (backslash :: e :: t) =
      (scanUnits t).map fun (us, rest) => ((false, c) :: us, rest) := by
  rw [scanUnits.eq_def]
  simp only [he, hu, if_false]
  rw [if_neg (by decide), if_pos trivial]

theorem scanUnits_escapeUnit (h : n < 65536) (t : Text) :
    scanUnits (escapeUnit n ++ t) =
      (scanUnits t).map fun (us, rest) => ((true, point n) :: us, rest) := by
  have hu := hexUnit_escape h
  simp only [escapeUnit, List.cons_append, List.nil_append, scanUnits, hu]
  rw [if_neg (by decide), if_pos trivial, if_pos trivial]

theorem unescape_short (h : shortEscapes.lookup c = some e) :
    e ≠ ofChar 'u' ∧ unescape e = some c := by
  simp only [shortEscapes, List.lookup_cons, List.lookup_nil] at h
  repeat' split at h
  all_goals first
    | cases h; rename_i hc; rw [beq_iff_eq] at hc; subst hc; decide
    | cases h

theorem scanUnits_escapePoint (ascii : Bool) (c : CodePoint) (t : Text) :
    scanUnits (escapePoint ascii c ++ t) =
      (scanUnits t).map fun (us, rest) => (pieces ascii c ++ us, rest) := by
  unfold escapePoint pieces
  cases hl : shortEscapes.lookup c with
  | some e =>
    obtain ⟨hne, hun⟩ := unescape_short hl
    simp only [reduceCtorEq, false_and, if_false]
    exact scanUnits_letter hne hun t
  | none =>
    have hq : c ≠ quoteMark := fun h => by subst h; cases hl
    have hb : c ≠ backslash := fun h => by subst h; cases hl
    have hpoint : point c.val = c := point_eq rfl
    simp only [true_and]
    split
    · rename_i hlt
      rw [scanUnits_escapeUnit (by omega), if_pos (.inl hlt), if_pos (by omega), hpoint]
      rfl
    · rename_i hge
      split
      · rename_i hasc
        simp only [Bool.and_eq_true, decide_eq_true_eq] at hasc
        rw [if_pos (Or.inr hasc)]
        split
        · rw [scanUnits_escapeUnit (by omega), hpoint]
          rfl
        · have hn := c.isLt
          rw [List.append_assoc, scanUnits_escapeUnit (by unfold highUnit; omega),
            scanUnits_escapeUnit (by unfold lowUnit; omega), Option.map_map]
          rfl
      · rename_i hasc
        simp only [Bool.and_eq_true, decide_eq_true_eq] at hasc
        rw [if_neg (by tauto)]
        exact scanUnits_plain hq hb hge t

theorem val_point (h : n < 0x110000) : (point n).val = n := Nat.mod_eq_of_lt h

theorem joinPairs_cons (b : Bool) (hc : isHigh c = false) (us : List (Bool × CodePoint)) :
    joinPairs ((b, c) :: us) = c :: joinPairs us := by
  cases b with
  | false => cases us <;> rfl
  | true =>
    cases us with
    | nil => rfl
    | cons u us =>
      obtain ⟨_ | _, v⟩ := u
      · rfl
      · simp [joinPairs, hc]

theorem joinPairs_pieces (ascii : Bool) (hc : isHigh c = false) (us : List (Bool × CodePoint)) :
    joinPairs (pieces ascii c ++ us) = c :: joinPairs us := by
  unfold pieces
  split
  · split
    · exact joinPairs_cons true hc us
    · have hn := c.isLt
      have hhv : (point (highUnit c.val)).val = highUnit c.val := val_point (by unfold highUnit; omega)
      have hlv : (point (lowUnit c.val)).val = lowUnit c.val := val_point (by unfold lowUnit; omega)
      have hpair : (isHigh (point (highUnit c.val)) && isLow (point (lowUnit c.val))) = true := by
        simp only [isHigh, isLow, hhv, hlv]
        simp only [highUnit, lowUnit, Bool.and_eq_true]
        refine ⟨⟨decide_eq_true ?_, decide_eq_true ?_⟩, decide_eq_true ?_, decide_eq_true ?_⟩ <;> omega
      rw [List.cons_append, List.cons_append, List.nil_append, joinPairs, if_pos hpair, hhv, hlv,
        point_eq (c := c) (by unfold highUnit lowUnit; omega)]
  · exact joinPairs_cons false hc us

/-- A text as `json.loads` has it back from `json.dumps`: surrogate pairs are one
character. -/
def joined (s : Text) : Text := joinPairs (s.flatMap (pieces true))

theorem isHigh_of_scalar (hc : isSurrogate c = false) : isHigh c = false := by
  simp only [isSurrogate, isHigh, Bool.and_eq_false_iff, decide_eq_false_iff_not] at hc ⊢
  omega

theorem surrogate_of_high (hc : isHigh c = true) : isSurrogate c = true := by
  simp only [isSurrogate, isHigh, Bool.and_eq_true, decide_eq_true_eq] at hc ⊢
  omega

theorem surrogate_of_low (hc : isLow c = true) : isSurrogate c = true := by
  simp only [isSurrogate, isLow, Bool.and_eq_true, decide_eq_true_eq] at hc ⊢
  omega

/-- No character beyond ASCII has a short escape. -/
theorem no_short_escape (hc : 0x80 ≤ c.val) : shortEscapes.lookup c = none := by
  cases hl : shortEscapes.lookup c with
  | none => rfl
  | some e =>
    have hlow : shortEscapes.all (fun x => x.1.val < 0x80) = true := by decide
    obtain ⟨l1, l2, he, _⟩ := List.lookup_eq_some_iff.mp hl
    have hmem : (c, e) ∈ shortEscapes := by
      rw [he]
      exact List.mem_append_right _ List.mem_cons_self
    have hlt := of_decide_eq_true (List.all_eq_true.mp hlow _ hmem)
    dsimp only at hlt
    omega

theorem pieces_surrogate (hc : isSurrogate c = true) : pieces true c = [(true, c)] := by
  simp only [isSurrogate, Bool.and_eq_true, decide_eq_true_eq] at hc
  rw [pieces, if_pos ⟨no_short_escape (by omega), .inr ⟨rfl, by omega⟩⟩, if_pos (by omega)]

theorem escapePoint_beyond (hc : 0x80 ≤ c.val) : escapePoint true c =
    if c.val < 0x10000 then escapeUnit c.val
    else escapeUnit (highUnit c.val) ++ escapeUnit (lowUnit c.val) := by
  have hascii : (true && decide (0x7f ≤ c.val)) = true := by
    rw [Bool.true_and]
    exact decide_eq_true (by omega)
  rw [escapePoint, no_short_escape hc]
  dsimp only
  rw [if_neg (by omega), if_pos hascii]

/-- Writing a surrogate pair and writing the character it stands for is the same. -/
theorem escapePoint_pair (hc : isHigh c = true) (hd : isLow d = true) :
    escapePoint true (point (0x10000 + (c.val - 0xd800) * 0x400 + (d.val - 0xdc00))) =
      escapePoint true c ++ escapePoint true d := by
  simp only [isHigh, isLow, Bool.and_eq_true, decide_eq_true_eq] at hc hd
  have hv := val_point (n := 0x10000 + (c.val - 0xd800) * 0x400 + (d.val - 0xdc00)) (by omega)
  have hhigh : highUnit (0x10000 + (c.val - 0xd800) * 0x400 + (d.val - 0xdc00)) = c.val := by
    unfold highUnit
    omega
  have hlow : lowUnit (0x10000 + (c.val - 0xd800) * 0x400 + (d.val - 0xdc00)) = d.val := by
    unfold lowUnit
    omega
  rw [escapePoint_beyond (by omega), escapePoint_beyond (by omega), escapePoint_beyond (by omega), hv,
    if_neg (by omega), if_pos (by omega), if_pos (by omega), hhigh, hlow]

theorem joined_pair (hc : isHigh c = true) (hd : isLow d = true) (s : Text) :
    joined (c :: d :: s) =
      point (0x10000 + (c.val - 0xd800) * 0x400 + (d.val - 0xdc00)) :: joined s := by
  rw [joined, List.flatMap_cons, List.flatMap_cons, pieces_surrogate (surrogate_of_high hc),
    pieces_surrogate (surrogate_of_low hd)]
  change joinPairs ((true, c) :: (true, d) :: _) = _
  rw [joinPairs, if_pos (by rw [hc, hd]; rfl)]
  rfl

theorem joined_high (hc : isHigh c = true) (hd : isLow d = false) (s : Text) :
    joined (c :: d :: s) = c :: joined (d :: s) := by
  have hskip : ∀ b v us, isLow v = false →
      joinPairs ((true, c) :: (b, v) :: us) = c :: joinPairs ((b, v) :: us) := by
    intro b v us hv
    cases b with
    | false => rfl
    | true => rw [joinPairs, if_neg (by rw [hv, Bool.and_false]; exact Bool.false_ne_true)]
  have hhigh : 0x10000 ≤ d.val → isLow (point (highUnit d.val)) = false := by
    intro hlarge
    have hn := d.isLt
    have hv : (point (highUnit d.val)).val = highUnit d.val := val_point (by unfold highUnit; omega)
    simp only [isLow, hv, Bool.and_eq_false_iff, decide_eq_false_iff_not]
    unfold highUnit
    omega
  rw [joined, List.flatMap_cons, pieces_surrogate (surrogate_of_high hc), joined, List.flatMap_cons]
  change joinPairs ((true, c) :: _) = _
  unfold pieces
  split
  · split
    · exact hskip true d _ hd
    · rename_i hlarge
      exact hskip true _ _ (hhigh (by omega))
  · exact hskip false d _ hd

theorem joined_cons (hc : isHigh c = false) (s : Text) : joined (c :: s) = c :: joined s := by
  rw [joined, List.flatMap_cons, joinPairs_pieces true hc]
  rfl

/-- The joined text is written like the text itself. -/
theorem escapes_joined : ∀ s : Text,
    (joined s).flatMap (escapePoint true) = s.flatMap (escapePoint true)
  | [] => rfl
  | [c] => by
    cases hc : isHigh c with
    | false => rw [joined_cons hc]; rfl
    | true =>
      rw [joined, List.flatMap_singleton, pieces_surrogate (surrogate_of_high hc)]
      rfl
  | c :: d :: s => by
    cases hc : isHigh c with
    | false => rw [joined_cons hc, List.flatMap_cons, escapes_joined (d :: s)]; rfl
    | true =>
      cases hd : isLow d with
      | false => rw [joined_high hc hd, List.flatMap_cons, escapes_joined (d :: s)]; rfl
      | true =>
        rw [joined_pair hc hd, List.flatMap_cons, escapePoint_pair hc hd, escapes_joined s]
        simp

theorem scanUnits_quote (ascii : Bool) (s rest : Text) :
    scanUnits (s.flatMap (escapePoint ascii) ++ quoteMark :: rest) =
      some (s.flatMap (pieces ascii), rest) := by
  induction s with
  | nil =>
    rw [scanUnits.eq_def]
    exact if_pos rfl
  | cons c s ih => rw [List.flatMap_cons, List.append_assoc, scanUnits_escapePoint, ih]; rfl

theorem joined_of_scalar (hs : Scalar s) : joined s = s := by
  induction s with
  | nil => rfl
  | cons c s ih =>
    obtain ⟨hc, hs⟩ := scalar_cons.mp hs
    rw [joined_cons (isHigh_of_scalar hc), ih hs]

/-- There are no pairs left to join. -/
theorem joined_joined (s : Text) : joined (joined s) = joined s := by
  have hread := scanUnits_quote true (joined s) []
  rw [escapes_joined, scanUnits_quote] at hread
  exact congrArg joinPairs (Prod.mk.inj (Option.some.inj hread)).1.symm

/-- Only what was escaped is ever joined. -/
theorem joinPairs_raw (s : Text) : joinPairs (s.flatMap (pieces false)) = s := by
  have hone : ∀ c, ∃ b, pieces false c = [(b, c)] ∧ (b = true → isHigh c = false) := by
    intro c
    unfold pieces
    split
    · rename_i h
      have hlt : c.val < 0x20 := h.2.resolve_right fun hasc => absurd hasc.1 Bool.false_ne_true
      refine ⟨true, if_pos (by omega), fun _ => ?_⟩
      simp only [isHigh, Bool.and_eq_false_iff, decide_eq_false_iff_not]
      omega
    · exact ⟨false, rfl, fun h => absurd h Bool.false_ne_true⟩
  induction s with
  | nil => rfl
  | cons c s ih =>
    obtain ⟨b, hp, hb⟩ := hone c
    rw [List.flatMap_cons, hp, List.cons_append, List.nil_append]
    cases b with
    | true => rw [joinPairs_cons true (hb rfl), ih]
    | false =>
      conv_rhs => rw [← ih]
      cases s.flatMap (pieces false) <;> rfl

theorem scanString_quote (ascii : Bool) (hs : joined s = s) (rest : Text) :
    scanString (s.flatMap (escapePoint ascii) ++ quoteMark :: rest) = some (s, rest) := by
  rw [scanString, scanUnits_quote]
  cases ascii with
  | true => exact congrArg (fun u => some (u, rest)) hs
  | false => exact congrArg (fun u => some (u, rest)) (joinPairs_raw s)

/-- A written string is at least as long as what it says. -/
theorem length_quote (ascii : Bool) (s : Text) : s.length < (quote ascii s).length := by
  have hpos : ∀ c, 0 < (escapePoint ascii c).length := by
    intro c
    unfold escapePoint
    split
    · exact Nat.succ_pos _
    repeat' split
    all_goals simp [escapeUnit]
  have hle : s.length ≤ (s.flatMap (escapePoint ascii)).length := by
    induction s with
    | nil => exact Nat.le_refl 0
    | cons c s ih =>
      have := hpos c
      rw [List.flatMap_cons, List.length_append, List.length_cons]
      omega
  simp only [quote, List.length_append, List.length_cons, List.length_nil]
  omega

end Strings

section Numbers

/-- A text after which a number ends. -/
def Stops (rest : Text) : Prop :=
  ∀ c, rest.head? = some c → isDigit c = false ∧ c ≠ ofChar '.' ∧ c ≠ ofChar 'e' ∧ c ≠ ofChar 'E'

theorem stops_of_head (h : isDigit c = false ∧ c ≠ ofChar '.' ∧ c ≠ ofChar 'e' ∧ c ≠ ofChar 'E')
    (rest : Text) : Stops (c :: rest) := by
  rintro d hd
  cases hd
  exact h

theorem stops_nil : Stops [] := fun _ h => absurd h (by simp)

theorem isDigit_digit (h : d < 10) : isDigit (digit d) = true := by
  have hv : (digit d).val = 48 + d := val_point (by omega)
  simp only [isDigit, hv, Bool.and_eq_true]
  exact ⟨decide_eq_true (by omega), decide_eq_true (by omega)⟩

theorem natText_digits (n : Nat) : ∀ c ∈ natText n, isDigit c = true := by
  intro c hc
  unfold natText at hc
  split at hc
  · rw [List.mem_singleton.mp hc]
    exact isDigit_digit (by omega)
  · obtain ⟨d, hd, rfl⟩ := List.mem_map.mp hc
    exact isDigit_digit (Nat.digits_lt_base (by omega) (List.mem_reverse.mp hd))

theorem natText_ne_nil (n : Nat) : natText n ≠ [] := by
  unfold natText
  split
  · exact List.cons_ne_nil _ _
  · rename_i h
    simpa using Nat.digits_ne_nil_iff_ne_zero.mpr h

theorem digitsValue_natText (n : Nat) : digitsValue (natText n) = n := by
  unfold natText
  split
  · subst n; decide
  · have hd : ∀ d ∈ Nat.digits 10 n, ((fun c : CodePoint => c.val - 48) ∘ digit) d = d := by
      intro d hd
      have hlt := Nat.digits_lt_base (by omega) hd
      have hv : (digit d).val = 48 + d := val_point (by omega)
      simp only [Function.comp_apply, hv]
      omega
    rw [digitsValue, ← List.map_reverse, List.reverse_reverse, List.map_map,
      List.map_congr_left hd, List.map_id', Nat.ofDigits_digits]

/-- Only zero is written with a leading zero. -/
theorem natText_head (n : Nat) : natText n = [digit 0] ∨ (natText n).head? ≠ some (digit 0) := by
  unfold natText
  split
  · exact .inl rfl
  · rename_i h
    right
    rw [List.head?_map, List.head?_reverse]
    have hne := Nat.digits_ne_nil_iff_ne_zero (b := 10).mpr h
    rw [List.getLast?_eq_some_getLast hne, Option.map_some, ne_eq, Option.some.injEq]
    have hlast := Nat.getLast_digit_ne_zero 10 h
    have hlt := Nat.digits_lt_base (b := 10) (by omega) (List.getLast_mem hne)
    intro he
    have hv := congrArg Fin.val he
    rw [show (digit ((Nat.digits 10 n).getLast hne)).val = 48 + (Nat.digits 10 n).getLast hne from
      val_point (by omega), show (digit 0).val = 48 from rfl] at hv
    omega

/-- The digits at the end of a text go no further than the text. -/
theorem span_digits (t : Text) (hr : Stops rest) :
    (t ++ rest).takeWhile isDigit = t.takeWhile isDigit ∧
      (t ++ rest).dropWhile isDigit = t.dropWhile isDigit ++ rest := by
  induction t with
  | nil =>
    cases rest with
    | nil => exact ⟨rfl, rfl⟩
    | cons c cs =>
      have hc := (hr c rfl).1
      exact ⟨List.takeWhile_cons_of_neg (by simp [hc]), List.dropWhile_cons_of_neg (by simp [hc])⟩
  | cons c t ih =>
    rw [List.cons_append]
    by_cases hc : isDigit c = true
    · simp only [List.takeWhile_cons_of_pos hc, List.dropWhile_cons_of_pos hc, ih, and_self]
    · simp only [List.takeWhile_cons_of_neg hc, List.dropWhile_cons_of_neg hc, List.cons_append,
        and_self]

theorem scanWhole_append (ht : t ≠ []) (hr : Stops rest) :
    scanWhole (t ++ rest) = ((scanWhole t).1, (scanWhole t).2 ++ rest) := by
  cases t with
  | nil => exact absurd rfl ht
  | cons c cs =>
    obtain ⟨htake, hdrop⟩ := span_digits (c :: cs) hr
    rw [List.cons_append] at htake hdrop ⊢
    simp only [scanWhole, htake, hdrop]
    split <;> rfl

theorem scanWhole_natText (n : Nat) (hr : Stops rest) :
    scanWhole (natText n ++ rest) = (natText n, rest) := by
  have hone : scanWhole (natText n) = (natText n, []) := by
    rcases natText_head n with hz | hz
    · rw [hz, scanWhole, if_pos rfl]
    · have htake := List.takeWhile_eq_self_iff.mpr (natText_digits n)
      have hdrop := List.dropWhile_eq_nil_iff.mpr (natText_digits n)
      unfold scanWhole
      split
      · rename_i c cs hn
        have hc : c ≠ digit 0 := fun h => hz (by rw [hn, h]; rfl)
        rw [if_neg hc, htake, hdrop]
      · rename_i hn
        exact absurd hn (natText_ne_nil n)
  rw [scanWhole_append (natText_ne_nil n) hr, hone]
  rfl

theorem scanFraction_stops (hr : Stops rest) : scanFraction rest = ([], rest) := by
  cases rest with
  | nil => rfl
  | cons c cs => exact if_neg fun h => (hr c rfl).2.1 h.1

theorem scanExponent_stops (hr : Stops rest) : scanExponent rest = ([], rest) := by
  cases rest with
  | nil => rfl
  | cons c cs =>
    exact if_neg fun h => h.1.elim (hr c rfl).2.2.1 (hr c rfl).2.2.2

theorem scanFraction_append (t : Text) (hr : Stops rest) :
    scanFraction (t ++ rest) = ((scanFraction t).1, (scanFraction t).2 ++ rest) := by
  cases t with
  | nil => exact scanFraction_stops hr
  | cons c cs =>
    obtain ⟨htake, hdrop⟩ := span_digits cs hr
    rw [List.cons_append]
    simp only [scanFraction, htake, hdrop]
    split <;> rfl

/-- The sign of an exponent that has digits is not looked for in what follows. -/
theorem sign_append (rest : Text) {cs : Text}
    (h : (cs.drop ((cs.takeWhile fun s => s = ofChar '+' || s = ofChar '-').take 1).length).takeWhile
      isDigit ≠ []) :
    ((cs ++ rest).takeWhile fun s => s = ofChar '+' || s = ofChar '-').take 1 =
      (cs.takeWhile fun s => s = ofChar '+' || s = ofChar '-').take 1 := by
  cases cs with
  | nil => exact absurd rfl h
  | cons c cs =>
    rw [List.cons_append, List.takeWhile_cons, List.takeWhile_cons]
    split <;> rfl

/-- An exponent that goes to the end of its text ends there too when more follows. -/
theorem scanExponent_append (ht : scanExponent t = (e, [])) (hr : Stops rest) :
    scanExponent (t ++ rest) = (e, rest) := by
  cases t with
  | nil =>
    cases ht
    exact scanExponent_stops hr
  | cons c cs =>
    rw [List.cons_append]
    simp only [scanExponent] at ht ⊢
    split at ht
    · rename_i hc
      have hsign := sign_append rest hc.2
      obtain ⟨hsome, hrest⟩ := Prod.mk.inj ht
      rw [hsign]
      have hlen : ((cs.takeWhile fun s => s = ofChar '+' || s = ofChar '-').take 1).length ≤
          cs.length :=
        ((List.take_prefix _ _).trans (List.takeWhile_prefix _)).length_le
      obtain ⟨htake, hdrop⟩ := span_digits
        (cs.drop ((cs.takeWhile fun s => s = ofChar '+' || s = ofChar '-').take 1).length) hr
      rw [List.drop_append_of_le_length hlen, htake, hdrop, if_pos hc, hsome, hrest]
      rfl
    · cases (Prod.mk.inj ht).2

theorem natText_cons (n : Nat) : ∃ c cs, natText n = c :: cs ∧ isDigit c = true := by
  cases hn : natText n with
  | nil => exact absurd hn (natText_ne_nil n)
  | cons c cs => exact ⟨c, cs, rfl, natText_digits n c (hn ▸ List.mem_cons_self)⟩

theorem scanNumber_intText (n : Int) (hn : (natText n.natAbs).length ≤ maxDigits) (hr : Stops rest) :
    scanNumber (intText n ++ rest) = .ok (int n, rest) := by
  have hwhole := scanWhole_natText n.natAbs hr
  have hvalue := digitsValue_natText n.natAbs
  unfold scanNumber intText
  split
  · rename_i hneg
    simp only [List.cons_append, List.head?_cons, if_true, List.take_succ_cons, List.take_zero,
      List.length_singleton, List.drop_succ_cons, List.drop_zero, hwhole, scanFraction_stops hr,
      scanExponent_stops hr, natText_ne_nil, if_false, Nat.not_lt.mpr hn, and_self, reduceCtorEq,
      hvalue]
    congr 3
    omega
  · rename_i hpos
    obtain ⟨c, cs, he, hc⟩ := natText_cons n.natAbs
    have hsign : (natText n.natAbs ++ rest).head? ≠ some (ofChar '-') := by
      rw [he]
      rintro h
      cases h
      exact absurd hc (by decide)
    simp only [hsign, if_false, List.length_nil, List.drop_zero, hwhole, scanFraction_stops hr,
      scanExponent_stops hr, natText_ne_nil, Nat.not_lt.mpr hn, and_self, if_true, hvalue]
    congr 3
    omega

theorem isPrefixOf_cons {name : Text} (h : name.isPrefixOf (c :: t) = true) (hn : name ≠ []) :
    name.head? = some c ∧ name.tail.isPrefixOf t = true := by
  cases name with
  | nil => exact absurd rfl hn
  | cons d ds =>
    simp only [List.isPrefixOf, Bool.and_eq_true, beq_iff_eq] at h
    exact ⟨congrArg some h.1, h.2⟩

/-- What a number can start with. -/
def Numeric (t : Text) : Prop :=
  ∃ c cs, isDigit c = true ∧ (t = c :: cs ∨ t = ofChar '-' :: c :: cs)

theorem numeric_intText (n : Int) : Numeric (intText n) := by
  obtain ⟨c, cs, he, hc⟩ := natText_cons n.natAbs
  rw [intText, he]
  split
  · exact ⟨c, cs, hc, .inr rfl⟩
  · exact ⟨c, cs, hc, .inl rfl⟩

/-- No constant starts like a number does. -/
theorem scanConstant_numeric (ht : Numeric t) (rest : Text) : scanConstant (t ++ rest) = none := by
  have hfirst : ∀ x ∈ constants, x.1 ≠ [] ∧ x.1.head?.map isDigit = some false := by decide
  have hsecond : ∀ x ∈ constants, x.1.head? = some (ofChar '-') →
      x.1.tail ≠ [] ∧ x.1.tail.head?.map isDigit = some false := by decide
  rw [scanConstant, Option.map_eq_none_iff, List.find?_eq_none]
  rintro ⟨name, j⟩ hx hpre
  change name.isPrefixOf (t ++ rest) = true at hpre
  obtain ⟨c, cs, hc, rfl | rfl⟩ := ht
  · have hdig := (hfirst _ hx).2
    rw [(isPrefixOf_cons hpre (hfirst _ hx).1).1, Option.map_some, hc] at hdig
    cases hdig
  · obtain ⟨hdash, htail⟩ := isPrefixOf_cons hpre (hfirst _ hx).1
    obtain ⟨hne, hdig⟩ := hsecond _ hx hdash
    rw [(isPrefixOf_cons htail hne).1, Option.map_some, hc] at hdig
    cases hdig

theorem head_scanWhole (h : (scanWhole t).1 ≠ []) : ∃ c cs, isDigit c = true ∧ t = c :: cs := by
  cases t with
  | nil => exact absurd rfl h
  | cons c cs =>
    refine ⟨c, cs, ?_, rfl⟩
    by_contra hc
    refine h ?_
    have hz : c ≠ digit 0 := fun he => hc (he ▸ isDigit_digit (by omega))
    rw [scanWhole, if_neg hz, List.takeWhile_cons_of_neg hc]

/-- The minus sign a number may start with. -/
def signOf (t : Text) : Text := if t.head? = some (ofChar '-') then t.take 1 else []

theorem scanNumber_float : scanNumber t = .ok (float l, r) ↔
    ∃ whole v fraction w exponent, scanWhole (t.drop (signOf t).length) = (whole, v) ∧
      scanFraction v = (fraction, w) ∧ scanExponent w = (exponent, r) ∧ whole ≠ [] ∧
      ¬ (fraction = [] ∧ exponent = []) ∧
      Text.literal (signOf t ++ whole ++ fraction ++ exponent) = l := by
  unfold scanNumber
  constructor
  · intro h
    cases hw : scanWhole (t.drop (signOf t).length) with | mk whole v
    cases hf : scanFraction v with | mk fraction w
    cases he : scanExponent w with | mk exponent r'
    unfold signOf at hw
    simp only [hw, hf, he] at h
    split at h
    · cases h
    · rename_i hne
      split at h
      · split at h <;> cases h
      · rename_i hpart
        cases h
        exact ⟨whole, v, fraction, w, exponent, rfl, hf, he, hne, hpart, rfl⟩
  · rintro ⟨whole, v, fraction, w, exponent, hw, hf, he, hne, hpart, rfl⟩
    unfold signOf at hw ⊢
    simp only [hw, hf, he]
    rw [if_neg hne, if_neg hpart]

/-- A number that fills its text is read the same when more follows. -/
theorem scanNumber_append (ht : scanNumber t = .ok (float l, [])) (hr : Stops rest) :
    Numeric t ∧ scanNumber (t ++ rest) = .ok (float l, rest) := by
  obtain ⟨whole, v, fraction, w, exponent, hw, hf, he, hne, hpart, hl⟩ := scanNumber_float.mp ht
  obtain ⟨c, cs, hc, hdrop⟩ := head_scanWhole (t := t.drop (signOf t).length) (by rwa [hw])
  have hcons : t.drop (signOf t).length ≠ [] := by rw [hdrop]; exact List.cons_ne_nil _ _
  have htne : t ≠ [] := fun h => hcons (by rw [h]; rfl)
  have hsign : signOf (t ++ rest) = signOf t := by
    obtain ⟨d, ds, rfl⟩ := List.exists_cons_of_ne_nil htne
    rfl
  constructor
  · refine ⟨c, cs, hc, ?_⟩
    unfold signOf at hdrop
    split at hdrop
    · rename_i hm
      obtain ⟨d, ds, rfl⟩ := List.exists_cons_of_ne_nil htne
      cases hm
      exact .inr (congrArg _ hdrop)
    · exact .inl hdrop
  · have hlen : (signOf t).length ≤ t.length := by
      unfold signOf
      split
      · exact List.length_take_le' _ _
      · exact Nat.zero_le _
    refine scanNumber_float.mpr ⟨whole, v ++ rest, fraction, w ++ rest, exponent, ?_, ?_, ?_, hne,
      hpart, hsign ▸ hl⟩
    · rw [hsign, List.drop_append_of_le_length hlen, scanWhole_append hcons hr, hw]
    · rw [scanFraction_append v hr, hf]
    · exact scanExponent_append he hr

end Numbers

section Values

/-- The floats that are no numbers of JSON's. -/
def nonFinite : List String := ["NaN", "Infinity", "-Infinity"]

mutual
/-- A value that is read back as it was written: no surrogate pair, no integer too
long, no key twice, and the floats are written as the reader writes them. -/
def Readable : Json → Prop
  | int n => (natText n.natAbs).length ≤ maxDigits
  | float l => l ∈ nonFinite ∨ scanNumber (text l) = .ok (float l, [])
  | str s => joined s = s
  | arr js => ReadableItems js
  | obj fs => (fs.map Prod.fst).Nodup ∧ ReadableFields fs
  | _ => True
def ReadableItems : List Json → Prop
  | [] => True
  | j :: js => Readable j ∧ ReadableItems js
def ReadableFields : List (Text × Json) → Prop
  | [] => True
  | (k, j) :: fs => Scalar k ∧ Readable j ∧ ReadableFields fs
end

mutual
/-- A value that keeps what it is when it is written and read back: as `Readable`, but its keys may
hold lone surrogates as its other texts may. -/
def Lossless : Json → Prop
  | int n => (natText n.natAbs).length ≤ maxDigits
  | float l => l ∈ nonFinite ∨ scanNumber (text l) = .ok (float l, [])
  | str s => joined s = s
  | arr js => LosslessItems js
  | obj fs => (fs.map Prod.fst).Nodup ∧ LosslessFields fs
  | _ => True
def LosslessItems : List Json → Prop
  | [] => True
  | j :: js => Lossless j ∧ LosslessItems js
def LosslessFields : List (Text × Json) → Prop
  | [] => True
  | (k, j) :: fs => joined k = k ∧ Lossless j ∧ LosslessFields fs
end

mutual
theorem lossless_of_readable : ∀ (j : Json), Readable j → Lossless j
  | null, _ => trivial
  | bool _, _ => trivial
  | int _, h => h
  | float _, h => h
  | str _, h => h
  | arr js, h => lossless_items js h
  | obj fs, h => ⟨h.1, lossless_fields fs h.2⟩
theorem lossless_items : ∀ (js : List Json), ReadableItems js → LosslessItems js
  | [], _ => trivial
  | j :: js, h => ⟨lossless_of_readable j h.1, lossless_items js h.2⟩
theorem lossless_fields : ∀ (fs : List (Text × Json)), ReadableFields fs → LosslessFields fs
  | [], _ => trivial
  | (_, j) :: fs, h => ⟨joined_of_scalar h.1, lossless_of_readable j h.2.1, lossless_fields fs h.2.2⟩
end

mutual
/-- A value that is lossless can be printed. -/
theorem printable_of_lossless : ∀ (j : Json), Lossless j → printable j = true
  | null, _ => rfl
  | bool _, _ => rfl
  | int _, h => decide_eq_true h
  | float _, _ => rfl
  | str _, _ => rfl
  | arr js, h => printable_items js h
  | obj fs, h => printable_fields fs h.2
theorem printable_items : ∀ (js : List Json), LosslessItems js → printableItems js = true
  | [], _ => rfl
  | j :: js, h => by rw [printableItems, printable_of_lossless j h.1, printable_items js h.2, Bool.and_self]
theorem printable_fields : ∀ (fs : List (Text × Json)), LosslessFields fs → printableFields fs = true
  | [], _ => rfl
  | (_, j) :: fs, h => by
    rw [printableFields, printable_of_lossless j h.2.1, printable_fields fs h.2.2, Bool.and_self]
end

mutual
/-- The fuel that reading a value back takes. -/
def cost : Json → Nat
  | arr js => 1 + costItems js
  | obj fs => 1 + costFields fs
  | _ => 1
def costItems : List Json → Nat
  | [] => 0
  | j :: js => 1 + cost j + costItems js
def costFields : List (Text × Json) → Nat
  | [] => 0
  | (_, j) :: fs => 1 + cost j + costFields fs
end

/-- An array after its bracket. -/
def openItems (style : Style) : List Json → Text
  | [] => []
  | j :: js => write style j ++ writeItems style js

/-- An object after its brace. -/
def openFields (style : Style) : List (Text × Json) → Text
  | [] => []
  | (k, j) :: fs =>
    quote style.ascii k ++ ofChar ':' :: (style.gap ++ (write style j ++ writeFields style fs))

/-- What a written value can start with. -/
def Opens (c : CodePoint) : Prop :=
  c.val < 0x80 ∧ isBlank c = false ∧ c ≠ ofChar ']' ∧ c ≠ ofChar '}'

instance (c : CodePoint) : Decidable (Opens c) :=
  inferInstanceAs (Decidable (c.val < 0x80 ∧ isBlank c = false ∧ c ≠ ofChar ']' ∧ c ≠ ofChar '}'))

theorem opens_digit (hc : isDigit c = true) : Opens c := by
  simp only [isDigit, Bool.and_eq_true, decide_eq_true_eq] at hc
  have hv : ∀ d : CodePoint, ¬ (48 ≤ d.val ∧ d.val ≤ 57) → c ≠ d := fun d hd he => hd (he ▸ hc)
  refine ⟨by omega, ?_, hv _ (by decide), hv _ (by decide)⟩
  simp only [isBlank, Bool.or_eq_false_iff, decide_eq_false_iff_not]
  omega

theorem opens_numeric (ht : Numeric t) :
    ∃ c cs, t = c :: cs ∧ Opens c ∧ c ≠ quoteMark ∧ c ≠ ofChar '[' ∧ c ≠ ofChar '{' := by
  obtain ⟨c, cs, hc, rfl | rfl⟩ := ht
  · have hne : ∀ d, isDigit d = false → c ≠ d := fun d hd h => by rw [← h, hc] at hd; cases hd
    exact ⟨c, cs, rfl, opens_digit hc, hne _ (by decide), hne _ (by decide), hne _ (by decide)⟩
  · exact ⟨_, _, rfl, by decide, by decide, by decide, by decide⟩

theorem write_opens (style : Style) {j : Json} (hj : Lossless j) :
    ∃ c cs, write style j = c :: cs ∧ Opens c := by
  match j, hj with
  | null, _ => exact ⟨_, _, rfl, by decide⟩
  | bool true, _ => exact ⟨_, _, rfl, by decide⟩
  | bool false, _ => exact ⟨_, _, rfl, by decide⟩
  | int n, _ =>
    obtain ⟨c, cs, he, hc, _⟩ := opens_numeric (numeric_intText n)
    exact ⟨c, cs, he, hc⟩
  | float l, hl =>
    obtain hl | hl := hl
    · simp only [nonFinite, List.mem_cons, List.not_mem_nil, or_false] at hl
      obtain rfl | rfl | rfl := hl <;> exact ⟨_, _, rfl, by decide⟩
    · obtain ⟨c, cs, he, hc, _⟩ := opens_numeric (scanNumber_append hl stops_nil).1
      exact ⟨c, cs, he, hc⟩
  | str s, _ => exact ⟨_, _, rfl, by decide⟩
  | arr [], _ => exact ⟨_, _, rfl, by decide⟩
  | arr (j :: js), _ => exact ⟨_, _, rfl, by decide⟩
  | obj [], _ => exact ⟨_, _, rfl, by decide⟩
  | obj ((k, j) :: fs), _ => exact ⟨_, _, rfl, by decide⟩

theorem skipBlank_of_head (h : isBlank c = false) (cs : Text) : skipBlank (c :: cs) = c :: cs :=
  List.dropWhile_cons_of_neg (by simp [h])

theorem skipBlank_gap (style : Style) (h : isBlank c = false) (cs : Text) :
    skipBlank (style.gap ++ c :: cs) = c :: cs := by
  cases style with
  | raw => exact skipBlank_of_head h cs
  | dumps => exact skipBlank_of_head h cs

theorem quote_append (ascii : Bool) (s rest : Text) :
    quote ascii s ++ rest = quoteMark :: (s.flatMap (escapePoint ascii) ++ quoteMark :: rest) := by
  simp [quote]

theorem writeItems_cons (style : Style) (j : Json) (js : List Json) :
    writeItems style (j :: js) = ofChar ',' :: (style.gap ++ openItems style (j :: js)) := by
  simp [writeItems, openItems]

theorem writeFields_cons (style : Style) (f : Text × Json) (fs : List (Text × Json)) :
    writeFields style (f :: fs) = ofChar ',' :: (style.gap ++ openFields style (f :: fs)) := by
  simp [writeFields, openFields]

theorem foldl_put {d fs : List (Text × Json)} (h : ((d ++ fs).map Prod.fst).Nodup) :
    fs.foldl (fun d (k, j) => Dict.put k j d) d = d ++ fs := by
  induction fs generalizing d with
  | nil => simp
  | cons f fs ih =>
    obtain ⟨k, j⟩ := f
    have hk : k ∉ d.map Prod.fst := by
      rw [List.map_append, List.nodup_append] at h
      exact fun hm => h.2.2 k hm k (by simp) rfl
    rw [List.foldl_cons]
    change List.foldl _ (Dict.put k j d) fs = _
    rw [Dict.put_new hk, ih (by simpa using h)]
    simp

theorem scanOnce_numeric (ht : Numeric t) (h : scanNumber (t ++ rest) = .ok (j, rest)) :
    scanOnce (n + 1) (t ++ rest) = .ok (j, rest) := by
  have hconst := scanConstant_numeric ht rest
  obtain ⟨c, cs, rfl, _, hq, ha, ho⟩ := opens_numeric ht
  rw [List.cons_append] at hconst h ⊢
  rw [scanOnce, if_neg hq, if_neg ha, if_neg ho, hconst]
  exact h

theorem scanOnce_float (hl : Lossless (float l)) (hr : Stops rest) :
    scanOnce (n + 1) (text l ++ rest) = .ok (float l, rest) := by
  obtain hl | hl := hl
  · simp only [nonFinite, List.mem_cons, List.not_mem_nil, or_false] at hl
    obtain rfl | rfl | rfl := hl <;> rfl
  · obtain ⟨hnum, hscan⟩ := scanNumber_append hl hr
    exact scanOnce_numeric hnum hscan

theorem writeItems_stops (style : Style) (js : List Json) (rest : Text) :
    Stops (writeItems style js ++ rest) := by
  cases js with
  | nil => exact stops_of_head (by decide) rest
  | cons j js =>
    rw [writeItems_cons]
    exact stops_of_head (by decide) _

theorem writeFields_stops (style : Style) (fs : List (Text × Json)) (rest : Text) :
    Stops (writeFields style fs ++ rest) := by
  cases fs with
  | nil => exact stops_of_head (by decide) rest
  | cons f fs =>
    rw [writeFields_cons]
    exact stops_of_head (by decide) _

theorem openItems_opens (style : Style) {js : List Json} (hne : js ≠ []) (hj : LosslessItems js) :
    ∃ c cs, openItems style js = c :: cs ∧ Opens c := by
  cases js with
  | nil => exact absurd rfl hne
  | cons j js =>
    obtain ⟨c, cs, he, hc⟩ := write_opens style hj.1
    exact ⟨c, _, by rw [openItems, he, List.cons_append], hc⟩

theorem openFields_opens (style : Style) {fs : List (Text × Json)} (hne : fs ≠ []) :
    ∃ cs, openFields style fs = quoteMark :: cs := by
  cases fs with
  | nil => exact absurd rfl hne
  | cons f fs => exact ⟨_, rfl⟩

mutual
/-- Reading a written value gives the value back and leaves what follows it. -/
theorem scanOnce_write (style : Style) : ∀ (j : Json), Lossless j → ∀ n rest, cost j ≤ n →
    Stops rest → scanOnce n (write style j ++ rest) = .ok (j, rest)
  | null, _, n, rest, hn, _ => by
    cases n with
    | zero => exact absurd hn (by decide)
    | succ n => rfl
  | bool b, _, n, rest, hn, _ => by
    cases n with
    | zero => exact absurd hn (by simp [cost])
    | succ n => cases b <;> rfl
  | int k, hj, n, rest, hn, hr => by
    cases n with
    | zero => exact absurd hn (by simp [cost])
    | succ n => exact scanOnce_numeric (numeric_intText k) (scanNumber_intText k hj hr)
  | float l, hj, n, rest, hn, hr => by
    cases n with
    | zero => exact absurd hn (by simp [cost])
    | succ n => exact scanOnce_float hj hr
  | str s, hj, n, rest, hn, _ => by
    cases n with
    | zero => exact absurd hn (by simp [cost])
    | succ n =>
      rw [write, quote_append, scanOnce, if_pos rfl, scanString_quote style.ascii hj]
  | arr [], _, n, rest, hn, _ => by
    cases n with
    | zero => exact absurd hn (by simp [cost])
    | succ n => rfl
  | arr (j :: js), hj, n, rest, hn, _ => by
    cases n with
    | zero => exact absurd hn (by simp [cost])
    | succ n =>
      have hitems := scanItems_write style (j :: js) (List.cons_ne_nil _ _) hj n rest
        (by simp only [cost] at hn; omega)
      obtain ⟨c, cs, he, hc⟩ := openItems_opens style (List.cons_ne_nil j js) hj
      have hw : write style (arr (j :: js)) = ofChar '[' :: openItems style (j :: js) := by
        simp [write, openItems]
      rw [he, List.cons_append] at hitems
      rw [hw, he, List.cons_append, List.cons_append, scanOnce, if_neg (by decide), if_pos rfl,
        skipBlank_of_head hc.2.1]
      change (if some c = some (ofChar ']') then _ else _) = _
      rw [if_neg fun h => hc.2.2.1 (Option.some.inj h)]
      dsimp only
      rw [hitems]
      rfl
  | obj [], _, n, rest, hn, _ => by
    cases n with
    | zero => exact absurd hn (by simp [cost])
    | succ n => rfl
  | obj ((k, j) :: fs), hj, n, rest, hn, _ => by
    cases n with
    | zero => exact absurd hn (by simp [cost])
    | succ n =>
      have hfields := scanFields_write style ((k, j) :: fs) (List.cons_ne_nil _ _) hj.2 n rest
        (by simp only [cost] at hn; omega)
      obtain ⟨cs, he⟩ := openFields_opens style (List.cons_ne_nil (k, j) fs)
      have hw : write style (obj ((k, j) :: fs)) = ofChar '{' :: openFields style ((k, j) :: fs) := by
        simp [write, openFields]
      rw [he, List.cons_append] at hfields
      rw [hw, he, List.cons_append, List.cons_append, scanOnce, if_neg (by decide),
        if_neg (by decide), if_pos rfl, skipBlank_of_head (by decide)]
      change (if some quoteMark = some (ofChar '}') then _ else _) = _
      rw [if_neg (by decide)]
      dsimp only
      rw [hfields]
      have hput : ((k, j) :: fs).foldl (fun d (k, j) => Dict.put k j d) [] = (k, j) :: fs :=
        foldl_put hj.1
      exact congrArg (fun d => Except.ok (obj d, rest)) hput
theorem scanItems_write (style : Style) : ∀ (js : List Json), js ≠ [] → LosslessItems js →
    ∀ n rest, costItems js ≤ n → scanItems n (openItems style js ++ rest) = .ok (js, rest)
  | [], hne, _, _, _, _ => absurd rfl hne
  | j :: js, _, hj, n, rest, hn => by
    cases n with
    | zero => exact absurd hn (by simp [costItems])
    | succ n =>
      simp only [costItems] at hn
      have hone := scanOnce_write style j hj.1 n (writeItems style js ++ rest) (by omega)
        (writeItems_stops style js rest)
      rw [openItems, List.append_assoc, scanItems, hone]
      cases js with
      | nil => rfl
      | cons k ks =>
        have hrest := scanItems_write style (k :: ks) (List.cons_ne_nil _ _) hj.2 n rest (by omega)
        obtain ⟨c, cs, he, hc⟩ := openItems_opens style (List.cons_ne_nil k ks) hj.2
        rw [he, List.cons_append] at hrest
        rw [writeItems_cons, he, List.cons_append, List.append_assoc, List.cons_append]
        change (do
          let (js, rest) ← scanItems n (skipBlank (style.gap ++ c :: (cs ++ rest)))
          return (j :: js, rest)) = _
        rw [skipBlank_gap style hc.2.1, hrest]
        rfl
theorem scanFields_write (style : Style) : ∀ (fs : List (Text × Json)), fs ≠ [] →
    LosslessFields fs → ∀ n rest, costFields fs ≤ n →
    scanFields n (openFields style fs ++ rest) = .ok (fs, rest)
  | [], hne, _, _, _, _ => absurd rfl hne
  | (k, j) :: fs, _, hj, n, rest, hn => by
    cases n with
    | zero => exact absurd hn (by simp [costFields])
    | succ n =>
      simp only [costFields] at hn
      have hone := scanOnce_write style j hj.2.1 n (writeFields style fs ++ rest) (by omega)
        (writeFields_stops style fs rest)
      obtain ⟨c, cs, he, hc⟩ := write_opens style hj.2.1
      rw [he, List.cons_append] at hone
      rw [openFields, List.append_assoc, quote_append, scanFields, if_neg (not_not.mpr rfl),
        scanString_quote style.ascii hj.1]
      dsimp only
      rw [List.cons_append, skipBlank_of_head (by decide)]
      simp only [ne_eq, not_true_eq_false, if_false, he, List.append_assoc, List.cons_append,
        skipBlank_gap style hc.2.1, hone]
      cases fs with
      | nil => rfl
      | cons f fs =>
        have hrest := scanFields_write style (f :: fs) (List.cons_ne_nil _ _) hj.2.2 n rest (by omega)
        obtain ⟨ds, hd⟩ := openFields_opens style (List.cons_ne_nil f fs)
        rw [hd, List.cons_append] at hrest
        rw [writeFields_cons, hd, List.cons_append, List.append_assoc, List.cons_append]
        change (do
          let (fs, rest) ← scanFields n (skipBlank (style.gap ++ quoteMark :: (ds ++ rest)))
          return ((k, j) :: fs, rest)) = _
        rw [skipBlank_gap style (by decide), hrest]
        rfl
end

mutual
theorem cost_le (style : Style) : ∀ (j : Json), Lossless j → cost j ≤ (write style j).length
  | null, _ => by cases style <;> decide
  | bool b, _ => by cases style <;> cases b <;> decide
  | int n, hj => by
    obtain ⟨c, cs, he, _⟩ := write_opens style hj
    simp [cost, he]
  | float l, hj => by
    obtain ⟨c, cs, he, _⟩ := write_opens style hj
    simp [cost, he]
  | str s, _ => by simp [cost, write, quote]
  | arr [], _ => by cases style <;> decide
  | arr (j :: js), hj => by
    have h1 := cost_le style j hj.1
    have h2 := costItems_le style js hj.2
    simp only [cost, costItems, write, List.length_cons, List.length_append]
    omega
  | obj [], _ => by cases style <;> decide
  | obj ((k, j) :: fs), hj => by
    have h1 := cost_le style j hj.2.2.1
    have h2 := costFields_le style fs hj.2.2.2
    simp only [cost, costFields, write, List.length_cons, List.length_append]
    omega
theorem costItems_le (style : Style) : ∀ (js : List Json), LosslessItems js →
    costItems js + 1 ≤ (writeItems style js).length
  | [], _ => Nat.le_refl 1
  | j :: js, hj => by
    have h1 := cost_le style j hj.1
    have h2 := costItems_le style js hj.2
    simp only [costItems, writeItems, List.length_cons, List.length_append]
    omega
theorem costFields_le (style : Style) : ∀ (fs : List (Text × Json)), LosslessFields fs →
    costFields fs + 1 ≤ (writeFields style fs).length
  | [], _ => Nat.le_refl 1
  | (k, j) :: fs, hj => by
    have h1 := cost_le style j hj.2.1
    have h2 := costFields_le style fs hj.2.2
    simp only [costFields, writeFields, List.length_cons, List.length_append]
    omega
end

/-- A value read back from either style of text is the value written. -/
theorem loads_write (style : Style) {j : Json} (hj : Lossless j) : loads (write style j) = .ok j := by
  have hread := scanOnce_write style j hj (2 * (write style j).length + 1) []
    (by have := cost_le style j hj; omega) (by rintro c ⟨⟩)
  obtain ⟨c, cs, he, hc⟩ := write_opens style hj
  have hbom : (write style j).head? ≠ some 0xfeff := by
    rw [he]
    intro h
    have hlt := hc.1
    rw [Option.some.inj h] at hlt
    exact absurd hlt (by decide)
  have hskip : skipBlank (write style j) = write style j := by rw [he, skipBlank_of_head hc.2.1]
  rw [List.append_nil] at hread
  rw [loads, if_neg hbom, decodeText, hskip, hread]
  rfl

theorem scalar_escapePoint (ascii : Bool) (hc : ascii = true ∨ isSurrogate c = false) :
    Scalar (escapePoint ascii c) := by
  have hlow : ∀ d : CodePoint, d.val < 0xd800 → isSurrogate d = false := by
    intro d hd
    simp only [isSurrogate, Bool.and_eq_false_iff, decide_eq_false_iff_not]
    omega
  have hhex : ∀ m, isSurrogate (hexDigit (m % 16)) = false := by
    intro m
    have hm : m % 16 < 16 := Nat.mod_lt m (by omega)
    have hall : ∀ d < 16, isSurrogate (hexDigit d) = false := by decide
    exact hall _ hm
  have hunit : ∀ n, Scalar (escapeUnit n) := by
    intro n
    simp only [escapeUnit, scalar_cons, hhex, scalar_nil, and_true]
    decide
  unfold escapePoint
  split
  · rename_i e he
    have hletters : shortEscapes.all (fun x => isSurrogate x.2 = false) = true := by decide
    have hmem : (c, e) ∈ shortEscapes := by
      obtain ⟨l1, l2, hl, _⟩ := List.lookup_eq_some_iff.mp he
      rw [hl]
      exact List.mem_append_right _ List.mem_cons_self
    exact scalar_cons.mpr ⟨by decide, scalar_cons.mpr
      ⟨of_decide_eq_true (List.all_eq_true.mp hletters _ hmem), scalar_nil⟩⟩
  split
  · exact hunit _
  split
  · split
    · exact hunit _
    · exact scalar_append.mpr ⟨hunit _, hunit _⟩
  · rename_i hasc
    refine scalar_cons.mpr ⟨?_, scalar_nil⟩
    rcases hc with rfl | hc
    · apply hlow
      simp only [Bool.true_and, decide_eq_true_eq] at hasc
      omega
    · exact hc

theorem scalar_quote (ascii : Bool) (hs : ascii = true ∨ Scalar s) : Scalar (quote ascii s) := by
  have hbody : Scalar (s.flatMap (escapePoint ascii)) := by
    intro d hd
    obtain ⟨c, hc, hd⟩ := List.mem_flatMap.mp hd
    exact scalar_escapePoint ascii (hs.imp_right fun h => h c hc) d hd
  exact scalar_append.mpr ⟨scalar_cons.mpr ⟨by decide, hbody⟩, by decide⟩

theorem scalar_natText (n : Nat) : Scalar (natText n) := by
  intro c hc
  have hd := natText_digits n c hc
  simp only [isDigit, isSurrogate, Bool.and_eq_true, decide_eq_true_eq, Bool.and_eq_false_iff,
    decide_eq_false_iff_not] at hd ⊢
  omega

theorem scalar_intText (n : Int) : Scalar (intText n) := by
  unfold intText
  split
  · exact scalar_cons.mpr ⟨by decide, scalar_natText _⟩
  · exact scalar_natText _

theorem scalar_gap (style : Style) : Scalar style.gap := by
  cases style <;> decide

mutual
/-- Whatever is written has an encoding: `dumps` escapes lone surrogates, and the
raw style is only used where there are none. -/
theorem scalar_write (style : Style) : ∀ (j : Json), style.ascii = true ∨ scalar j = true →
    Scalar (write style j)
  | null, _ => scalar_text _
  | bool true, _ => scalar_text _
  | bool false, _ => scalar_text _
  | int n, _ => scalar_intText n
  | float l, _ => scalar_text l
  | str s, h => scalar_quote _ (h.imp_right of_decide_eq_true)
  | arr [], _ => scalar_text _
  | arr (j :: js), h => by
    simp only [scalar, scalarItems, Bool.and_eq_true] at h
    have h1 := scalar_write style j (h.imp_right And.left)
    have h2 := scalar_writeItems style js (h.imp_right And.right)
    exact scalar_append.mpr ⟨scalar_cons.mpr ⟨by decide, h1⟩, h2⟩
  | obj [], _ => scalar_text _
  | obj ((k, j) :: fs), h => by
    simp only [scalar, scalarFields, Bool.and_eq_true, decide_eq_true_eq] at h
    have h1 := scalar_quote style.ascii (s := k) (h.imp_right fun h => h.1.1)
    have h2 := scalar_write style j (h.imp_right fun h => h.1.2)
    have h3 := scalar_writeFields style fs (h.imp_right And.right)
    have hcolon : isSurrogate (ofChar ':') = false := by decide
    have hbrace : isSurrogate (ofChar '{') = false := by decide
    simp only [write, scalar_append, scalar_cons, h1, h2, h3, scalar_gap, hcolon, hbrace, and_self]
theorem scalar_writeItems (style : Style) : ∀ (js : List Json),
    style.ascii = true ∨ scalarItems js = true → Scalar (writeItems style js)
  | [], _ => scalar_cons.mpr ⟨by decide, scalar_nil⟩
  | j :: js, h => by
    simp only [scalarItems, Bool.and_eq_true] at h
    have h1 := scalar_write style j (h.imp_right And.left)
    have h2 := scalar_writeItems style js (h.imp_right And.right)
    have hcomma : isSurrogate (ofChar ',') = false := by decide
    simp only [writeItems, scalar_append, scalar_cons, h1, h2, scalar_gap, hcomma, and_self]
theorem scalar_writeFields (style : Style) : ∀ (fs : List (Text × Json)),
    style.ascii = true ∨ scalarFields fs = true → Scalar (writeFields style fs)
  | [], _ => scalar_cons.mpr ⟨by decide, scalar_nil⟩
  | (k, j) :: fs, h => by
    simp only [scalarFields, Bool.and_eq_true, decide_eq_true_eq] at h
    have h1 := scalar_quote style.ascii (s := k) (h.imp_right fun h => h.1.1)
    have h2 := scalar_write style j (h.imp_right fun h => h.1.2)
    have h3 := scalar_writeFields style fs (h.imp_right And.right)
    have hcolon : isSurrogate (ofChar ':') = false := by decide
    have hcomma : isSurrogate (ofChar ',') = false := by decide
    simp only [writeFields, scalar_append, scalar_cons, h1, h2, h3, scalar_gap, hcolon, hcomma,
      and_self]
end

theorem length_writeFields (style : Style) {fs : Fields} (h : (k, j) ∈ fs) :
    (write style j).length ≤ (writeFields style fs).length := by
  induction fs with
  | nil => exact absurd h List.not_mem_nil
  | cons f fs ih =>
    obtain ⟨k', j'⟩ := f
    simp only [writeFields, List.length_cons, List.length_append]
    rcases List.mem_cons.mp h with he | hm
    · cases he
      omega
    · have := ih hm
      omega

/-- An object's text is at least as long as that of any of its fields. -/
theorem length_field (style : Style) {fs : Fields} (h : (k, j) ∈ fs) :
    (write style j).length ≤ (write style (.obj fs)).length := by
  cases fs with
  | nil => exact absurd h List.not_mem_nil
  | cons f fs =>
    obtain ⟨k', j'⟩ := f
    simp only [write, List.length_cons, List.length_append]
    rcases List.mem_cons.mp h with he | hm
    · cases he
      omega
    · have := length_writeFields style hm
      omega

/-- `json.dumps(value).encode("utf-8")` and back. -/
theorem dumps_encodes (h : dumps j = some t) :
    ∃ bs, encode t = some bs ∧ decodeReplace bs = t ∧ (Lossless j → loads t = .ok j) := by
  unfold dumps at h
  split at h
  · cases h
    have hs := scalar_write .dumps j (.inl rfl)
    have he : encode (write .dumps j) = some ((write .dumps j).flatMap encodePoint) :=
      encode_some.mpr ⟨hs, rfl⟩
    exact ⟨_, he, decodeReplace_encode he, loads_write .dumps⟩
  · cases h

/-- A written object starts with two characters of one byte. -/
theorem write_obj_opens (style : Style) (fs : Fields) :
    ∃ c cs, write style (.obj fs) = ofChar '{' :: c :: cs ∧ (c = quoteMark ∨ c = ofChar '}') := by
  cases fs with
  | nil =>
    have hempty : text "\x7b\x7d" = [ofChar '{', ofChar '}'] := by decide +kernel
    exact ⟨ofChar '}', [], hempty, .inr rfl⟩
  | cons f fs => exact ⟨quoteMark, _, rfl, .inl rfl⟩

/-- `json.loads(json.dumps(value).encode("utf-8"))` for an object. -/
theorem loadsBytes_dumps {fs : Fields} (hj : Lossless (.obj fs)) (h : dumps (.obj fs) = some t)
    (hb : encode t = some bs) : loadsBytes bs = .ok (.obj fs) := by
  unfold dumps at h
  split at h
  · cases h
    have hloads := loads_write .dumps hj
    obtain ⟨c, cs, hw, hc⟩ := write_obj_opens .dumps fs
    rw [hw] at hb hloads
    have hbom : some (ofChar '{') ≠ some 0xfeff := by decide
    rw [loads, List.head?_cons, if_neg hbom] at hloads
    obtain ⟨b, hpoint, hne⟩ : ∃ b, encodePoint c = [b] ∧ b ≠ 0 := by
      obtain rfl | rfl := hc
      · exact ⟨0x22, by decide, by decide⟩
      · exact ⟨0x7d, by decide, by decide⟩
    have hbytes : bs = 0x7b :: b :: cs.flatMap encodePoint := by
      rw [← (encode_some.mp hb).2, List.flatMap_cons, List.flatMap_cons, hpoint]
      rfl
    subst hbytes
    rw [loadsBytes, decodeDetected_encode hb hne]
    exact hloads
  · cases h

end Values

end PublicIntelligence.Json
