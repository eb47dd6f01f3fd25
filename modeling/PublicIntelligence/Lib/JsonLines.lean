import PublicIntelligence.Lib.JsonRead

namespace PublicIntelligence.Json

open Text

/-- A character of ASCII that is no control character. -/
def Plain (c : CodePoint) : Prop := 0x20 ≤ c.val ∧ c.val < 0x80

instance (c : CodePoint) : Decidable (Plain c) := inferInstanceAs (Decidable (_ ∧ _))

mutual
/-- The texts of a value, its keys among them, have only characters that `p` allows. -/
def Texts (p : CodePoint → Prop) : Json → Prop
  | str s => ∀ c ∈ s, p c
  | arr js => TextsItems p js
  | obj fs => TextsFields p fs
  | _ => True
def TextsItems (p : CodePoint → Prop) : List Json → Prop
  | [] => True
  | j :: js => Texts p j ∧ TextsItems p js
def TextsFields (p : CodePoint → Prop) : List (Text × Json) → Prop
  | [] => True
  | (k, j) :: fs => (∀ c ∈ k, p c) ∧ Texts p j ∧ TextsFields p fs
end

mutual
/-- The floats of a value are written as Python writes them. -/
def Numerals : Json → Prop
  | float l => l ∈ nonFinite ∨ scanNumber (text l) = .ok (float l, [])
  | arr js => NumeralsItems js
  | obj fs => NumeralsFields fs
  | _ => True
def NumeralsItems : List Json → Prop
  | [] => True
  | j :: js => Numerals j ∧ NumeralsItems js
def NumeralsFields : List (Text × Json) → Prop
  | [] => True
  | (_, j) :: fs => Numerals j ∧ NumeralsFields fs
end

section
variable {p : CodePoint → Prop}

mutual
theorem numerals_of_lossless : ∀ (j : Json), Lossless j → Numerals j
  | null, _ => trivial
  | bool _, _ => trivial
  | int _, _ => trivial
  | float _, h => h
  | str _, _ => trivial
  | arr js, h => numerals_items js h
  | obj fs, h => numerals_fields fs h.2
theorem numerals_items : ∀ (js : List Json), LosslessItems js → NumeralsItems js
  | [], _ => trivial
  | j :: js, h => ⟨numerals_of_lossless j h.1, numerals_items js h.2⟩
theorem numerals_fields : ∀ (fs : List (Text × Json)), LosslessFields fs → NumeralsFields fs
  | [], _ => trivial
  | (_, j) :: fs, h => ⟨numerals_of_lossless j h.2.1, numerals_fields fs h.2.2⟩
end

mutual
theorem texts_of_forall (hp : ∀ c, p c) : ∀ (j : Json), Texts p j
  | null => trivial
  | bool _ => trivial
  | int _ => trivial
  | float _ => trivial
  | str _ => fun c _ => hp c
  | arr js => texts_items hp js
  | obj fs => texts_fields hp fs
theorem texts_items (hp : ∀ c, p c) : ∀ (js : List Json), TextsItems p js
  | [] => trivial
  | j :: js => ⟨texts_of_forall hp j, texts_items hp js⟩
theorem texts_fields (hp : ∀ c, p c) : ∀ (fs : List (Text × Json)), TextsFields p fs
  | [] => trivial
  | (_, j) :: fs => ⟨fun c _ => hp c, texts_of_forall hp j, texts_fields hp fs⟩
end

theorem plain_digit (hc : isDigit c = true) : Plain c := by
  simp only [isDigit, Bool.and_eq_true, decide_eq_true_eq] at hc
  exact ⟨by omega, by omega⟩

theorem plain_takeWhile (t : Text) : ∀ c ∈ t.takeWhile isDigit, Plain c :=
  fun _ hc => plain_digit (List.mem_takeWhile_imp hc)

theorem scanWhole_chars (t : Text) : t = (scanWhole t).1 ++ (scanWhole t).2 ∧ ∀ c ∈ (scanWhole t).1, Plain c := by
  cases t with
  | nil => exact ⟨rfl, fun _ h => absurd h List.not_mem_nil⟩
  | cons c cs =>
    unfold scanWhole
    dsimp only
    split
    · rename_i hz
      exact ⟨rfl, List.forall_mem_singleton.mpr (hz ▸ plain_digit (isDigit_digit (by omega)))⟩
    · exact ⟨List.takeWhile_append_dropWhile.symm, plain_takeWhile _⟩

theorem scanFraction_chars (t : Text) :
    t = (scanFraction t).1 ++ (scanFraction t).2 ∧ ∀ c ∈ (scanFraction t).1, Plain c := by
  cases t with
  | nil => exact ⟨rfl, fun _ h => absurd h List.not_mem_nil⟩
  | cons c cs =>
    unfold scanFraction
    dsimp only
    split
    · rename_i hpoint
      refine ⟨congrArg (c :: ·) List.takeWhile_append_dropWhile.symm, ?_⟩
      exact List.forall_mem_cons.mpr ⟨hpoint.1 ▸ by decide, plain_takeWhile _⟩
    · exact ⟨rfl, fun _ h => absurd h List.not_mem_nil⟩

theorem scanExponent_chars (t : Text) :
    t = (scanExponent t).1 ++ (scanExponent t).2 ∧ ∀ c ∈ (scanExponent t).1, Plain c := by
  cases t with
  | nil => exact ⟨rfl, fun _ h => absurd h List.not_mem_nil⟩
  | cons c cs =>
    unfold scanExponent
    dsimp only
    split
    · rename_i he
      have hpre : (cs.takeWhile fun s => s = ofChar '+' || s = ofChar '-').take 1 <+: cs :=
        (List.take_prefix _ _).trans (List.takeWhile_prefix _)
      have hsign : ∀ d ∈ (cs.takeWhile fun s => s = ofChar '+' || s = ofChar '-').take 1, Plain d := by
        intro d hd
        have hd := List.mem_takeWhile_imp (List.mem_of_mem_take hd)
        simp only [Bool.or_eq_true, decide_eq_true_eq] at hd
        rcases hd with rfl | rfl <;> decide
      generalize (cs.takeWhile fun s => s = ofChar '+' || s = ofChar '-').take 1 = sign at hpre hsign he ⊢
      obtain ⟨rest, rfl⟩ := hpre
      rw [List.drop_left]
      refine ⟨?_, ?_⟩
      · dsimp only
        rw [List.cons_append, List.cons_append, List.append_assoc, List.takeWhile_append_dropWhile]
      · intro d hd
        rcases List.mem_append.mp hd with hd | hd
        · rcases List.mem_cons.mp hd with rfl | hd
          · rcases he.1 with rfl | rfl <;> decide
          · exact hsign d hd
        · exact plain_takeWhile _ d hd
    · exact ⟨rfl, fun _ h => absurd h List.not_mem_nil⟩

/-- A float that Python reads is spelled in ASCII. -/
theorem scanNumber_chars (h : scanNumber t = .ok (float l, [])) : ∀ c ∈ t, Plain c := by
  obtain ⟨whole, v, fraction, w, exponent, hw, hf, he, _⟩ := scanNumber_float.mp h
  obtain ⟨htext, hwhole⟩ := scanWhole_chars (t.drop (signOf t).length)
  obtain ⟨hv, hfraction⟩ := scanFraction_chars v
  obtain ⟨hrest, hexponent⟩ := scanExponent_chars w
  rw [hw] at htext hwhole
  rw [hf] at hv hfraction
  rw [he] at hrest hexponent
  have hsign : ∀ c ∈ signOf t, Plain c := by
    unfold signOf
    split
    · rename_i hm
      obtain ⟨cs, rfl⟩ := List.head?_eq_some_iff.mp hm
      exact List.forall_mem_singleton.mpr (by decide)
    · exact fun _ hc => absurd hc List.not_mem_nil
  have hall : t = signOf t ++ t.drop (signOf t).length := by
    unfold signOf
    split
    · rename_i hm
      obtain ⟨cs, rfl⟩ := List.head?_eq_some_iff.mp hm
      rfl
    · rfl
  rw [hall, htext, hv, hrest]
  intro c hc
  simp only [List.mem_append, List.append_nil] at hc
  rcases hc with hc | hc | hc | hc
  · exact hsign c hc
  · exact hwhole c hc
  · exact hfraction c hc
  · exact hexponent c hc

/-- A character of a written value: one of ASCII, or one of the value's texts as it is. -/
def Written (style : Style) (p : CodePoint → Prop) (c : CodePoint) : Prop :=
  Plain c ∨ style.ascii = false ∧ 0x80 ≤ c.val ∧ p c

theorem written_text (h : (text s).all (fun c => decide (Plain c)) = true) (style : Style) :
    ∀ c ∈ text s, Written style p c :=
  fun c hc => .inl (of_decide_eq_true (List.all_eq_true.mp h c hc))

theorem plain_hexDigit (m : Nat) : Plain (hexDigit (m % 16)) := by
  have hall : ∀ d < 16, Plain (hexDigit d) := by decide
  exact hall _ (Nat.mod_lt m (by omega))

theorem plain_escapeUnit (n : Nat) : ∀ d ∈ escapeUnit n, Plain d := by
  have hback : Plain backslash := by decide
  have hu : Plain (ofChar 'u') := by decide
  simp only [escapeUnit, List.forall_mem_cons, hback, hu, plain_hexDigit, List.not_mem_nil, false_implies,
    implies_true, and_self]

theorem plain_shortEscape (h : shortEscapes.lookup c = some e) : Plain e := by
  have hletters : shortEscapes.all (fun x => decide (Plain x.2)) = true := by decide
  obtain ⟨l1, l2, hl, _⟩ := List.lookup_eq_some_iff.mp h
  have hmem : (c, e) ∈ shortEscapes := hl ▸ List.mem_append_right _ List.mem_cons_self
  exact of_decide_eq_true (List.all_eq_true.mp hletters _ hmem)

theorem written_escapePoint (style : Style) (hc : p c) : ∀ d ∈ escapePoint style.ascii c, Written style p d := by
  unfold escapePoint
  split
  · rename_i e he
    exact List.forall_mem_cons.mpr ⟨.inl (by decide), List.forall_mem_singleton.mpr (.inl (plain_shortEscape he))⟩
  split
  · exact fun d hd => .inl (plain_escapeUnit _ d hd)
  · rename_i hlow
    split
    · split
      · exact fun d hd => .inl (plain_escapeUnit _ d hd)
      · intro d hd
        rcases List.mem_append.mp hd with hd | hd
        · exact .inl (plain_escapeUnit _ d hd)
        · exact .inl (plain_escapeUnit _ d hd)
    · rename_i hascii
      refine List.forall_mem_singleton.mpr ?_
      rcases Nat.lt_or_ge c.val 0x80 with hlt | hge
      · exact .inl ⟨by omega, hlt⟩
      · have hraw : style.ascii = false := by
          rw [← Bool.not_eq_true]
          exact fun htrue => hascii (by rw [htrue, Bool.true_and]; exact decide_eq_true (by omega))
        exact .inr ⟨hraw, hge, hc⟩

theorem written_quote (style : Style) (hs : ∀ c ∈ s, p c) : ∀ d ∈ quote style.ascii s, Written style p d := by
  have hmark : Written style p quoteMark := .inl (by decide)
  intro d hd
  rw [quote, List.mem_append, List.mem_cons, List.mem_singleton, List.mem_flatMap] at hd
  rcases hd with (rfl | ⟨c, hc, hd⟩) | rfl
  · exact hmark
  · exact written_escapePoint style (hs c hc) d hd
  · exact hmark

theorem written_natText (n : Nat) (style : Style) : ∀ c ∈ natText n, Written style p c :=
  fun c hc => .inl (plain_digit (natText_digits n c hc))

theorem written_gap (style : Style) : ∀ c ∈ style.gap, Written style p c := by
  cases style with
  | dumps => exact written_text (by decide) .dumps
  | raw => exact fun _ h => absurd h List.not_mem_nil

mutual
/-- What a value is written with. -/
theorem written_write (style : Style) : ∀ (j : Json), Numerals j → Texts p j → ∀ c ∈ write style j, Written style p c
  | null, _, _ => written_text (by decide) style
  | bool true, _, _ => written_text (by decide) style
  | bool false, _, _ => written_text (by decide) style
  | int n, _, _ => by
    rw [write, intText]
    split
    · exact List.forall_mem_cons.mpr ⟨.inl (by decide), written_natText _ style⟩
    · exact written_natText _ style
  | float l, hn, _ => by
    rcases hn with hname | hnum
    · have hall : nonFinite.all (fun l => (text l).all fun c => decide (Plain c)) = true := by decide +kernel
      exact written_text (List.all_eq_true.mp hall l hname) style
    · exact fun c hc => .inl (scanNumber_chars hnum c hc)
  | str s, _, ht => written_quote style ht
  | arr [], _, _ => written_text (by decide) style
  | arr (j :: js), hn, ht => by
    intro c hc
    rw [write, List.cons_append, List.mem_cons, List.mem_append] at hc
    rcases hc with rfl | hc | hc
    · exact .inl (by decide)
    · exact written_write style j hn.1 ht.1 c hc
    · exact written_writeItems style js hn.2 ht.2 c hc
  | obj [], _, _ => written_text (by decide +kernel) style
  | obj ((k, j) :: fs), hn, ht => by
    intro c hc
    simp only [write, List.cons_append, List.append_assoc, List.mem_cons, List.mem_append] at hc
    rcases hc with rfl | hc | rfl | hc | hc | hc
    · exact .inl (by decide)
    · exact written_quote style ht.1 c hc
    · exact .inl (by decide)
    · exact written_gap style c hc
    · exact written_write style j hn.1 ht.2.1 c hc
    · exact written_writeFields style fs hn.2 ht.2.2 c hc
theorem written_writeItems (style : Style) : ∀ (js : List Json), NumeralsItems js → TextsItems p js →
    ∀ c ∈ writeItems style js, Written style p c
  | [], _, _ => List.forall_mem_singleton.mpr (.inl (by decide))
  | j :: js, hn, ht => by
    intro c hc
    simp only [writeItems, List.cons_append, List.append_assoc, List.mem_cons, List.mem_append] at hc
    rcases hc with rfl | hc | hc | hc
    · exact .inl (by decide)
    · exact written_gap style c hc
    · exact written_write style j hn.1 ht.1 c hc
    · exact written_writeItems style js hn.2 ht.2 c hc
theorem written_writeFields (style : Style) : ∀ (fs : List (Text × Json)), NumeralsFields fs → TextsFields p fs →
    ∀ c ∈ writeFields style fs, Written style p c
  | [], _, _ => List.forall_mem_singleton.mpr (.inl (by decide))
  | (k, j) :: fs, hn, ht => by
    intro c hc
    simp only [writeFields, List.cons_append, List.append_assoc, List.mem_cons, List.mem_append] at hc
    rcases hc with rfl | hc | hc | rfl | hc | hc | hc
    · exact .inl (by decide)
    · exact written_gap style c hc
    · exact written_quote style ht.1 c hc
    · exact .inl (by decide)
    · exact written_gap style c hc
    · exact written_write style j hn.1 ht.2.1 c hc
    · exact written_writeFields style fs hn.2 ht.2.2 c hc
end

theorem writeFields_closes (style : Style) (fs : List (Text × Json)) :
    ∃ t, writeFields style fs = t ++ [ofChar '}'] := by
  induction fs with
  | nil => exact ⟨[], rfl⟩
  | cons f fs ih =>
    obtain ⟨t, ht⟩ := ih
    exact ⟨_, by rw [writeFields, ht, ← List.append_assoc]⟩

/-- A written object is between its braces. -/
theorem write_obj_enclosed (style : Style) (fs : List (Text × Json)) :
    ∃ t, write style (.obj fs) = ofChar '{' :: t ++ [ofChar '}'] := by
  cases fs with
  | nil =>
    have hempty : text "\x7b\x7d" = [ofChar '{', ofChar '}'] := by decide +kernel
    exact ⟨[], hempty⟩
  | cons f fs =>
    obtain ⟨t, ht⟩ := writeFields_closes style fs
    refine ⟨quote style.ascii f.1 ++ ofChar ':' :: style.gap ++ write style f.2 ++ t, ?_⟩
    simp only [write, ht, List.cons_append, List.append_assoc]

/-- A written value is on one line, whatever its texts are. -/
theorem newline_write (style : Style) {j : Json} (hn : Numerals j) : ofChar '\n' ∉ write style j := by
  intro hc
  have hall : ∀ c : CodePoint, (fun _ => True) c := fun _ => trivial
  rcases written_write style j hn (texts_of_forall hall j) _ hc with hplain | ⟨_, hbeyond, _⟩
  · exact absurd hplain (by decide)
  · exact absurd hbeyond (by decide)

/-- Where only ASCII is written, or no text has a line break of its own beyond it, `str.splitlines` does not
break the value either. -/
theorem unbroken_write (style : Style) {j : Json} (hn : Numerals j)
    (ht : style.ascii = true ∨ Texts (fun c => isBreak c = false) j) : ∀ c ∈ write style j, isBreak c = false := by
  have hplain : ∀ c, Plain c → isBreak c = false := by
    intro c hc
    obtain ⟨hlow, hhigh⟩ := hc
    simp only [isBreak, Bool.or_eq_false_iff, Bool.and_eq_false_iff, decide_eq_false_iff_not]
    omega
  intro c hc
  rcases ht with hascii | ht
  · have hall : ∀ c : CodePoint, (fun _ => True) c := fun _ => trivial
    rcases written_write style j hn (texts_of_forall hall j) c hc with hc | ⟨hraw, _⟩
    · exact hplain c hc
    · exact absurd (hascii.symm.trans hraw) (by decide)
  · rcases written_write style j hn ht c hc with hc | ⟨_, _, hc⟩
    · exact hplain c hc
    · exact hc

end
end PublicIntelligence.Json
