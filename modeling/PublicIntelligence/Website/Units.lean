import PublicIntelligence.Lib.JsonRead

namespace PublicIntelligence.Website

open Text Json Encoding

/-- A character as the website has it: beyond 16 bits it is a pair of surrogates. -/
def unitsOf (c : CodePoint) : Text :=
  if c.val < 0x10000 then [c] else [point (highUnit c.val), point (lowUnit c.val)]

/-- A decoded text as a string of the website. -/
def units (t : Text) : Text := t.flatMap unitsOf

mutual
def inUnits : Json → Json
  | .str s => .str (units s)
  | .arr js => .arr (inUnitsItems js)
  | .obj fs => .obj (inUnitsFields fs)
  | j => j
def inUnitsItems : List Json → List Json
  | [] => []
  | j :: js => inUnits j :: inUnitsItems js
def inUnitsFields : List (Text × Json) → List (Text × Json)
  | [] => []
  | (k, j) :: fs => (units k, inUnits j) :: inUnitsFields fs
end

/-- A text of which every character is one unit. -/
def Single (t : Text) : Prop := ∀ c ∈ t, c.val < 0x10000

instance (t : Text) : Decidable (Single t) := List.decidableBAll (fun c : CodePoint => c.val < 0x10000) t

mutual
/-- The floats of a value are written in single units. -/
def SingleFloats : Json → Prop
  | .float l => Single (text l)
  | .arr js => SingleFloatsItems js
  | .obj fs => SingleFloatsFields fs
  | _ => True
def SingleFloatsItems : List Json → Prop
  | [] => True
  | j :: js => SingleFloats j ∧ SingleFloatsItems js
def SingleFloatsFields : List (Text × Json) → Prop
  | [] => True
  | (_, j) :: fs => SingleFloats j ∧ SingleFloatsFields fs
end

section

theorem units_append (s t : Text) : units (s ++ t) = units s ++ units t := List.flatMap_append

theorem units_cons (c : CodePoint) (t : Text) : units (c :: t) = unitsOf c ++ units t := List.flatMap_cons

theorem units_single (h : Single t) : units t = t := by
  induction t with
  | nil => rfl
  | cons c t ih =>
    obtain ⟨hc, ht⟩ := List.forall_mem_cons.mp h
    rw [units_cons, unitsOf, if_pos hc, ih ht]
    rfl

theorem units_flatten (ts : List Text) : units ts.flatten = (ts.map units).flatten := by
  induction ts with
  | nil => rfl
  | cons t ts ih => rw [List.flatten_cons, units_append, ih, List.map_cons, List.flatten_cons]

theorem single_natText (n : Nat) : Single (natText n) := by
  intro c hc
  have hd := natText_digits n c hc
  simp only [isDigit, Bool.and_eq_true, decide_eq_true_eq] at hd
  omega

theorem single_intText (n : Int) : Single (intText n) := by
  unfold intText
  split
  · exact List.forall_mem_cons.mpr ⟨by decide, single_natText _⟩
  · exact single_natText _

/-- A character beyond ASCII stands for itself where only ASCII is escaped. -/
theorem escapePoint_raw (hc : 0x80 ≤ c.val) : escapePoint false c = [c] := by
  rw [escapePoint, no_short_escape hc]
  dsimp only
  rw [if_neg (by omega), Bool.false_and, if_neg Bool.false_ne_true]

theorem single_escapePoint (hc : c.val < 0x10000) : Single (escapePoint false c) := by
  have hhex : ∀ m, (hexDigit (m % 16)).val < 0x10000 := by
    intro m
    have hall : ∀ d < 16, (hexDigit d).val < 0x10000 := by decide
    exact hall _ (Nat.mod_lt m (by omega))
  unfold escapePoint
  split
  · rename_i e he
    have hletters : shortEscapes.all (fun x => x.2.val < 0x10000) = true := by decide
    obtain ⟨l1, l2, hl, _⟩ := List.lookup_eq_some_iff.mp he
    have hmem : (c, e) ∈ shortEscapes := hl ▸ List.mem_append_right _ List.mem_cons_self
    have hletter := of_decide_eq_true (List.all_eq_true.mp hletters _ hmem)
    exact List.forall_mem_cons.mpr ⟨by decide, List.forall_mem_singleton.mpr hletter⟩
  split
  · simp only [Single, escapeUnit, List.forall_mem_cons, hhex, List.not_mem_nil, false_implies,
      implies_true, and_true]
    decide
  · rw [Bool.false_and, if_neg Bool.false_ne_true]
    exact List.forall_mem_singleton.mpr hc

/-- Escaping and cutting into units may change places. -/
theorem units_escapePoint (c : CodePoint) :
    units (escapePoint false c) = (unitsOf c).flatMap (escapePoint false) := by
  unfold unitsOf
  split
  · rename_i hc
    rw [units_single (single_escapePoint hc), List.flatMap_singleton]
  · rename_i hc
    have hn := c.isLt
    have hhigh : (point (highUnit c.val)).val = highUnit c.val := val_point (by unfold highUnit; omega)
    have hlow : (point (lowUnit c.val)).val = lowUnit c.val := val_point (by unfold lowUnit; omega)
    rw [escapePoint_raw (by omega), units_cons, unitsOf, if_neg hc, List.flatMap_cons, List.flatMap_singleton,
      escapePoint_raw (by rw [hhigh]; unfold highUnit; omega),
      escapePoint_raw (by rw [hlow]; unfold lowUnit; omega)]
    rfl

theorem units_escape (s : Text) : units (s.flatMap (escapePoint false)) = (units s).flatMap (escapePoint false) := by
  induction s with
  | nil => rfl
  | cons c s ih =>
    rw [List.flatMap_cons, units_append, units_escapePoint, ih, units_cons, List.flatMap_append]

theorem units_quote (s : Text) : units (quote false s) = quote false (units s) := by
  have hquote : unitsOf quoteMark = [quoteMark] := by decide
  rw [quote, quote, units_append, units_cons, units_escape, hquote]
  rfl

mutual
/-- What pydantic writes is read by the website as if its texts had been strings of the website. -/
theorem units_write : ∀ (j : Json), SingleFloats j → units (write .raw j) = write .raw (inUnits j)
  | .null, _ => units_single (by decide)
  | .bool b, _ => units_single (by cases b <;> decide)
  | .int n, _ => units_single (single_intText n)
  | .float _, h => units_single h
  | .str s, _ => units_quote s
  | .arr [], _ => units_single (by decide)
  | .arr (j :: js), h => by
    have hopen : unitsOf (ofChar '[') = [ofChar '['] := by decide
    rw [write, List.cons_append, units_cons, units_append, units_write j h.1, units_writeItems js h.2, hopen]
    rfl
  | .obj [], _ => units_single (by decide)
  | .obj ((k, j) :: fs), h => by
    have hopen : unitsOf (ofChar '{') = [ofChar '{'] := by decide
    have hcolon : unitsOf (ofChar ':') = [ofChar ':'] := by decide
    simp only [write, inUnits, inUnitsFields, Style.ascii, Style.gap, List.nil_append, List.append_assoc,
      List.cons_append, units_cons, units_append, units_quote, units_write j h.1, units_writeFields fs h.2, hopen,
      hcolon]
theorem units_writeItems : ∀ (js : List Json), SingleFloatsItems js →
    units (writeItems .raw js) = writeItems .raw (inUnitsItems js)
  | [], _ => units_single (by decide)
  | j :: js, h => by
    have hcomma : unitsOf (ofChar ',') = [ofChar ','] := by decide
    simp only [writeItems, inUnitsItems, Style.gap, List.nil_append,
      List.cons_append, units_cons, units_append, units_write j h.1, units_writeItems js h.2, hcomma]
theorem units_writeFields : ∀ (fs : List (Text × Json)), SingleFloatsFields fs →
    units (writeFields .raw fs) = writeFields .raw (inUnitsFields fs)
  | [], _ => units_single (by decide)
  | (k, j) :: fs, h => by
    have hcomma : unitsOf (ofChar ',') = [ofChar ','] := by decide
    have hcolon : unitsOf (ofChar ':') = [ofChar ':'] := by decide
    simp only [writeFields, inUnitsFields, Style.ascii, Style.gap, List.nil_append, List.append_assoc,
      List.cons_append, units_cons, units_append, units_quote, units_write j h.1, units_writeFields fs h.2,
      hcomma, hcolon]
end

end
end PublicIntelligence.Website
