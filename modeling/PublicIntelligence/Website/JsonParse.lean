import PublicIntelligence.Lib.JsonRead
import PublicIntelligence.Website.Sse

namespace PublicIntelligence.Website

open Text Json

mutual
/-- A value as `JSON.parse` has it: a number is its literal. -/
def asNumbers : Json → Json
  | .int n => .float (literal (intText n))
  | .arr js => .arr (asNumbersItems js)
  | .obj fs => .obj (asNumbersFields fs)
  | j => j
def asNumbersItems : List Json → List Json
  | [] => []
  | j :: js => asNumbers j :: asNumbersItems js
def asNumbersFields : List (Text × Json) → List (Text × Json)
  | [] => []
  | (k, j) :: fs => (k, asNumbers j) :: asNumbersFields fs
end

mutual
/-- A value that JSON can say: no key twice, and every float is a number. -/
def Legible : Json → Prop
  | .float l => scanNumber (text l) = .ok (.float l, [])
  | .arr js => LegibleItems js
  | .obj fs => (fs.map Prod.fst).Nodup ∧ LegibleFields fs
  | _ => True
def LegibleItems : List Json → Prop
  | [] => True
  | j :: js => Legible j ∧ LegibleItems js
def LegibleFields : List (Text × Json) → Prop
  | [] => True
  | (_, j) :: fs => Legible j ∧ LegibleFields fs
end

section

theorem legible_opens {j : Json} (hj : Legible j) : ∃ c cs, write .raw j = c :: cs ∧ Opens c := by
  match j, hj with
  | .null, _ => exact ⟨_, _, rfl, by decide⟩
  | .bool true, _ => exact ⟨_, _, rfl, by decide⟩
  | .bool false, _ => exact ⟨_, _, rfl, by decide⟩
  | .int n, _ =>
    obtain ⟨c, cs, he, hc, _⟩ := opens_numeric (numeric_intText n)
    exact ⟨c, cs, he, hc⟩
  | .float l, hl =>
    obtain ⟨c, cs, he, hc, _⟩ := opens_numeric (scanNumber_append hl stops_nil).1
    exact ⟨c, cs, he, hc⟩
  | .str s, _ => exact ⟨_, _, rfl, by decide⟩
  | .arr [], _ => exact ⟨_, _, rfl, by decide⟩
  | .arr (j :: js), _ => exact ⟨_, _, rfl, by decide⟩
  | .obj [], _ => exact ⟨_, _, rfl, by decide⟩
  | .obj ((k, j) :: fs), _ => exact ⟨_, _, rfl, by decide⟩

/-- A string that is not escaped beyond ASCII is read back unit by unit. -/
theorem parseString_quote (s rest : Text) :
    parseString (s.flatMap (escapePoint false) ++ quoteMark :: rest) = some (s, rest) := by
  have hone : ∀ c, (pieces false c).map Prod.snd = [c] := by
    intro c
    unfold pieces
    split
    · rename_i h
      have hlt : c.val < 0x20 := h.2.resolve_right fun hasc => absurd hasc.1 Bool.false_ne_true
      rw [if_pos (by omega)]
      rfl
    · rfl
  have hall : (s.flatMap (pieces false)).map Prod.snd = s := by
    rw [List.map_flatMap]
    simp only [hone, List.flatMap_singleton']
  rw [parseString, scanUnits_quote, Option.map_some, hall]

theorem parseName_numeric (ht : Numeric t) (rest : Text) : parseName (t ++ rest) = none := by
  have hconst := scanConstant_numeric ht rest
  rw [scanConstant, Option.map_eq_none_iff, List.find?_eq_none] at hconst
  rw [parseName, Option.map_eq_none_iff, List.find?_eq_none]
  intro e he
  exact hconst e (List.mem_of_mem_take (i := 3) he)

theorem parseNumber_intText (n : Int) (hr : Stops rest) :
    parseNumber (intText n ++ rest) = some (asNumbers (.int n), rest) := by
  have hwhole := scanWhole_natText n.natAbs hr
  have hne := natText_ne_nil n.natAbs
  rw [asNumbers]
  unfold parseNumber intText
  split
  · simp only [List.cons_append, List.head?_cons, if_true, List.take_succ_cons, List.take_zero,
      List.length_singleton, List.drop_succ_cons, List.drop_zero, hwhole, scanFraction_stops hr,
      scanExponent_stops hr, hne, if_false, List.append_nil, List.nil_append]
  · obtain ⟨c, cs, he, hc⟩ := natText_cons n.natAbs
    have hsign : (natText n.natAbs ++ rest).head? ≠ some (ofChar '-') := by
      rw [he]
      rintro h
      cases h
      exact absurd hc (by decide)
    simp only [hsign, if_false, List.length_nil, List.drop_zero, hwhole, scanFraction_stops hr,
      scanExponent_stops hr, hne, List.append_nil, List.nil_append]

theorem parseNumber_float (hl : scanNumber t = .ok (.float l, r)) : parseNumber t = some (.float l, r) := by
  obtain ⟨whole, v, fraction, w, exponent, hw, hf, he, hne, _, rfl⟩ := scanNumber_float.mp hl
  unfold signOf at hw ⊢
  simp only [parseNumber, hw, hf, he]
  rw [if_neg hne]

theorem parseValue_numeric (ht : Numeric t) (h : parseNumber (t ++ rest) = some (j, rest)) :
    parseValue (n + 1) (t ++ rest) = some (j, rest) := by
  have hname := parseName_numeric ht rest
  obtain ⟨c, cs, rfl, _, hq, ha, ho⟩ := opens_numeric ht
  rw [List.cons_append] at hname h ⊢
  rw [parseValue, if_neg hq, if_neg ha, if_neg ho, hname]
  exact h

theorem legible_openItems {js : List Json} (hne : js ≠ []) (hj : LegibleItems js) :
    ∃ c cs, openItems .raw js = c :: cs ∧ Opens c := by
  cases js with
  | nil => exact absurd rfl hne
  | cons j js =>
    obtain ⟨c, cs, he, hc⟩ := legible_opens hj.1
    exact ⟨c, _, by rw [openItems, he, List.cons_append], hc⟩

theorem asNumbersFields_keys (fs : List (Text × Json)) :
    (asNumbersFields fs).map Prod.fst = fs.map Prod.fst := by
  induction fs with
  | nil => rfl
  | cons f fs ih =>
    obtain ⟨k, j⟩ := f
    rw [asNumbersFields, List.map_cons, List.map_cons, ih]

mutual
/-- Parsing a written value gives the value and leaves what follows it. -/
theorem parseValue_write : ∀ (j : Json), Legible j → ∀ n rest, (write .raw j).length ≤ n → Stops rest →
    parseValue n (write .raw j ++ rest) = some (asNumbers j, rest)
  | .null, _, n, rest, hn, _ => by
    cases n with
    | zero => exact absurd hn (by decide)
    | succ n => rfl
  | .bool b, _, n, rest, hn, _ => by
    cases n with
    | zero => exact absurd hn (by cases b <;> decide)
    | succ n => cases b <;> rfl
  | .int k, hj, n, rest, hn, hr => by
    obtain ⟨c, cs, he, _⟩ := legible_opens hj
    cases n with
    | zero => simp [he] at hn
    | succ n => exact parseValue_numeric (numeric_intText k) (parseNumber_intText k hr)
  | .float l, hj, n, rest, hn, hr => by
    obtain ⟨c, cs, he, _⟩ := legible_opens hj
    cases n with
    | zero => simp [he] at hn
    | succ n =>
      obtain ⟨hnum, hscan⟩ := scanNumber_append hj hr
      exact parseValue_numeric hnum (parseNumber_float hscan)
  | .str s, _, n, rest, hn, _ => by
    cases n with
    | zero => simp [write, quote] at hn
    | succ n =>
      rw [write, quote_append, parseValue, if_pos rfl]
      change (parseString (s.flatMap (escapePoint false) ++ quoteMark :: rest)).map _ = _
      rw [parseString_quote]
      rfl
  | .arr [], _, n, rest, hn, _ => by
    cases n with
    | zero => exact absurd hn (by decide)
    | succ n => rfl
  | .arr (j :: js), hj, n, rest, hn, _ => by
    have hw : write .raw (.arr (j :: js)) = ofChar '[' :: openItems .raw (j :: js) := by
      simp [write, openItems]
    rw [hw, List.length_cons] at hn
    cases n with
    | zero => exact absurd hn (by omega)
    | succ n =>
      have hitems := parseItems_write (j :: js) (List.cons_ne_nil _ _) hj n rest (by omega)
      obtain ⟨c, cs, he, hc⟩ := legible_openItems (List.cons_ne_nil j js) hj
      rw [he, List.cons_append] at hitems
      rw [hw, he, List.cons_append, List.cons_append, parseValue, if_neg (by decide), if_pos rfl,
        skipBlank_of_head hc.2.1]
      change (if some c = some (ofChar ']') then _ else _) = _
      rw [if_neg fun h => hc.2.2.1 (Option.some.inj h), hitems]
      rfl
  | .obj [], _, n, rest, hn, _ => by
    cases n with
    | zero => exact absurd hn (by decide)
    | succ n => rfl
  | .obj ((k, j) :: fs), hj, n, rest, hn, _ => by
    have hw : write .raw (.obj ((k, j) :: fs)) = ofChar '{' :: openFields .raw ((k, j) :: fs) := by
      simp [write, openFields]
    rw [hw, List.length_cons] at hn
    cases n with
    | zero => exact absurd hn (by omega)
    | succ n =>
      have hfields := parseFields_write ((k, j) :: fs) (List.cons_ne_nil _ _) hj.2 n rest (by omega)
      obtain ⟨cs, he⟩ := openFields_opens .raw (List.cons_ne_nil (k, j) fs)
      rw [he, List.cons_append] at hfields
      rw [hw, he, List.cons_append, List.cons_append, parseValue, if_neg (by decide),
        if_neg (by decide), if_pos rfl, skipBlank_of_head (by decide)]
      change (if some quoteMark = some (ofChar '}') then _ else _) = _
      rw [if_neg (by decide), hfields]
      have hnodup : (([] ++ asNumbersFields ((k, j) :: fs)).map Prod.fst).Nodup := by
        rw [List.nil_append, asNumbersFields_keys]
        exact hj.1
      exact congrArg (fun d => some (Json.obj d, rest)) (foldl_put hnodup)
theorem parseItems_write : ∀ (js : List Json), js ≠ [] → LegibleItems js → ∀ n rest,
    (openItems .raw js).length ≤ n → parseItems n (openItems .raw js ++ rest) = some (asNumbersItems js, rest)
  | [], hne, _, _, _, _ => absurd rfl hne
  | j :: js, _, hj, n, rest, hn => by
    obtain ⟨c, cs, he, _⟩ := legible_opens hj.1
    rw [openItems, List.length_append] at hn
    cases n with
    | zero => simp [he] at hn
    | succ n =>
      have hmore : 0 < (writeItems .raw js).length := by
        cases js with
        | nil => exact Nat.one_pos
        | cons k ks => simp [writeItems_cons]
      have hone := parseValue_write j hj.1 n (writeItems .raw js ++ rest) (by omega)
        (writeItems_stops .raw js rest)
      rw [openItems, List.append_assoc, parseItems, hone]
      cases js with
      | nil => rfl
      | cons k ks =>
        have hlen : (writeItems .raw (k :: ks)).length = (openItems .raw (k :: ks)).length + 1 := by
          rw [writeItems_cons, List.length_cons]
          rfl
        have hpos : 0 < (write .raw j).length := by simp [he]
        have hrest := parseItems_write (k :: ks) (List.cons_ne_nil _ _) hj.2 n rest (by omega)
        obtain ⟨c, cs, he, hc⟩ := legible_openItems (List.cons_ne_nil k ks) hj.2
        rw [he, List.cons_append] at hrest
        rw [writeItems_cons, he, List.cons_append, List.append_assoc, List.cons_append]
        change (parseItems n (skipBlank (c :: (cs ++ rest)))).map _ = _
        rw [skipBlank_of_head hc.2.1, hrest]
        rfl
theorem parseFields_write : ∀ (fs : List (Text × Json)), fs ≠ [] → LegibleFields fs → ∀ n rest,
    (openFields .raw fs).length ≤ n →
    parseFields n (openFields .raw fs ++ rest) = some (asNumbersFields fs, rest)
  | [], hne, _, _, _, _ => absurd rfl hne
  | (k, j) :: fs, _, hj, n, rest, hn => by
    have hlong : (openFields .raw ((k, j) :: fs)).length =
        (quote false k).length + ((write .raw j).length + (writeFields .raw fs).length + 1) := by
      simp only [openFields, Style.ascii, Style.gap, List.nil_append, List.length_append, List.length_cons]
    cases n with
    | zero => exact absurd hn (by omega)
    | succ n =>
      have hone := parseValue_write j hj.1 n (writeFields .raw fs ++ rest) (by omega)
        (writeFields_stops .raw fs rest)
      obtain ⟨c, cs, he, hc⟩ := legible_opens hj.1
      have hkey : openFields .raw ((k, j) :: fs) ++ rest = quoteMark ::
          (k.flatMap (escapePoint false) ++
            quoteMark :: (ofChar ':' :: (write .raw j ++ (writeFields .raw fs ++ rest)))) := by
        simp [openFields, quote, Style.ascii, Style.gap]
      rw [hkey, parseFields, if_neg (not_not.mpr rfl), parseString_quote]
      have hcolon : isBlank (ofChar ':') = false := by decide
      rw [he, List.cons_append] at hone
      simp only [Option.bind_eq_bind, Option.bind_some, skipBlank_of_head hcolon, ne_eq, not_true_eq_false,
        if_false, he, List.cons_append, skipBlank_of_head hc.2.1, hone]
      cases fs with
      | nil => rfl
      | cons f fs =>
        have hlen : (writeFields .raw (f :: fs)).length = (openFields .raw (f :: fs)).length + 1 := by
          rw [writeFields_cons, List.length_cons]
          rfl
        have hrest := parseFields_write (f :: fs) (List.cons_ne_nil _ _) hj.2 n rest (by omega)
        obtain ⟨ds, hd⟩ := openFields_opens .raw (List.cons_ne_nil f fs)
        rw [hd, List.cons_append] at hrest
        rw [writeFields_cons, hd, List.cons_append, List.append_assoc, List.cons_append]
        change (parseFields n (skipBlank (quoteMark :: (ds ++ rest)))).map _ = _
        rw [skipBlank_of_head (by decide), hrest]
        rfl
end

/-- `JSON.parse` of what pydantic writes. -/
theorem jsonParse_write {j : Json} (hj : Legible j) : jsonParse (write .raw j) = some (asNumbers j) := by
  have hread := parseValue_write j hj (2 * (write .raw j).length + 1) [] (by omega) stops_nil
  obtain ⟨c, cs, he, hc⟩ := legible_opens hj
  have hskip : skipBlank (write .raw j) = write .raw j := by rw [he, skipBlank_of_head hc.2.1]
  rw [List.append_nil] at hread
  rw [jsonParse, hskip, hread]
  rfl

end
end PublicIntelligence.Website
