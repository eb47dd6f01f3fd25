import Mathlib.Data.List.Infix

namespace PublicIntelligence

/-- An element of a Python string: any code point, lone surrogates included. -/
abbrev CodePoint := Fin 0x110000

instance neZeroCodePoints : @NeZero Nat Zero.ofOfNat0 0x110000 := ⟨by decide⟩

abbrev Text := List CodePoint

instance lawfulBEqText : LawfulBEq Text := inferInstance

namespace Text

theorem char_bound (c : Char) : c.toNat < 0x110000 := by
  have h : c.toNat < 0xd800 ∨ (0xdfff < c.toNat ∧ c.toNat < 0x110000) := c.valid
  omega

def ofChar (c : Char) : CodePoint := ⟨c.toNat, char_bound c⟩

/-- A string literal of the source. -/
def text (s : String) : Text := s.toList.map ofChar

/-- The text as a string; a lone surrogate has no place in one. -/
def literal (t : Text) : String := String.ofList (t.map fun c => Char.ofNat c.val)

def isSurrogate (c : CodePoint) : Bool := 0xd800 ≤ c.val && c.val ≤ 0xdfff

def isHigh (c : CodePoint) : Bool := 0xd800 ≤ c.val && c.val ≤ 0xdbff

def isLow (c : CodePoint) : Bool := 0xdc00 ≤ c.val && c.val ≤ 0xdfff

/-- The text can be encoded as UTF-8. -/
def Scalar (t : Text) : Prop := ∀ c ∈ t, isSurrogate c = false

instance (t : Text) : Decidable (Scalar t) :=
  List.decidableBAll (fun c => isSurrogate c = false) t

/-- `str.isspace` on one character. -/
def isSpace (c : CodePoint) : Bool :=
  let n := c.val
  (9 ≤ n && n ≤ 13) || (0x1c ≤ n && n ≤ 0x20) || n = 0x85 || n = 0xa0 || n = 0x1680 ||
    (0x2000 ≤ n && n ≤ 0x200a) || n = 0x2028 || n = 0x2029 || n = 0x202f || n = 0x205f ||
    n = 0x3000

/-- The characters `str.splitlines` breaks a line at. -/
def isBreak (c : CodePoint) : Bool :=
  let n := c.val
  (10 ≤ n && n ≤ 13) || (0x1c ≤ n && n ≤ 0x1e) || n = 0x85 || n = 0x2028 || n = 0x2029

def lstrip (t : Text) : Text := t.dropWhile isSpace

def rstrip (t : Text) : Text := (t.reverse.dropWhile isSpace).reverse

def strip (t : Text) : Text := rstrip (lstrip t)

def startswith (t pre : Text) : Bool := pre.isPrefixOf t

def endswith (t suf : Text) : Bool := suf.isSuffixOf t

/-- `str.splitlines` with `line` already read of the current line. A carriage
return before a line feed is left for the line feed to break at. -/
def splitlinesFrom (line : Text) : Text → List Text
  | [] => if line = [] then [] else [line]
  | c :: cs =>
    if c = ofChar '\r' ∧ cs.head? = some (ofChar '\n') then splitlinesFrom line cs
    else if isBreak c then line :: splitlinesFrom [] cs
    else splitlinesFrom (line ++ [c]) cs

def splitlines (t : Text) : List Text := splitlinesFrom [] t

/-- `str.split` on a single character, with `piece` already read. -/
def splitFrom (sep : CodePoint) (piece : Text) : Text → List Text
  | [] => [piece]
  | c :: cs => if c = sep then piece :: splitFrom sep [] cs else splitFrom sep (piece ++ [c]) cs

def split (t : Text) (sep : CodePoint) : List Text := splitFrom sep [] t

/-- `str.lower` as far as comparing with ASCII letters other than `i` and `k`
goes: no character beyond ASCII lowers to one of these. -/
def lower (t : Text) : Text :=
  t.map fun c => if h : 65 ≤ c.val ∧ c.val ≤ 90 then ⟨c.val + 32, by omega⟩ else c

/-- `part in t` -/
def contains (t part : Text) : Bool := t.tails.any fun u => part.isPrefixOf u

/-- `s <= t` on strings: by code point, a prefix first. -/
def le : Text → Text → Bool
  | [], _ => true
  | _ :: _, [] => false
  | c :: cs, d :: ds => c < d || (c = d && le cs ds)

def insertSorted (t : Text) : List Text → List Text
  | [] => [t]
  | u :: us => if le t u then t :: u :: us else u :: insertSorted t us

/-- `sorted(texts)` -/
def sorted (ts : List Text) : List Text := ts.foldr insertSorted []

theorem isSurrogate_ofChar (c : Char) : isSurrogate (ofChar c) = false := by
  have h : c.toNat < 0xd800 ∨ (0xdfff < c.toNat ∧ c.toNat < 0x110000) := c.valid
  change (decide (0xd800 ≤ c.toNat) && decide (c.toNat ≤ 0xdfff)) = false
  simp only [Bool.and_eq_false_iff, decide_eq_false_iff_not]
  omega

theorem scalar_text (s : String) : Scalar (text s) := by
  intro c hc
  obtain ⟨d, _, rfl⟩ := List.mem_map.mp hc
  exact isSurrogate_ofChar d

theorem scalar_nil : Scalar [] := fun _ h => absurd h List.not_mem_nil

theorem scalar_append {s t : Text} : Scalar (s ++ t) ↔ Scalar s ∧ Scalar t :=
  List.forall_mem_append

theorem scalar_cons {c : CodePoint} {t : Text} :
    Scalar (c :: t) ↔ isSurrogate c = false ∧ Scalar t :=
  List.forall_mem_cons

theorem scalar_intercalate (hsep : Scalar sep) (h : ∀ t ∈ ts, Scalar t) : Scalar (sep.intercalate ts) := by
  induction ts with
  | nil => exact scalar_nil
  | cons t ts ih =>
    obtain ⟨ht, hts⟩ := List.forall_mem_cons.mp h
    cases ts with
    | nil => simpa using ht
    | cons u us =>
      rw [List.intercalate_cons_cons]
      exact scalar_append.mpr ⟨scalar_append.mpr ⟨ht, hsep⟩, ih hts⟩

theorem splitFrom_append (h : sep ∉ a) (piece t : Text) :
    splitFrom sep piece (a ++ t) = splitFrom sep (piece ++ a) t := by
  induction a generalizing piece with
  | nil => simp
  | cons c a ih =>
    simp only [List.mem_cons, not_or] at h
    rw [List.cons_append, splitFrom, if_neg (Ne.symm h.1), ih h.2, List.append_assoc]
    rfl

/-- The first piece of a text that goes on after a separator. -/
theorem split_append (h : sep ∉ a) (t : Text) : split (a ++ sep :: t) sep = a :: split t sep := by
  rw [split, splitFrom_append h, splitFrom, if_pos rfl]
  rfl

theorem split_of_not_mem (h : sep ∉ a) : split a sep = [a] := by
  have hall := splitFrom_append h [] []
  rwa [List.append_nil] at hall

/-- No piece has the separator in it. -/
theorem not_mem_of_mem_splitFrom {t : Text} (hp : p ∈ splitFrom sep piece t) (h : sep ∉ piece) : sep ∉ p := by
  induction t generalizing piece with
  | nil => exact List.mem_singleton.mp hp ▸ h
  | cons c cs ih =>
    rw [splitFrom] at hp
    split at hp
    · rcases List.mem_cons.mp hp with rfl | hp
      · exact h
      · exact ih hp List.not_mem_nil
    · rename_i hc
      exact ih hp (by simp [h, Ne.symm hc])

theorem not_mem_of_mem_split {t : Text} (hp : p ∈ split t sep) : sep ∉ p :=
  not_mem_of_mem_splitFrom hp List.not_mem_nil

theorem mem_of_mem_splitFrom {t : Text} (hp : p ∈ splitFrom sep piece t) (hc : c ∈ p) : c ∈ piece ∨ c ∈ t := by
  induction t generalizing piece with
  | nil => exact .inl (List.mem_singleton.mp hp ▸ hc)
  | cons d ds ih =>
    rw [splitFrom] at hp
    split at hp
    · rcases List.mem_cons.mp hp with rfl | hp
      · exact .inl hc
      · exact .inr (List.mem_cons_of_mem _ ((ih hp).resolve_left List.not_mem_nil))
    · have hall := ih hp
      rw [List.mem_append, List.mem_singleton, or_assoc] at hall
      rwa [List.mem_cons]

theorem mem_of_mem_split {t : Text} (hp : p ∈ split t sep) (hc : c ∈ p) : c ∈ t :=
  (mem_of_mem_splitFrom hp hc).resolve_left List.not_mem_nil

theorem splitFrom_ne_nil (sep : CodePoint) (piece t : Text) : splitFrom sep piece t ≠ [] := by
  induction t generalizing piece with
  | nil => exact List.cons_ne_nil _ _
  | cons c cs ih =>
    rw [splitFrom]
    split
    · exact List.cons_ne_nil _ _
    · exact ih _

/-- The pieces of a text and its separators are the whole text. -/
theorem intercalate_splitFrom (sep : CodePoint) (piece t : Text) :
    [sep].intercalate (splitFrom sep piece t) = piece ++ t := by
  induction t generalizing piece with
  | nil => simp [splitFrom]
  | cons c cs ih =>
    rw [splitFrom]
    split
    · rename_i hc
      obtain ⟨p, ps, hps⟩ := List.exists_cons_of_ne_nil (splitFrom_ne_nil sep [] cs)
      have hrest := ih []
      rw [hps] at hrest ⊢
      rw [List.intercalate_cons_cons, hrest, hc]
      simp
    · rw [ih, List.append_assoc]
      rfl

theorem split_injective (sep : CodePoint) : Function.Injective fun t => split t sep := by
  intro s t h
  have hs := intercalate_splitFrom sep [] s
  have ht := intercalate_splitFrom sep [] t
  exact hs.symm.trans ((congrArg _ h).trans ht)

/-- The last piece of a split is the one that goes on in the text behind. -/
theorem splitFrom_concat (sep : CodePoint) (piece s t : Text) :
    splitFrom sep piece (s ++ t) =
      (splitFrom sep piece s).dropLast ++ splitFrom sep ((splitFrom sep piece s).getLast?.getD []) t := by
  induction s generalizing piece with
  | nil => rfl
  | cons c cs ih =>
    rw [List.cons_append, splitFrom, splitFrom]
    split
    · have hne := splitFrom_ne_nil sep [] cs
      rw [ih, List.dropLast_cons_of_ne_nil hne, List.getLast?_cons_of_ne_nil hne, List.cons_append]
    · exact ih _

/-- What comes in behind a text goes on in its last piece. -/
theorem split_concat (s t : Text) (sep : CodePoint) :
    split (s ++ t) sep = (split s sep).dropLast ++ split ((split s sep).getLast?.getD [] ++ t) sep := by
  have hlast : sep ∉ (splitFrom sep [] s).getLast?.getD [] := by
    cases h : (splitFrom sep [] s).getLast? with
    | none => exact List.not_mem_nil
    | some p => exact not_mem_of_mem_split (List.mem_of_getLast? h)
  unfold split
  rw [splitFrom_concat, splitFrom_append hlast, List.nil_append]

example : splitlines (text "a\r\nb\n\nc") = [text "a", text "b", [], text "c"] := by decide

example : split (text "a/b//") (ofChar '/') = [text "a", text "b", [], []] := by decide

end Text
end PublicIntelligence
