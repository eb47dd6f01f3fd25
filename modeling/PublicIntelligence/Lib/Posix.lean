import PublicIntelligence.Lib.Text

namespace PublicIntelligence.Posix

open Text

def slash : CodePoint := ofChar '/'

/-- `os.path.join` of two parts. -/
def join (a b : Text) : Text :=
  if startswith b [slash] then b
  else if a = [] ∨ endswith a [slash] then a ++ b
  else a ++ slash :: b

/-- The slashes that `normpath` keeps in front: one stands for three or more. -/
def initialSlashes (path : Text) : Text :=
  if startswith path [slash, slash] && !startswith path [slash, slash, slash] then [slash, slash]
  else if startswith path [slash] then [slash]
  else []

/-- One component of a path, behind those that are left of the ones before it. -/
def addComponent (rooted : Bool) (comps : List Text) (comp : Text) : List Text :=
  if comp = [] ∨ comp = text "." then comps
  else if comp ≠ text ".." ∨ (rooted = false ∧ comps = []) ∨ comps.getLast? = some (text "..") then comps ++ [comp]
  else comps.dropLast

def normpath (path : Text) : Text :=
  let slashes := initialSlashes path
  let comps := (split path slash).foldl (addComponent (slashes ≠ [])) []
  let normal := slashes ++ [slash].intercalate comps
  if path = [] ∨ normal = [] then text "." else normal

def abspath (cwd path : Text) : Text := normpath (if startswith path [slash] then path else join cwd path)

/-- The name of an entry of a directory. -/
structure Plain (name : Text) : Prop where
  slash : slash ∉ name
  ne_nil : name ≠ []
  ne_dot : name ≠ text "."
  ne_up : name ≠ text ".."

/-- The directory with the slash that `join` puts behind it. -/
def opened (dir : Text) : Text := if dir = [] ∨ endswith dir [slash] then dir else dir ++ [slash]

/-- A text that a name can follow. -/
def Open (a : Text) : Prop := a = [] ∨ ∃ b, a = b ++ [slash]

variable {name : Text}

theorem open_opened (dir : Text) : Open (opened dir) := by
  unfold opened
  split
  · rename_i h
    rcases h with rfl | h
    · exact .inl rfl
    · obtain ⟨b, hb⟩ := List.isSuffixOf_iff_suffix.mp h
      exact .inr ⟨b, hb.symm⟩
  · exact .inr ⟨dir, rfl⟩

theorem Open.append (h : Open a) (b : Text) (hb : Open b) : Open (a ++ b) := by
  rcases hb with rfl | ⟨c, rfl⟩
  · rwa [List.append_nil]
  · exact .inr ⟨a ++ c, (List.append_assoc a c _).symm⟩

/-- No name makes a path begin with more slashes than the text before it. -/
theorem startswith_slashes (h : slash ∉ name) (a : Text) (k : Nat) :
    startswith (a ++ name) (List.replicate k slash) = startswith a (List.replicate k slash) := by
  induction k generalizing a with
  | zero => simp [startswith]
  | succ k ih =>
    cases a with
    | nil =>
      cases name with
      | nil => rfl
      | cons c cs =>
        have hc : (slash == c) = false := beq_false_of_ne fun hc => h (hc ▸ List.mem_cons_self)
        simp [startswith, List.replicate_succ, List.isPrefixOf, hc]
    | cons c cs =>
      have hcs := ih cs
      unfold startswith at hcs ⊢
      rw [List.cons_append, List.replicate_succ, List.isPrefixOf, List.isPrefixOf, hcs]

theorem initialSlashes_append (h : slash ∉ name) (a : Text) : initialSlashes (a ++ name) = initialSlashes a := by
  have hone := startswith_slashes h a 1
  have htwo := startswith_slashes h a 2
  have hthree := startswith_slashes h a 3
  simp only [List.replicate_succ, List.replicate_zero] at hone htwo hthree
  unfold initialSlashes
  rw [hone, htwo, hthree]

theorem join_eq (h : startswith b [slash] = false) (a : Text) : join a b = opened a ++ b := by
  unfold join opened
  rw [h, if_neg Bool.false_ne_true]
  split
  · rfl
  · rw [List.append_assoc, List.singleton_append]

/-- A name that comes in behind a slash is a piece of its own. -/
theorem split_open (ha : Open a) (h : slash ∉ name) :
    split (a ++ name) slash = (split a slash).dropLast ++ [name] := by
  have hlast : (split a slash).getLast?.getD [] = [] := by
    rcases ha with rfl | ⟨b, rfl⟩
    · rfl
    · have hb : slash ∉ (split b slash).getLast?.getD [] := by
        cases hp : (split b slash).getLast? with
        | none => exact List.not_mem_nil
        | some p => exact not_mem_of_mem_split (List.mem_of_getLast? hp)
      rw [split_concat, split_append hb, List.getLast?_append]
      rfl
  rw [split_concat, hlast, List.nil_append, split_of_not_mem h]

theorem intercalate_concat (cs : List Text) (name : Text) :
    [slash].intercalate (cs ++ [name]) = cs.flatMap (· ++ [slash]) ++ name := by
  induction cs with
  | nil => simp
  | cons c cs ih =>
    obtain ⟨d, ds, hd⟩ := List.exists_cons_of_ne_nil (List.append_ne_nil_of_right_ne_nil cs (List.cons_ne_nil name []))
    rw [List.cons_append, hd, List.intercalate_cons_cons, ← hd, ih, List.flatMap_cons, List.append_assoc,
      List.append_assoc, List.append_assoc]

/-- What stands before the name in the normal form of a path. -/
def root (a : Text) : Text :=
  initialSlashes a ++ ((split a slash).dropLast.foldl (addComponent (initialSlashes a ≠ [])) []).flatMap (· ++ [slash])

theorem normpath_name (ha : Open a) (h : Plain name) : normpath (a ++ name) = root a ++ name := by
  have hadd : ∀ rooted comps, addComponent rooted comps name = comps ++ [name] := fun rooted comps => by
    rw [addComponent, if_neg (not_or.mpr ⟨h.ne_nil, h.ne_dot⟩), if_pos (.inl h.ne_up)]
  unfold normpath
  simp only [initialSlashes_append h.slash, split_open ha h.slash, List.foldl_append, List.foldl_cons,
    List.foldl_nil, hadd, intercalate_concat]
  rw [if_neg (by simp [h.ne_nil]), root, List.append_assoc]

/-- An entry of a directory has the path of the directory before its name. -/
theorem abspath_join (cwd dir : Text) : ∃ pre, ∀ name, Plain name → abspath cwd (join dir name) = pre ++ name := by
  have hplain : ∀ {name : Text}, Plain name → ∀ a, startswith (a ++ name) [slash] = startswith a [slash] :=
    fun h a => startswith_slashes h.slash a 1
  have hname : ∀ {name : Text}, Plain name → startswith name [slash] = false := fun h => hplain h []
  cases hrooted : startswith (opened dir) [slash] with
  | true =>
    refine ⟨root (opened dir), fun name h => ?_⟩
    rw [abspath, join_eq (hname h), hplain h, hrooted, if_pos rfl, normpath_name (open_opened dir) h]
  | false =>
    refine ⟨root (opened cwd ++ opened dir), fun name h => ?_⟩
    have hjoin : startswith (opened dir ++ name) [slash] = false := (hplain h _).trans hrooted
    rw [abspath, join_eq (hname h), hjoin, if_neg Bool.false_ne_true, join_eq hjoin, ← List.append_assoc,
      normpath_name ((open_opened cwd).append _ (open_opened dir)) h]

example : abspath (text "/home/node") (join (text "/tmp/../var//tmp/") (text "node")) = text "/var/tmp/node" := by
  decide

end PublicIntelligence.Posix
