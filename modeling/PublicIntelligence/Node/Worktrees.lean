import PublicIntelligence.Lib.Dict
import PublicIntelligence.Lib.Posix
import PublicIntelligence.Lib.Runs

namespace PublicIntelligence.Node

open Text Runs Posix

/-- What a process finds: its directories, and which characters `str.isalnum` holds of. -/
structure Platform where
  tempDir : Text
  cwd : Text
  isalnum : CodePoint → Bool
  isalnum_slash : isalnum slash = false

/-- `_worktrees`, and the worktree directories there are, each with the branch that is checked out in it. -/
structure WorktreeManager where
  worktrees : Dict Text Text
  directories : Dict Text Text

/-- How the commands of one call end. `git worktree add` may complain, and so may its retry. -/
structure Outcome where
  removed : Bool
  deleted : Bool
  complaint : Option Text
  retryComplaint : Option Text

namespace WorktreeManager

def init (directories : Dict Text Text) : WorktreeManager := ⟨.empty, directories⟩

section
variable (p : Platform)

def safeName (branchName : Text) : Text :=
  branchName.filter fun c => p.isalnum c || c = ofChar '-' || c = ofChar '_'

def worktreePath (branchName : Text) : Text :=
  abspath p.cwd (join p.tempDir (text "node_worktree_" ++ safeName p branchName))

/-- `git worktree remove -f` -/
def gitRemove (directories : Dict Text Text) (path : Text) (removed : Bool) : Dict Text Text :=
  if removed then directories.pop path else directories

/-- `rmtree`, if the path is still there. -/
def removeTree (directories : Dict Text Text) (path : Text) (deleted : Bool) : Dict Text Text :=
  if path ∈ directories ∧ deleted = true then directories.pop path else directories

def cleanupWorktree (m : WorktreeManager) (branchName : Text) (o : Outcome) : WorktreeManager :=
  let path := match m.worktrees.get? branchName with
    | some path => if path = [] then worktreePath p branchName else path
    | none => worktreePath p branchName
  ⟨m.worktrees.pop branchName, removeTree (gitRemove m.directories path o.removed) path o.deleted⟩

/-- What is raised if `git worktree add` fails: it is asked once more if the complaint is of a
registration that is left over. Whether the branch exists decides only how it is asked. -/
def addError (o : Outcome) : Option Text :=
  match o.complaint with
  | none => none
  | some complaint =>
    if contains complaint (text "already exists") || contains complaint (text "already registered") then
      o.retryComplaint.map (text "Failed to create git worktree on retry: " ++ ·)
    else some (text "Failed to create git worktree: " ++ complaint)

/-- The path, or the text of the `RuntimeError`. -/
def createWorktree (m : WorktreeManager) (branchName : Text) (o : Outcome) : Except Text Text × WorktreeManager :=
  let path := worktreePath p branchName
  let cleaned := if path ∈ m.directories then cleanupWorktree p m branchName o else m
  match addError o with
  | some error => (.error error, cleaned)
  | none => (.ok path, ⟨cleaned.worktrees.set branchName path, cleaned.directories.set path branchName⟩)

inductive Action where
  | create
  | cleanup
deriving DecidableEq

structure Call where
  action : Action
  branchName : Text
  outcome : Outcome

def call (m : WorktreeManager) (c : Call) : WorktreeManager :=
  match c.action with
  | .create => (createWorktree p m c.branchName c.outcome).2
  | .cleanup => cleanupWorktree p m c.branchName c.outcome

def step : Step WorktreeManager Call := fun m c => some (call p m c)

/-- Active branches have directories of their own after the call, and the call leaves those of the others
in place. -/
def Private (m : WorktreeManager) (c : Call) : Prop :=
  (∀ b b' path, (call p m c).worktrees.get? b = some path → (call p m c).worktrees.get? b' = some path → b = b') ∧
    ∀ b path, b ≠ c.branchName → m.worktrees.get? b = some path → m.directories.get? path = some b →
      (call p m c).directories.get? path = some b

/-- No other active branch has a name that is sanitised to the same. -/
def Distinct (m : WorktreeManager) (c : Call) : Prop :=
  ∀ b, b ∈ m.worktrees → b ≠ c.branchName → safeName p b ≠ safeName p c.branchName

/-- Git and the file system do what they are asked. -/
def Outcome.Works (o : Outcome) : Prop := (o.removed = true ∨ o.deleted = true) ∧ addError o = none

end

section
variable {p : Platform} {m : WorktreeManager} {c : Call}

theorem worktreePath_eq (p : Platform) :
    ∃ pre, ∀ b, worktreePath p b = pre ++ (text "node_worktree_" ++ safeName p b) := by
  obtain ⟨pre, hpre⟩ := abspath_join p.cwd p.tempDir
  refine ⟨pre, fun b => hpre _ ?_⟩
  have hstem : slash ∉ text "node_worktree_" := by decide
  have hsafe : slash ∉ safeName p b := by
    intro hmem
    have hkept := (List.mem_filter.mp hmem).2
    rw [p.isalnum_slash] at hkept
    cases hkept
  exact ⟨fun h => (List.mem_append.mp h).elim hstem hsafe, fun h => (by cases h), fun h => (by cases h),
    fun h => (by cases h)⟩

/-- Branches share a path exactly if their names are sanitised to the same. -/
theorem worktreePath_inj : worktreePath p b = worktreePath p b' ↔ safeName p b = safeName p b' := by
  obtain ⟨pre, hpre⟩ := worktreePath_eq p
  rw [hpre, hpre, List.append_cancel_left_eq, List.append_cancel_left_eq]

/-- Every active branch has the path of its name. -/
def Located (p : Platform) (m : WorktreeManager) : Prop :=
  ∀ b path, m.worktrees.get? b = some path → path = worktreePath p b

/-- And no other active branch has it. -/
structure Apart (p : Platform) (m : WorktreeManager) : Prop where
  located : Located p m
  own : ∀ b b' path, m.worktrees.get? b = some path → m.worktrees.get? b' = some path → b = b'

/-- The directory of every active branch is there, with the branch checked out. -/
structure Placed (p : Platform) (m : WorktreeManager) : Prop where
  located : Located p m
  there : ∀ b path, m.worktrees.get? b = some path → m.directories.get? path = some b

theorem Placed.apart (h : Placed p m) : Apart p m :=
  ⟨h.located, fun b b' path hb hb' => Option.some.inj ((h.there b path hb).symm.trans (h.there b' path hb'))⟩

theorem gitRemove_other (directories : Dict Text Text) (removed : Bool) (h : q ≠ path) :
    (gitRemove directories path removed).get? q = directories.get? q := by
  unfold gitRemove
  split
  · exact Dict.get?_pop_ne _ h.symm
  · rfl

theorem removeTree_other (directories : Dict Text Text) (deleted : Bool) (h : q ≠ path) :
    (removeTree directories path deleted).get? q = directories.get? q := by
  unfold removeTree
  split
  · exact Dict.get?_pop_ne _ h.symm
  · rfl

/-- One of the two is enough to have the directory gone. -/
theorem removed_of_either (directories : Dict Text Text) {removed deleted : Bool}
    (h : removed = true ∨ deleted = true) :
    (removeTree (gitRemove directories path removed) path deleted).get? path = none := by
  unfold removeTree
  split
  · rw [Dict.get?_pop, if_pos rfl]
  · rename_i hkept
    refine Dict.not_mem_iff.mp fun hmem => ?_
    rcases h with rfl | hdeleted
    · exact (Dict.mem_pop.mp hmem).1 rfl
    · exact hkept ⟨hmem, hdeleted⟩

theorem cleanup_directories (h : Located p m) (b : Text) (o : Outcome) :
    (cleanupWorktree p m b o).directories =
      removeTree (gitRemove m.directories (worktreePath p b) o.removed) (worktreePath p b) o.deleted := by
  unfold cleanupWorktree
  cases hb : m.worktrees.get? b with
  | none => rfl
  | some path =>
    have hpath := h b path hb
    dsimp only
    split
    · rfl
    · rw [hpath]

theorem cleanup_other (m : WorktreeManager) (o : Outcome) (h : b' ≠ b) :
    (cleanupWorktree p m b o).worktrees.get? b' = m.worktrees.get? b' := Dict.get?_pop_ne _ h.symm

theorem cleanup_self (m : WorktreeManager) (b : Text) (o : Outcome) :
    (cleanupWorktree p m b o).worktrees.get? b = none := by
  rw [cleanupWorktree, Dict.get?_pop, if_pos rfl]

/-- What a call does to a branch and to its directory, and what it does to the others: nothing. -/
structure Frame (p : Platform) (m : WorktreeManager) (b : Text) (m' : WorktreeManager) : Prop where
  own : ∀ path, m'.worktrees.get? b = some path → path = worktreePath p b
  worktrees : ∀ b', b' ≠ b → m'.worktrees.get? b' = m.worktrees.get? b'
  directories : ∀ path, path ≠ worktreePath p b → m'.directories.get? path = m.directories.get? path

theorem frame_cleanup (h : Located p m) (b : Text) (o : Outcome) : Frame p m b (cleanupWorktree p m b o) where
  own path hb := by
    rw [cleanup_self] at hb
    cases hb
  worktrees b' hb := cleanup_other m o hb
  directories path hp := by
    rw [cleanup_directories h, removeTree_other _ _ hp, gitRemove_other _ _ hp]

theorem frame_create (h : Located p m) (b : Text) (o : Outcome) : Frame p m b (createWorktree p m b o).2 := by
  have hcleaned : Frame p m b (if worktreePath p b ∈ m.directories then cleanupWorktree p m b o else m) := by
    split
    · exact frame_cleanup h b o
    · exact ⟨h b, fun _ _ => rfl, fun _ _ => rfl⟩
  unfold createWorktree
  dsimp only
  split
  · exact hcleaned
  · refine ⟨fun path hb => ?_, fun b' hb => ?_, fun path hp => ?_⟩
    · rw [Dict.get?_set_self] at hb
      exact (Option.some.inj hb).symm
    · rw [Dict.get?_set_ne _ _ hb.symm]
      exact hcleaned.worktrees b' hb
    · rw [Dict.get?_set_ne _ _ hp.symm]
      exact hcleaned.directories path hp

theorem frame_call (h : Located p m) (c : Call) : Frame p m c.branchName (call p m c) := by
  unfold call
  cases c.action with
  | create => exact frame_create h _ _
  | cleanup => exact frame_cleanup h _ _

theorem Frame.located (hf : Frame p m b m') (h : Located p m) : Located p m' := by
  intro b' path hb'
  by_cases hb : b' = b
  · subst hb
    exact hf.own path hb'
  · exact h b' path (hf.worktrees b' hb ▸ hb')

/-- A branch whose name is sanitised otherwise is active and in place as before. -/
theorem paths_differ (hd : Distinct p m c) (h : Located p m) (hb : b ≠ c.branchName)
    (hp : m.worktrees.get? b = some path) : path ≠ worktreePath p c.branchName := by
  rw [h b path hp]
  exact fun hsame => hd b (Dict.mem_iff.mpr ⟨path, hp⟩) hb (worktreePath_inj.mp hsame)

theorem apart_call (h : Apart p m) (hd : Distinct p m c) : Apart p (call p m c) := by
  have hf := frame_call h.located c
  have hother : ∀ b path, b ≠ c.branchName → (call p m c).worktrees.get? b = some path →
      path ≠ worktreePath p c.branchName := by
    intro b path hb hpath
    rw [hf.worktrees b hb] at hpath
    exact paths_differ hd h.located hb hpath
  refine ⟨hf.located h.located, fun b b' path hpath hpath' => ?_⟩
  by_cases hb : b = c.branchName
  · by_cases hb' : b' = c.branchName
    · exact hb.trans hb'.symm
    · subst hb
      exact absurd (hf.own path hpath) (hother b' path hb' hpath')
  · by_cases hb' : b' = c.branchName
    · subst hb'
      exact absurd (hf.own path hpath') (hother b path hb hpath)
    · rw [hf.worktrees b hb] at hpath
      rw [hf.worktrees b' hb'] at hpath'
      exact h.own b b' path hpath hpath'

theorem private_of_distinct (h : Apart p m) (hd : Distinct p m c) : Private p m c := by
  refine ⟨(apart_call h hd).own, fun b path hb hpath hthere => ?_⟩
  rw [(frame_call h.located c).directories path (paths_differ hd h.located hb hpath)]
  exact hthere

/-- What a call does that works. -/
theorem call_works (h : Located p m) (ho : Outcome.Works c.outcome) :
    (c.action = .create ∧ (call p m c).worktrees.get? c.branchName = some (worktreePath p c.branchName) ∧
      (call p m c).directories.get? (worktreePath p c.branchName) = some c.branchName) ∨
    (c.action = .cleanup ∧ (call p m c).worktrees.get? c.branchName = none ∧
      (call p m c).directories.get? (worktreePath p c.branchName) = none) := by
  unfold call
  cases c.action with
  | create =>
    refine .inl ⟨rfl, ?_⟩
    simp only [createWorktree, ho.2, Dict.get?_set_self, and_self]
  | cleanup =>
    refine .inr ⟨rfl, cleanup_self _ _ _, ?_⟩
    rw [cleanup_directories h, removed_of_either _ ho.1]

theorem placed_call (h : Placed p m) (hd : Distinct p m c) (ho : Outcome.Works c.outcome) : Placed p (call p m c) := by
  have hf := frame_call h.located c
  refine ⟨hf.located h.located, fun b path hpath => ?_⟩
  by_cases hb : b = c.branchName
  · subst hb
    obtain rfl := hf.own path hpath
    rcases call_works h.located ho with ⟨_, _, hthere⟩ | ⟨_, hgone, _⟩
    · exact hthere
    · cases hgone.symm.trans hpath
  · rw [hf.worktrees b hb] at hpath
    rw [hf.directories path (paths_differ hd h.located hb hpath)]
    exact h.there b path hpath

/-- A call that works is private exactly if the name is sanitised as that of no other active branch. -/
theorem private_iff_distinct (h : Placed p m) (ho : Outcome.Works c.outcome) : Private p m c ↔ Distinct p m c := by
  refine ⟨fun hp b hmem hb hsame => ?_, fun hd => private_of_distinct h.apart hd⟩
  obtain ⟨path, hpath⟩ := Dict.mem_iff.mp hmem
  have hlocated : path = worktreePath p c.branchName := (h.located b path hpath).trans (worktreePath_inj.mpr hsame)
  have hstays : (call p m c).directories.get? path = some b := hp.2 b path hb hpath (h.there b path hpath)
  rw [hlocated] at hstays
  rcases call_works h.located ho with ⟨_, _, hthere⟩ | ⟨_, _, hgone⟩
  · exact hb (Option.some.inj (hstays.symm.trans hthere))
  · cases hgone.symm.trans hstays

end

/-- Worktrees are private for as long as no two active branches have names that are sanitised to the same;
where git and the file system do as they are asked, no longer than that. -/
theorem worktrees_private_iff (p : Platform) (directories : Dict Text Text) (calls : List Call) :
    (Along (step p) (Distinct p) (init directories) calls → Along (step p) (Private p) (init directories) calls) ∧
      ((∀ c ∈ calls, Outcome.Works c.outcome) →
        (Along (step p) (Private p) (init directories) calls ↔
          Along (step p) (Distinct p) (init directories) calls)) := by
  have hnone : ∀ b path, (init directories).worktrees.get? b ≠ some path := fun b path h => by cases h
  have hstart : Placed p (init directories) :=
    ⟨fun b path h => absurd h (hnone b path), fun b path h => absurd h (hnone b path)⟩
  constructor
  · intro hd
    exact along_imp (I := Apart p) (fun m c m' h hd hm => Option.some.inj hm ▸ apart_call h hd)
      (fun m c h hd => private_of_distinct h hd) hstart.apart hd
  · intro hworks
    exact along_iff_along (I := Placed p) (G := fun _ c => Outcome.Works c.outcome)
      (fun m c m' h ho hd hm => Option.some.inj hm ▸ placed_call h hd ho)
      (fun m c h ho => private_iff_distinct h ho) hstart (along_forall hworks)

/-- A machine on which the letters and digits are those of ASCII. -/
def plainPlatform : Platform where
  tempDir := text "/tmp"
  cwd := text "/home/node"
  isalnum c := (48 ≤ c.val && c.val ≤ 57) || (65 ≤ c.val && c.val ≤ 90) || (97 ≤ c.val && c.val ≤ 122)
  isalnum_slash := by decide

def created (branchName : String) : Call := ⟨.create, text branchName, ⟨true, true, none, none⟩⟩

def firstCreated : WorktreeManager := call plainPlatform (init .empty) (created "feature/a")

/-- The worktree of `featurea` takes the place of that of `feature/a`. -/
theorem worktree_is_taken_over :
    ¬ ∀ (p : Platform) (directories : Dict Text Text) (calls : List Call),
      Along (step p) (Private p) (init directories) calls := by
  intro h
  have hprivate := h plainPlatform .empty [created "feature/a", created "featurea"]
  have hfirst : (call plainPlatform firstCreated (created "featurea")).worktrees.get? (text "feature/a") =
      some (text "/tmp/node_worktree_featurea") := by decide +kernel
  have hsecond : (call plainPlatform firstCreated (created "featurea")).worktrees.get? (text "featurea") =
      some (text "/tmp/node_worktree_featurea") := by decide +kernel
  have hsame := (hprivate.2 firstCreated rfl).1.1 _ _ _ hfirst hsecond
  revert hsame
  decide

end WorktreeManager
end PublicIntelligence.Node
