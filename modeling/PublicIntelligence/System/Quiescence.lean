import Mathlib.Logic.Function.Basic
import PublicIntelligence.Lib.Runs
import PublicIntelligence.Scheduler.Invites

namespace PublicIntelligence.System

open Runs Text Scheduler

/-- What memory and store both keep: the nodes and their credentials, by id. -/
structure Kept where
  node : Text → Option Node
  token : Text → Option Text

namespace Kept

def saveNode (k : Kept) (node : Node) : Kept :=
  { k with node := Function.update k.node node.nodeId (some node) }

def deleteNode (k : Kept) (nodeId : Text) : Kept where
  node := Function.update k.node nodeId none
  token := Function.update k.token nodeId none

def saveNodeToken (k : Kept) (nodeId : Text) (token : Option Text) : Kept :=
  { k with token := Function.update k.token nodeId (given token) }

/-- The nodes and credentials of two dictionaries. -/
def of (nodes : Nodes) (tokens : Dict Text Text) : Kept := ⟨nodes.get?, tokens.get?⟩

theorem of_put (nodes : Nodes) (tokens : Dict Text Text) (node : Node) :
    of (nodes.put node) tokens = (of nodes tokens).saveNode node := by
  refine congrArg (Kept.mk · tokens.get?) (funext fun n => ?_)
  rw [Table.get?_put, Function.update_apply]
  simp only [of, eq_comm]

theorem of_pop (nodes : Nodes) (tokens : Dict Text Text) (nodeId : Text) :
    of (nodes.pop nodeId) (tokens.pop nodeId) = (of nodes tokens).deleteNode nodeId := by
  refine congrArg₂ Kept.mk (funext fun n => ?_) (funext fun n => ?_)
  · rw [Table.get?_pop, Function.update_apply]
    simp only [of, eq_comm]
  · rw [Dict.get?_pop, Function.update_apply]
    simp only [of, eq_comm]

theorem of_set (nodes : Nodes) (tokens : Dict Text Text) {token : Option Text} (h : given token = some t) :
    of nodes (tokens.set nodeId t) = (of nodes tokens).saveNodeToken nodeId token := by
  refine congrArg (Kept.mk nodes.get?) (funext fun n => ?_)
  rw [Dict.get?_set, Function.update_apply, h]
  simp only [of, eq_comm]

theorem of_unset (nodes : Nodes) (tokens : Dict Text Text) {token : Option Text} (h : given token = none) :
    of nodes (tokens.pop nodeId) = (of nodes tokens).saveNodeToken nodeId token := by
  refine congrArg (Kept.mk nodes.get?) (funext fun n => ?_)
  rw [Dict.get?_pop, Function.update_apply, h]
  simp only [of, eq_comm]

end Kept

/-- The methods of `SchedulerStore` that the node registry calls, as what they do to a
backend's contents. -/
structure StoreMethods (σ : Type) where
  loadNodes : σ → Nodes
  loadNodeTokens : σ → Dict Text Text
  saveNode : σ → Node → σ
  deleteNode : σ → Text → σ
  saveNodeToken : σ → Text → Option Text → σ

def StoreMethods.kept (S : StoreMethods σ) (store : σ) : Kept :=
  .of (S.loadNodes store) (S.loadNodeTokens store)

/-- Any backend whose methods do what the docstrings of the interface say. -/
structure SchedulerStore (σ : Type) extends StoreMethods σ where
  kept_saveNode : ∀ s node,
    toStoreMethods.kept (saveNode s node) = (toStoreMethods.kept s).saveNode node
  kept_deleteNode : ∀ s nodeId,
    toStoreMethods.kept (deleteNode s nodeId) = (toStoreMethods.kept s).deleteNode nodeId
  kept_saveNodeToken : ∀ s nodeId token,
    toStoreMethods.kept (saveNodeToken s nodeId token) = (toStoreMethods.kept s).saveNodeToken nodeId token

/-- The statements of the SQLite backend, behind a driver that awaits. -/
def rowStore : SchedulerStore SQLiteStore where
  loadNodes := SQLiteStore.nodes
  loadNodeTokens := SQLiteStore.nodeTokens
  saveNode := SQLiteStore.saveNode
  deleteNode := SQLiteStore.deleteNode
  saveNodeToken := SQLiteStore.saveNodeToken
  kept_saveNode s node := Kept.of_put s.nodes s.nodeTokens node
  kept_deleteNode s nodeId := Kept.of_pop s.nodes s.nodeTokens nodeId
  kept_saveNodeToken s nodeId token := by
    unfold SQLiteStore.saveNodeToken
    split
    · rename_i h
      exact Kept.of_set s.nodes s.nodeTokens h
    · rename_i h
      exact Kept.of_unset s.nodes s.nodeTokens h

namespace Racing

/-- A call on the registry that writes to the store. -/
inductive Op where
  | setNodeToken (nodeId : Text) (token : Option Text)
  | register (node : Node)
  | unregister (nodeId : Text)
  | unregisterNode (nodeId : Text)

namespace Op

/-- What the call does to memory; `none` is the `ValueError` it raises. -/
def memory (r : NodeRegistry) : Op → Option NodeRegistry
  | setNodeToken nodeId token => some (r.setNodeToken nodeId token)
  | register node => r.localRegister node
  | unregister nodeId => r.localUnregister nodeId
  | unregisterNode nodeId => some (r.localUnregisterNode nodeId)

/-- The method of the store that the call awaits. -/
def persist (S : StoreMethods σ) (store : σ) : Op → σ
  | setNodeToken nodeId token => S.saveNodeToken store nodeId token
  | register node => S.saveNode store node
  | unregister nodeId => S.deleteNode store nodeId
  | unregisterNode nodeId => S.deleteNode store nodeId

/-- `async with self._lock`: around the memory change and the store call both. -/
def locks : Op → Bool
  | setNodeToken .. => false
  | _ => true

/-- The node whose credential the call writes, and what it leaves there. -/
def credential : Op → Option (Text × Option Text)
  | setNodeToken nodeId token => some (nodeId, given token)
  | register _ => none
  | unregister nodeId => some (nodeId, none)
  | unregisterNode nodeId => some (nodeId, none)

/-- What the call does to either side. -/
def apply (k : Kept) : Op → Kept
  | setNodeToken nodeId token => k.saveNodeToken nodeId token
  | register node => k.saveNode node
  | unregister nodeId => k.deleteNode nodeId
  | unregisterNode nodeId => k.deleteNode nodeId

end Op

def keptInMemory (r : NodeRegistry) : Kept := .of r.nodes r.nodeTokens

section
variable {op : Op} {r r' : NodeRegistry}

/-- The memory half of a call that does not raise is its effect on the kept. -/
theorem memory_kept (h : op.memory r = some r') : keptInMemory r' = op.apply (keptInMemory r) := by
  cases op with
  | setNodeToken nodeId token =>
    cases h
    unfold keptInMemory NodeRegistry.setNodeToken
    split
    · rename_i hg
      exact Kept.of_set r.nodes r.nodeTokens hg
    · rename_i hg
      exact Kept.of_unset r.nodes r.nodeTokens hg
  | register node =>
    obtain ⟨_, rfl⟩ := NodeRegistry.localRegister_eq_some.mp h
    exact Kept.of_put r.nodes r.nodeTokens node
  | unregister nodeId =>
    obtain ⟨_, rfl⟩ := NodeRegistry.localUnregister_eq_some.mp h
    exact Kept.of_pop r.nodes r.nodeTokens nodeId
  | unregisterNode nodeId =>
    cases h
    exact Kept.of_pop r.nodes r.nodeTokens nodeId

/-- So is the store half. -/
theorem persist_kept (S : SchedulerStore σ) (store : σ) (op : Op) :
    S.kept (op.persist S.toStoreMethods store) = op.apply (S.kept store) := by
  cases op with
  | setNodeToken nodeId token => exact S.kept_saveNodeToken store nodeId token
  | register node => exact S.kept_saveNode store node
  | unregister nodeId => exact S.kept_deleteNode store nodeId
  | unregisterNode nodeId => exact S.kept_deleteNode store nodeId

/-- What a call does to the nodes depends on the nodes alone. -/
theorem apply_node_congr {k l : Kept} (h : k.node = l.node) (op : Op) :
    (op.apply k).node = (op.apply l).node := by
  cases op with
  | setNodeToken nodeId token => exact h
  | register node => exact congrArg (Function.update · node.nodeId (some node)) h
  | unregister nodeId => exact congrArg (Function.update · nodeId none) h
  | unregisterNode nodeId => exact congrArg (Function.update · nodeId none) h

/-- A call outside the lock leaves the nodes alone. -/
theorem apply_node_unlocked (k : Kept) (h : op.locks = false) : (op.apply k).node = k.node := by
  cases op with
  | setNodeToken nodeId token => rfl
  | register node => cases h
  | unregister nodeId => cases h
  | unregisterNode nodeId => cases h

theorem apply_token (k : Kept) (h : op.credential = some (n, left)) : (op.apply k).token n = left := by
  cases op with
  | setNodeToken nodeId token =>
    cases h
    exact Function.update_self ..
  | register node => cases h
  | unregister nodeId =>
    cases h
    exact Function.update_self ..
  | unregisterNode nodeId =>
    cases h
    exact Function.update_self ..

theorem apply_token_other (k : Kept) (h : ∀ left, op.credential ≠ some (n, left)) :
    (op.apply k).token n = k.token n := by
  have hne : ∀ {m left}, op.credential = some (m, left) → n ≠ m := by
    rintro m left hm rfl
    exact h left hm
  cases op with
  | setNodeToken nodeId token => exact Function.update_of_ne (hne rfl) ..
  | register node => rfl
  | unregister nodeId => exact Function.update_of_ne (hne rfl) ..
  | unregisterNode nodeId => exact Function.update_of_ne (hne rfl) ..

end
end Racing

/-- Where a call stands: not yet at its memory change, awaiting the store, with its
effect on the store behind it, or returned. -/
inductive Phase where
  | waiting
  | saving
  | saved
  | returned
deriving DecidableEq

structure Call where
  op : Racing.Op
  phase : Phase

/-- The registry, its store, the calls made so far and the one that holds the lock. `changed` notes
for each credential the call that changed it in memory last; no code reads it. -/
structure Racing (σ : Type) where
  registry : NodeRegistry
  store : σ
  lock : Option Nat
  calls : Dict Nat Call
  changed : Dict Text Nat

namespace Racing

/-- What the event loop runs next: a call is made, it goes on to its first `await` or to
the end, its store call takes effect, or that returns. -/
inductive Act where
  | arrive (i : Nat) (op : Op)
  | proceed (i : Nat)
  | effect (i : Nat)
  | resume (i : Nat)

/-- What `changed` is once call `i` has changed memory. -/
def Op.noted (op : Op) (i : Nat) (changed : Dict Text Nat) : Dict Text Nat :=
  match op.credential with
  | some (nodeId, _) => changed.set nodeId i
  | none => changed

def Op.step (op : Op) (i : Nat) (s : Racing σ) : Option (Racing σ) :=
  -- `asyncio.Lock` serves its waiters in order; here any of them may be next
  if op.locks = true ∧ s.lock ≠ none then none
  else
    match op.memory s.registry with
    | none => some { s with calls := s.calls.set i ⟨op, .returned⟩ }
    | some registry => some { s with
        registry
        lock := if op.locks then some i else s.lock
        calls := s.calls.set i ⟨op, .saving⟩
        changed := op.noted i s.changed }

def step (S : StoreMethods σ) : Step (Racing σ) Act
  | s, .arrive i op =>
    if i ∈ s.calls then none else some { s with calls := s.calls.set i ⟨op, .waiting⟩ }
  | s, .proceed i =>
    match s.calls.get? i with
    | some ⟨op, .waiting⟩ => op.step i s
    | _ => none
  | s, .effect i =>
    match s.calls.get? i with
    | some ⟨op, .saving⟩ => some { s with
        store := op.persist S s.store
        calls := s.calls.set i ⟨op, .saved⟩ }
    | _ => none
  | s, .resume i =>
    match s.calls.get? i with
    | some ⟨op, .saved⟩ => some { s with
        lock := if op.locks then none else s.lock
        calls := s.calls.set i ⟨op, .returned⟩ }
    | _ => none

/-- A registry that has loaded its store, before any call. -/
def start (S : StoreMethods σ) (store : σ) : Racing σ :=
  ⟨.load (S.loadNodes store) (S.loadNodeTokens store), store, none, .empty, .empty⟩

def Quiescent (s : Racing σ) : Prop := ∀ i c, s.calls.get? i = some c → c.phase = .returned

/-- Memory and store hold the same nodes and the same credentials. -/
def Alike (S : StoreMethods σ) (s : Racing σ) : Prop := keptInMemory s.registry = S.kept s.store

/-- A call whose write of `n`'s credential has still to take effect. -/
def Owes (s : Racing σ) (i : Nat) (n : Text) : Prop :=
  ∃ c ∈ s.calls.get? i, c.phase = .saving ∧ ∃ w ∈ c.op.credential, w.1 = n

/-- The last write of a credential to take effect, of those under way, is that of the call that
changed the credential in memory last. -/
def Clean (s : Racing σ) : Act → Prop
  | .effect i => ∀ c ∈ s.calls.get? i, ∀ w ∈ c.op.credential,
      (∀ j ∈ s.calls.keys, s.Owes j w.1 → j = i) → s.changed.get? w.1 = some i
  | _ => True

/-- Memory holds what the call that changed a credential last has left there. -/
def Latest (s : Racing σ) : Prop :=
  ∀ n i, s.changed.get? n = some i → ∃ c left, s.calls.get? i = some c ∧
    c.op.credential = some (n, left) ∧ (keptInMemory s.registry).token n = left

/-- What every run keeps as long as its steps are clean. -/
structure Settled (S : StoreMethods σ) (s : Racing σ) : Prop where
  /-- A call inside the lock holds it. -/
  holds : ∀ i op phase, s.calls.get? i = some ⟨op, phase⟩ → op.locks = true →
    phase = .saving ∨ phase = .saved → s.lock = some i
  /-- Nodes differ only by what a call inside the lock has still to write. -/
  idle : (∀ i op, s.calls.get? i = some ⟨op, .saving⟩ → op.locks = false) →
    (S.kept s.store).node = (keptInMemory s.registry).node
  owed : ∀ i op, s.calls.get? i = some ⟨op, .saving⟩ → op.locks = true →
    (op.apply (S.kept s.store)).node = (keptInMemory s.registry).node
  /-- Credentials differ only where a write is under way. -/
  token : ∀ n, (∀ i, ¬ s.Owes i n) → (S.kept s.store).token n = (keptInMemory s.registry).token n

section
variable {S : SchedulerStore σ} {s t : Racing σ} {op : Op} {phase : Phase}

theorem owes_iff : s.Owes i n ↔ ∃ op left, s.calls.get? i = some ⟨op, .saving⟩ ∧ op.credential = some (n, left) := by
  constructor
  · rintro ⟨⟨op, _⟩, hget, rfl, ⟨_, left⟩, hc, rfl⟩
    exact ⟨op, left, hget, hc⟩
  · rintro ⟨op, left, hget, hc⟩
    exact ⟨_, hget, rfl, _, hc, rfl⟩

/-- A call that was not awaiting the store, and is not now, leaves those that are as they were. -/
theorem saving_set {calls : Dict Nat Call} (hold : ∀ op, calls.get? i ≠ some ⟨op, .saving⟩)
    (hnew : phase ≠ .saving) {op' : Op} :
    (calls.set i ⟨op, phase⟩).get? j = some ⟨op', .saving⟩ ↔ calls.get? j = some ⟨op', .saving⟩ := by
  rw [Dict.get?_set]
  split
  · rename_i hij
    subst hij
    exact iff_of_false (fun h => hnew (by cases h; rfl)) (hold op')
  · exact Iff.rfl

/-- A call that goes on and changes nothing in memory. -/
theorem Latest.goes (h : s.Latest) (hop : ∀ c ∈ s.calls.get? i, c.op = op) (store : σ) (lock : Option Nat) :
    Latest { s with store, lock, calls := s.calls.set i ⟨op, phase⟩ } := by
  intro n j hj
  obtain ⟨c, left, hc, hleft, hmemory⟩ := h n j hj
  by_cases hij : i = j
  · subst hij
    exact ⟨⟨op, phase⟩, left, Dict.get?_set_self .., hop c hc ▸ hleft, hmemory⟩
  · exact ⟨c, left, (Dict.get?_set_ne _ _ hij).trans hc, hleft, hmemory⟩

/-- The call that changes a credential is its latest, and no other credential changes. -/
theorem Latest.change (h : s.Latest) (hi : s.calls.get? i = some ⟨op, phase⟩) {registry : NodeRegistry}
    (hm : op.memory s.registry = some registry) (lock : Option Nat) {phase' : Phase} :
    Latest { s with registry, lock, calls := s.calls.set i ⟨op, phase'⟩, changed := op.noted i s.changed } := by
  have hkept := memory_kept hm
  intro n j hj
  by_cases hc : ∃ left, op.credential = some (n, left)
  · obtain ⟨left, hc⟩ := hc
    have hij : i = j := by
      rw [Op.noted, hc, Dict.get?_set_self] at hj
      exact Option.some.inj hj
    subst hij
    refine ⟨⟨op, phase'⟩, left, Dict.get?_set_self .., hc, ?_⟩
    rw [hkept, apply_token _ hc]
  · have hfar : ∀ left, op.credential ≠ some (n, left) := fun left hl => hc ⟨left, hl⟩
    have hbefore : s.changed.get? n = some j := by
      unfold Op.noted at hj
      split at hj
      · rename_i m left hm
        rwa [Dict.get?_set_ne] at hj
        rintro rfl
        exact hfar left hm
      · exact hj
    obtain ⟨c, left, hget, hleft, hmemory⟩ := h n j hbefore
    have hij : i ≠ j := by
      rintro rfl
      cases hi.symm.trans hget
      exact hfar left hleft
    refine ⟨c, left, (Dict.get?_set_ne _ _ hij).trans hget, hleft, ?_⟩
    rw [hkept, apply_token_other _ hfar, hmemory]

theorem latest_step (h : s.Latest) (ht : step S.toStoreMethods s a = some t) : t.Latest := by
  cases a with
  | arrive i op =>
    simp only [step, Option.ite_none_left_eq_some, Option.some.injEq] at ht
    obtain ⟨hfresh, rfl⟩ := ht
    exact h.goes (by simp [Dict.not_mem_iff.mp hfresh]) _ _
  | proceed i =>
    simp only [step] at ht
    split at ht
    · rename_i op hi
      simp only [Op.step, Option.ite_none_left_eq_some] at ht
      obtain ⟨_, ht⟩ := ht
      split at ht
      · cases ht
        exact h.goes (by simp [hi]) _ _
      · rename_i registry hm
        cases ht
        exact h.change hi hm _
    · cases ht
  | effect i =>
    simp only [step] at ht
    split at ht
    · rename_i op hi
      cases ht
      exact h.goes (by simp [hi]) _ _
    · cases ht
  | resume i =>
    simp only [step] at ht
    split at ht
    · rename_i op hi
      cases ht
      exact h.goes (by simp [hi]) _ _
    · cases ht

theorem latest_start (store : σ) : (start S.toStoreMethods store).Latest := by
  intro n i h
  cases h

/-- A call that is outside the lock, as it arrives or as it returns. -/
theorem Settled.outside (h : Settled S.toStoreMethods s) (hold : ∀ op, s.calls.get? i ≠ some ⟨op, .saving⟩)
    (hnew : phase = .waiting ∨ phase = .returned) {lock : Option Nat}
    (hlock : ∀ j, i ≠ j → s.lock = some j → lock = some j) :
    Settled S.toStoreMethods { s with lock, calls := s.calls.set i ⟨op, phase⟩ } := by
  have hnew' : phase ≠ .saving ∧ phase ≠ .saved := by
    rcases hnew with rfl | rfl <;> decide
  obtain ⟨hnew, hsaved⟩ := hnew'
  constructor
  · intro j op' phase' hj hlocks hphase
    by_cases hij : i = j
    · subst hij
      cases (Dict.get?_set_self ..).symm.trans hj
      exact absurd hphase (not_or_intro hnew hsaved)
    · rw [Dict.get?_set_ne _ _ hij] at hj
      exact hlock j hij (h.holds j op' phase' hj hlocks hphase)
  · intro hidle
    exact h.idle fun j op' hj => hidle j op' ((saving_set hold hnew).mpr hj)
  · intro j op' hj
    exact h.owed j op' ((saving_set hold hnew).mp hj)
  · intro n hn
    refine h.token n fun j howes => ?_
    obtain ⟨op', left, hj, hc⟩ := owes_iff.mp howes
    exact hn j (owes_iff.mpr ⟨op', left, (saving_set hold hnew).mpr hj, hc⟩)

/-- Whoever is inside the lock holds it; a call beside which that cannot be does not lock. -/
theorem Settled.unlocked (h : Settled S.toStoreMethods s) (hj : s.calls.get? j = some ⟨op', phase⟩)
    (hlocks : op'.locks = true) (hphase : phase = .saving ∨ phase = .saved)
    (hne : op.locks = true → s.lock ≠ some j) : op.locks = false := by
  cases hl : op.locks with
  | false => rfl
  | true => exact absurd (h.holds j op' phase hj hlocks hphase) (hne hl)

/-- Memory changes: what the call owes the store is exactly that change. -/
theorem Settled.change (h : Settled S.toStoreMethods s) (hi : s.calls.get? i = some ⟨op, .waiting⟩)
    (hfree : op.locks = true → s.lock = none) {registry : NodeRegistry} (hm : op.memory s.registry = some registry) :
    Settled S.toStoreMethods { s with
      registry
      lock := if op.locks then some i else s.lock
      calls := s.calls.set i ⟨op, .saving⟩
      changed := op.noted i s.changed } := by
  have hkept := memory_kept hm
  have hother : ∀ {j op' phase'}, j ≠ i → (s.calls.set i ⟨op, .saving⟩).get? j = some ⟨op', phase'⟩ →
      s.calls.get? j = some ⟨op', phase'⟩ := fun hj hget => by
    rwa [Dict.get?_set_ne _ _ (Ne.symm hj)] at hget
  have hself : (s.calls.set i ⟨op, .saving⟩).get? i = some ⟨op, .saving⟩ := Dict.get?_set_self ..
  have hkeep : ∀ {j op'}, s.calls.get? j = some ⟨op', .saving⟩ →
      (s.calls.set i ⟨op, .saving⟩).get? j = some ⟨op', .saving⟩ := by
    intro j op' hj
    rw [Dict.get?_set_ne]
    · exact hj
    · rintro rfl
      cases hi.symm.trans hj
  -- while another call is inside the lock, the one that changes memory does without it
  have hinside : ∀ {j op' phase'}, s.calls.get? j = some ⟨op', phase'⟩ → op'.locks = true →
      phase' = .saving ∨ phase' = .saved → op.locks = false := fun hj hlocks hphase =>
    h.unlocked hj hlocks hphase fun hl => by simp [hfree hl]
  constructor
  · intro j op' phase' hj hlocks hphase
    by_cases hij : j = i
    · subst hij
      cases hself.symm.trans hj
      exact if_pos hlocks
    · have hj' := hother hij hj
      have hout := hinside hj' hlocks hphase
      simpa [hout] using h.holds j op' phase' hj' hlocks hphase
  · intro hidle
    have hout := hidle i op hself
    have hsame := h.idle fun j op' hj => hidle j op' (hkeep hj)
    rw [hkept, apply_node_unlocked _ hout]
    exact hsame
  · intro j op' hj hlocks
    by_cases hij : j = i
    · subst hij
      cases hself.symm.trans hj
      rw [hkept]
      refine apply_node_congr (h.idle fun k op' hk => ?_) op
      cases hl : op'.locks with
      | false => rfl
      | true => exact absurd (hinside hk hl (.inl rfl)) (by simp [hlocks])
    · have hj' := hother hij hj
      rw [hkept, apply_node_unlocked _ (hinside hj' hlocks (.inl rfl))]
      exact h.owed j op' hj' hlocks
  · intro n hn
    have hfar : ∀ left, op.credential ≠ some (n, left) := fun left hc =>
      hn i (owes_iff.mpr ⟨op, left, hself, hc⟩)
    rw [hkept, apply_token_other _ hfar]
    refine h.token n fun j howes => ?_
    obtain ⟨op', left, hj, hc⟩ := owes_iff.mp howes
    exact hn j (owes_iff.mpr ⟨op', left, hkeep hj, hc⟩)

/-- The store call takes effect. -/
theorem Settled.write (h : Settled S.toStoreMethods s) (hlatest : s.Latest)
    (hi : s.calls.get? i = some ⟨op, .saving⟩) (hclean : s.Clean (.effect i)) :
    Settled S.toStoreMethods { s with
      store := op.persist S.toStoreMethods s.store
      calls := s.calls.set i ⟨op, .saved⟩ } := by
  have hkept := persist_kept S s.store op
  have hother : ∀ {j op' phase'}, j ≠ i → (s.calls.set i ⟨op, .saved⟩).get? j = some ⟨op', phase'⟩ →
      s.calls.get? j = some ⟨op', phase'⟩ := fun hj hget => by
    rwa [Dict.get?_set_ne _ _ (Ne.symm hj)] at hget
  have hkeep : ∀ {j op'}, j ≠ i → s.calls.get? j = some ⟨op', .saving⟩ →
      (s.calls.set i ⟨op, .saved⟩).get? j = some ⟨op', .saving⟩ := fun hj hget => by
    rwa [Dict.get?_set_ne _ _ (Ne.symm hj)]
  have hself : (s.calls.set i ⟨op, .saved⟩).get? i = some ⟨op, .saved⟩ := Dict.get?_set_self ..
  constructor
  · intro j op' phase' hj hlocks hphase
    by_cases hij : j = i
    · subst hij
      cases hself.symm.trans hj
      exact h.holds j op .saving hi hlocks (.inl rfl)
    · exact h.holds j op' phase' (hother hij hj) hlocks hphase
  · intro hidle
    rw [hkept]
    cases hl : op.locks with
    | true => exact h.owed i op hi hl
    | false =>
      rw [apply_node_unlocked _ hl]
      refine h.idle fun j op' hj => ?_
      by_cases hij : j = i
      · subst hij
        cases hi.symm.trans hj
        exact hl
      · exact hidle j op' (hkeep hij hj)
  · intro j op' hj hlocks
    have hij : j ≠ i := by
      rintro rfl
      cases hself.symm.trans hj
    have hj' := hother hij hj
    have hout : op.locks = false := h.unlocked hj' hlocks (.inl rfl) fun hl => by
      simpa [h.holds i op .saving hi hl (.inl rfl)] using Ne.symm hij
    rw [hkept, apply_node_congr (apply_node_unlocked _ hout)]
    exact h.owed j op' hj' hlocks
  · intro n hn
    have honly : ∀ j, s.Owes j n → j = i := by
      intro j howes
      obtain ⟨op', left, hj, hc⟩ := owes_iff.mp howes
      by_contra hij
      exact hn j (owes_iff.mpr ⟨op', left, hkeep hij hj, hc⟩)
    rw [hkept]
    by_cases hc : ∃ left, op.credential = some (n, left)
    · obtain ⟨left, hc⟩ := hc
      obtain ⟨c, left', hi', hc', hmemory⟩ := hlatest n i (hclean _ hi _ hc fun j _ => honly j)
      cases hi.symm.trans hi'
      cases hc.symm.trans hc'
      rw [apply_token _ hc, hmemory]
    · rw [apply_token_other _ fun left hl => hc ⟨left, hl⟩]
      refine h.token n fun j hj => ?_
      obtain rfl := honly j hj
      obtain ⟨op', left, hj, hl⟩ := owes_iff.mp hj
      cases hi.symm.trans hj
      exact hc ⟨left, hl⟩

theorem settled_step (h : Settled S.toStoreMethods s) (hlatest : s.Latest) (hclean : s.Clean a)
    (ht : step S.toStoreMethods s a = some t) : Settled S.toStoreMethods t := by
  cases a with
  | arrive i op =>
    simp only [step, Option.ite_none_left_eq_some, Option.some.injEq] at ht
    obtain ⟨hfresh, rfl⟩ := ht
    have hnone := Dict.not_mem_iff.mp hfresh
    exact h.outside (by simp [hnone]) (.inl rfl) fun _ _ => id
  | proceed i =>
    simp only [step] at ht
    split at ht
    · rename_i op hi
      simp only [Op.step, Option.ite_none_left_eq_some, not_and, not_not] at ht
      obtain ⟨hfree, ht⟩ := ht
      split at ht
      · cases ht
        exact h.outside (by simp [hi]) (.inr rfl) fun _ _ => id
      · rename_i registry hm
        cases ht
        exact h.change hi hfree hm
    · cases ht
  | effect i =>
    simp only [step] at ht
    split at ht
    · rename_i op hi
      cases ht
      exact h.write hlatest hi hclean
    · cases ht
  | resume i =>
    simp only [step] at ht
    split at ht
    · rename_i op hi
      cases ht
      refine h.outside (by simp [hi]) (.inr rfl) fun j hij hheld => ?_
      cases hl : op.locks with
      | false => simpa using hheld
      | true =>
        rw [h.holds i op .saved hi hl (.inr rfl)] at hheld
        exact absurd (Option.some.inj hheld) hij
    · cases ht

theorem settled_start (S : SchedulerStore σ) (store : σ) :
    Settled S.toStoreMethods (start S.toStoreMethods store) := by
  have hnone : ∀ i c, (start S.toStoreMethods store).calls.get? i ≠ some c := by
    intro i c h
    cases h
  constructor
  · exact fun i op phase hi => absurd hi (hnone i _)
  · exact fun _ => rfl
  · exact fun i op hi => absurd hi (hnone i _)
  · exact fun _ _ => rfl

theorem Settled.alike (h : Settled S.toStoreMethods s) (hq : s.Quiescent) : Alike S.toStoreMethods s := by
  have hidle : ∀ i op, s.calls.get? i ≠ some ⟨op, .saving⟩ := by
    intro i op hi
    cases hq i _ hi
  have hnode := h.idle fun i op hi => absurd hi (hidle i op)
  have htoken : ∀ n, (S.kept s.store).token n = (keptInMemory s.registry).token n := by
    refine fun n => h.token n fun i howes => ?_
    obtain ⟨op, left, hi, _⟩ := owes_iff.mp howes
    exact hidle i op hi
  exact congrArg₂ Kept.mk hnode.symm (funext htoken).symm

theorem quiescent_iff : s.Quiescent ↔ ∀ c ∈ s.calls.values, c.phase = .returned := by
  constructor
  · intro h c hc
    obtain ⟨⟨i, _⟩, hm, rfl⟩ := List.mem_map.mp hc
    exact h i _ (Dict.get?_eq_some.mpr hm)
  · intro h i c hc
    exact h c (List.mem_map.mpr ⟨_, Dict.get?_eq_some.mp hc, rfl⟩)

end

instance decidableQuiescent (s : Racing σ) : Decidable s.Quiescent := decidable_of_iff _ quiescent_iff.symm

instance decidableOwes (s : Racing σ) (i : Nat) (n : Text) : Decidable (s.Owes i n) := by
  unfold Owes
  infer_instance

instance decidableClean (s : Racing σ) (a : Act) : Decidable (s.Clean a) := by
  unfold Clean
  cases a <;> infer_instance

/-- Whatever the backend and however the calls interleave: while each credential's last
write to land is that of the call that changed memory last, memory and store agree whenever
all calls have returned. -/
theorem quiescence_alike (S : SchedulerStore σ) (store : σ) {run : List Act}
    (hclean : Along (step S.toStoreMethods) Clean (start S.toStoreMethods store) run) :
    Throughout (step S.toStoreMethods) (fun s => s.Quiescent → Alike S.toStoreMethods s)
      (start S.toStoreMethods store) run :=
  throughout_mono (I := fun s => Settled S.toStoreMethods s ∧ s.Latest) (fun _ h => h.1.alike)
    (along_throughout (fun _ _ _ h hc ht => ⟨settled_step h.1 h.2 hc ht, latest_step h.2 ht⟩)
      ⟨settled_start S store, latest_start store⟩ hclean)

def emptyStore : SQLiteStore := ⟨.empty, .empty, .empty⟩

/-- A node is registered, its credential is rotated twice before either write lands, and
it is removed. -/
def sampleRun : List Act :=
  [.arrive 0 (.register ⟨text "n1", []⟩), .proceed 0,
    .arrive 1 (.setNodeToken (text "n1") (some (text "tok-old"))), .proceed 1,
    .arrive 2 (.setNodeToken (text "n1") (some (text "tok-new"))), .proceed 2,
    .arrive 3 (.unregister (text "n1")),
    .effect 1, .effect 0, .effect 2, .resume 2, .resume 0, .resume 1,
    .proceed 3, .effect 3, .resume 3]

theorem quiescence_alike_sample : ∃ s,
    exec (step rowStore.toStoreMethods) (start rowStore.toStoreMethods emptyStore) sampleRun = some s ∧
      s.Quiescent ∧ Alike rowStore.toStoreMethods s := by
  have hsome : (exec (step rowStore.toStoreMethods) (start rowStore.toStoreMethods emptyStore)
    sampleRun).map (fun s => decide s.Quiescent) = some true := by decide +kernel
  obtain ⟨s, hs, hq⟩ := Option.map_eq_some_iff.mp hsome
  have hquiet := of_decide_eq_true hq
  have hclean : Along (step rowStore.toStoreMethods) Clean (start rowStore.toStoreMethods emptyStore)
    sampleRun := by decide +kernel
  exact ⟨s, hs, hquiet, throughout_end (quiescence_alike rowStore emptyStore hclean) hs hquiet⟩

/-- Two rotations of one credential, whose writes land in the other order. -/
def lateRun : List Act :=
  [.arrive 0 (.setNodeToken (text "n1") (some (text "tok-old"))),
    .arrive 1 (.setNodeToken (text "n1") (some (text "tok-new"))),
    .proceed 0, .proceed 1, .effect 1, .effect 0, .resume 0, .resume 1]

theorem late_save_disagrees : ∃ s,
    exec (step rowStore.toStoreMethods) (start rowStore.toStoreMethods emptyStore) lateRun = some s ∧
      s.Quiescent ∧ s.registry.getNodeToken (text "n1") = some (text "tok-new") ∧
      s.store.nodeTokens.get? (text "n1") = some (text "tok-old") ∧ ¬ Alike rowStore.toStoreMethods s := by
  have hrun : (exec (step rowStore.toStoreMethods) (start rowStore.toStoreMethods emptyStore) lateRun).map
    (fun s => (decide s.Quiescent, s.registry.getNodeToken (text "n1"), s.store.nodeTokens.get? (text "n1"))) =
      some (true, some (text "tok-new"), some (text "tok-old")) := by decide +kernel
  obtain ⟨s, hs, hend⟩ := Option.map_eq_some_iff.mp hrun
  simp only [Prod.mk.injEq, decide_eq_true_eq] at hend
  obtain ⟨hquiet, hmemory, hstore⟩ := hend
  refine ⟨s, hs, hquiet, hmemory, hstore, fun halike => ?_⟩
  have htoken : s.registry.nodeTokens.get? (text "n1") = s.store.nodeTokens.get? (text "n1") :=
    congrFun (congrArg Kept.token halike) (text "n1")
  rw [hstore, ← NodeRegistry.getNodeToken, hmemory] at htoken
  exact absurd htoken (by decide)

end Racing
end PublicIntelligence.System
