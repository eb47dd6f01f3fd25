import PublicIntelligence.System.InviteLimit

namespace PublicIntelligence.Scheduler.Admission

open Runs Text

/-- A call by a node that had been admitted under its code before: it is answered 409
while the node's record is there and 201 when it is not, and costs no use. -/
def AnsweredRight (call : Call) : Prop :=
  call.repeated = true →
    (∀ status, call.pc = .answered status → status = if call.found then 409 else 201) ∧
      call.charged = false

def WelcomedBack (s : Admission) : Prop := ∀ i call, s.calls.get? i = some call → AnsweredRight call

/-- What a call has on record of itself before it is answered. -/
def OnRecord (call : Call) : Prop :=
  match call.pc with
  | .answered _ => True
  | .savingInvite => call.found = false
  | _ => call.found = false ∧ call.charged = false

def Traced (s : Admission) : Prop := ∀ i call, s.calls.get? i = some call → OnRecord call

section
variable (hash : Text → Text)

/-- A node's code still has a use when the node comes back, and none is left if it
gets as far as being charged again. -/
def RoomLeft (s : Admission) : Act → Prop
  | .arrive _ node inviteCode credential authToken =>
    (s.newCall hash node inviteCode credential authToken).repeated = true →
      s.invites.enforcing = true → s.invites.verify hash inviteCode ≠ none
  | .resume i => ∀ call ∈ s.calls.get? i, call.pc = .saved → call.repeated = true →
      s.invites.verify hash call.inviteCode = none
  | _ => True

instance (s : Admission) : (a : Act) → Decidable (RoomLeft hash s a)
  | .arrive .. => inferInstanceAs (Decidable (_ → _ → _ ≠ none))
  | .resume i => inferInstanceAs (Decidable (∀ call ∈ s.calls.get? i, _ → _ → _ = none))
  | .saveToken _ | .lockRegistry _ | .saveNode _ | .saveInvite _ | .remove _ | .restart
  | .revoke .. | .saveRevoked _ | .revokeReturns _ => inferInstanceAs (Decidable True)

end

section
variable {hash : Text → Text} {s t : Admission}

/-- When one call moves, only that call has to be looked at. -/
theorem welcomed_set (hw : WelcomedBack s) (hcalls : t.calls = s.calls.set i call) :
    WelcomedBack t ↔ AnsweredRight call := by
  constructor
  · exact fun ht => ht i call (by rw [hcalls, Dict.get?_set_self])
  · intro hf k c hk
    rw [hcalls, Dict.get?_set] at hk
    split at hk
    · exact Option.some.inj hk ▸ hf
    · exact hw k c hk

theorem traced_set (ht : Traced s) (hcalls : t.calls = s.calls.set i call) (hc : OnRecord call) :
    Traced t := by
  intro k c hk
  rw [hcalls, Dict.get?_set] at hk
  split at hk
  · exact Option.some.inj hk ▸ hc
  · exact ht k c hk

theorem traced_step (ht : Traced s) (h : step hash s a = some t) : Traced t := by
  cases a with
  | arrive i node inviteCode credential authToken =>
    obtain ⟨_, ⟨_, rfl⟩ | ⟨_, rfl⟩⟩ := arrive_cases h
    · exact traced_set ht rfl trivial
    · exact traced_set ht rfl ⟨rfl, rfl⟩
  | saveToken i =>
    obtain ⟨call, hcall, hpc, rfl⟩ := saveToken_cases h
    have hc := ht i call hcall
    rw [OnRecord, hpc] at hc
    exact traced_set ht rfl hc
  | lockRegistry i =>
    obtain ⟨call, hcall, hpc, _, ⟨_, rfl⟩ | ⟨_, registry, _, rfl⟩⟩ := lockRegistry_cases h
    · exact traced_set ht rfl trivial
    · have hc := ht i call hcall
      rw [OnRecord, hpc] at hc
      exact traced_set ht rfl hc
  | saveNode i =>
    obtain ⟨call, hcall, hpc, rfl⟩ := saveNode_cases h
    have hc := ht i call hcall
    rw [OnRecord, hpc] at hc
    exact traced_set ht rfl hc
  | resume i =>
    obtain ⟨call, hcall, hpc, ⟨_, rfl⟩ | ⟨code, old, _, _, _, rfl⟩⟩ := resume_cases h
    · exact traced_set ht rfl trivial
    · have hc := ht i call hcall
      rw [OnRecord, hpc] at hc
      exact traced_set ht rfl hc.1
  | saveInvite i =>
    obtain ⟨call, code, invite, _, _, _, _, rfl⟩ := saveInvite_cases h
    exact traced_set ht rfl trivial
  | remove nodeId =>
    obtain ⟨_, rfl⟩ := remove_cases h
    exact ht
  | restart =>
    obtain rfl := Option.some.inj h
    exact fun k c hk => absurd hk (by simp [restart])
  | revoke j code =>
    obtain ⟨_, rfl⟩ := revoke_cases h
    exact ht
  | saveRevoked j =>
    obtain ⟨_, _, _, rfl⟩ := saveRevoked_cases h
    exact ht
  | revokeReturns j =>
    obtain ⟨_, _, rfl⟩ := revokeReturns_cases h
    exact ht

theorem refuses_eq_true {inviteCode : Option Text} : s.refuses hash inviteCode = true ↔
    s.invites.enforcing = true ∧ s.invites.verify hash inviteCode = none := by
  simp [refuses]

/-- Each step keeps the calls in order exactly if there is room for it. -/
theorem welcomed_step (ht : Traced s) (hw : WelcomedBack s) (h : step hash s a = some t) :
    WelcomedBack t ↔ RoomLeft hash s a := by
  cases a with
  | arrive i node inviteCode credential authToken =>
    obtain ⟨_, ⟨hr, rfl⟩ | ⟨hr, rfl⟩⟩ := arrive_cases h
    · rw [welcomed_set hw rfl]
      obtain ⟨he, hv⟩ := refuses_eq_true.mp hr
      constructor
      · intro hf hrep
        exact absurd ((hf hrep).1 403 rfl) (by decide : (403 : Nat) ≠ 201)
      · exact fun hroom hrep => absurd hv (hroom hrep he)
    · rw [welcomed_set hw rfl]
      refine iff_of_true (fun _ => ⟨nofun, rfl⟩) fun _ he hv => ?_
      rw [refuses_eq_true.mpr ⟨he, hv⟩] at hr
      cases hr
  | saveToken i =>
    obtain ⟨call, hcall, hpc, rfl⟩ := saveToken_cases h
    rw [welcomed_set hw rfl]
    exact iff_of_true (fun hrep => ⟨nofun, (hw i call hcall hrep).2⟩) trivial
  | lockRegistry i =>
    obtain ⟨call, hcall, hpc, _, ⟨_, rfl⟩ | ⟨_, registry, _, rfl⟩⟩ := lockRegistry_cases h
    · rw [welcomed_set hw rfl]
      refine iff_of_true (fun hrep => ⟨fun status hs => ?_, (hw i call hcall hrep).2⟩) trivial
      cases hs
      rfl
    · rw [welcomed_set hw rfl]
      exact iff_of_true (fun hrep => ⟨nofun, (hw i call hcall hrep).2⟩) trivial
  | saveNode i =>
    obtain ⟨call, hcall, hpc, rfl⟩ := saveNode_cases h
    rw [welcomed_set hw rfl]
    exact iff_of_true (fun hrep => ⟨nofun, (hw i call hcall hrep).2⟩) trivial
  | resume i =>
    obtain ⟨call, hcall, hpc, ⟨hv, rfl⟩ | ⟨code, old, hcode, hget, hu, rfl⟩⟩ := resume_cases h
    · rw [welcomed_set hw rfl]
      have hc := ht i call hcall
      rw [OnRecord, hpc] at hc
      refine iff_of_true (fun hrep => ⟨fun status hs => ?_, (hw i call hcall hrep).2⟩) ?_
      · cases hs
        simp [Call.to, hc.1]
      · intro c hc' _ _
        obtain rfl := Option.some.inj (hcall.symm.trans hc')
        exact hv
    · rw [welcomed_set hw rfl]
      constructor
      · intro hf c hc _ hrep
        obtain rfl := Option.some.inj (hcall.symm.trans hc)
        exact absurd (hf hrep).2 (by simp)
      · intro hroom hrep
        have hv := hroom call hcall hpc hrep
        rw [Invites.verify_eq_some.mpr ⟨code, hcode, hget, hu⟩] at hv
        cases hv
  | saveInvite i =>
    obtain ⟨call, code, invite, hcall, hpc, _, _, rfl⟩ := saveInvite_cases h
    rw [welcomed_set hw rfl]
    have hc := ht i call hcall
    rw [OnRecord, hpc] at hc
    refine iff_of_true (fun hrep => ⟨fun status hs => ?_, (hw i call hcall hrep).2⟩) trivial
    cases hs
    simp [Call.to, hc]
  | remove nodeId =>
    obtain ⟨_, rfl⟩ := remove_cases h
    exact iff_of_true hw trivial
  | restart =>
    obtain rfl := Option.some.inj h
    exact iff_of_true (fun k c hk => absurd hk (by simp [restart])) trivial
  | revoke j code =>
    obtain ⟨_, rfl⟩ := revoke_cases h
    exact iff_of_true hw trivial
  | saveRevoked j =>
    obtain ⟨_, _, _, rfl⟩ := saveRevoked_cases h
    exact iff_of_true hw trivial
  | revokeReturns j =>
    obtain ⟨_, _, rfl⟩ := revokeReturns_cases h
    exact iff_of_true hw trivial

end

/-- A run welcomes every node back exactly if there is room each time one comes. -/
theorem welcomed_back_iff {hash : Text → Text} {store : SQLiteStore} {run : List Act} {t : Admission}
    (hr : exec (step hash) (start store) run = some t) :
    Throughout (step hash) WelcomedBack (start store) run ↔
      Along (step hash) (RoomLeft hash) (start store) run :=
  throughout_iff_along (I := Traced) (fun _ _ _ ht hs => traced_step ht hs)
    (fun _ _ _ ht hw hs => welcomed_step ht hw hs) (fun k c hk => absurd hk (by simp [start]))
    (fun k c hk => absurd hk (by simp [start])) hr

def twoUses : InviteCode := ⟨abcHash (text "abc"), text "alice", 2, 0, false, 0, by decide⟩

def twoUsesStore : SQLiteStore := ⟨.empty, .empty, Table.empty.put twoUses⟩

/-- All the steps of a call that is admitted and charged. -/
def admission (i : Nat) (node : Node) : List Act :=
  [arriveWith i node, .saveToken i, .lockRegistry i, .saveNode i, .resume i, .saveInvite i]

/-- An admitted node asks again while its record is there. -/
def askAgainRun : List Act :=
  admission 0 node1 ++ [arriveWith 1 node1, .saveToken 1, .lockRegistry 1]

theorem welcomed_back_again : ∃ t, exec (step abcHash) (start twoUsesStore) askAgainRun = some t ∧
    (Throughout (step abcHash) WelcomedBack (start twoUsesStore) askAgainRun ↔
      Along (step abcHash) (RoomLeft abcHash) (start twoUsesStore) askAgainRun) := by
  have hr : (exec (step abcHash) (start twoUsesStore) askAgainRun).isSome = true := by decide +kernel
  obtain ⟨t, ht⟩ := Option.isSome_iff_exists.mp hr
  exact ⟨t, ht, welcomed_back_iff ht⟩

example : Along (step abcHash) (RoomLeft abcHash) (start twoUsesStore) askAgainRun := by
  decide +kernel

/-- An admitted node is evicted and asks again. -/
def evictedRun : List Act := admission 0 node1 ++ [.remove node1.nodeId, arriveWith 1 node1]

/-- The holder of a spent single-use code cannot come back. -/
theorem evicted_node_locked_out :
    ¬ ∀ (hash : Text → Text) (store : SQLiteStore) (run : List Act) (t : Admission),
      exec (step hash) (start store) run = some t → WelcomedBack t := by
  intro h
  have hrun : ((exec (step abcHash) (start singleUseStore) evictedRun).bind fun t =>
      (t.calls.get? 1).map fun call => (call.repeated, call.pc)) = some (true, .answered 403) := by
    decide +kernel
  obtain ⟨t, ht, hval⟩ := Option.bind_eq_some_iff.mp hrun
  obtain ⟨call, hcall, hval⟩ := Option.map_eq_some_iff.mp hval
  obtain ⟨hrep, hpc⟩ := Prod.mk.inj hval
  have hans := (h abcHash singleUseStore evictedRun t ht 1 call hcall hrep).1 403 hpc
  split at hans <;> cases hans

end PublicIntelligence.Scheduler.Admission
