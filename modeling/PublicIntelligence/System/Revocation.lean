import PublicIntelligence.System.Readmission

namespace PublicIntelligence.Scheduler.Admission

open Runs Text

/-- The call's node is in the store, or the caller has been told so. -/
def Admitted (call : Call) : Prop :=
  call.pc = .saved ∨ call.pc = .savingInvite ∨ call.pc = .answered 201

/-- Once a revocation has returned its row stays revoked, and no call that came after
it is admitted under the code. -/
def RevocationFinal (s : Admission) : Prop :=
  (∀ h ∈ s.returned, ∀ row, s.store.invites.get? h = some row → row.revoked = true) ∧
    ∀ i call, s.calls.get? i = some call → call.late = true → ¬ Admitted call

section
variable (hash : Text → Text)

/-- The Scheduler's memory knows of a revocation when it checks the code and when it
writes the code's row back. -/
def Informed (s : Admission) : Act → Prop
  | .arrive _ _ inviteCode _ _ => ∀ h ∈ presented hash inviteCode, h ∈ s.returned →
      s.invites.enforcing = true ∧ ∀ m ∈ s.invites.get? h, m.usable = false
  | .saveInvite i => ∀ call ∈ s.calls.get? i, call.pc = .savingInvite →
      ∀ h ∈ presented hash call.inviteCode, ∀ row ∈ s.store.invites.get? h, row.revoked = true →
        ∀ m ∈ s.invites.get? h, m.revoked = true
  | _ => True

instance (s : Admission) : (a : Act) → Decidable (Informed hash s a)
  | .arrive _ _ inviteCode _ _ => inferInstanceAs (Decidable (∀ h ∈ presented hash inviteCode, _ → _))
  | .saveInvite i => inferInstanceAs (Decidable (∀ call ∈ s.calls.get? i, _ → _))
  | .saveToken _ | .lockRegistry _ | .saveNode _ | .resume _ | .remove _ | .restart
  | .revoke .. | .saveRevoked _ | .revokeReturns _ => inferInstanceAs (Decidable True)

/-- Every revocation that has made its write, or found nothing to write, left the row
revoked; what one still has to write is revoked; and the memory has no row that the
file lacks. -/
structure Withdrawn (s : Admission) : Prop where
  returned : ∀ h ∈ s.returned, ∀ row, s.store.invites.get? h = some row → row.revoked = true
  written : ∀ j code, s.revocations.get? j = some ⟨code, none⟩ →
    ∀ row, s.store.invites.get? (hash code) = some row → row.revoked = true
  pending : ∀ j code invite, s.revocations.get? j = some ⟨code, some invite⟩ →
    invite.codeHash = hash code ∧ invite.revoked = true
  known : ∀ h m, s.invites.get? h = some m → ∃ row, s.store.invites.get? h = some row
  refused : ∀ i call, s.calls.get? i = some call → call.late = true → call.pc = .answered 403

end

section
variable {hash : Text → Text} {s t : Admission}

theorem Withdrawn.final (hw : Withdrawn hash s) : RevocationFinal s := by
  refine ⟨hw.returned, fun i call hcall hlate ha => ?_⟩
  have hpc := hw.refused i call hcall hlate
  rcases ha with ha | ha | ha <;> cases hpc.symm.trans ha

/-- A late call has been answered, so no call that moves is late. -/
theorem Withdrawn.not_late (hw : Withdrawn hash s) (hcall : s.calls.get? i = some call)
    (hpc : call.pc ≠ .answered 403) : call.late ≠ true :=
  fun hlate => hpc (hw.refused i call hcall hlate)

theorem Withdrawn.move (hw : Withdrawn hash s) (hcalls : t.calls = s.calls.set i call)
    (hcall : call.late = true → call.pc = .answered 403)
    (hinv : ∀ h m, t.invites.get? h = some m → ∃ m, s.invites.get? h = some m)
    (hstore : t.store.invites = s.store.invites) (hret : t.returned = s.returned)
    (hrev : t.revocations = s.revocations) : Withdrawn hash t := by
  constructor
  · rw [hret, hstore]
    exact hw.returned
  · rw [hrev, hstore]
    exact hw.written
  · rw [hrev]
    exact hw.pending
  · intro h m hm
    rw [hstore]
    obtain ⟨m', hm'⟩ := hinv h m hm
    exact hw.known h m' hm'
  · intro k c hk hlate
    rw [hcalls, Dict.get?_set] at hk
    split at hk
    · obtain rfl := Option.some.inj hk
      exact hcall hlate
    · exact hw.refused k c hk hlate

/-- Writing back a row keeps a code revoked if the row written says so. -/
theorem revoked_saveInvite {table : Invites} {i : InviteCode}
    (hold : ∀ row, table.get? h = some row → row.revoked = true) (hi : i.codeHash = h → i.revoked = true) :
    ∀ row, (table.saveInvite i).get? h = some row → row.revoked = true := by
  intro row hrow
  rw [Invites.get?_saveInvite] at hrow
  split at hrow
  · rename_i hk
    obtain rfl := Option.some.inj hrow
    exact hi hk
  · exact hold row hrow

theorem known_saveInvite {table : Invites} (i : InviteCode) (hk : ∃ row, table.get? h = some row) :
    ∃ row, (table.saveInvite i).get? h = some row := by
  rw [Invites.get?_saveInvite]
  split
  · exact ⟨_, rfl⟩
  · exact hk

theorem late_newCall {node : Node} {inviteCode credential authToken : Option Text} :
    (s.newCall hash node inviteCode credential authToken).late = true ↔
      ∃ h, presented hash inviteCode = some h ∧ h ∈ s.returned := by
  unfold newCall
  cases presented hash inviteCode <;> simp

/-- A code that is unusable in memory is refused. -/
theorem refuses_unusable (hp : presented hash inviteCode = some h) (he : s.invites.enforcing = true)
    (hu : ∀ m ∈ s.invites.get? h, m.usable = false) : s.refuses hash inviteCode = true := by
  refine refuses_eq_true.mpr ⟨he, ?_⟩
  by_contra hv
  obtain ⟨m, hget, husable⟩ := (verify_presented hp).mp hv
  exact absurd husable (by simp [hu m hget])

/-- An informed Scheduler refuses every late call. -/
theorem withdrawn_arrive (hw : Withdrawn hash s)
    (hg : Informed hash s (.arrive i node inviteCode credential authToken))
    (h : s.arrive hash i node inviteCode credential authToken = some t) : Withdrawn hash t := by
  obtain ⟨_, ⟨_, rfl⟩ | ⟨hr, rfl⟩⟩ := arrive_cases h
  · exact hw.move rfl (fun _ => rfl) (fun _ m hm => ⟨m, hm⟩) rfl rfl rfl
  · refine hw.move rfl (fun hlate => ?_) (fun _ m hm => ⟨m, hm⟩) rfl rfl rfl
    obtain ⟨k, hk, hret⟩ := late_newCall.mp hlate
    obtain ⟨he, hu⟩ := hg k hk hret
    exact absurd (refuses_unusable hk he hu) (by simp [hr])

theorem withdrawn_resume (hw : Withdrawn hash s) (h : s.resume hash i = some t) :
    Withdrawn hash t := by
  obtain ⟨call, hcall, hpc, ⟨_, rfl⟩ | ⟨code, old, _, hget, _, rfl⟩⟩ := resume_cases h
  all_goals have hlate := hw.not_late hcall (by simp [hpc])
  · exact hw.move rfl (fun hl => absurd hl hlate) (fun _ m hm => ⟨m, hm⟩) rfl rfl rfl
  · refine hw.move rfl (fun hl => absurd hl hlate) (fun g m hm => ?_) rfl rfl rfl
    rw [Table.get?_put] at hm
    split at hm
    · rename_i hk
      exact ⟨old, hk ▸ (Table.key_of_get? hget) ▸ hget⟩
    · exact ⟨m, hm⟩

theorem withdrawn_saveInvite (hw : Withdrawn hash s) (hg : Informed hash s (.saveInvite i))
    (h : s.saveInvite hash i = some t) : Withdrawn hash t := by
  obtain ⟨call, code, invite, hcall, hpc, hcode, hget, rfl⟩ := saveInvite_cases h
  have hkey : invite.codeHash = code := Table.key_of_get? hget
  -- a row that is revoked is written back revoked
  have hkeep : ∀ g, (∀ row, s.store.invites.get? g = some row → row.revoked = true) →
      ∀ row, (s.store.invites.saveInvite invite).get? g = some row → row.revoked = true := by
    intro g hold
    refine revoked_saveInvite hold fun hk => ?_
    obtain ⟨row, hrow⟩ := hw.known code invite hget
    exact hg call hcall hpc code hcode row hrow (hold row (hk ▸ hkey ▸ hrow)) invite hget
  constructor
  · exact fun g hret => hkeep g (hw.returned g hret)
  · exact fun j c hj => hkeep _ (hw.written j c hj)
  · exact hw.pending
  · exact fun g m hm => known_saveInvite invite (hw.known g m hm)
  · intro k c hk hlate
    rw [Dict.get?_set] at hk
    split at hk
    · cases hk
      have hlate' : call.late = true := hlate
      exact absurd hlate' (hw.not_late hcall (by simp [hpc]))
    · exact hw.refused k c hk hlate

theorem withdrawn_revoke (hw : Withdrawn hash s) (h : s.revoke hash j code = some t) :
    Withdrawn hash t := by
  obtain ⟨_, rfl⟩ := revoke_cases h
  refine ⟨hw.returned, ?_, ?_, hw.known, hw.refused⟩
  · intro k c hk
    rw [Dict.get?_set] at hk
    split at hk
    · obtain ⟨rfl, hp⟩ := Revocation.mk.inj (Option.some.inj hk)
      intro row hrow
      by_contra hn
      have hr := Invites.revoke_eq_some.mpr ⟨row, hrow, Bool.eq_false_iff.mpr hn, rfl, rfl⟩
      rw [hr] at hp
      cases hp
    · exact hw.written k c hk
  · intro k c copy hk
    rw [Dict.get?_set] at hk
    split at hk
    · obtain ⟨rfl, hp⟩ := Revocation.mk.inj (Option.some.inj hk)
      obtain ⟨old, hold, rfl⟩ := Invites.revoke_row hp
      have hkey : old.codeHash = hash code := Table.key_of_get? hold
      exact ⟨hkey, rfl⟩
    · exact hw.pending k c copy hk

theorem withdrawn_saveRevoked (hw : Withdrawn hash s) (h : s.saveRevoked j = some t) :
    Withdrawn hash t := by
  obtain ⟨code, invite, hj, rfl⟩ := saveRevoked_cases h
  obtain ⟨hkey, hrevoked⟩ := hw.pending j code invite hj
  constructor
  · exact fun g hret => revoked_saveInvite (hw.returned g hret) fun _ => hrevoked
  · intro k c hk
    rw [Dict.get?_set] at hk
    split at hk
    · obtain ⟨rfl, _⟩ := Revocation.mk.inj (Option.some.inj hk)
      intro row hrow
      change (s.store.invites.saveInvite invite).get? _ = some row at hrow
      rw [Invites.get?_saveInvite, if_pos hkey] at hrow
      obtain rfl := Option.some.inj hrow
      exact hrevoked
    · exact revoked_saveInvite (hw.written k c hk) fun _ => hrevoked
  · intro k c copy hk
    rw [Dict.get?_set] at hk
    split at hk
    · cases hk
    · exact hw.pending k c copy hk
  · exact fun g m hm => known_saveInvite invite (hw.known g m hm)
  · exact hw.refused

theorem withdrawn_revokeReturns (hw : Withdrawn hash s) (h : s.revokeReturns hash j = some t) :
    Withdrawn hash t := by
  obtain ⟨code, hj, rfl⟩ := revokeReturns_cases h
  constructor
  · intro g hret
    rcases List.mem_cons.mp hret with rfl | hret
    · exact hw.written j code hj
    · exact hw.returned g hret
  · exact fun k c hk => hw.written k c (Dict.of_get?_pop hk)
  · exact fun k c copy hk => hw.pending k c copy (Dict.of_get?_pop hk)
  · exact hw.known
  · exact hw.refused

theorem withdrawn_step (hw : Withdrawn hash s) (hg : Informed hash s a)
    (h : step hash s a = some t) : Withdrawn hash t := by
  cases a with
  | arrive i node inviteCode credential authToken => exact withdrawn_arrive hw hg h
  | saveToken i =>
    obtain ⟨call, hcall, hpc, rfl⟩ := saveToken_cases h
    have hlate := hw.not_late hcall (by simp [hpc])
    exact hw.move rfl (fun hl => absurd hl hlate) (fun _ m hm => ⟨m, hm⟩)
      (SQLiteStore.saveNodeToken_invites ..) rfl rfl
  | lockRegistry i =>
    obtain ⟨call, hcall, hpc, _, ⟨_, rfl⟩ | ⟨_, registry, _, rfl⟩⟩ := lockRegistry_cases h
    all_goals
      have hlate := hw.not_late hcall (by simp [hpc])
      exact hw.move rfl (fun hl => absurd hl hlate) (fun _ m hm => ⟨m, hm⟩) rfl rfl rfl
  | saveNode i =>
    obtain ⟨call, hcall, hpc, rfl⟩ := saveNode_cases h
    have hlate := hw.not_late hcall (by simp [hpc])
    exact hw.move rfl (fun hl => absurd hl hlate) (fun _ m hm => ⟨m, hm⟩) rfl rfl rfl
  | resume i => exact withdrawn_resume hw h
  | saveInvite i => exact withdrawn_saveInvite hw hg h
  | remove nodeId =>
    obtain ⟨_, rfl⟩ := remove_cases h
    exact ⟨hw.returned, hw.written, hw.pending, hw.known, hw.refused⟩
  | restart =>
    obtain rfl := Option.some.inj h
    exact ⟨hw.returned, hw.written, hw.pending, fun g row hrow => ⟨row, hrow⟩,
      fun k c hk => absurd hk (by simp [restart])⟩
  | revoke j code => exact withdrawn_revoke hw h
  | saveRevoked j => exact withdrawn_saveRevoked hw h
  | revokeReturns j => exact withdrawn_revokeReturns hw h

theorem withdrawn_start (store : SQLiteStore) : Withdrawn hash (start store) := by
  constructor
  · exact nofun
  · exact fun j code hj => absurd hj (by simp [start])
  · exact fun j code invite hj => absurd hj (by simp [start])
  · exact fun g m hm => ⟨m, hm⟩
  · exact fun k c hk => absurd hk (by simp [start])

end

/-- In every run in which the Scheduler is informed of each revocation before it uses
the code again, revocations are final. -/
theorem revocation_final (hash : Text → Text) (store : SQLiteStore) (run : List Act)
    (h : Along (step hash) (Informed hash) (start store) run) :
    Throughout (step hash) RevocationFinal (start store) run :=
  throughout_mono (fun _ => Withdrawn.final)
    (along_throughout (fun _ _ _ hw hg hs => withdrawn_step hw hg hs) (withdrawn_start store) h)

/-- A run of `mint_invite.py --revoke` on the code `abc`, from its start to its return. -/
def revokeAbc (j : Nat) : List Act := [.revoke j (text "abc"), .saveRevoked j, .revokeReturns j]

/-- The Scheduler is restarted after a revocation, and a node comes with the code. -/
def informedRun : List Act := revokeAbc 0 ++ [.restart, arriveWith 0 node1]

theorem revocation_final_informed :
    (exec (step abcHash) (start twoUsesStore) informedRun).isSome = true ∧
      Throughout (step abcHash) RevocationFinal (start twoUsesStore) informedRun :=
  ⟨by decide +kernel, revocation_final _ _ _ (by decide +kernel)⟩

/-- The Scheduler keeps running after a revocation, and a node comes with the code. -/
def uninformedRun : List Act := revokeAbc 0 ++ admission 0 node1

/-- A running Scheduler admits a node under a revoked code, and writes the code's row
back as not revoked. -/
theorem revoked_code_admits :
    ¬ ∀ (hash : Text → Text) (store : SQLiteStore) (run : List Act) (t : Admission),
      exec (step hash) (start store) run = some t → RevocationFinal t := by
  intro h
  have hrun : ((exec (step abcHash) (start twoUsesStore) uninformedRun).bind fun t =>
      (t.calls.get? 0).map fun call => (decide (twoUses.codeHash ∈ t.returned), call.late, call.pc,
        (t.store.invites.get? twoUses.codeHash).map InviteCode.revoked)) =
      some (true, true, .answered 201, some false) := by
    decide +kernel
  obtain ⟨t, ht, hval⟩ := Option.bind_eq_some_iff.mp hrun
  obtain ⟨call, hcall, hval⟩ := Option.map_eq_some_iff.mp hval
  obtain ⟨_, hlate, hpc, _⟩ := by simpa only [Prod.mk.injEq] using hval
  obtain ⟨_, hlates⟩ := h abcHash twoUsesStore uninformedRun t ht
  exact hlates 0 call hcall hlate (.inr (.inr hpc))

end PublicIntelligence.Scheduler.Admission
