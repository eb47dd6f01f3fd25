import PublicIntelligence.Scheduler.Admission

namespace PublicIntelligence.Scheduler.Admission

open Runs Text

section
variable (hash : Text → Text)

/-- The node is admitted under the code and the use not yet charged. -/
def Owes (call : Call) (h : Text) : Prop := call.pc = .saved ∧ admissionCode hash call = some h

def Owed (s : Admission) (h : Text) : Prop :=
  ∃ i call, s.calls.get? i = some call ∧ Owes hash call h

/-- A use of the code is charged in memory and not yet written. -/
def Saving (s : Admission) (h : Text) : Prop :=
  ∃ i call, s.calls.get? i = some call ∧ call.pc = .savingInvite ∧
    presented hash call.inviteCode = some h

/-- No code has admitted more nodes than it may. -/
def WithinLimits (s : Admission) : Prop :=
  ∀ h row, s.store.invites.get? h = some row → (s.admittedUnder h).card ≤ row.maxUses

/-- A node's row is written under a code that is still usable, the Scheduler does not
crash between that write and the write of the use, and a revocation writes the row
back with at least the uses it has. -/
def Charged (s : Admission) : Act → Prop
  | .saveNode i => ∀ call ∈ s.calls.get? i, admissionCode hash call ≠ none →
      s.invites.verify hash call.inviteCode ≠ none
  | .restart => ∀ e ∈ s.calls.entries, e.2.pc ≠ .savingInvite ∧
      (e.2.pc = .saved → admissionCode hash e.2 = none)
  | .saveRevoked j => ∀ r ∈ s.revocations.get? j, ∀ invite ∈ r.pending,
      ∀ row ∈ s.store.invites.get? invite.codeHash, row.uses ≤ invite.uses
  | _ => True

instance (s : Admission) : (a : Act) → Decidable (Charged hash s a)
  | .saveNode i => inferInstanceAs (Decidable (∀ call ∈ s.calls.get? i, _ → _))
  | .restart => inferInstanceAs (Decidable (∀ e ∈ s.calls.entries, _))
  | .saveRevoked j => inferInstanceAs (Decidable (∀ r ∈ s.revocations.get? j, _))
  | .arrive .. | .saveToken _ | .lockRegistry _ | .resume _ | .saveInvite _ | .remove _
  | .revoke .. | .revokeReturns _ => inferInstanceAs (Decidable True)

/-- At most the holder of the lock owes a use, so the nodes admitted under a code are
at most its uses in memory, and one more while a use is owed. What the file says of
its uses is behind only while a write of it is under way. -/
structure Counted (s : Admission) : Prop where
  locked : ∀ i call, s.calls.get? i = some call → call.pc = .savingNode ∨ call.pc = .saved →
    s.lock = some i
  rows : ∀ h row, s.store.invites.get? h = some row → ∃ m, s.invites.get? h = some m ∧
    m.maxUses = row.maxUses ∧ (m.uses ≤ row.uses ∨ Saving hash s h)
  copies : ∀ j code invite, s.revocations.get? j = some ⟨code, some invite⟩ →
    ∃ row, s.store.invites.get? invite.codeHash = some row ∧ row.maxUses = invite.maxUses
  counted : ∀ h m, s.invites.get? h = some m → (s.admittedUnder h).card ≤ m.maxUses ∧
    ((s.admittedUnder h).card ≤ m.uses ∨
      (s.admittedUnder h).card ≤ m.uses + 1 ∧ Owed hash s h)
  unspent : ∀ i call h, s.calls.get? i = some call → Owes hash call h →
    ∃ m, s.invites.get? h = some m ∧ m.usable = true

end

section
variable {hash : Text → Text} {s t : Admission}

theorem Counted.within (hc : Counted hash s) : WithinLimits s := by
  intro h row hrow
  obtain ⟨m, hm, hmax, _⟩ := hc.rows h row hrow
  exact hmax ▸ (hc.counted h m hm).1

theorem admissionCode_eq_some : admissionCode hash call = some h ↔
    call.enforced = true ∧ presented hash call.inviteCode = some h := by
  unfold admissionCode
  split <;> simp_all

theorem presented_eq_some : presented hash inviteCode = some h ↔
    ∃ c, given inviteCode = some c ∧ hash c = h := by
  simp [presented, Option.map_eq_some_iff]

/-- Only a call at `savingInvite` can end a write that is under way. -/
theorem Saving.of_set (hs : Saving hash s h) (hcalls : t.calls = s.calls.set i call)
    (hold : ∀ old, s.calls.get? i = some old → old.pc ≠ .savingInvite) : Saving hash t h := by
  obtain ⟨k, c, hk, hp, hh⟩ := hs
  exact ⟨k, c, hcalls ▸ Dict.get?_set_other hk fun hi => hold c hi hp, hp, hh⟩

/-- A call that is not saving a use may move. -/
theorem Saving.keep (hs : Saving hash s h) (hcall : s.calls.get? i = some call)
    (hpc : call.pc ≠ .savingInvite) (hcalls : t.calls = s.calls.set i next) : Saving hash t h := by
  refine hs.of_set hcalls fun old ho => ?_
  obtain rfl := Option.some.inj (hcall.symm.trans ho)
  exact hpc

/-- A call that owes nothing may move. -/
theorem Owed.of_set (ho : Owed hash s h) (hcalls : t.calls = s.calls.set i call)
    (hold : ∀ old, s.calls.get? i = some old → old.pc ≠ .saved) : Owed hash t h := by
  obtain ⟨k, c, hk, ho⟩ := ho
  exact ⟨k, c, hcalls ▸ Dict.get?_set_other hk fun hi => hold c hi ho.1, ho⟩

/-- A call that moves while nothing of its own is owed or being saved changes nothing
that is counted. -/
theorem Counted.move (hc : Counted hash s) (hcalls : t.calls = s.calls.set i call)
    (hold : ∀ old, s.calls.get? i = some old → old.pc ≠ .saved ∧ old.pc ≠ .savingInvite) (hpc : call.pc ≠ .saved)
    (htaken : call.pc = .savingNode → t.lock = some i) (hlock : s.lock ≠ none → t.lock = s.lock)
    (hinv : t.invites = s.invites) (hstore : t.store.invites = s.store.invites)
    (hadm : t.admitted = s.admitted) (hrev : t.revocations = s.revocations) : Counted hash t := by
  have hback : ∀ k c, t.calls.get? k = some c →
      (c.pc = .savingNode ∧ k = i) ∨ s.calls.get? k = some c ∨ (c.pc ≠ .saved ∧ c.pc ≠ .savingNode) := by
    intro k c hk
    rw [hcalls, Dict.get?_set] at hk
    split at hk
    · rename_i hik
      cases hk
      by_cases hn : call.pc = .savingNode
      · exact .inl ⟨hn, hik.symm⟩
      · exact .inr (.inr ⟨hpc, hn⟩)
    · exact .inr (.inl hk)
  constructor
  · intro k c hk hp
    obtain ⟨hn, rfl⟩ | hs | hne := hback k c hk
    · rw [hcalls, Dict.get?_set_self] at hk
      cases hk
      exact htaken hn
    · have hl := hc.locked k c hs hp
      rw [hlock (by simp [hl]), hl]
    · exact (hp.elim hne.2 hne.1).elim
  · intro h row hrow
    rw [hstore] at hrow
    obtain ⟨m, hm, hmax, huse⟩ := hc.rows h row hrow
    exact ⟨m, hinv ▸ hm, hmax, huse.imp_right fun hs => hs.of_set hcalls fun old ho => (hold old ho).2⟩
  · rw [hrev, hstore]
    exact hc.copies
  · intro h m hm
    rw [hinv] at hm
    rw [admittedUnder, hadm]
    exact (hc.counted h m hm).imp_right (Or.imp_right (And.imp_right fun ho =>
      ho.of_set hcalls fun old hi => (hold old hi).1))
  · intro k c h hk ho
    rw [hinv]
    obtain ⟨hn, _⟩ | hs | hne := hback k c hk
    · exact absurd (hn.symm.trans ho.1) (by decide)
    · exact hc.unspent k c h hs ho
    · exact absurd ho.1 hne.1

theorem counted_arrive (hc : Counted hash s)
    (h : s.arrive hash i node inviteCode credential authToken = some t) : Counted hash t := by
  obtain ⟨hi, ⟨_, rfl⟩ | ⟨_, rfl⟩⟩ := arrive_cases h
  all_goals
    refine hc.move rfl (fun old ho => ?_) ?_ ?_ (fun _ => rfl) rfl rfl rfl rfl
    · rw [hi] at ho
      cases ho
    · exact nofun
    · exact nofun

theorem counted_saveToken (hc : Counted hash s) (h : s.saveToken i = some t) : Counted hash t := by
  obtain ⟨call, hcall, hpc, rfl⟩ := saveToken_cases h
  refine hc.move rfl (fun old ho => ?_) ?_ ?_ (fun _ => rfl) rfl ?_ rfl rfl
  · obtain rfl := Option.some.inj (hcall.symm.trans ho)
    simp [hpc]
  · exact nofun
  · exact nofun
  · exact SQLiteStore.saveNodeToken_invites ..

theorem counted_lockRegistry (hc : Counted hash s) (h : s.lockRegistry i = some t) :
    Counted hash t := by
  obtain ⟨call, hcall, hpc, hlock, ⟨_, rfl⟩ | ⟨_, registry, _, rfl⟩⟩ := lockRegistry_cases h
  all_goals
    have hold : ∀ old, s.calls.get? i = some old → old.pc ≠ .saved ∧ old.pc ≠ .savingInvite := by
      intro old ho
      obtain rfl := Option.some.inj (hcall.symm.trans ho)
      simp [hpc]
  · refine hc.move rfl hold ?_ ?_ (fun _ => rfl) rfl rfl rfl rfl
    · exact nofun
    · exact nofun
  · refine hc.move rfl hold ?_ (fun _ => rfl) (fun hn => absurd hlock hn) rfl rfl rfl rfl
    exact nofun

/-- While another call is at a node's write, nobody owes a use. -/
theorem Counted.not_owed (hc : Counted hash s) (hcall : s.calls.get? i = some call)
    (hpc : call.pc = .savingNode) (h : Text) : ¬ Owed hash s h := by
  rintro ⟨k, c, hk, hp, _⟩
  have hi := hc.locked i call hcall (.inl hpc)
  have hk' := hc.locked k c hk (.inr hp)
  obtain rfl : i = k := Option.some.inj (hi.symm.trans hk')
  obtain rfl := Option.some.inj (hcall.symm.trans hk)
  exact absurd (hpc.symm.trans hp) (by decide)

theorem admittedUnder_logged (s : Admission) (call : Call) (h : Text) :
    ({ s with admitted := logged hash s.admitted call } : Admission).admittedUnder h =
      if admissionCode hash call = some h then insert call.node.nodeId (s.admittedUnder h)
      else s.admittedUnder h := by
  unfold admittedUnder logged
  cases ha : admissionCode hash call with
  | none => rfl
  | some k =>
    by_cases hk : k = h
    · simp [hk]
    · simp [hk]

/-- A code that is presented passes the check if it is usable in memory. -/
theorem verify_presented (hp : presented hash inviteCode = some h) :
    s.invites.verify hash inviteCode ≠ none ↔ ∃ m, s.invites.get? h = some m ∧ m.usable = true := by
  obtain ⟨c, hc, rfl⟩ := presented_eq_some.mp hp
  rw [Option.ne_none_iff_exists']
  refine exists_congr fun m => Invites.verify_eq_some.trans ?_
  constructor
  · rintro ⟨d, hd, hget, hu⟩
    obtain rfl := Option.some.inj (hd.symm.trans hc)
    exact ⟨hget, hu⟩
  · exact fun hm => ⟨c, hc, hm⟩

/-- The code of a call that may be charged is usable. -/
theorem usable_of_verify (ha : admissionCode hash call = some h)
    (hv : s.invites.verify hash call.inviteCode ≠ none) :
    ∃ m, s.invites.get? h = some m ∧ m.usable = true :=
  (verify_presented (admissionCode_eq_some.mp ha).2).mp hv

theorem counted_saveNode (hc : Counted hash s) (hg : Charged hash s (.saveNode i))
    (h : s.saveNode hash i = some t) : Counted hash t := by
  obtain ⟨call, hcall, hpc, rfl⟩ := saveNode_cases h
  have hlock := hc.locked i call hcall (.inl hpc)
  constructor
  · intro k c hk hp
    simp only [Dict.get?_set] at hk
    split at hk
    · rename_i hik
      exact hik ▸ hlock
    · exact hc.locked k c hk hp
  · intro g row hrow
    obtain ⟨m, hm, hmax, huse⟩ := hc.rows g row hrow
    exact ⟨m, hm, hmax, huse.imp_right fun hs => hs.keep hcall (by simp [hpc]) rfl⟩
  · exact hc.copies
  · intro g m hm
    obtain ⟨hmax, huse⟩ := hc.counted g m hm
    replace huse := huse.resolve_right fun hw => hc.not_owed hcall hpc g hw.2
    have hset := @admittedUnder_logged hash s call g
    by_cases ha : admissionCode hash call = some g
    · -- the call itself now owes a use, of a code that still has one
      obtain ⟨m', hm', hu⟩ := usable_of_verify ha (hg call hcall (by simp [ha]))
      obtain rfl := Option.some.inj (hm.symm.trans hm')
      have hcard := Finset.card_insert_le call.node.nodeId (s.admittedUnder g)
      have hroom := (InviteCode.usable_iff.mp hu).2
      rw [if_pos ha] at hset
      simp only [admittedUnder] at hset hcard huse hmax ⊢
      rw [hset]
      refine ⟨by omega, .inr ⟨by omega, i, call.to .saved, ?_, rfl, ha⟩⟩
      exact Dict.get?_set_self ..
    · rw [if_neg ha] at hset
      simp only [admittedUnder] at hset huse hmax ⊢
      rw [hset]
      exact ⟨hmax, .inl huse⟩
  · intro k c g hk ho
    simp only [Dict.get?_set] at hk
    split at hk
    · cases hk
      have ha : admissionCode hash call = some g := ho.2
      exact usable_of_verify ha (hg call hcall (by simp [ha]))
    · exact hc.unspent k c g hk ho

/-- Only the holder of the lock can owe a use. -/
theorem Counted.owed_by (hc : Counted hash s) (hcall : s.calls.get? i = some call)
    (hpc : call.pc = .saved) (ho : Owed hash s h) : admissionCode hash call = some h := by
  obtain ⟨k, c, hk, hp, ha⟩ := ho
  have hi := hc.locked i call hcall (.inr hpc)
  have hk' := hc.locked k c hk (.inr hp)
  obtain rfl : i = k := Option.some.inj (hi.symm.trans hk')
  obtain rfl := Option.some.inj (hcall.symm.trans hk)
  exact ha

/-- A call at `saved` holds the lock: once it moves on, no call is at a point that needs it. -/
theorem Counted.released (hc : Counted hash s) (hcall : s.calls.get? i = some call)
    (hpc : call.pc = .saved) (hnext : next.pc ≠ .saved ∧ next.pc ≠ .savingNode) :
    ∀ k c, (s.calls.set i next).get? k = some c → c.pc ≠ .saved ∧ c.pc ≠ .savingNode := by
  intro k c hk
  have hi := hc.locked i call hcall (.inr hpc)
  rw [Dict.get?_set] at hk
  split at hk
  · cases hk
    exact hnext
  · rename_i hik
    constructor
    all_goals
      intro hp
      have hk' := hc.locked k c hk (by simp [hp])
      exact hik (Option.some.inj (hi.symm.trans hk'))

/-- A call that is charged nothing owed nothing. -/
theorem counted_uncharged (hc : Counted hash s) (hcall : s.calls.get? i = some call)
    (hpc : call.pc = .saved) (hv : s.invites.verify hash call.inviteCode = none) :
    Counted hash { s with
      calls := s.calls.set i (call.to (.answered 201))
      vouched := logged hash s.vouched call
      lock := none } := by
  have hnone : ∀ g, ¬ Owed hash s g := by
    intro g ho
    have ha := hc.owed_by hcall hpc ho
    have husable := hc.unspent i call g hcall ⟨hpc, ha⟩
    exact (verify_presented (admissionCode_eq_some.mp ha).2).mpr husable hv
  have hnext : (call.to (.answered 201)).pc ≠ .saved ∧ (call.to (.answered 201)).pc ≠ .savingNode :=
    ⟨nofun, nofun⟩
  have hfree := hc.released hcall hpc hnext
  constructor
  · exact fun k c hk hp => (hp.elim (hfree k c hk).2 (hfree k c hk).1).elim
  · intro g row hrow
    obtain ⟨m, hm, hmax, huse⟩ := hc.rows g row hrow
    exact ⟨m, hm, hmax, huse.imp_right fun hs => hs.keep hcall (by simp [hpc]) rfl⟩
  · exact hc.copies
  · intro g m hm
    obtain ⟨hmax, huse⟩ := hc.counted g m hm
    exact ⟨hmax, .inl (huse.resolve_right fun hw => hnone g hw.2)⟩
  · exact fun k c g hk ho => absurd ho.1 (hfree k c hk).1

/-- Charging the code in memory pays what its call owes, and leaves the row to be written. -/
theorem counted_charged (hc : Counted hash s) (hcall : s.calls.get? i = some call)
    (hpc : call.pc = .saved) (hcode : given call.inviteCode = some code)
    (hget : s.invites.get? (hash code) = some old) :
    Counted hash { s with
      calls := s.calls.set i { call with charged := true, pc := .savingInvite }
      lock := none
      invites := s.invites.put { old with uses := old.uses + 1 } } := by
  have hkey : old.codeHash = hash code := Table.key_of_get? hget
  have hpresented : presented hash call.inviteCode = some (hash code) :=
    presented_eq_some.mpr ⟨code, hcode, rfl⟩
  have hput : ∀ g, (s.invites.put { old with uses := old.uses + 1 }).get? g =
      if hash code = g then some { old with uses := old.uses + 1 } else s.invites.get? g := by
    intro g
    rw [Table.get?_put, hkey]
  have hnext : ({ call with charged := true, pc := .savingInvite } : Call).pc ≠ .saved ∧
      ({ call with charged := true, pc := .savingInvite } : Call).pc ≠ .savingNode := ⟨nofun, nofun⟩
  have hfree := hc.released hcall hpc hnext
  constructor
  · exact fun k c hk hp => (hp.elim (hfree k c hk).2 (hfree k c hk).1).elim
  · intro g row hrow
    obtain ⟨m, hm, hmax, huse⟩ := hc.rows g row hrow
    by_cases hg : hash code = g
    · subst hg
      obtain rfl := Option.some.inj (hget.symm.trans hm)
      refine ⟨_, (hput _).trans (if_pos rfl), hmax, .inr ⟨i, _, Dict.get?_set_self .., rfl, ?_⟩⟩
      exact hpresented
    · exact ⟨m, ((hput g).trans (if_neg hg)).trans hm, hmax,
        huse.imp_right fun hs => hs.keep hcall (by simp [hpc]) rfl⟩
  · exact hc.copies
  · intro g m hm
    rw [hput] at hm
    split at hm
    · rename_i hg
      subst hg
      cases hm
      obtain ⟨hmax, huse⟩ := hc.counted _ old hget
      exact ⟨hmax, .inl (huse.elim (fun h => h.trans (Nat.le_succ _)) And.left)⟩
    · rename_i hg
      obtain ⟨hmax, huse⟩ := hc.counted g m hm
      refine ⟨hmax, .inl (huse.resolve_right fun hw => hg ?_)⟩
      have ha := admissionCode_eq_some.mp (hc.owed_by hcall hpc hw.2)
      exact Option.some.inj (hpresented.symm.trans ha.2)
  · exact fun k c g hk ho => absurd ho.1 (hfree k c hk).1

theorem counted_resume (hc : Counted hash s) (h : s.resume hash i = some t) : Counted hash t := by
  obtain ⟨call, hcall, hpc, ⟨hv, rfl⟩ | ⟨code, old, hcode, hget, _, rfl⟩⟩ := resume_cases h
  · exact counted_uncharged hc hcall hpc hv
  · exact counted_charged hc hcall hpc hcode hget

/-- Writing a row with the limit the file has for its code leaves every limit as it was. -/
theorem limit_saveInvite {store : SQLiteStore} {i : InviteCode}
    (hi : ∀ row, store.invites.get? i.codeHash = some row → row.maxUses = i.maxUses)
    (hg : ∃ row, store.invites.get? g = some row ∧ row.maxUses = n) :
    ∃ row, (store.saveInvite i).invites.get? g = some row ∧ row.maxUses = n := by
  obtain ⟨row, hrow, rfl⟩ := hg
  change ∃ row, (store.invites.saveInvite i).get? g = some row ∧ _
  rw [Invites.get?_saveInvite]
  split
  · rename_i hk
    exact ⟨_, rfl, (hi row (hk ▸ hrow)).symm⟩
  · exact ⟨row, hrow, rfl⟩

theorem counted_saveInvite (hc : Counted hash s) (h : s.saveInvite hash i = some t) :
    Counted hash t := by
  obtain ⟨call, code, invite, hcall, hpc, hcode, hget, rfl⟩ := saveInvite_cases h
  have hkey : invite.codeHash = code := Table.key_of_get? hget
  have hback : ∀ k c, (s.calls.set i (call.to (.answered 201))).get? k = some c →
      c.pc = .savingNode ∨ c.pc = .saved → s.calls.get? k = some c := by
    intro k c hk hp
    simp only [Dict.get?_set] at hk
    split at hk
    · cases hk
      rcases hp with hp | hp <;> cases hp
    · exact hk
  constructor
  · exact fun k c hk hp => hc.locked k c (hback k c hk hp) hp
  · intro g row hrow
    change (s.store.invites.saveInvite invite).get? g = some row at hrow
    rw [Invites.get?_saveInvite] at hrow
    split at hrow
    · rename_i hg
      cases hrow
      exact ⟨invite, hg ▸ hkey ▸ hget, rfl, .inl (Nat.le_refl _)⟩
    · rename_i hg
      obtain ⟨m, hm, hmax, huse⟩ := hc.rows g row hrow
      refine ⟨m, hm, hmax, huse.imp_right ?_⟩
      rintro ⟨k, c, hk, hp, hh⟩
      refine ⟨k, c, Dict.get?_set_other hk fun hi => ?_, hp, hh⟩
      obtain rfl := Option.some.inj (hcall.symm.trans hi)
      exact hg (hkey.trans (Option.some.inj (hcode.symm.trans hh)))
  · intro j c copy hj
    refine limit_saveInvite (fun row hrow => ?_) (hc.copies j c copy hj)
    obtain ⟨m, hm, hmax, _⟩ := hc.rows _ row hrow
    obtain rfl := Option.some.inj ((hkey ▸ hget).symm.trans hm)
    exact hmax.symm
  · intro g m hm
    refine (hc.counted g m hm).imp_right (Or.imp_right (And.imp_right fun ho =>
      ho.of_set rfl fun old hi => ?_))
    obtain rfl := Option.some.inj (hcall.symm.trans hi)
    simp [hpc]
  · exact fun k c g hk ho => hc.unspent k c g (hback k c hk (.inr ho.1)) ho

theorem counted_remove (hc : Counted hash s) (h : s.remove nodeId = some t) : Counted hash t := by
  obtain ⟨_, rfl⟩ := remove_cases h
  exact ⟨hc.locked, hc.rows, hc.copies, hc.counted, hc.unspent⟩

theorem counted_restart (hc : Counted hash s) (hg : Charged hash s .restart) :
    Counted hash s.restart := by
  have hnone : ∀ k c, s.restart.calls.get? k ≠ some c := fun k c => by simp [restart]
  constructor
  · exact fun k c hk => absurd hk (hnone k c)
  · exact fun g row hrow => ⟨row, hrow, rfl, .inl (Nat.le_refl _)⟩
  · exact hc.copies
  · intro g row hrow
    obtain ⟨m, hm, hmax, huse⟩ := hc.rows g row hrow
    obtain ⟨hlim, hcard⟩ := hc.counted g m hm
    have hu := huse.resolve_right fun ⟨k, c, hk, hp, _⟩ => (hg _ (Dict.get?_eq_some.mp hk)).1 hp
    have hcard := hcard.resolve_right fun ⟨_, k, c, hk, ho⟩ => by
      have hn := (hg _ (Dict.get?_eq_some.mp hk)).2 ho.1
      cases hn.symm.trans ho.2
    exact ⟨hmax ▸ hlim, .inl (hcard.trans hu)⟩
  · exact fun k c g hk => absurd hk (hnone k c)

theorem counted_revoke (hc : Counted hash s) (h : s.revoke hash j code = some t) :
    Counted hash t := by
  obtain ⟨_, rfl⟩ := revoke_cases h
  refine ⟨hc.locked, hc.rows, ?_, hc.counted, hc.unspent⟩
  intro k c copy hk
  rw [Dict.get?_set] at hk
  split at hk
  · obtain ⟨rfl, hp⟩ := Revocation.mk.inj (Option.some.inj hk)
    obtain ⟨old, hold, rfl⟩ := Invites.revoke_row hp
    exact ⟨old, (Table.key_of_get? hold).symm ▸ hold, rfl⟩
  · exact hc.copies k c copy hk

theorem counted_saveRevoked (hc : Counted hash s) (hg : Charged hash s (.saveRevoked j))
    (h : s.saveRevoked j = some t) : Counted hash t := by
  obtain ⟨code, invite, hj, rfl⟩ := saveRevoked_cases h
  obtain ⟨old, hold, hlim⟩ := hc.copies j code invite hj
  refine ⟨hc.locked, ?_, ?_, hc.counted, hc.unspent⟩
  · intro g row hrow
    change (s.store.invites.saveInvite invite).get? g = some row at hrow
    rw [Invites.get?_saveInvite] at hrow
    split at hrow
    · rename_i hk
      subst hk
      cases hrow
      obtain ⟨m, hm, hmax, huse⟩ := hc.rows _ old hold
      exact ⟨m, hm, hmax.trans hlim, huse.imp_left fun hu => hu.trans (hg _ hj invite rfl old hold)⟩
    · exact hc.rows g row hrow
  · intro k c copy hk
    rw [Dict.get?_set] at hk
    split at hk
    · cases hk
    · refine limit_saveInvite (fun row hrow => ?_) (hc.copies k c copy hk)
      obtain rfl := Option.some.inj (hold.symm.trans hrow)
      exact hlim

theorem counted_revokeReturns (hc : Counted hash s) (h : s.revokeReturns hash j = some t) :
    Counted hash t := by
  obtain ⟨code, hj, rfl⟩ := revokeReturns_cases h
  exact ⟨hc.locked, hc.rows, fun k c copy hk => hc.copies k c copy (Dict.of_get?_pop hk),
    hc.counted, hc.unspent⟩

theorem counted_step (hc : Counted hash s) (hg : Charged hash s a) (h : step hash s a = some t) :
    Counted hash t := by
  cases a with
  | arrive i node inviteCode credential authToken => exact counted_arrive hc h
  | saveToken i => exact counted_saveToken hc h
  | lockRegistry i => exact counted_lockRegistry hc h
  | saveNode i => exact counted_saveNode hc hg h
  | resume i => exact counted_resume hc h
  | saveInvite i => exact counted_saveInvite hc h
  | remove nodeId => exact counted_remove hc h
  | restart =>
    obtain rfl := Option.some.inj h
    exact counted_restart hc hg
  | revoke j code => exact counted_revoke hc h
  | saveRevoked j => exact counted_saveRevoked hc hg h
  | revokeReturns j => exact counted_revokeReturns hc h

theorem counted_start (store : SQLiteStore) : Counted hash (start store) := by
  have hnone : ∀ k c, (start store).calls.get? k ≠ some c := fun k c => by simp [start]
  constructor
  · exact fun k c hk => absurd hk (hnone k c)
  · exact fun g row hrow => ⟨row, hrow, rfl, .inl (Nat.le_refl _)⟩
  · exact fun j code invite hj => absurd hj (by simp [start])
  · exact fun g m _ => ⟨Nat.zero_le _, .inl (Nat.zero_le _)⟩
  · exact fun k c g hk => absurd hk (hnone k c)

end

/-- In every run whose steps charge each admission, no code admits more nodes than
its `max_uses`. -/
theorem admitted_within_limits (hash : Text → Text) (store : SQLiteStore) (run : List Act)
    (h : Along (step hash) (Charged hash) (start store) run) :
    Throughout (step hash) WithinLimits (start store) run :=
  throughout_mono (fun _ => Counted.within)
    (along_throughout (fun _ _ _ hc hg hs => counted_step hc hg hs) (counted_start store) h)

/-- `hash_code` on the code `abc`, and any other text for itself. -/
def abcHash (code : Text) : Text :=
  if code = text "abc" then text "ba7816bf8f01cfea414140de5dae2223b00361a396177a9cb410ff61f20015ad"
  else code

def singleUse : InviteCode := ⟨abcHash (text "abc"), text "alice", 1, 0, false, 0, by decide⟩

def singleUseStore : SQLiteStore := ⟨.empty, .empty, Table.empty.put singleUse⟩

def node1 : Node := ⟨text "node-1", []⟩

def node2 : Node := ⟨text "node-2", []⟩

/-- A node's request with the code `abc` reaches the Scheduler. -/
def arriveWith (i : Nat) (node : Node) : Act := .arrive i node (some (text "abc")) (some (text "token")) none

/-- One node is admitted and charged, the Scheduler restarts, and another node is refused. -/
def chargedRun : List Act :=
  [arriveWith 0 node1, .saveToken 0, .lockRegistry 0, .saveNode 0, .resume 0, .saveInvite 0, .restart,
    arriveWith 1 node2]

theorem admitted_within_limits_single :
    (exec (step abcHash) (start singleUseStore) chargedRun).isSome = true ∧
      Throughout (step abcHash) WithinLimits (start singleUseStore) chargedRun :=
  ⟨by decide +kernel, admitted_within_limits _ _ _ (by decide +kernel)⟩

/-- The Scheduler crashes once the first node's row is written, before its use is. -/
def crashRun : List Act :=
  [arriveWith 0 node1, .saveToken 0, .lockRegistry 0, .saveNode 0, .restart,
    arriveWith 1 node2, .saveToken 1, .lockRegistry 1, .saveNode 1]

/-- Steps of calls and restarts only. -/
def Act.registers : Act → Bool
  | .remove _ | .revoke .. | .saveRevoked _ | .revokeReturns _ => false
  | _ => true

/-- A crash lets a single-use code admit a second node. -/
theorem single_use_admits_two :
    ¬ ∀ (hash : Text → Text) (store : SQLiteStore) (run : List Act) (t : Admission),
      (∀ a ∈ run, a.registers = true) → exec (step hash) (start store) run = some t →
      WithinLimits t := by
  intro h
  have hrun : ((exec (step abcHash) (start singleUseStore) crashRun).map fun t =>
      ((t.store.invites.get? singleUse.codeHash).map InviteCode.maxUses,
        (t.admittedUnder singleUse.codeHash).card)) = some (some 1, 2) := by decide +kernel
  obtain ⟨t, ht, hval⟩ := Option.map_eq_some_iff.mp hrun
  obtain ⟨hrow, hcard⟩ := Prod.mk.inj hval
  obtain ⟨row, hrow, hmax⟩ := Option.map_eq_some_iff.mp hrow
  have hle := h abcHash singleUseStore crashRun t (by decide) ht _ row hrow
  omega

end PublicIntelligence.Scheduler.Admission
