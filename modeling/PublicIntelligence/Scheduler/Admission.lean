import Mathlib.Data.Finset.Card
import PublicIntelligence.Lib.Runs
import PublicIntelligence.Scheduler.Invites

namespace PublicIntelligence.Scheduler

open Runs Text

/-- Where a call of `register_node` waits. Up to `savingNode` and at `savingInvite` the
store write named is still to be made; at `saved` the node's row is written and the
registry's lock still held. -/
inductive Pc where
  | savingToken
  | registering
  | savingNode
  | saved
  | savingInvite
  | answered (status : Nat)
deriving DecidableEq

/-- A `POST /nodes/register`: what it presents, and how far it is. The last five
fields are history: invites were enforced when it arrived; its node had been admitted
under its code before; a revocation of its code had returned before; the registry
held its node when it looked; it was charged a use. -/
structure Call where
  node : Node
  inviteCode : Option Text
  credential : Option Text
  authToken : Option Text
  pc : Pc
  enforced : Bool
  repeated : Bool
  late : Bool
  found : Bool
  charged : Bool

/-- The credential that is kept of the two a call presents. -/
def Call.token (call : Call) : Option Text := (given call.credential).or call.authToken

def Call.to (call : Call) (pc : Pc) : Call := { call with pc }

/-- A run of `mint_invite.py --revoke`: the row it still has to write, if any. -/
structure Revocation where
  code : Text
  pending : Option InviteCode

/-- A Scheduler, the revocations running beside it, and the file they share. The last
three fields are history: who was persisted by a call under which code, who has been
answered 201 under a code not revoked since, and the codes whose revocation returned. -/
structure Admission where
  registry : NodeRegistry
  invites : Invites
  lock : Option Nat
  calls : Dict Nat Call
  revocations : Dict Nat Revocation
  store : SQLiteStore
  admitted : List (Text × Text)
  vouched : List (Text × Text)
  returned : List Text

namespace Admission

inductive Act where
  | arrive (i : Nat) (node : Node) (inviteCode credential authToken : Option Text)
  | saveToken (i : Nat)
  | lockRegistry (i : Nat)
  | saveNode (i : Nat)
  | resume (i : Nat)
  | saveInvite (i : Nat)
  | remove (nodeId : Text)
  | restart
  | revoke (j : Nat) (code : Text)
  | saveRevoked (j : Nat)
  | revokeReturns (j : Nat)

/-- A Scheduler that has just loaded what the store holds. -/
def start (store : SQLiteStore) : Admission where
  registry := .load store.nodes store.nodeTokens
  invites := store.invites
  lock := none
  calls := .empty
  revocations := .empty
  store
  admitted := []
  vouched := []
  returned := []

/-- The distinct nodes admitted under a code. -/
def admittedUnder (s : Admission) (h : Text) : Finset Text :=
  ((s.admitted.filter fun e => e.1 = h).map Prod.snd).toFinset

section
variable (hash : Text → Text)

/-- The hash of the code a call presents. -/
def presented (inviteCode : Option Text) : Option Text := (given inviteCode).map hash

/-- The code whose invite a call was admitted against. -/
def admissionCode (call : Call) : Option Text :=
  if call.enforced then presented hash call.inviteCode else none

/-- The log with the call's node added, if it was admitted under a code. -/
def logged (log : List (Text × Text)) (call : Call) : List (Text × Text) :=
  match admissionCode hash call with
  | some h => (h, call.node.nodeId) :: log
  | none => log

def newCall (s : Admission) (node : Node) (inviteCode credential authToken : Option Text) : Call where
  node
  inviteCode
  credential
  authToken
  pc := .savingToken
  enforced := s.invites.enforcing
  repeated := (presented hash inviteCode).any fun h => decide ((h, node.nodeId) ∈ s.vouched)
  late := (presented hash inviteCode).any fun h => decide (h ∈ s.returned)
  found := false
  charged := false

/-- The check of the code at the top of `register_node`. -/
def refuses (s : Admission) (inviteCode : Option Text) : Bool :=
  s.invites.enforcing && (s.invites.verify hash inviteCode).isNone

/-- Up to the first store write: the code is checked and the credential kept. -/
def arrive (s : Admission) (i : Nat) (node : Node) (inviteCode credential authToken : Option Text) :
    Option Admission :=
  if i ∈ s.calls then none
  else
    let call := s.newCall hash node inviteCode credential authToken
    if s.refuses hash inviteCode then some { s with calls := s.calls.set i (call.to (.answered 403)) }
    else
      some { s with
        calls := s.calls.set i call
        registry := s.registry.setNodeToken node.nodeId call.token }

def saveToken (s : Admission) (i : Nat) : Option Admission :=
  match s.calls.get? i with
  | none => none
  | some call =>
    if call.pc = .savingToken then
      some { s with
        calls := s.calls.set i (call.to .registering)
        store := s.store.saveNodeToken call.node.nodeId call.token }
    else none

/-- `local_register` from taking the lock to the write of the node's row. -/
def lockRegistry (s : Admission) (i : Nat) : Option Admission :=
  match s.calls.get? i with
  | none => none
  | some call =>
    if call.pc = .registering ∧ s.lock = none then
      match s.registry.localRegister call.node with
      | none =>
        let call := { call with found := true, pc := .answered 409 }
        some { s with calls := s.calls.set i call }
      | some registry =>
        some { s with calls := s.calls.set i (call.to .savingNode), registry, lock := some i }
    else none

def saveNode (s : Admission) (i : Nat) : Option Admission :=
  match s.calls.get? i with
  | none => none
  | some call =>
    if call.pc = .savingNode then
      some { s with
        calls := s.calls.set i (call.to .saved)
        store := s.store.saveNode call.node
        admitted := logged hash s.admitted call }
    else none

/-- The call is answered 201. -/
def finish (s : Admission) (i : Nat) (call : Call) : Admission :=
  { s with
    calls := s.calls.set i (call.to (.answered 201))
    vouched := logged hash s.vouched call }

/-- `register_node` redeems the code it was shown if invites are enforced. -/
def redemption (s : Admission) (call : Call) : Option (InviteCode × Invites) :=
  if s.invites.enforcing then (given call.inviteCode).bind fun c => s.invites.redeem hash c else none

/-- From the end of the node's write to that of the invite's: the lock is released
and the code redeemed in one go. -/
def resume (s : Admission) (i : Nat) : Option Admission :=
  match s.calls.get? i with
  | none => none
  | some call =>
    if call.pc = .saved then
      match s.redemption hash call with
      | none =>
        let s := s.finish hash i call
        some { s with lock := none }
      | some (_, invites) =>
        let call := { call with charged := true, pc := .savingInvite }
        some { s with calls := s.calls.set i call, lock := none, invites }
    else none

/-- The row is written as the Scheduler's memory has it now. -/
def saveInvite (s : Admission) (i : Nat) : Option Admission :=
  match s.calls.get? i with
  | none => none
  | some call =>
    if call.pc = .savingInvite then
      match (presented hash call.inviteCode).bind s.invites.get? with
      | none => none
      | some invite =>
        let s := s.finish hash i call
        some { s with store := s.store.saveInvite invite }
    else none

/-- An eviction, or `DELETE /nodes/{id}`. -/
def remove (s : Admission) (nodeId : Text) : Option Admission :=
  if s.lock = none then
    some { s with
      registry := s.registry.localUnregisterNode nodeId
      store := s.store.deleteNode nodeId }
  else none

/-- The Scheduler crashes, whatever it was doing, and loads its store again. -/
def restart (s : Admission) : Admission :=
  { s with
    registry := .load s.store.nodes s.store.nodeTokens
    invites := s.store.invites
    lock := none
    calls := .empty }

/-- The script loads every row and marks its own copy of the code's. -/
def revoke (s : Admission) (j : Nat) (code : Text) : Option Admission :=
  if j ∈ s.revocations then none
  else
    let pending := (s.store.invites.revoke hash code).map Prod.fst
    some { s with revocations := s.revocations.set j ⟨code, pending⟩ }

def saveRevoked (s : Admission) (j : Nat) : Option Admission :=
  match s.revocations.get? j with
  | some ⟨code, some invite⟩ =>
    some { s with
      revocations := s.revocations.set j ⟨code, none⟩
      store := s.store.saveInvite invite
      vouched := s.vouched.filter fun e => e.1 ≠ invite.codeHash }
  | _ => none

def revokeReturns (s : Admission) (j : Nat) : Option Admission :=
  match s.revocations.get? j with
  | some ⟨code, none⟩ =>
    some { s with
      revocations := s.revocations.pop j
      returned := hash code :: s.returned }
  | _ => none

def step : Step Admission Act
  | s, .arrive i node inviteCode credential authToken =>
    s.arrive hash i node inviteCode credential authToken
  | s, .saveToken i => s.saveToken i
  | s, .lockRegistry i => s.lockRegistry i
  | s, .saveNode i => s.saveNode hash i
  | s, .resume i => s.resume hash i
  | s, .saveInvite i => s.saveInvite hash i
  | s, .remove nodeId => s.remove nodeId
  | s, .restart => some s.restart
  | s, .revoke j code => s.revoke hash j code
  | s, .saveRevoked j => s.saveRevoked j
  | s, .revokeReturns j => s.revokeReturns hash j

end

section
variable {hash : Text → Text} {s t : Admission}

/-- A call that is refused is answered at once; any other has its credential kept. -/
theorem arrive_cases (h : s.arrive hash i node inviteCode credential authToken = some t) :
    s.calls.get? i = none ∧
      ((s.refuses hash inviteCode = true ∧
          t = { s with
            calls := s.calls.set i
              ((s.newCall hash node inviteCode credential authToken).to (.answered 403)) }) ∨
        (s.refuses hash inviteCode = false ∧ t = { s with
          calls := s.calls.set i (s.newCall hash node inviteCode credential authToken)
          registry := s.registry.setNodeToken node.nodeId
            (s.newCall hash node inviteCode credential authToken).token })) := by
  unfold arrive at h
  split at h
  · cases h
  · rename_i hi
    refine ⟨Dict.not_mem_iff.mp hi, ?_⟩
    split at h
    · rename_i hr
      exact .inl ⟨hr, (Option.some.inj h).symm⟩
    · rename_i hr
      exact .inr ⟨Bool.eq_false_iff.mpr hr, (Option.some.inj h).symm⟩

theorem saveToken_cases (h : s.saveToken i = some t) :
    ∃ call, s.calls.get? i = some call ∧ call.pc = .savingToken ∧
      t = { s with
        calls := s.calls.set i (call.to .registering)
        store := s.store.saveNodeToken call.node.nodeId call.token } := by
  unfold saveToken at h
  split at h
  · cases h
  · rename_i call hcall
    split at h
    · rename_i hpc
      exact ⟨call, hcall, hpc, (Option.some.inj h).symm⟩
    · cases h

theorem lockRegistry_cases (h : s.lockRegistry i = some t) :
    ∃ call, s.calls.get? i = some call ∧ call.pc = .registering ∧ s.lock = none ∧
      ((call.node.nodeId ∈ s.registry.nodes ∧
          t = { s with
            calls := s.calls.set i { call with found := true, pc := .answered 409 } }) ∨
        (call.node.nodeId ∉ s.registry.nodes ∧ ∃ registry,
          s.registry.localRegister call.node = some registry ∧
          t = { s with calls := s.calls.set i (call.to .savingNode), registry, lock := some i })) := by
  unfold lockRegistry at h
  split at h
  · cases h
  · rename_i call hcall
    split at h
    · rename_i hpc
      refine ⟨call, hcall, hpc.1, hpc.2, ?_⟩
      split at h
      · rename_i hreg
        exact .inl ⟨NodeRegistry.localRegister_eq_none.mp hreg, (Option.some.inj h).symm⟩
      · rename_i registry hreg
        exact .inr ⟨(NodeRegistry.localRegister_eq_some.mp hreg).1, registry, hreg,
          (Option.some.inj h).symm⟩
    · cases h

theorem saveNode_cases (h : s.saveNode hash i = some t) :
    ∃ call, s.calls.get? i = some call ∧ call.pc = .savingNode ∧
      t = { s with
        calls := s.calls.set i (call.to .saved)
        store := s.store.saveNode call.node
        admitted := logged hash s.admitted call } := by
  unfold saveNode at h
  split at h
  · cases h
  · rename_i call hcall
    split at h
    · rename_i hpc
      exact ⟨call, hcall, hpc, (Option.some.inj h).symm⟩
    · cases h

theorem redemption_eq_none {call : Call} :
    s.redemption hash call = none ↔ s.invites.verify hash call.inviteCode = none := by
  cases hg : given call.inviteCode with
  | none => simp [redemption, Invites.verify, hg]
  | some c =>
    have hgc : given (some c) = some c := by rw [← hg]; simp [given]
    have hv : s.invites.verify hash call.inviteCode = s.invites.verify hash (some c) := by
      rw [Invites.verify, Invites.verify, hg, hgc]
    cases he : s.invites.enforcing with
    | false =>
      simp only [redemption, he, Bool.false_eq_true, if_false, true_iff]
      by_contra hne
      obtain ⟨invite, hi⟩ := Option.ne_none_iff_exists'.mp hne
      obtain ⟨d, _, hget, _⟩ := Invites.verify_eq_some.mp hi
      rw [Invites.enforcing_of_get? hget] at he
      cases he
    | true => simp [redemption, he, hg, hv, Invites.redeem]

theorem redemption_eq_some {call : Call} (h : s.redemption hash call = some (i, after)) :
    ∃ code old, given call.inviteCode = some code ∧ s.invites.get? (hash code) = some old ∧
      old.usable = true ∧ after = s.invites.put { old with uses := old.uses + 1 } := by
  unfold redemption at h
  split at h
  · obtain ⟨code, hg, hr⟩ := Option.bind_eq_some_iff.mp h
    obtain ⟨old, hv, rfl, rfl⟩ := Invites.redeem_eq_some.mp hr
    obtain ⟨c, hc, hget, hu⟩ := Invites.verify_eq_some.mp hv
    have hgc : given (some code) = some code := by rw [← hg]; simp [given]
    obtain rfl : code = c := Option.some.inj (hgc.symm.trans hc)
    exact ⟨code, old, hg, hget, hu, rfl⟩
  · cases h

/-- Either nothing is charged, because invites are not enforced, no code was
presented or it is not usable any more, or the code is charged one use. -/
theorem resume_cases (h : s.resume hash i = some t) :
    ∃ call, s.calls.get? i = some call ∧ call.pc = .saved ∧
      ((s.invites.verify hash call.inviteCode = none ∧
          t = { s with
            calls := s.calls.set i (call.to (.answered 201))
            vouched := logged hash s.vouched call
            lock := none }) ∨
        ∃ code old, given call.inviteCode = some code ∧ s.invites.get? (hash code) = some old ∧
          old.usable = true ∧
          t = { s with
            calls := s.calls.set i { call with charged := true, pc := .savingInvite }
            lock := none
            invites := s.invites.put { old with uses := old.uses + 1 } }) := by
  unfold resume at h
  split at h
  · cases h
  · rename_i call hcall
    split at h
    · rename_i hpc
      refine ⟨call, hcall, hpc, ?_⟩
      split at h
      · rename_i hr
        exact .inl ⟨redemption_eq_none.mp hr, (Option.some.inj h).symm⟩
      · rename_i invites hr
        obtain ⟨code, old, hg, hget, hu, rfl⟩ := redemption_eq_some hr
        exact .inr ⟨code, old, hg, hget, hu, (Option.some.inj h).symm⟩
    · cases h

theorem saveInvite_cases (h : s.saveInvite hash i = some t) :
    ∃ call code invite, s.calls.get? i = some call ∧ call.pc = .savingInvite ∧
      presented hash call.inviteCode = some code ∧ s.invites.get? code = some invite ∧
      t = { s with
        calls := s.calls.set i (call.to (.answered 201))
        vouched := logged hash s.vouched call
        store := s.store.saveInvite invite } := by
  unfold saveInvite at h
  split at h
  · cases h
  · rename_i call hcall
    split at h
    · rename_i hpc
      split at h
      · cases h
      · rename_i invite hinv
        obtain ⟨code, hcode, hget⟩ := Option.bind_eq_some_iff.mp hinv
        exact ⟨call, code, invite, hcall, hpc, hcode, hget, (Option.some.inj h).symm⟩
    · cases h

theorem remove_cases (h : s.remove nodeId = some t) :
    s.lock = none ∧ t = { s with
      registry := s.registry.localUnregisterNode nodeId
      store := s.store.deleteNode nodeId } := by
  unfold remove at h
  split at h
  · rename_i hl
    exact ⟨hl, (Option.some.inj h).symm⟩
  · cases h

theorem revoke_cases (h : s.revoke hash j code = some t) :
    s.revocations.get? j = none ∧
      t = { s with revocations :=
        s.revocations.set j ⟨code, (s.store.invites.revoke hash code).map Prod.fst⟩ } := by
  unfold revoke at h
  split at h
  · cases h
  · rename_i hj
    exact ⟨Dict.not_mem_iff.mp hj, (Option.some.inj h).symm⟩

theorem saveRevoked_cases (h : s.saveRevoked j = some t) :
    ∃ code invite, s.revocations.get? j = some ⟨code, some invite⟩ ∧
      t = { s with
        revocations := s.revocations.set j ⟨code, none⟩
        store := s.store.saveInvite invite
        vouched := s.vouched.filter fun e => e.1 ≠ invite.codeHash } := by
  unfold saveRevoked at h
  split at h
  · rename_i code invite hj
    exact ⟨code, invite, hj, (Option.some.inj h).symm⟩
  · cases h

theorem revokeReturns_cases (h : s.revokeReturns hash j = some t) :
    ∃ code, s.revocations.get? j = some ⟨code, none⟩ ∧
      t = { s with
        revocations := s.revocations.pop j
        returned := hash code :: s.returned } := by
  unfold revokeReturns at h
  split at h
  · rename_i code hj
    exact ⟨code, hj, (Option.some.inj h).symm⟩
  · cases h

end
end Admission
end PublicIntelligence.Scheduler
