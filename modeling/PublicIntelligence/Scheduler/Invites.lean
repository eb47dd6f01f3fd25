import PublicIntelligence.Scheduler.Registry

namespace PublicIntelligence.Scheduler

open Text

/-- One issued invite, in memory or as a row of the store. -/
structure InviteCode where
  codeHash : Text
  label : Text
  maxUses : Nat
  uses : Nat
  revoked : Bool
  createdAt : ℚ
  maxUses_pos : 1 ≤ maxUses
deriving DecidableEq

namespace InviteCode

def spent (i : InviteCode) : Bool := i.maxUses ≤ i.uses

def usable (i : InviteCode) : Bool := !i.revoked && !i.spent

theorem usable_iff {i : InviteCode} : i.usable = true ↔ i.revoked = false ∧ i.uses < i.maxUses := by
  simp [usable, spent]

end InviteCode

abbrev Invites := Table Text InviteCode.codeHash

namespace Invites

/-- Some code has been issued, spent and revoked ones included. -/
def enforcing (invites : Invites) : Bool := !invites.isEmpty

section
variable (hash : Text → Text)

/-- The usable invite matching a code. `hash` stands for `hash_code`, the SHA-256 of
the code in hexadecimal; nothing here depends on which function it is. -/
def verify (invites : Invites) (code : Option Text) : Option InviteCode :=
  match given code with
  | none => none
  | some c => (invites.get? (hash c)).filter InviteCode.usable

/-- The memory half of `issue` for the code it drew; `none` where the validation of the record
refuses the limit. -/
def issue (invites : Invites) (code label : Text) (maxUses : Int) (createdAt : ℚ) : Option (InviteCode × Invites) :=
  if h : 1 ≤ maxUses.toNat then
    let i : InviteCode := ⟨hash code, label, maxUses.toNat, 0, false, createdAt, h⟩
    some (i, invites.put i)
  else none

/-- The memory half of `redeem`: the invite with one more use, and the dictionary
that holds it. -/
def redeem (invites : Invites) (code : Text) : Option (InviteCode × Invites) :=
  (invites.verify hash (some code)).map fun i =>
    let i := { i with uses := i.uses + 1 }
    (i, invites.put i)

/-- The memory half of `revoke`; `none` when there is nothing to revoke. -/
def revoke (invites : Invites) (code : Text) : Option (InviteCode × Invites) :=
  match invites.get? (hash code) with
  | none => none
  | some i =>
    if i.revoked then none
    else
      let i := { i with revoked := true }
      some (i, invites.put i)

/-- `save_invite`: the whole row but for the time it was created. -/
def saveInvite (table : Invites) (i : InviteCode) : Invites :=
  table.put { i with createdAt := ((table.get? i.codeHash).map InviteCode.createdAt).getD i.createdAt }

end

section
variable {hash : Text → Text} {invites : Invites}

theorem verify_eq_some : invites.verify hash code = some i ↔
    ∃ c, given code = some c ∧ invites.get? (hash c) = some i ∧ i.usable = true := by
  unfold verify
  split <;> simp_all [Option.filter_eq_some_iff]

theorem enforcing_of_get? (h : invites.get? k = some i) : invites.enforcing = true := by
  rw [enforcing, Table.isEmpty_of_get? h, Bool.not_false]

theorem issue_eq_some : invites.issue hash code label maxUses createdAt = some (i, after) ↔
    ∃ h : 1 ≤ maxUses.toNat, i = ⟨hash code, label, maxUses.toNat, 0, false, createdAt, h⟩ ∧
      after = invites.put i := by
  unfold issue
  split
  · rename_i h
    simp only [Option.some.injEq, Prod.mk.injEq, h, exists_true_left]
    constructor
    · rintro ⟨rfl, rfl⟩
      exact ⟨rfl, rfl⟩
    · rintro ⟨rfl, rfl⟩
      exact ⟨rfl, rfl⟩
  · rename_i h
    refine iff_of_false (fun hn => by cases hn) ?_
    rintro ⟨hpos, _⟩
    exact h hpos

theorem redeem_eq_some : invites.redeem hash code = some (i, after) ↔
    ∃ old, invites.verify hash (some code) = some old ∧ i = { old with uses := old.uses + 1 } ∧
      after = invites.put i := by
  simp only [redeem, Option.map_eq_some_iff, Prod.mk.injEq]
  constructor
  · rintro ⟨old, hv, rfl, rfl⟩
    exact ⟨old, hv, rfl, rfl⟩
  · rintro ⟨old, hv, rfl, rfl⟩
    exact ⟨old, hv, rfl, rfl⟩

theorem revoke_eq_some : invites.revoke hash code = some (i, after) ↔
    ∃ old, invites.get? (hash code) = some old ∧ old.revoked = false ∧
      i = { old with revoked := true } ∧ after = invites.put i := by
  unfold revoke
  cases invites.get? (hash code) with
  | none => simp
  | some old =>
    cases hr : old.revoked with
    | true => simp [hr]
    | false =>
      simp only [hr, Bool.false_eq_true, if_false, Option.some.injEq, Prod.mk.injEq]
      constructor
      · rintro ⟨rfl, rfl⟩
        exact ⟨old, rfl, hr, rfl, rfl⟩
      · rintro ⟨_, rfl, _, rfl, rfl⟩
        exact ⟨rfl, rfl⟩

/-- The row that a revocation is to write: the code's own, revoked. -/
theorem revoke_row (h : (invites.revoke hash code).map Prod.fst = some i) :
    ∃ old, invites.get? (hash code) = some old ∧ i = { old with revoked := true } := by
  obtain ⟨⟨_, after⟩, hr, rfl⟩ := Option.map_eq_some_iff.mp h
  obtain ⟨old, hold, _, hi, _⟩ := revoke_eq_some.mp hr
  exact ⟨old, hold, hi⟩

theorem get?_saveInvite (table : Invites) (i : InviteCode) (h : Text) :
    (table.saveInvite i).get? h =
      if i.codeHash = h then
        some { i with createdAt := ((table.get? i.codeHash).map InviteCode.createdAt).getD i.createdAt }
      else table.get? h :=
  Table.get?_put table _ h

end

end Invites

/-- The SQLite file. Each method commits on its own. -/
structure SQLiteStore where
  nodes : Nodes
  nodeTokens : Dict Text Text
  invites : Invites

namespace SQLiteStore

def saveNode (store : SQLiteStore) (node : Node) : SQLiteStore :=
  { store with nodes := store.nodes.put node }

def deleteNode (store : SQLiteStore) (nodeId : Text) : SQLiteStore :=
  { store with nodes := store.nodes.pop nodeId, nodeTokens := store.nodeTokens.pop nodeId }

def clearNodes (store : SQLiteStore) : SQLiteStore := { store with nodes := .empty, nodeTokens := .empty }

def saveNodeToken (store : SQLiteStore) (nodeId : Text) (token : Option Text) : SQLiteStore :=
  match given token with
  | some t => { store with nodeTokens := store.nodeTokens.set nodeId t }
  | none => { store with nodeTokens := store.nodeTokens.pop nodeId }

def saveInvite (store : SQLiteStore) (i : InviteCode) : SQLiteStore :=
  { store with invites := store.invites.saveInvite i }

@[simp] theorem saveNodeToken_nodes (store : SQLiteStore) (n : Text) (token : Option Text) :
    (store.saveNodeToken n token).nodes = store.nodes := by
  unfold saveNodeToken
  split <;> rfl

@[simp] theorem saveNodeToken_invites (store : SQLiteStore) (n : Text) (token : Option Text) :
    (store.saveNodeToken n token).invites = store.invites := by
  unfold saveNodeToken
  split <;> rfl

end SQLiteStore
end PublicIntelligence.Scheduler
