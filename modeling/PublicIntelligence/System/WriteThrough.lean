import PublicIntelligence.Lib.Runs
import PublicIntelligence.Scheduler.Invites
import PublicIntelligence.Scheduler.Metering

namespace PublicIntelligence.System

open Runs Text Json Scheduler

/-- What the components that write through to the store hold in memory. -/
structure Memory where
  registry : NodeRegistry
  ledger : CreditLedger
  invites : Invites
  usageMeter : UsageMeter

namespace Memory

/-- The operations that write through, with the clock readings and the code that they draw. -/
inductive Operation where
  | register (node : Node)
  | update (node : Node)
  | setAvailableModels (nodeId : Text) (models : List Text)
  | unregister (nodeId : Text)
  | unregisterNode (nodeId : Text)
  | clear
  | setNodeToken (nodeId : Text) (token : Option Text)
  | recordHostContribution (nodeId : Text) (vramGb durationSeconds ramGb now : ℚ)
  | deductUsage (accountId : Text) (amount now : ℚ)
  | issue (code label : Text) (maxUses : Int) (createdAt : ℚ)
  | redeem (code : Text)
  | revoke (code : Text)
  | record (usage : UsageRecord)

/-- What an operation does before its store call: it raises, or returns without one, or leaves the memory
so and makes the call. -/
inductive Course where
  | refused
  | idle
  | writes (after : Memory)

/-- A change that the component makes, or what becomes of the call if it makes none. -/
def Course.ofChange (otherwise : Course) (put : α → Memory) : Option α → Course
  | none => otherwise
  | some a => .writes (put a)

def withRegistry (m : Memory) (registry : NodeRegistry) : Memory := { m with registry }

def withLedger (m : Memory) (ledger : CreditLedger) : Memory := { m with ledger }

def withInvites (m : Memory) (invites : Invites) : Memory := { m with invites }

section
variable (hash : Text → Text)

def course (m : Memory) : Operation → Course
  | .register node => .ofChange .refused m.withRegistry (m.registry.localRegister node)
  | .update node => .ofChange .refused m.withRegistry (m.registry.update node)
  | .setAvailableModels nodeId models =>
    .ofChange .refused (fun change => m.withRegistry change.2) (m.registry.setAvailableModels nodeId models)
  | .unregister nodeId => .ofChange .refused m.withRegistry (m.registry.localUnregister nodeId)
  | .unregisterNode nodeId => .writes (m.withRegistry (m.registry.localUnregisterNode nodeId))
  | .clear => .writes (m.withRegistry m.registry.clear)
  | .setNodeToken nodeId token => .writes (m.withRegistry (m.registry.setNodeToken nodeId token))
  | .recordHostContribution nodeId vramGb durationSeconds ramGb now =>
    .writes (m.withLedger (m.ledger.recordHostContribution nodeId vramGb durationSeconds ramGb now).2)
  | .deductUsage accountId amount now => .writes (m.withLedger (m.ledger.deductUsage accountId amount now).2)
  | .issue code label maxUses createdAt =>
    .ofChange .refused (fun change => m.withInvites change.2)
      (m.invites.issue hash code label maxUses createdAt)
  | .redeem code => .ofChange .idle (fun change => m.withInvites change.2) (m.invites.redeem hash code)
  | .revoke code => .ofChange .idle (fun change => m.withInvites change.2) (m.invites.revoke hash code)
  | .record usage => .writes { m with usageMeter := m.usageMeter.record usage }

/-- A call, and whether the store raises if it is called. -/
structure Call where
  operation : Operation
  storeFails : Bool

/-- The memory after a call, and whether it raised. -/
def call (m : Memory) (c : Call) : Memory × Bool :=
  match m.course hash c.operation with
  | .refused => (m, true)
  | .idle => (m, false)
  | .writes after => (after, c.storeFails)

def step : Step Memory Call := fun m c => some (m.call hash c).1

/-- The nodes, tokens, balances, invites and usage records that the memory shows. -/
structure Shown where
  nodes : Nodes
  nodeTokens : Dict Text Text
  balances : List (Text × ℚ)
  invites : Invites
  recent : List UsageRecord

def shown (m : Memory) : Shown :=
  ⟨m.registry.nodes, m.registry.nodeTokens, m.ledger.balances, m.invites, m.usageMeter.recent⟩

/-- If the store call raises, so does the operation, and the memory shows what it showed before. -/
def Atomic (m : Memory) (o : Operation) : Prop :=
  (∃ after, m.course hash o = .writes after) →
    (m.call hash ⟨o, true⟩).2 = true ∧ (m.call hash ⟨o, true⟩).1.shown = m.shown

/-- The operation does not get as far as the store, or has nothing to change. -/
def Harmless (m : Memory) : Operation → Prop
  | .register node => node.nodeId ∈ m.registry.nodes
  | .update node => ∀ old, m.registry.nodes.get? node.nodeId = some old → old = node
  | .setAvailableModels nodeId models => ∀ old, m.registry.nodes.get? nodeId = some old →
      Dict.find (text "available_models") old.body = some (.arr (models.map .str))
  | .unregister nodeId => nodeId ∉ m.registry.nodes
  | .unregisterNode nodeId => nodeId ∉ m.registry.nodes ∧ nodeId ∉ m.registry.nodeTokens
  | .clear => m.registry.nodes = .empty ∧ m.registry.nodeTokens = .empty
  | .setNodeToken nodeId token => m.registry.nodeTokens.get? nodeId = given token
  | .recordHostContribution nodeId vramGb durationSeconds ramGb _ =>
    nodeId ∈ m.ledger.accounts ∧ (durationSeconds ≤ 0 ∨ vramGb ≤ 0 ∧ ramGb ≤ 0)
  | .deductUsage accountId amount _ => accountId ∈ m.ledger.accounts ∧ amount ≤ 0
  | .issue code label maxUses createdAt => 1 ≤ maxUses → ∃ i, m.invites.get? (hash code) = some i ∧
      i.label = label ∧ i.maxUses = maxUses ∧ i.uses = 0 ∧ i.revoked = false ∧ i.createdAt = createdAt
  | .redeem code => m.invites.verify hash (some code) = none
  | .revoke code => ∀ i, m.invites.get? (hash code) = some i → i.revoked = true
  | .record usage => m.usageMeter.recent = List.replicate UsageMeter.maxRecent usage

end

section
variable {hash : Text → Text} {m : Memory}

theorem atomic_of_writes (h : m.course hash o = .writes after) :
    m.Atomic hash o ↔ after.shown = m.shown := by
  have hcall : m.call hash ⟨o, true⟩ = (after, true) := by rw [call, h]
  unfold Atomic
  rw [hcall]
  exact ⟨fun hatomic => (hatomic ⟨after, h⟩).2, fun hshown _ => ⟨rfl, hshown⟩⟩

/-- An operation that may make a change is atomic exactly if every change it makes shows nothing. -/
theorem atomic_of_change (put : α → Memory) (h : m.course hash o = .ofChange otherwise put change)
    (hnone : ∀ after, otherwise ≠ .writes after) :
    m.Atomic hash o ↔ ∀ a, change = some a → (put a).shown = m.shown := by
  cases change with
  | none =>
    refine iff_of_true ?_ fun a ha => by cases ha
    rintro ⟨after, hafter⟩
    exact absurd (h.symm.trans hafter) (hnone after)
  | some a =>
    rw [atomic_of_writes h]
    simp

theorem shown_withRegistry : (m.withRegistry r).shown = m.shown ↔
    r.nodes = m.registry.nodes ∧ r.nodeTokens = m.registry.nodeTokens := by
  simp [withRegistry, shown]

theorem shown_withLedger : (m.withLedger l).shown = m.shown ↔ l.balances = m.ledger.balances := by
  simp [withLedger, shown]

theorem shown_withInvites {after : Invites} : (m.withInvites after).shown = m.shown ↔ after = m.invites := by
  simp [withInvites, shown]

theorem atomic_register (node : Node) : m.Atomic hash (.register node) ↔ m.Harmless hash (.register node) := by
  rw [atomic_of_change m.withRegistry rfl (by simp)]
  simp only [shown_withRegistry, NodeRegistry.localRegister_eq_some, Harmless]
  constructor
  · intro h
    by_contra hnew
    have hsame := (h _ ⟨hnew, rfl⟩).1
    exact hnew (Table.mem_iff.mpr ⟨node, Table.put_eq_self.mp hsame⟩)
  · rintro hold r ⟨hnew, _⟩
    exact absurd hold hnew

theorem atomic_update (node : Node) : m.Atomic hash (.update node) ↔ m.Harmless hash (.update node) := by
  rw [atomic_of_change m.withRegistry rfl (by simp)]
  simp only [shown_withRegistry, NodeRegistry.update_eq_some, Harmless]
  constructor
  · intro h old hold
    have hsame := (h _ ⟨Table.mem_iff.mpr ⟨old, hold⟩, rfl⟩).1
    exact Option.some.inj (hold.symm.trans (Table.put_eq_self.mp hsame))
  · rintro h r ⟨hmem, rfl⟩
    obtain ⟨old, hold⟩ := Table.mem_iff.mp hmem
    obtain rfl := h old hold
    exact ⟨Table.put_eq_self.mpr hold, rfl⟩

/-- A node keeps its record when it restates the models it has. -/
theorem withModels_eq_self {node : Node} : node.withModels models = node ↔
    Dict.find (text "available_models") node.body = some (.arr (models.map .str)) := by
  constructor
  · intro h
    have hbody := congrArg Node.body h
    rw [← hbody, Node.withModels, Dict.find_put, if_pos rfl]
  · intro h
    rw [Node.withModels, Dict.put_find h]

theorem atomic_setAvailableModels (nodeId : Text) (models : List Text) :
    m.Atomic hash (.setAvailableModels nodeId models) ↔ m.Harmless hash (.setAvailableModels nodeId models) := by
  rw [atomic_of_change (fun change : Node × NodeRegistry => m.withRegistry change.2) rfl (by simp)]
  simp only [shown_withRegistry, Prod.forall, NodeRegistry.setAvailableModels_eq_some, Harmless,
    ← withModels_eq_self]
  constructor
  · intro h old hold
    have hsame := (h _ _ ⟨old, hold, rfl, rfl⟩).1
    have hid : old.nodeId = nodeId := Table.key_of_get? hold
    have hkey : (old.withModels models).nodeId = nodeId := hid
    have hget := Table.put_eq_self.mp hsame
    rw [hkey, hold] at hget
    exact (Option.some.inj hget).symm
  · rintro h _ _ ⟨old, hold, rfl, rfl⟩
    refine ⟨Table.put_eq_self.mpr ?_, rfl⟩
    rw [h old hold, Table.key_of_get? hold, hold]

theorem atomic_unregister (nodeId : Text) :
    m.Atomic hash (.unregister nodeId) ↔ m.Harmless hash (.unregister nodeId) := by
  rw [atomic_of_change m.withRegistry rfl (by simp)]
  simp only [shown_withRegistry, NodeRegistry.localUnregister_eq_some, Harmless]
  constructor
  · intro h hmem
    exact Table.pop_eq_self.mp (h _ ⟨hmem, rfl⟩).1 hmem
  · rintro h r ⟨hmem, _⟩
    exact absurd hmem h

theorem atomic_unregisterNode (nodeId : Text) :
    m.Atomic hash (.unregisterNode nodeId) ↔ m.Harmless hash (.unregisterNode nodeId) := by
  rw [atomic_of_writes rfl, shown_withRegistry]
  exact and_congr Table.pop_eq_self Dict.pop_eq_self

theorem atomic_clear : m.Atomic hash .clear ↔ m.Harmless hash .clear := by
  rw [atomic_of_writes rfl, shown_withRegistry]
  exact and_congr eq_comm eq_comm

theorem atomic_setNodeToken (nodeId : Text) (token : Option Text) :
    m.Atomic hash (.setNodeToken nodeId token) ↔ m.Harmless hash (.setNodeToken nodeId token) := by
  rw [atomic_of_writes rfl, shown_withRegistry]
  simp only [NodeRegistry.setNodeToken_nodes, true_and, Harmless]
  unfold NodeRegistry.setNodeToken
  split
  · rename_i t ht
    rw [ht]
    exact Dict.set_eq_self
  · rename_i ht
    rw [ht]
    exact Dict.pop_eq_self.trans Dict.not_mem_iff

/-- The balances stay when an account is written back with the balance it has, and only then. -/
theorem balances_put {l : CreditLedger} {a : CreditAccount} :
    CreditLedger.balances ⟨l.accounts.put a⟩ = l.balances ↔ ∃ old, l.accounts.get? a.accountId = some old ∧
      a.earnedCredits - a.consumedCredits = old.earnedCredits - old.consumedCredits := by
  unfold CreditLedger.balances
  constructor
  · intro h
    by_cases hmem : a.accountId ∈ l.accounts
    · obtain ⟨old, hold⟩ := Table.mem_iff.mp hmem
      refine ⟨old, hold, ?_⟩
      have hid : old.accountId = a.accountId := Table.key_of_get? hold
      have hvalue : old ∈ l.accounts.values := Table.mem_values.mpr (hid ▸ hold)
      rw [Table.values_put_old hmem, List.map_map, List.map_inj_left] at h
      have hsame := h old hvalue
      rw [Function.comp_apply, if_pos hid] at hsame
      exact (Prod.mk.inj hsame).2
    · have hlength := congrArg List.length h
      rw [Table.values_put_new hmem] at hlength
      simp at hlength
  · rintro ⟨old, hold, hsame⟩
    rw [Table.values_put_old (Table.mem_iff.mpr ⟨old, hold⟩), List.map_map]
    refine List.map_congr_left fun w hw => ?_
    rw [Function.comp_apply]
    split
    · rename_i hid
      have hget := Table.mem_values.mp hw
      rw [hid, hold] at hget
      cases hget
      rw [hid, hsame]
    · rfl

/-- The balances stay when the account that is fetched or made is there and is changed to one with the same
balance, and only then. -/
theorem balances_account {l : CreditLedger} (id : Text) (now : ℚ) {f : CreditAccount → CreditAccount}
    (hid : ∀ a, (f a).accountId = a.accountId) :
    CreditLedger.balances ⟨(l.getOrCreateAccount id now).2.accounts.put (f (l.getOrCreateAccount id now).1)⟩ =
      l.balances ↔ ∃ old, l.accounts.get? id = some old ∧
        (f old).earnedCredits - (f old).consumedCredits = old.earnedCredits - old.consumedCredits := by
  unfold CreditLedger.getOrCreateAccount
  cases hget : l.accounts.get? id with
  | none =>
    dsimp only
    rw [Table.put_put (hid _).symm, balances_put, hid, hget]
    simp
  | some old =>
    dsimp only
    have hkey : old.accountId = id := Table.key_of_get? hget
    rw [balances_put, hid, hkey, hget]
    simp

theorem earned_eq_zero : CreditLedger.earned vramGb durationSeconds ramGb = 0 ↔
    durationSeconds ≤ 0 ∨ vramGb ≤ 0 ∧ ramGb ≤ 0 := by
  unfold CreditLedger.earned CreditLedger.creditsPerGbVramHour CreditLedger.creditsPerGbRamHour
  dsimp only
  split
  · rename_i hv
    have hpos : 0 < vramGb := by simpa using hv
    have hno : ¬ vramGb ≤ 0 := not_le.mpr hpos
    simp [hno, max_eq_right hpos.le, hpos.ne']
  · rename_i hv
    have hle : vramGb ≤ 0 := by simpa using hv
    simp [hle, or_comm]

theorem atomic_recordHostContribution (nodeId : Text) (vramGb durationSeconds ramGb now : ℚ) :
    m.Atomic hash (.recordHostContribution nodeId vramGb durationSeconds ramGb now) ↔
      m.Harmless hash (.recordHostContribution nodeId vramGb durationSeconds ramGb now) := by
  rw [atomic_of_writes rfl, shown_withLedger, Harmless, ← earned_eq_zero, Table.mem_iff]
  refine (balances_account (f := fun a => { a with
    earnedCredits := a.earnedCredits + CreditLedger.earned vramGb durationSeconds ramGb
    updatedAt := now }) nodeId now fun _ => rfl).trans ?_
  rw [← exists_and_right]
  refine exists_congr fun old => and_congr_right fun _ => ?_
  constructor
  · intro h
    linarith
  · intro h
    rw [h, add_zero]

theorem atomic_deductUsage (accountId : Text) (amount now : ℚ) :
    m.Atomic hash (.deductUsage accountId amount now) ↔ m.Harmless hash (.deductUsage accountId amount now) := by
  rw [atomic_of_writes rfl, shown_withLedger, Harmless, ← max_eq_left_iff (a := (0 : ℚ)), Table.mem_iff]
  refine (balances_account (f := fun a => { a with
    consumedCredits := a.consumedCredits + max 0 amount
    updatedAt := now }) accountId now fun _ => rfl).trans ?_
  rw [← exists_and_right]
  refine exists_congr fun old => and_congr_right fun _ => ?_
  constructor
  · intro h
    linarith
  · intro h
    rw [h, add_zero]

theorem atomic_issue (code label : Text) (maxUses : Int) (createdAt : ℚ) :
    m.Atomic hash (.issue code label maxUses createdAt) ↔
      m.Harmless hash (.issue code label maxUses createdAt) := by
  rw [atomic_of_change (fun change : InviteCode × Invites => m.withInvites change.2) rfl (by simp)]
  simp only [shown_withInvites, Prod.forall, Invites.issue_eq_some, Harmless]
  constructor
  · intro h hmax
    have hpos : 1 ≤ maxUses.toNat := by omega
    have hsame := h _ _ ⟨hpos, rfl, rfl⟩
    exact ⟨_, Table.put_eq_self.mp hsame, rfl, Int.toNat_of_nonneg (by omega), rfl, rfl, rfl⟩
  · rintro h _ _ ⟨hpos, rfl, rfl⟩
    obtain ⟨i, hi, rfl, hmax, huses, hrevoked, rfl⟩ := h (by omega)
    refine Table.put_eq_self.mpr (hi.trans (congrArg some ?_))
    have hhash : i.codeHash = hash code := Table.key_of_get? hi
    obtain ⟨codeHash, label, limit, uses, revoked, createdAt, hlimit⟩ := i
    simp only at hhash hmax huses hrevoked
    subst hhash huses hrevoked
    simp [← hmax]

theorem atomic_redeem (code : Text) : m.Atomic hash (.redeem code) ↔ m.Harmless hash (.redeem code) := by
  rw [atomic_of_change (fun change : InviteCode × Invites => m.withInvites change.2) rfl (by simp)]
  simp only [shown_withInvites, Prod.forall, Invites.redeem_eq_some, Harmless]
  constructor
  · intro h
    by_contra hverify
    obtain ⟨old, hold⟩ := Option.ne_none_iff_exists'.mp hverify
    have hsame := Table.put_eq_self.mp (h _ _ ⟨old, hold, rfl, rfl⟩)
    obtain ⟨c, _, hget, _⟩ := Invites.verify_eq_some.mp hold
    have hkey : old.codeHash = hash c := Table.key_of_get? hget
    rw [← hkey] at hget
    have huses := congrArg InviteCode.uses (Option.some.inj (hget.symm.trans hsame))
    simp at huses
  · rintro h _ _ ⟨old, hold, _⟩
    rw [h] at hold
    cases hold

theorem atomic_revoke (code : Text) : m.Atomic hash (.revoke code) ↔ m.Harmless hash (.revoke code) := by
  rw [atomic_of_change (fun change : InviteCode × Invites => m.withInvites change.2) rfl (by simp)]
  simp only [shown_withInvites, Prod.forall, Invites.revoke_eq_some, Harmless]
  constructor
  · intro h i hget
    by_contra hrevoked
    have hlive : i.revoked = false := Bool.eq_false_iff.mpr hrevoked
    have hsame := Table.put_eq_self.mp (h _ _ ⟨i, hget, hlive, rfl, rfl⟩)
    have hkey : i.codeHash = hash code := Table.key_of_get? hget
    rw [← hkey] at hget
    have hset := congrArg InviteCode.revoked (Option.some.inj (hget.symm.trans hsame))
    exact hrevoked hset
  · rintro h _ _ ⟨old, hold, hlive, _⟩
    rw [h old hold] at hlive
    cases hlive

/-- A list that stays when its first element goes and another comes behind the last holds nothing else. -/
theorem eq_of_slide {u r : α} {rs : List α} (h : rs ++ [u] = r :: rs) : ∀ x ∈ r :: rs, x = u := by
  induction rs generalizing r with
  | nil =>
    obtain ⟨hu, _⟩ := List.cons.inj h
    exact List.forall_mem_singleton.mpr hu.symm
  | cons s ss ih =>
    obtain ⟨rfl, hrest⟩ := List.cons.inj h
    have hall := ih hrest
    exact List.forall_mem_cons.mpr ⟨hall s List.mem_cons_self, hall⟩

theorem tail_eq_iff {recent : List UsageRecord} : UsageMeter.tail (recent ++ [usage]) = recent ↔
    recent = List.replicate UsageMeter.maxRecent usage := by
  constructor
  · intro h
    have hlength := congrArg List.length h
    rw [UsageMeter.tail, List.length_drop, List.length_append, List.length_singleton] at hlength
    have hfull : recent.length = UsageMeter.maxRecent := by unfold UsageMeter.maxRecent at hlength ⊢; omega
    cases recent with
    | nil => cases hfull
    | cons r rs =>
      rw [UsageMeter.tail, List.length_append, hfull, List.length_singleton, Nat.add_sub_cancel_left] at h
      exact List.eq_replicate_iff.mpr ⟨hfull, eq_of_slide h⟩
  · rintro rfl
    have hlast : List.replicate UsageMeter.maxRecent usage ++ [usage] =
        List.replicate (UsageMeter.maxRecent + 1) usage := List.replicate_succ'.symm
    rw [UsageMeter.tail, hlast, List.length_replicate, List.drop_replicate]
    congr 1

theorem atomic_record (usage : UsageRecord) : m.Atomic hash (.record usage) ↔ m.Harmless hash (.record usage) := by
  rw [atomic_of_writes rfl]
  refine Iff.trans ?_ tail_eq_iff
  simp [shown, UsageMeter.record]

/-- A failing store call does no harm exactly where the operation does not reach it or has nothing to
change. -/
theorem atomic_iff (hash : Text → Text) (m : Memory) (o : Operation) : m.Atomic hash o ↔ m.Harmless hash o := by
  cases o with
  | register node => exact atomic_register node
  | update node => exact atomic_update node
  | setAvailableModels nodeId models => exact atomic_setAvailableModels nodeId models
  | unregister nodeId => exact atomic_unregister nodeId
  | unregisterNode nodeId => exact atomic_unregisterNode nodeId
  | clear => exact atomic_clear
  | setNodeToken nodeId token => exact atomic_setNodeToken nodeId token
  | recordHostContribution nodeId vram duration ram now =>
    exact atomic_recordHostContribution nodeId vram duration ram now
  | deductUsage accountId amount now => exact atomic_deductUsage accountId amount now
  | issue code label maxUses createdAt => exact atomic_issue code label maxUses createdAt
  | redeem code => exact atomic_redeem code
  | revoke code => exact atomic_revoke code
  | record usage => exact atomic_record usage

end

/-- Along every run from any memory, each call whose store call fails raises and leaves what the memory
shows as it was, exactly if each of them is of an operation that is harmless where it is called. -/
theorem write_through_iff (hash : Text → Text) (m : Memory) (run : List Call) :
    Along (step hash) (fun m c => c.storeFails = true → m.Atomic hash c.operation) m run ↔
      Along (step hash) (fun m c => c.storeFails = true → m.Harmless hash c.operation) m run :=
  along_congr (I := fun _ => True) (fun _ _ _ _ _ => trivial)
    (fun m c _ => imp_congr_right fun _ => atomic_iff hash m c.operation) trivial

def bare : Memory := ⟨.empty, ⟨.empty⟩, .empty, ⟨[]⟩⟩

/-- A node whose row could not be written is registered in memory all the same. -/
theorem failed_register_stays : ¬ bare.Atomic id (.register ⟨text "n1", []⟩) ∧
    (bare.call id ⟨.register ⟨text "n1", []⟩, true⟩).2 = true ∧
    text "n1" ∈ (bare.call id ⟨.register ⟨text "n1", []⟩, true⟩).1.registry.nodes := by
  refine ⟨fun h => ?_, by decide +kernel, by decide +kernel⟩
  have hknown : text "n1" ∈ bare.registry.nodes := (atomic_register _).mp h
  exact absurd hknown (by decide +kernel)

end Memory
end PublicIntelligence.System
