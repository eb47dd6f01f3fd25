import Mathlib.Algebra.Order.Field.Basic
import Mathlib.Algebra.Order.Ring.Rat
import Mathlib.Tactic.NormNum
import PublicIntelligence.Lib.Json
import PublicIntelligence.Lib.Table
import PublicIntelligence.Lib.Transaction

namespace PublicIntelligence.Scheduler

open Text Json

/-- What metering reads of a node's record. -/
structure Host where
  nodeId : Text
  vramTotalGb : ℚ
  ramTotalGb : ℚ

structure CreditAccount where
  accountId : Text
  earnedCredits : ℚ
  consumedCredits : ℚ
  updatedAt : ℚ

abbrev Accounts := Table Text CreditAccount.accountId

def Accounts.earned (accounts : Accounts) (accountId : Text) : ℚ :=
  ((accounts.get? accountId).map CreditAccount.earnedCredits).getD 0

/-- `_accounts`. -/
structure CreditLedger where
  accounts : Accounts

namespace CreditLedger

def creditsPerGbVramHour : ℚ := 100

def creditsPerGbRamHour : ℚ := 10

/-- `load` into an empty ledger. -/
def load (rows : List CreditAccount) : CreditLedger := ⟨rows.foldl Table.put .empty⟩

/-- `get_or_create_account`; `now` is when an account that is not there is made. -/
def getOrCreateAccount (l : CreditLedger) (accountId : Text) (now : ℚ) : CreditAccount × CreditLedger :=
  match l.accounts.get? accountId with
  | some account => (account, l)
  | none =>
    let account : CreditAccount := ⟨accountId, 0, 0, now⟩
    (account, ⟨l.accounts.put account⟩)

/-- `earned` in `record_host_contribution`, in exact arithmetic. -/
def earned (vramGb durationSeconds ramGb : ℚ) : ℚ :=
  let vram := max 0 vramGb
  let ram := max 0 ramGb
  let hours := max 0 durationSeconds / 3600
  if 0 < vram then vram * hours * creditsPerGbVramHour else ram * hours * creditsPerGbRamHour

/-- The memory half of `record_host_contribution`: the account to save, and the ledger. -/
def recordHostContribution (l : CreditLedger) (nodeId : Text) (vramGb durationSeconds ramGb now : ℚ) :
    CreditAccount × CreditLedger :=
  let (account, l') := l.getOrCreateAccount nodeId now
  let credited : CreditAccount :=
    { account with earnedCredits := account.earnedCredits + earned vramGb durationSeconds ramGb, updatedAt := now }
  (credited, ⟨l'.accounts.put credited⟩)

/-- The memory half of `deduct_usage`. -/
def deductUsage (l : CreditLedger) (accountId : Text) (amount now : ℚ) : CreditAccount × CreditLedger :=
  let (account, l') := l.getOrCreateAccount accountId now
  let charged : CreditAccount :=
    { account with consumedCredits := account.consumedCredits + max 0 amount, updatedAt := now }
  (charged, ⟨l'.accounts.put charged⟩)

/-- `balances` -/
def balances (l : CreditLedger) : List (Text × ℚ) :=
  l.accounts.values.map fun a => (a.accountId, a.earnedCredits - a.consumedCredits)

end CreditLedger

structure UsageRecord where
  requestId : Text
  tenantId : Text
  nodeId : Text
  model : Text
  promptTokens : Nat
  completionTokens : Nat
  durationSeconds : ℚ
  succeeded : Bool
  recordedAt : ℚ

/-- The texts of a record can be bound: SQLite takes no lone surrogate. -/
def UsageRecord.Bindable (u : UsageRecord) : Prop :=
  Scalar u.requestId ∧ Scalar u.tenantId ∧ Scalar u.nodeId ∧ Scalar u.model

instance decidableBindable (u : UsageRecord) : Decidable u.Bindable :=
  inferInstanceAs (Decidable (_ ∧ _))

/-- How the write of a record ends: one that cannot be bound is refused, whatever the store does with others. -/
def UsageRecord.landing (u : UsageRecord) (landing : Landing) : Landing :=
  if u.Bindable then landing else .refused

theorem UsageRecord.landing_dies (u : UsageRecord) {first : Landing} (h : first.dies = false) :
    (u.landing first).dies = false := by
  unfold UsageRecord.landing
  split
  · exact h
  · rfl

/-- `_recent` -/
structure UsageMeter where
  recent : List UsageRecord

namespace UsageMeter

def maxRecent : Nat := 500

/-- The last `MAX_RECENT` of them. -/
def tail (records : List UsageRecord) : List UsageRecord := records.drop (records.length - maxRecent)

/-- `load`, which asks the store for the last `MAX_RECENT` rows. -/
def load (rows : List UsageRecord) : UsageMeter := ⟨tail rows⟩

/-- The memory half of `record`. -/
def record (m : UsageMeter) (usage : UsageRecord) : UsageMeter := ⟨tail (m.recent ++ [usage])⟩

end UsageMeter

/-- `credit_accounts` and `usage_records`. A row carries a note that no column holds and no
code reads, for what is to be said about the row. -/
structure Books (γ : Type) where
  accounts : Accounts
  usage : List (UsageRecord × γ)

namespace Books

def empty : Books γ := ⟨.empty, []⟩

/-- `save_account` -/
def saveAccount (b : Books γ) (account : CreditAccount) : Books γ :=
  { b with accounts := b.accounts.put account }

/-- `save_usage` -/
def saveUsage (b : Books γ) (usage : UsageRecord) (note : γ) : Books γ :=
  { b with usage := b.usage ++ [(usage, note)] }

end Books

/-- The ledger and the meter of a running Scheduler, and the one store they share. -/
structure Accounting (γ : Type) where
  ledger : CreditLedger
  usageMeter : UsageMeter
  store : Connection (Books γ)

/-- The clock readings of one `_meter` call. -/
structure Readings where
  perfCounter : ℚ
  recordedAt : ℚ
  updatedAt : ℚ

/-- The arguments of `_meter`. The tenant is a claim of the token, of any JSON type. -/
structure Charge where
  requestId : Text
  tenantId : Json
  node : Host
  model : Text
  promptTokens : Nat
  completionTokens : Nat
  startedAt : ℚ
  succeeded : Bool

namespace Charge

def duration (c : Charge) (clock : Readings) : ℚ := max 0 (clock.perfCounter - c.startedAt)

/-- The `UsageRecord`, or `none` where validation refuses a tenant that is no string. -/
def usage (c : Charge) (clock : Readings) : Option UsageRecord :=
  match c.tenantId with
  | .str tenantId =>
    some ⟨c.requestId, tenantId, c.node.nodeId, c.model, c.promptTokens, c.completionTokens,
      c.duration clock, c.succeeded, clock.recordedAt⟩
  | _ => none

/-- A record says of its request what the charge does. -/
theorem usage_eq_some {c : Charge} (h : c.usage clock = some u) :
    u.requestId = c.requestId ∧ u.nodeId = c.node.nodeId ∧
      u.durationSeconds = c.duration clock ∧ u.succeeded = c.succeeded := by
  unfold Charge.usage at h
  split at h
  · cases h
    exact ⟨rfl, rfl, rfl, rfl⟩
  · cases h

theorem usage_tokens {c : Charge} (h : c.usage clock = some u) :
    u.promptTokens = c.promptTokens ∧ u.completionTokens = c.completionTokens := by
  unfold Charge.usage at h
  split at h
  · cases h
    exact ⟨rfl, rfl⟩
  · cases h

/-- The record can be built and bound. -/
def Bookable (c : Charge) : Prop :=
  (∃ tenant, c.tenantId = .str tenant ∧ Scalar tenant) ∧ Scalar c.requestId ∧ Scalar c.node.nodeId ∧ Scalar c.model

theorem usage_eq_none {c : Charge} (h : c.usage clock = none) : ¬ c.Bookable := by
  rintro ⟨⟨tenant, htenant, _⟩, _⟩
  rw [Charge.usage, htenant] at h
  cases h

theorem bindable_iff {c : Charge} (h : c.usage clock = some u) : u.Bindable ↔ c.Bookable := by
  unfold Charge.usage at h
  split at h
  · rename_i tenant htenant
    cases h
    constructor
    · exact fun ⟨hrequest, hscalar, hnode, hmodel⟩ => ⟨⟨tenant, htenant, hscalar⟩, hrequest, hnode, hmodel⟩
    · rintro ⟨⟨tenant', htenant', hscalar⟩, hrequest, hnode, hmodel⟩
      cases htenant.symm.trans htenant'
      exact ⟨hrequest, hscalar, hnode, hmodel⟩
  · cases h

end Charge

namespace Accounting

/-- A Scheduler on a new file. -/
def fresh : Accounting γ := ⟨⟨.empty⟩, ⟨[]⟩, .opened .empty⟩

/-- The Scheduler comes up on the file again: the ledger and the meter are loaded from it. -/
def restart (s : Accounting γ) : Accounting γ where
  ledger := .load s.store.committed.accounts.values
  usageMeter := .load (s.store.committed.usage.map Prod.fst)
  store := s.store.reopen

/-- A process that died is started again. -/
def after (s : Accounting γ) (landing : Landing) : Accounting γ := if landing.dies then s.restart else s

/-- `record_host_contribution`, to the end of its write. -/
def recordHostContribution (s : Accounting γ) (node : Host) (duration now : ℚ) (landing : Landing) :
    Accounting γ :=
  let (account, ledger) :=
    s.ledger.recordHostContribution node.nodeId node.vramTotalGb duration node.ramTotalGb now
  ({ s with ledger, store := s.store.write (·.saveAccount account) landing } : Accounting γ).after landing

/-- `UsageMeter.record`, to the end of its write. -/
def record (s : Accounting γ) (usage : UsageRecord) (note : γ) (landing : Landing) : Accounting γ :=
  ({ s with
    usageMeter := s.usageMeter.record usage
    store := s.store.write (·.saveUsage usage note) landing } : Accounting γ).after landing

/-- `_meter`. The usage record and the credit are two writes with a commit each: `first` and
`second` say how these end, where the record can be bound. Whatever raises is logged and goes no further. No await in here
suspends, since no method of the store does, so that nothing comes in between. -/
def meter (s : Accounting γ) (c : Charge) (clock : Readings) (note : γ) (first second : Landing) :
    Accounting γ :=
  match c.usage clock with
  | none => s
  | some usage =>
    let s' := s.record usage note (usage.landing first)
    if usage.landing first = .committed ∧ c.succeeded then
      s'.recordHostContribution c.node (c.duration clock) clock.updatedAt second
    else s'

theorem after_alive (s : Accounting γ) (h : landing.dies = false) : s.after landing = s :=
  if_neg (by rw [h]; exact Bool.false_ne_true)

theorem record_committed (s : Accounting γ) (usage : UsageRecord) (note : γ) :
    s.record usage note .committed =
      ⟨s.ledger, s.usageMeter.record usage, .opened (s.store.working.saveUsage usage note)⟩ :=
  after_alive _ rfl

theorem recordHostContribution_committed (s : Accounting γ) (node : Host) (duration now : ℚ) :
    s.recordHostContribution node duration now .committed =
      let credited := s.ledger.recordHostContribution node.nodeId node.vramTotalGb duration node.ramTotalGb now
      ⟨credited.2, s.usageMeter, .opened (s.store.working.saveAccount credited.1)⟩ :=
  after_alive _ rfl

end Accounting

namespace Accounts

theorem earned_put (accounts : Accounts) (account : CreditAccount) (n : Text) :
    earned (accounts.put account) n =
      if account.accountId = n then account.earnedCredits else accounts.earned n := by
  unfold earned
  rw [Table.get?_put]
  split <;> rfl

end Accounts

namespace CreditLedger

/-- Asking for an account leaves what is earned as it is. -/
theorem getOrCreateAccount_earned (l : CreditLedger) (accountId : Text) (now : ℚ) (n : Text) :
    (l.getOrCreateAccount accountId now).2.accounts.earned n = l.accounts.earned n := by
  unfold getOrCreateAccount
  cases h : l.accounts.get? accountId with
  | some account => rfl
  | none =>
    simp only [Accounts.earned_put]
    split
    · rename_i hn
      rw [Accounts.earned, ← hn, h]
      rfl
    · rfl

/-- The account asked for is the ledger's. -/
theorem getOrCreateAccount_account (l : CreditLedger) (accountId : Text) (now : ℚ) :
    (l.getOrCreateAccount accountId now).1.accountId = accountId ∧
      (l.getOrCreateAccount accountId now).1.earnedCredits = l.accounts.earned accountId := by
  unfold getOrCreateAccount
  cases h : l.accounts.get? accountId with
  | some account => exact ⟨Table.key_of_get? h, by rw [Accounts.earned, h]; rfl⟩
  | none => exact ⟨rfl, by rw [Accounts.earned, h]; rfl⟩

/-- The account that is to be saved has what the node had, and what it earns now. -/
theorem recordHostContribution_account (l : CreditLedger) (nodeId : Text) (vram duration ram now : ℚ) :
    (l.recordHostContribution nodeId vram duration ram now).1.accountId = nodeId ∧
      (l.recordHostContribution nodeId vram duration ram now).1.earnedCredits =
        l.accounts.earned nodeId + earned vram duration ram := by
  obtain ⟨hid, hearned⟩ := l.getOrCreateAccount_account nodeId now
  exact ⟨hid, congrArg (· + earned vram duration ram) hearned⟩

theorem recordHostContribution_earned (l : CreditLedger) (nodeId : Text) (vram duration ram now : ℚ) (n : Text) :
    (l.recordHostContribution nodeId vram duration ram now).2.accounts.earned n =
      l.accounts.earned n + if nodeId = n then earned vram duration ram else 0 := by
  obtain ⟨hid, hearned⟩ := l.recordHostContribution_account nodeId vram duration ram now
  have hput : (l.recordHostContribution nodeId vram duration ram now).2.accounts =
      (l.getOrCreateAccount nodeId now).2.accounts.put (l.recordHostContribution nodeId vram duration ram now).1 := rfl
  rw [hput, Accounts.earned_put, hid, hearned, getOrCreateAccount_earned]
  split
  · rename_i hn
    rw [hn]
  · rw [add_zero]

/-- Loading a table's rows gives the table. -/
theorem load_values (accounts : Accounts) : load accounts.values = ⟨accounts⟩ := by
  have h : accounts.values.foldl Table.put .empty = accounts :=
    Table.ext_values (Table.values_foldl_put (t := .empty) accounts.values_nodup)
  rw [load, h]

theorem earned_nonneg (vram duration ram : ℚ) : 0 ≤ earned vram duration ram := by
  unfold earned creditsPerGbVramHour creditsPerGbRamHour
  have hhours : 0 ≤ max 0 duration / 3600 := div_nonneg (le_max_left _ _) (by norm_num)
  dsimp only
  split
  · exact mul_nonneg (mul_nonneg (le_max_left _ _) hhours) (by norm_num)
  · exact mul_nonneg (mul_nonneg (le_max_left _ _) hhours) (by norm_num)

/-- Something is earned exactly in some time, with some memory. -/
theorem earned_pos : 0 < earned vram duration ram ↔ 0 < duration ∧ (0 < vram ∨ 0 < ram) := by
  have hhours : 0 < max 0 duration / 3600 ↔ 0 < duration := by
    rw [div_pos_iff_of_pos_right (by norm_num), lt_max_iff, or_iff_right (lt_irrefl _)]
  have hzero : ∀ x : ℚ, 0 < max 0 x ↔ 0 < x := fun x => by rw [lt_max_iff, or_iff_right (lt_irrefl _)]
  have hpos : ∀ m r : ℚ, 0 ≤ m → 0 < r →
      (0 < m * (max 0 duration / 3600) * r ↔ 0 < m ∧ 0 < duration) := by
    intro m r hm hr
    rw [mul_pos_iff_of_pos_right hr, ← hhours]
    constructor
    · intro h
      have hne := mul_ne_zero_iff.mp h.ne'
      exact ⟨lt_of_le_of_ne hm hne.1.symm,
        lt_of_le_of_ne (div_nonneg (le_max_left _ _) (by norm_num)) hne.2.symm⟩
    · exact fun h => mul_pos h.1 h.2
  unfold earned creditsPerGbVramHour creditsPerGbRamHour
  dsimp only
  split
  · rename_i hv
    rw [hpos _ _ (le_max_left _ _) (by norm_num)]
    have := (hzero vram).mp hv
    tauto
  · rename_i hv
    rw [hpos _ _ (le_max_left _ _) (by norm_num), hzero]
    have := mt (hzero vram).mpr hv
    tauto

end CreditLedger
end PublicIntelligence.Scheduler
