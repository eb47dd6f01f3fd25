import Mathlib.Algebra.Order.BigOperators.Group.List
import PublicIntelligence.Lib.Runs
import PublicIntelligence.Scheduler.Metering

namespace PublicIntelligence.System

open Text Runs Scheduler Accounting

namespace Accrual

/-- A row of the usage table, with the node as it was when the row was written. -/
abbrev Row := UsageRecord × Host

/-- What touches the ledger, the meter or their store: a metered request, a look at a node's
account, a write to another table over the same connection, and a death between two of these. -/
inductive Act where
  | request (c : Charge) (clock : Readings) (first second : Landing)
  | enquire (nodeId : Text) (now : ℚ)
  | elsewhere (landing : Landing)
  | restart

def step : Step (Accounting Host) Act
  | s, .request c clock first second => some (s.meter c clock c.node first second)
  | s, .enquire nodeId now => some { s with ledger := (s.ledger.getOrCreateAccount nodeId now).2 }
  | s, .elsewhere landing =>
    some (({ s with store := s.store.write id landing } : Accounting Host).after landing)
  | s, .restart => some s.restart

/-- The contribution that `record_host_contribution` computes for the record. -/
def worth (row : Row) : ℚ :=
  CreditLedger.earned row.2.vramTotalGb row.1.durationSeconds row.2.ramTotalGb

/-- What the records of a node that succeeded are worth. -/
def owed (rows : List Row) (n : Text) : ℚ :=
  ((rows.filter fun row => row.1.succeeded && row.1.nodeId = n).map worth).sum

/-- Credits and usage say the same of every node. -/
def Agree (b : Books Host) : Prop := ∀ n, b.accounts.earned n = owed b.usage n

/-- The record credits its node: it succeeded, took some time, and the node has some memory. -/
def Earns (row : Row) : Prop :=
  row.1.succeeded ∧ 0 < row.1.durationSeconds ∧ (0 < row.2.vramTotalGb ∨ 0 < row.2.ramTotalGb)

instance (row : Row) : Decidable (Earns row) := by
  unfold Earns
  infer_instance

/-- The records in the transaction that is open. -/
def pending (c : Connection (Books Host)) : List Row := c.working.usage.drop c.committed.usage.length

/-- A commit publishes no record that was left behind uncredited. -/
def Clear (s : Accounting Host) (landing : Landing) : Prop :=
  landing.lands → ∀ row ∈ pending s.store, ¬ Earns row

/-- If the commit of a record that credits its node lands, so does that of the credit. -/
def Paired (row : Row) (first second : Landing) : Prop :=
  first.lands → Earns row → first = .committed ∧ second.lands

def Careful (s : Accounting Host) : Act → Prop
  | .request c clock first second =>
    match c.usage clock with
    | none => True
    | some usage => Clear s (usage.landing first) ∧ Paired (usage, c.node) (usage.landing first) second
  | .elsewhere landing => Clear s landing
  | .enquire _ _ => True
  | .restart => True

/-- The second holds the rows of the first and more, and pays no node less. -/
structure Extends (b b' : Books Host) : Prop where
  usage : b.usage <+: b'.usage
  earned : ∀ n, b.accounts.earned n ≤ b'.accounts.earned n

/-- What is paid is never more than what is owed: on file, in the open transaction and in memory. -/
structure Bounded (s : Accounting Host) : Prop where
  opened : Extends s.store.committed s.store.working
  held : ∀ n, s.store.working.accounts.earned n ≤ s.ledger.accounts.earned n
  paid : ∀ n, s.ledger.accounts.earned n ≤ owed s.store.committed.usage n

section
variable {s : Accounting Host} {row : Row} {rows : List Row} {n : Text}

theorem owed_append : owed (rows ++ rows') n = owed rows n + owed rows' n := by
  simp only [owed, List.filter_append, List.map_append, List.sum_append]

theorem owed_singleton :
    owed [row] n = if row.1.succeeded && row.1.nodeId = n then worth row else 0 := by
  unfold owed
  rw [List.filter_singleton]
  cases row.1.succeeded && decide (row.1.nodeId = n) with
  | true => exact add_zero _
  | false => rfl

theorem worth_nonneg (row : Row) : 0 ≤ worth row := CreditLedger.earned_nonneg _ _ _

theorem owed_nonneg (rows : List Row) (n : Text) : 0 ≤ owed rows n := by
  refine List.sum_nonneg fun x hx => ?_
  obtain ⟨row, _, rfl⟩ := List.mem_map.mp hx
  exact worth_nonneg row

theorem earns_iff : Earns row ↔ row.1.succeeded ∧ worth row ≠ 0 := by
  refine and_congr_right fun _ => ?_
  rw [← CreditLedger.earned_pos]
  exact ⟨ne_of_gt, fun h => lt_of_le_of_ne (worth_nonneg row) h.symm⟩

/-- Records are worth nothing to any node exactly if none of them credits its node. -/
theorem owed_eq_zero : (∀ n, owed rows n = 0) ↔ ∀ row ∈ rows, ¬ Earns row := by
  induction rows with
  | nil => exact iff_of_true (fun _ => rfl) nofun
  | cons row rows ih =>
    have hcons : ∀ n, owed (row :: rows) n = owed [row] n + owed rows n := fun n => by
      rw [← List.singleton_append, owed_append]
    have hsplit : (∀ n, owed (row :: rows) n = 0) ↔ (∀ n, owed [row] n = 0) ∧ ∀ n, owed rows n = 0 := by
      rw [← forall_and]
      refine forall_congr' fun n => ?_
      rw [hcons]
      exact add_eq_zero_iff_of_nonneg (owed_nonneg _ n) (owed_nonneg _ n)
    have hone : (∀ n, owed [row] n = 0) ↔ ¬ Earns row := by
      rw [earns_iff]
      constructor
      · rintro h ⟨hs, hw⟩
        have := h row.1.nodeId
        rw [owed_singleton, hs] at this
        exact hw (by simpa using this)
      · intro h n
        rw [owed_singleton]
        split
        · rename_i hn
          by_contra hw
          exact h ⟨(Bool.and_eq_true_iff.mp hn).1, hw⟩
        · rfl
    rw [hsplit, ih, hone, List.forall_mem_cons]

/-- More records are worth the same to every node exactly if those that came to them credit nobody. -/
theorem owed_eq_iff (h : rows <+: rows') :
    (∀ n, owed rows n = owed rows' n) ↔ ∀ row ∈ rows'.drop rows.length, ¬ Earns row := by
  obtain ⟨more, rfl⟩ := h
  rw [List.drop_left, ← owed_eq_zero]
  refine forall_congr' fun n => ?_
  rw [owed_append, left_eq_add]

theorem owed_mono (h : rows <+: rows') (n : Text) : owed rows n ≤ owed rows' n := by
  obtain ⟨more, rfl⟩ := h
  rw [owed_append]
  exact le_add_of_nonneg_right (owed_nonneg more n)

theorem Extends.refl (b : Books Host) : Extends b b := ⟨List.prefix_rfl, fun _ => le_rfl⟩

theorem Bounded.restart (h : Bounded s) : Bounded s.restart where
  opened := .refl _
  held n := by
    change _ ≤ (CreditLedger.load _).accounts.earned n
    rw [CreditLedger.load_values]
    exact le_rfl
  paid n := by
    change (CreditLedger.load _).accounts.earned n ≤ _
    rw [CreditLedger.load_values]
    exact (h.opened.earned n).trans ((h.held n).trans (h.paid n))

theorem Bounded.after (h : Bounded s) (landing : Landing) : Bounded (s.after landing) := by
  unfold Accounting.after
  split
  · exact h.restart
  · exact h

theorem after_committed (s : Accounting Host) (landing : Landing) :
    (s.after landing).store.committed = s.store.committed := by
  unfold Accounting.after
  split <;> rfl

/-- A write that keeps the accounts as they are, and all the rows, keeps the bounds. -/
theorem Bounded.write (h : Bounded s) {f : Books Host → Books Host}
    (hextends : Extends s.store.working (f s.store.working))
    (haccounts : ∀ n, (f s.store.working).accounts.earned n ≤ s.ledger.accounts.earned n)
    (meter : UsageMeter) (landing : Landing) :
    Bounded { s with usageMeter := meter, store := s.store.write f landing } where
  opened := Connection.write_related landing .refl
    ⟨h.opened.usage.trans hextends.usage, fun n => (h.opened.earned n).trans (hextends.earned n)⟩ h.opened
  held n := Connection.write_working (P := fun b : Books Host => b.accounts.earned n ≤ s.ledger.accounts.earned n)
    landing (haccounts n) (h.held n) ((h.opened.earned n).trans (h.held n))
  paid n := Connection.write_committed (P := fun b : Books Host => s.ledger.accounts.earned n ≤ owed b.usage n)
    landing ((h.paid n).trans (owed_mono (h.opened.usage.trans hextends.usage) n)) (h.paid n)

theorem Bounded.record (h : Bounded s) (usage : UsageRecord) (node : Host) (landing : Landing) :
    Bounded (s.record usage node landing) :=
  (h.write (f := (·.saveUsage usage node)) ⟨List.prefix_append _ _, fun _ => le_rfl⟩ h.held _ landing).after landing

/-- What a request credits to each node. -/
def gain (node : Host) (duration : ℚ) (n : Text) : ℚ :=
  if node.nodeId = n then CreditLedger.earned node.vramTotalGb duration node.ramTotalGb else 0

theorem gain_nonneg (node : Host) (duration : ℚ) (n : Text) : 0 ≤ gain node duration n := by
  unfold gain
  split
  · exact CreditLedger.earned_nonneg _ _ _
  · exact le_rfl

/-- Saving the account that `record_host_contribution` has brought up to date. -/
theorem saveAccount_earned (l : CreditLedger) (b : Books Host) (node : Host) (duration now : ℚ) (n : Text) :
    (b.saveAccount (l.recordHostContribution node.nodeId node.vramTotalGb duration node.ramTotalGb
      now).1).accounts.earned n =
      if node.nodeId = n then l.accounts.earned n + gain node duration n else b.accounts.earned n := by
  obtain ⟨hid, hearned⟩ := l.recordHostContribution_account node.nodeId node.vramTotalGb duration node.ramTotalGb now
  unfold Books.saveAccount
  rw [Accounts.earned_put, hid, hearned]
  split
  · rename_i hn
    rw [gain, if_pos hn, hn]
  · rfl

/-- Crediting what the file owes beyond what memory holds. -/
theorem Bounded.recordHostContribution (h : Bounded s) (node : Host) (duration now : ℚ) (landing : Landing)
    (howed : ∀ n, s.ledger.accounts.earned n + gain node duration n ≤ owed s.store.committed.usage n) :
    Bounded (s.recordHostContribution node duration now landing) := by
  have hledger : ∀ n, (s.ledger.recordHostContribution node.nodeId node.vramTotalGb duration
      node.ramTotalGb now).2.accounts.earned n = s.ledger.accounts.earned n + gain node duration n :=
    s.ledger.recordHostContribution_earned node.nodeId node.vramTotalGb duration node.ramTotalGb now
  have hsaved := saveAccount_earned s.ledger s.store.working node duration now
  have hmore : ∀ n, s.ledger.accounts.earned n ≤ s.ledger.accounts.earned n + gain node duration n :=
    fun n => le_add_of_nonneg_right (gain_nonneg node duration n)
  have hraised : Bounded { s with ledger := (s.ledger.recordHostContribution node.nodeId node.vramTotalGb
      duration node.ramTotalGb now).2 } :=
    ⟨h.opened, fun n => ((h.held n).trans (hmore n)).trans_eq (hledger n).symm,
      fun n => (hledger n).trans_le (howed n)⟩
  refine Bounded.after (hraised.write ⟨List.prefix_rfl, fun n => ?_⟩ (fun n => ?_) s.usageMeter landing) landing
  · refine le_of_le_of_eq ?_ (hsaved n).symm
    split
    · exact (h.held n).trans (hmore n)
    · exact le_rfl
  · refine ((hsaved n).trans_le ?_).trans_eq (hledger n).symm
    split
    · exact le_rfl
    · exact (h.held n).trans (hmore n)

/-- What a record makes its node owed is what the request credits, if it succeeded. -/
theorem owed_usage {c : Charge} (h : c.usage clock = some usage) (n : Text) :
    owed [(usage, c.node)] n = if c.succeeded then gain c.node (c.duration clock) n else 0 := by
  obtain ⟨_, hnode, hduration, hsucceeded⟩ := Charge.usage_eq_some h
  rw [owed_singleton, hnode, hsucceeded, gain, worth, hduration]
  cases c.succeeded with
  | true => simp
  | false => rfl

/-- A record that lands makes the file owe what was pending, and what the record is worth. -/
theorem record_lands (usage : UsageRecord) (node : Host) (hland : landing.lands) :
    (s.record usage node landing).store.committed = s.store.working.saveUsage usage node := by
  rw [Accounting.record, after_committed, Connection.write_of_lands _ hland]
  rfl

theorem recordHostContribution_lands (node : Host) (duration now : ℚ) (hland : landing.lands) :
    (s.recordHostContribution node duration now landing).store.committed =
      s.store.working.saveAccount (s.ledger.recordHostContribution node.nodeId node.vramTotalGb duration
        node.ramTotalGb now).1 := by
  rw [Accounting.recordHostContribution, after_committed, Connection.write_of_lands _ hland]
  rfl

theorem recordHostContribution_lost (node : Host) (duration now : ℚ) (hland : ¬ landing.lands) :
    (s.recordHostContribution node duration now landing).store.committed = s.store.committed := by
  rw [Accounting.recordHostContribution, after_committed, Connection.write_of_not_lands _ hland]

theorem Bounded.meter (h : Bounded s) (c : Charge) (clock : Readings) (first second : Landing) :
    Bounded (s.meter c clock c.node first second) := by
  unfold Accounting.meter
  cases hu : c.usage clock with
  | none => exact h
  | some usage =>
    dsimp only
    generalize usage.landing first = first
    have hrecord := h.record usage c.node first
    split
    · rename_i hgo
      obtain ⟨rfl, hs⟩ := hgo
      refine hrecord.recordHostContribution _ _ _ second fun n => ?_
      have hgain := owed_usage hu n
      rw [if_pos hs] at hgain
      rw [record_lands usage c.node rfl, Books.saveUsage, owed_append, hgain]
      exact add_le_add_left ((h.paid n).trans (owed_mono h.opened.usage n)) _
    · exact hrecord

theorem bounded_step (h : Bounded s) (hs : step s a = some t) : Bounded t := by
  cases a with
  | request c clock first second =>
    cases hs
    exact h.meter c clock first second
  | enquire nodeId now =>
    cases hs
    have hsame := s.ledger.getOrCreateAccount_earned nodeId now
    exact ⟨h.opened, fun n => (h.held n).trans_eq (hsame n).symm, fun n => (hsame n).trans_le (h.paid n)⟩
  | elsewhere landing =>
    cases hs
    exact (h.write (f := id) (.refl _) h.held s.usageMeter landing).after landing
  | restart =>
    cases hs
    exact h.restart

theorem bounded_fresh : Bounded fresh := ⟨.refl _, fun _ => le_rfl, fun _ => le_rfl⟩

/-- Where credits and usage agree on file, memory and the open transaction pay the same. -/
theorem Bounded.level (h : Bounded s) (hq : Agree s.store.committed) (n : Text) :
    s.store.working.accounts.earned n = owed s.store.committed.usage n ∧
      s.ledger.accounts.earned n = owed s.store.committed.usage n := by
  have hopened := h.opened.earned n
  rw [hq n] at hopened
  exact ⟨le_antisymm ((h.held n).trans (h.paid n)) hopened,
    le_antisymm (h.paid n) (hopened.trans (h.held n))⟩

/-- The rows that are pending can be published uncredited exactly if none of them credits its node. -/
theorem Bounded.published (h : Bounded s) :
    (∀ n, owed s.store.committed.usage n = owed s.store.working.usage n) ↔
      ∀ row ∈ pending s.store, ¬ Earns row :=
  owed_eq_iff h.opened.usage

/-- The same for these and one more. -/
theorem Bounded.published_with (h : Bounded s) (row : Row) :
    (∀ n, owed s.store.committed.usage n = owed (s.store.working.usage ++ [row]) n) ↔
      (∀ row ∈ pending s.store, ¬ Earns row) ∧ ¬ Earns row := by
  rw [owed_eq_iff (h.opened.usage.trans (List.prefix_append _ _)),
    List.drop_append_of_le_length h.opened.usage.length_le, List.forall_mem_append, List.forall_mem_singleton]
  rfl

theorem agree_elsewhere (h : Bounded s) (hq : Agree s.store.committed) (landing : Landing) :
    Agree (s.store.write id landing).committed ↔ Clear s landing := by
  unfold Clear
  by_cases hland : landing.lands
  · rw [Connection.write_of_lands _ hland, ← h.published, imp_iff_right hland]
    exact forall_congr' fun n => by rw [← (h.level hq n).1]; rfl
  · rw [Connection.write_of_not_lands _ hland]
    exact iff_of_true hq fun hl => absurd hl hland

/-- A record that lands uncredited. -/
theorem agree_recorded (h : Bounded s) (hq : Agree s.store.committed) (usage : UsageRecord) (node : Host) :
    Agree (s.store.working.saveUsage usage node) ↔
      (∀ row ∈ pending s.store, ¬ Earns row) ∧ ¬ Earns (usage, node) := by
  rw [← h.published_with]
  exact forall_congr' fun n => by rw [← (h.level hq n).1]; rfl

/-- A record that lands with its credit. -/
theorem agree_credited (h : Bounded s) (hq : Agree s.store.committed) {c : Charge} (hu : c.usage clock = some usage)
    (hs : c.succeeded = true) (now : ℚ) :
    Agree ((s.store.working.saveUsage usage c.node).saveAccount (s.ledger.recordHostContribution c.node.nodeId
      c.node.vramTotalGb (c.duration clock) c.node.ramTotalGb now).1) ↔
      ∀ row ∈ pending s.store, ¬ Earns row := by
  rw [← h.published]
  refine forall_congr' fun n => ?_
  have hgain := owed_usage hu n
  rw [if_pos hs] at hgain
  have hpaid : (if c.node.nodeId = n then s.ledger.accounts.earned n + gain c.node (c.duration clock) n
      else s.store.working.accounts.earned n) =
      owed s.store.committed.usage n + gain c.node (c.duration clock) n := by
    rw [(h.level hq n).1, (h.level hq n).2]
    split
    · rfl
    · rename_i hn
      rw [gain, if_neg hn, add_zero]
  rw [saveAccount_earned]
  change (if c.node.nodeId = n then _ else s.store.working.accounts.earned n) =
    owed (s.store.working.usage ++ [(usage, c.node)]) n ↔ _
  rw [hpaid, owed_append, hgain, add_left_inj]

theorem agree_meter (h : Bounded s) (hq : Agree s.store.committed) {c : Charge} (hu : c.usage clock = some usage)
    (first second : Landing) :
    Agree (s.meter c clock c.node first second).store.committed ↔
      Clear s (usage.landing first) ∧ Paired (usage, c.node) (usage.landing first) second := by
  have hmeter : s.meter c clock c.node first second =
      if usage.landing first = .committed ∧ c.succeeded then
        (s.record usage c.node (usage.landing first)).recordHostContribution c.node (c.duration clock) clock.updatedAt
          second
      else s.record usage c.node (usage.landing first) := by
    unfold Accounting.meter
    rw [hu]
  generalize usage.landing first = first at hmeter ⊢
  have hrecorded := agree_recorded h hq usage c.node
  unfold Clear Paired
  by_cases hland : first.lands
  · simp only [hland, true_imp_iff]
    by_cases hgo : first = .committed ∧ c.succeeded
    · obtain ⟨rfl, hs⟩ := hgo
      rw [hmeter, if_pos ⟨rfl, hs⟩]
      by_cases hsecond : second.lands
      · rw [recordHostContribution_lands _ _ _ hsecond, Accounting.record_committed]
        refine (agree_credited h hq hu hs clock.updatedAt).trans ?_
        exact (and_iff_left fun _ => ⟨rfl, hsecond⟩).symm
      · rw [recordHostContribution_lost _ _ _ hsecond, record_lands _ _ hland]
        refine hrecorded.trans (and_congr_right fun _ => ?_)
        exact ⟨fun hn he => absurd he hn, fun hp he => hsecond (hp he).2⟩
    · rw [hmeter, if_neg hgo, record_lands _ _ hland]
      refine hrecorded.trans (and_congr_right fun _ => ?_)
      have hs := (Charge.usage_eq_some hu).2.2.2
      exact ⟨fun hn he => absurd he hn, fun hp he => hgo ⟨(hp he).1, hs ▸ he.1⟩⟩
  · have hgo : ¬ (first = .committed ∧ c.succeeded) := fun hgo => hland (hgo.1 ▸ rfl)
    rw [hmeter, if_neg hgo, Accounting.record, after_committed, Connection.write_of_not_lands _ hland]
    exact iff_of_true hq ⟨fun hl => absurd hl hland, fun hl => absurd hl hland⟩

/-- After a step from where they agree, credits and usage agree exactly if the step was careful. -/
theorem agree_step (h : Bounded s) (hq : Agree s.store.committed) (hs : step s a = some t) :
    Agree t.store.committed ↔ Careful s a := by
  cases a with
  | request c clock first second =>
    cases hs
    rw [Careful]
    cases hu : c.usage clock with
    | none =>
      rw [Accounting.meter, hu]
      exact iff_of_true hq trivial
    | some usage => exact agree_meter h hq hu first second
  | enquire nodeId now =>
    cases hs
    exact iff_of_true hq trivial
  | elsewhere landing =>
    cases hs
    rw [after_committed]
    exact agree_elsewhere h hq landing
  | restart =>
    cases hs
    exact iff_of_true hq trivial

theorem exec_total (s : Accounting Host) (acts : List Act) : ∃ t, exec step s acts = some t := by
  induction acts generalizing s with
  | nil => exact ⟨s, rfl⟩
  | cons a acts ih =>
    obtain ⟨t, ht⟩ : ∃ t, step s a = some t := by cases a <;> exact ⟨_, rfl⟩
    obtain ⟨u, hu⟩ := ih t
    exact ⟨u, exec_cons.mpr ⟨t, ht, hu⟩⟩

end

theorem agree_fresh : Agree (fresh : Accounting Host).store.committed := fun _ => rfl

/-- A run leaves credits and usage in agreement on file, wherever the Scheduler may be started
again, exactly if all its steps are careful. -/
theorem credits_agree_iff (acts : List Act) :
    Throughout step (fun s => Agree s.store.committed) fresh acts ↔ Along step Careful fresh acts := by
  obtain ⟨t, ht⟩ := exec_total fresh acts
  exact throughout_iff_along (fun _ _ _ => bounded_step) (fun _ _ _ => agree_step) bounded_fresh agree_fresh ht

/-- A request of one hour on a node with 24 GB of VRAM. -/
def hourOnGpu : Charge :=
  ⟨text "chatcmpl-1", .str (text "tenant-a"), ⟨text "node-meter-1", 24, 64⟩, text "llama3", 7, 5, 0, true⟩

/-- The process dies when the usage record has been committed and the credit has not. -/
theorem dies_between_commits :
    ¬ ∀ acts s, exec step fresh acts = some s → Agree s.store.committed := by
  intro h
  have hrow := h [.request hourOnGpu ⟨3600, 0, 0⟩ .committed .diedBefore, .restart] _ rfl (text "node-meter-1")
  exact absurd hrow (by decide +kernel)

/-- No run pays a node more than its records are worth. -/
theorem never_overpaid (hr : exec step fresh acts = some s) (n : Text) :
    s.store.committed.accounts.earned n ≤ owed s.store.committed.usage n := by
  have h : Bounded s := exec_invariant (fun _ _ _ => bounded_step) bounded_fresh hr
  exact (h.opened.earned n).trans ((h.held n).trans (h.paid n))

end Accrual
end PublicIntelligence.System
