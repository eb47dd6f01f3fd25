import Mathlib.Data.List.Perm.Subperm
import PublicIntelligence.Scheduler.FrontDoor
import PublicIntelligence.System.KeyRotation
import PublicIntelligence.System.LoadFeedback
import PublicIntelligence.System.Recording
import PublicIntelligence.System.Restart

namespace PublicIntelligence.System.FrontDoor

open Runs Text Encoding Json Scheduler KeyRotation
open TokenBucketLimiter (init)

/-- A completion that was sent to a node, and when. -/
structure Dispatch where
  time : ℚ
  request : Assigned

def Dispatch.tenantId (d : Dispatch) : Text := (asStr (some d.request.tenantId)).getD []

/-- A running Scheduler: its keys and the tokens that were made, what a request goes past, the books, and the
completions that wait for their node. `dispatched` and `submitted` are what got past so far; no code keeps them. -/
structure Desk (κ τ : Type) where
  keys : Gateway κ
  gate : Gate
  canary : CanaryVerifier τ
  accounting : Accounting Dispatch
  inFlight : List (Dispatch × Route)
  dispatched : List Dispatch
  submitted : List (ℚ × Text)

/-- What happens at the desk. `cluster` is whatever the rest of the Scheduler does to the nodes meanwhile. -/
inductive Act (κ τ : Type) where
  | keys (a : KeyRotation.Act κ)
  | cluster (registry : NodeRegistry) (canary : CanaryVerifier τ)
  | request (authorization : Option Text) (req : ChatCompletionRequest) (taskId : Text) (startedAt : ℚ)
  | submit (authorization : Option Text) (task : TaskSubmission)
  | finish (i : Nat) (b : Behaviour) (clock : Readings) (first second : Landing)

section
variable (num : Numbers ν) (sha256 : Bytes → Bytes) (jwt : Jwt κ) (capitalize : Text → Text)
  (settings : GatewaySettings)

namespace Desk

/-- A completion is asked for. No await from the token to the dispatch suspends. -/
def chat (s : Desk κ τ) (authorization : Option Text) (req : ChatCompletionRequest) (taskId : Text) (startedAt : ℚ) :
    Desk κ τ :=
  match answers jwt s.keys authorization with
  | .error _ => s
  | .ok claims =>
    match s.gate.admitChat num sha256 s.canary capitalize settings s.keys.clock claims req taskId startedAt with
    | (gate, .admitted (q, route)) =>
      let d : Dispatch := ⟨s.keys.clock, q⟩
      { s with gate, inFlight := (d, route) :: s.inFlight, dispatched := d :: s.dispatched }
    | (gate, _) => { s with gate }

/-- A task is submitted. -/
def submit (s : Desk κ τ) (authorization : Option Text) (task : TaskSubmission) : Desk κ τ :=
  match answers jwt s.keys authorization with
  | .error _ => s
  | .ok claims =>
    match s.gate.submitTask num sha256 s.canary s.keys.clock claims task with
    | (gate, .admitted _) =>
      { s with gate, submitted := (s.keys.clock, (asStr (get? claims "tenant_id")).getD []) :: s.submitted }
    | (gate, _) => { s with gate }

/-- A completion comes to its end and is metered, which nothing comes in between. A run is of one process: it does
not die. -/
def finish (s : Desk κ τ) (i : Nat) (b : Behaviour) (clock : Readings) (first second : Landing) : Option (Desk κ τ) :=
  match s.inFlight[i]? with
  | none => none
  | some (d, route) =>
    if first.dies || second.dies then none
    else
      let ended := tryChatCompletion num.py d.request route b
      some { s with
        inFlight := s.inFlight.eraseIdx i
        accounting := ended.metered s.accounting clock d first second }

end Desk

def step : Step (Desk κ τ) (Act κ τ)
  | s, .keys a => (KeyRotation.step s.keys a).map fun keys => { s with keys }
  | s, .cluster registry canary => some { s with gate := { s.gate with registry }, canary }
  | s, .request authorization req taskId startedAt =>
    some (s.chat num sha256 jwt capitalize settings authorization req taskId startedAt)
  | s, .submit authorization task => some (s.submit num sha256 jwt authorization task)
  | s, .finish i b clock first second => s.finish num i b clock first second

end

def start (d : Deployment κ) (clock capacity rate idle : ℚ) (registry : NodeRegistry) (canary : CanaryVerifier τ) :
    Desk κ τ :=
  ⟨KeyRotation.start d clock, ⟨init capacity rate idle, registry⟩, canary, .fresh, [], [], []⟩

namespace Desk

/-- What the limiter is asked on behalf of a tenant. -/
def call (s : Desk κ τ) (tenantId : Text) : AcquireCall := ⟨s.keys.clock, tenantKey tenantId⟩

/-- What got past the limiter, when and for whom. -/
def passes (s : Desk κ τ) : List (ℚ × Text) := s.dispatched.map (fun d => (d.time, d.tenantId)) ++ s.submitted

def passed (s : Desk κ τ) (tenantId : Text) (t₁ t₂ : ℚ) : ℕ :=
  s.passes.countP fun p => decide (p.2 = tenantId) && decide (t₁ ≤ p.1) && decide (p.1 ≤ t₂)

/-- The completion was asked for with a live token of a key that the gateway has, by the tenant it is billed to,
and went to a registered node that offers the model and is not quarantined. -/
def Lawful (jwt : Jwt κ) (s : Desk κ τ) (d : Dispatch) : Prop :=
  (∃ t ∈ s.keys.made, t.Live s.keys.clock ∧ jwt.publicPem t.key ∈ active s.keys.deployment ∧ t.tenantId ≠ [] ∧
      d.time = s.keys.clock ∧ d.request.tenantId = .str t.tenantId) ∧
    ∃ n, Gate.Hosts s.canary s.gate.registry d.request.model n ∧ d.request.node = n.host

end Desk

/-- A usage record says of a completion for whom it was, and what it was. -/
def Bills (row : UsageRecord × Dispatch) : Prop :=
  row.1.requestId = row.2.request.taskId ∧ .str row.1.tenantId = row.2.request.tenantId ∧
    row.1.nodeId = row.2.request.node.nodeId ∧ row.1.model = row.2.request.model ∧
    row.1.promptTokens = estimateTokens row.2.request.promptText

section limiter

/-- A call of the limiter that is answered like this. -/
def answered : Step TokenBucketLimiter (AcquireCall × Bool) := fun l e =>
  match l.acquire e.1 with
  | none => none
  | some (ok, after) => if ok = e.2 then some after else none

theorem answered_eq_some : answered l (c, ok) = some l' ↔ l.acquire c = some (ok, l') := by
  unfold answered
  cases l.acquire c with
  | none => exact iff_of_false nofun nofun
  | some answer =>
    obtain ⟨granted, after⟩ := answer
    dsimp only
    split
    · rename_i hok
      rw [hok, Option.some.injEq, Option.some.injEq, Prod.mk.injEq, and_iff_right rfl]
    · rename_i hok
      exact iff_of_false nofun fun h => hok (Prod.mk.inj (Option.some.inj h)).1

theorem exec_answered (h : exec answered l asked = some l') :
    TokenBucketLimiter.serve TokenBucketLimiter.acquire l (asked.map Prod.fst) = some asked := by
  induction asked generalizing l with
  | nil => rfl
  | cons e asked ih =>
    obtain ⟨l₁, hcall, hrest⟩ := exec_cons.mp h
    exact TokenBucketLimiter.serve_cons.mpr ⟨e.2, l₁, asked, answered_eq_some.mp hcall, ih hrest, rfl⟩

/-- What was granted to one key over an interval, from a fresh limiter on. -/
theorem answered_granted (hcap : 0 ≤ capacity) (hrate : 0 ≤ rate)
    (h : exec answered (init capacity rate idle) asked = some l)
    (hclock : (asked.map Prod.fst).Pairwise fun c d => c.now ≤ d.now) (tenant : String) (h₁₂ : t₁ ≤ t₂) :
    (TokenBucketLimiter.granted tenant t₁ t₂ asked : ℚ) ≤ capacity + rate * (t₂ - t₁) := by
  obtain ⟨same, hserve, hlog⟩ :=
    TokenBucketLimiter.serve_init TokenBucketLimiter.acquire_serves hclock capacity rate idle
  rw [← Option.some.inj ((exec_answered h).symm.trans hserve)] at hlog
  have hsort : (((asked.map Prod.fst).filter fun c => c.tenant = tenant).map AcquireCall.now).Pairwise (· ≤ ·) :=
    List.pairwise_map.mpr (hclock.filter _)
  have hbound := Bucket.grants_le (p := ⟨capacity, rate⟩) (o := none) hcap hrate h₁₂ (fun t _ a ha => nomatch ha) hsort
  rw [← hlog tenant, Bucket.grants, List.countP_map] at hbound
  exact hbound

end limiter

section
variable {num : Numbers ν} {sha256 : Bytes → Bytes} {jwt : Jwt κ} {capitalize : Text → Text}
  {settings : GatewaySettings} {s t : Desk κ τ}

theorem keys_clock (h : KeyRotation.step g a = some g') : g.clock ≤ g'.clock := by
  cases a with
  | tick seconds =>
    simp only [KeyRotation.step] at h
    split at h
    · rename_i hpos
      cases h
      exact le_add_of_nonneg_right hpos
    · cases h
  | deploy d =>
    cases h
    exact le_rfl
  | issue payload =>
    simp only [KeyRotation.step] at h
    split at h <;> (cases h; exact le_rfl)
  | mint key kid subject tenant hours =>
    cases h
    exact le_rfl

/-- The desk lets somebody past, or asks the limiter in vain, or does not ask. -/
inductive Asks (s t : Desk κ τ) : Prop where
  | not (hlimiter : t.gate.limiter = s.gate.limiter) (hpasses : t.passes = s.passes)
  | refused (tenantId : Text) (ok : Bool)
      (hcall : s.gate.limiter.acquire (s.call tenantId) = some (ok, t.gate.limiter))
      (hpasses : t.passes = s.passes)
  | passed (tenantId : Text)
      (hcall : s.gate.limiter.acquire (s.call tenantId) = some (true, t.gate.limiter))
      (hpasses : t.passes.Perm ((s.keys.clock, tenantId) :: s.passes))

/-- A completion that is asked for is sent to a node lawfully, or nothing is. -/
theorem chat_spec (num : Numbers ν) (sha256 : Bytes → Bytes) (capitalize : Text → Text) (settings : GatewaySettings)
    (hideal : jwt.Ideal) (s : Desk κ τ) (authorization : Option Text) (req : ChatCompletionRequest) (taskId : Text)
    (startedAt : ℚ) :
    let t := s.chat num sha256 jwt capitalize settings authorization req taskId startedAt
    Asks s t ∧ t.keys = s.keys ∧ t.accounting = s.accounting ∧
      (t.inFlight = s.inFlight ∧ t.dispatched = s.dispatched ∨
        ∃ d route, t.inFlight = (d, route) :: s.inFlight ∧ t.dispatched = d :: s.dispatched ∧ s.Lawful jwt d) := by
  unfold Desk.chat
  cases hanswer : answers jwt s.keys authorization with
  | error e => exact ⟨.not rfl rfl, rfl, rfl, .inl ⟨rfl, rfl⟩⟩
  | ok claims =>
    obtain ⟨_, token, _, _, hmade, _, hkey, rfl, hlive⟩ := (verifyJwt_eq_ok hideal).mp hanswer
    have hspec := Gate.admitChat_spec num sha256 s.canary capitalize settings s.gate s.keys.clock token.claims req
      taskId startedAt
    dsimp only at hspec ⊢
    generalize s.gate.admitChat num sha256 s.canary capitalize settings s.keys.clock token.claims req taskId
      startedAt = out at hspec ⊢
    obtain ⟨gate, admission⟩ := out
    have hidle : ∀ t : Desk κ τ, t.gate = gate → t.passes = s.passes → Asks s t := by
      rintro t rfl hpasses
      rcases hspec with ⟨hlimiter, _⟩ | ⟨tenantId, ok, _, _, hcall, _⟩
      · exact .not hlimiter hpasses
      · exact .refused tenantId ok hcall hpasses
    cases admission with
    | refused e => exact ⟨hidle _ rfl rfl, rfl, rfl, .inl ⟨rfl, rfl⟩⟩
    | serverError => exact ⟨hidle _ rfl rfl, rfl, rfl, .inl ⟨rfl, rfl⟩⟩
    | admitted a =>
      obtain ⟨q, route⟩ := a
      rcases hspec with ⟨_, hnot⟩ | ⟨tenantId, ok, hclaim, hne, hcall, hgoes⟩
      · exact absurd rfl (hnot _)
      · obtain ⟨rfl, _, htenant, hmodel, n, hhosts, hnode⟩ := hgoes q route rfl
        have hid : token.tenantId = tenantId := Option.some.inj hclaim
        refine ⟨.passed tenantId hcall (.of_eq ?_), rfl, rfl, .inr ⟨_, route, rfl, rfl, ?_, n, ?_, hnode⟩⟩
        · simp only [Desk.passes, List.map_cons, Dispatch.tenantId, htenant]
          rfl
        · exact ⟨token, hmade, hlive, hkey, hid ▸ hne, rfl, hid ▸ htenant⟩
        · rw [hmodel]
          exact hhosts

theorem submit_spec (num : Numbers ν) (sha256 : Bytes → Bytes) (jwt : Jwt κ) (s : Desk κ τ)
    (authorization : Option Text) (task : TaskSubmission) :
    let t := s.submit num sha256 jwt authorization task
    Asks s t ∧ t.keys = s.keys ∧ t.accounting = s.accounting ∧ t.inFlight = s.inFlight ∧
      t.dispatched = s.dispatched := by
  unfold Desk.submit
  cases hanswer : answers jwt s.keys authorization with
  | error e => exact ⟨.not rfl rfl, rfl, rfl, rfl, rfl⟩
  | ok claims =>
    have hspec := Gate.submitTask_spec num sha256 s.canary s.gate s.keys.clock claims task
    dsimp only at hspec ⊢
    generalize s.gate.submitTask num sha256 s.canary s.keys.clock claims task = out at hspec ⊢
    obtain ⟨gate, admission⟩ := out
    have hidle : ∀ t : Desk κ τ, t.gate = gate → t.passes = s.passes → Asks s t := by
      rintro t rfl hpasses
      rcases hspec with ⟨hlimiter, _⟩ | ⟨tenantId, ok, _, hcall, _⟩
      · exact .not hlimiter hpasses
      · exact .refused tenantId ok hcall hpasses
    cases admission with
    | refused e => exact ⟨hidle _ rfl rfl, rfl, rfl, rfl, rfl⟩
    | serverError => exact ⟨hidle _ rfl rfl, rfl, rfl, rfl, rfl⟩
    | admitted a =>
      rcases hspec with ⟨_, hnot⟩ | ⟨tenantId, ok, hclaim, hcall, hgoes⟩
      · exact absurd rfl (hnot _)
      · obtain rfl := hgoes a rfl
        refine ⟨.passed tenantId hcall ?_, rfl, rfl, rfl, rfl⟩
        rw [hclaim]
        exact List.perm_middle

/-- The limiter's answer that something passed on. -/
def pass (p : ℚ × Text) : AcquireCall × Bool := (⟨p.1, tenantKey p.2⟩, true)

/-- The limiter is what some calls made of it one after the other, and each that passed had an answer of its own. -/
def Granted (capacity rate idle : ℚ) (s : Desk κ τ) : Prop :=
  ∃ asked, exec answered (init capacity rate idle) asked = some s.gate.limiter ∧
    (asked.map Prod.fst).Pairwise (fun c d => c.now ≤ d.now) ∧ (∀ e ∈ asked, e.1.now ≤ s.keys.clock) ∧
    (s.passes.map pass).Subperm asked

theorem Asks.granted (h : Asks s t) (hclock : s.keys.clock ≤ t.keys.clock) (hg : Granted capacity rate idle s) :
    Granted capacity rate idle t := by
  obtain ⟨asked, hexec, hsort, hpast, hsub⟩ := hg
  have hpast' : ∀ e ∈ asked, e.1.now ≤ t.keys.clock := fun e he => (hpast e he).trans hclock
  have hnext : ∀ tenantId ok, s.gate.limiter.acquire (s.call tenantId) = some (ok, t.gate.limiter) →
      exec answered (init capacity rate idle) (asked ++ [(s.call tenantId, ok)]) =
          some t.gate.limiter ∧
        ((asked ++ [(s.call tenantId, ok)]).map Prod.fst).Pairwise (fun c d => c.now ≤ d.now) ∧
        ∀ e ∈ asked ++ [(s.call tenantId, ok)], e.1.now ≤ t.keys.clock := by
    intro tenantId ok hcall
    refine ⟨exec_append.mpr ⟨_, hexec, exec_cons.mpr ⟨_, answered_eq_some.mpr hcall, rfl⟩⟩, ?_, ?_⟩
    · rw [List.map_append]
      refine List.pairwise_append.mpr ⟨hsort, List.pairwise_singleton _ _, fun c hc d hd => ?_⟩
      obtain ⟨e, he, rfl⟩ := List.mem_map.mp hc
      obtain rfl := List.mem_singleton.mp hd
      exact hpast e he
    · exact List.forall_mem_append.mpr ⟨hpast', List.forall_mem_singleton.mpr hclock⟩
  cases h with
  | not hlimiter hpasses => exact ⟨asked, hlimiter ▸ hexec, hsort, hpast', hpasses ▸ hsub⟩
  | refused tenantId ok hcall hpasses =>
    obtain ⟨hexec', hsort', hpast'⟩ := hnext tenantId ok hcall
    exact ⟨_, hexec', hsort', hpast', hpasses ▸ hsub.trans (List.sublist_append_left _ _).subperm⟩
  | passed tenantId hcall hpasses =>
    obtain ⟨hexec', hsort', hpast'⟩ := hnext tenantId true hcall
    refine ⟨_, hexec', hsort', hpast', ?_⟩
    have hcons : (pass (s.keys.clock, tenantId) :: s.passes.map pass).Subperm
        (pass (s.keys.clock, tenantId) :: asked) := (List.subperm_cons _).mpr hsub
    exact ((hpasses.map pass).subperm.trans hcons).trans (List.perm_append_singleton _ _).symm.subperm

/-- Every record bills a completion that was sent to a node and waits no more, each a different one. -/
structure Booked (s : Desk κ τ) : Prop where
  bills : ∀ row ∈ s.accounting.store.working.usage, Bills row
  kept : s.accounting.store.committed.usage <+: s.accounting.store.working.usage
  once : (s.accounting.store.working.usage.map Prod.snd ++ s.inFlight.map Prod.fst).Subperm s.dispatched

/-- Saving an account leaves the records as they are, up to what is rolled back. -/
theorem recordHostContribution_usage (a : Accounting γ) (node : Host) (duration now : ℚ) (hlives : landing.dies = false)
    (hkept : a.store.committed.usage <+: a.store.working.usage) :
    let b := a.recordHostContribution node duration now landing
    b.store.committed.usage <+: b.store.working.usage ∧ b.store.working.usage <+: a.store.working.usage := by
  unfold Accounting.recordHostContribution
  dsimp only
  rw [Accounting.after_alive _ hlives]
  cases landing with
  | committed => exact ⟨List.prefix_rfl, List.prefix_rfl⟩
  | refused => exact ⟨hkept, List.prefix_rfl⟩
  | unfinished => exact ⟨hkept, List.prefix_rfl⟩
  | rolledBack => exact ⟨List.prefix_rfl, hkept⟩
  | diedBefore => cases hlives
  | diedAfter => cases hlives

/-- Metering adds the record of the charge, or none. -/
theorem meter_usage (a : Accounting γ) (c : Charge) (clock : Readings) (note : γ) (hfirst : first.dies = false)
    (hsecond : second.dies = false) (hkept : a.store.committed.usage <+: a.store.working.usage) :
    let b := a.meter c clock note first second
    b.store.committed.usage <+: b.store.working.usage ∧
      (b.store.working.usage <+: a.store.working.usage ∨
        ∃ u, c.usage clock = some u ∧ b.store.working.usage <+: a.store.working.usage ++ [(u, note)]) := by
  unfold Accounting.meter
  dsimp only
  split
  · exact ⟨hkept, .inl List.prefix_rfl⟩
  · rename_i u hu
    have hlives := u.landing_dies hfirst
    generalize u.landing first = first at hlives ⊢
    have hrecord : (a.record u note first).store.committed.usage <+: (a.record u note first).store.working.usage ∧
        (a.record u note first).store.working.usage <+: a.store.working.usage ++ [(u, note)] := by
      rw [Accounting.record, Accounting.after_alive _ hlives]
      have hnew : a.store.working.usage <+: a.store.working.usage ++ [(u, note)] := List.prefix_append _ _
      cases first with
      | committed => exact ⟨List.prefix_rfl, List.prefix_rfl⟩
      | refused => exact ⟨hkept, hnew⟩
      | unfinished => exact ⟨hkept.trans hnew, List.prefix_rfl⟩
      | rolledBack => exact ⟨List.prefix_rfl, hkept.trans hnew⟩
      | diedBefore => cases hlives
      | diedAfter => cases hlives
    split
    · obtain ⟨hk, hp⟩ := recordHostContribution_usage (a.record u note first) c.node (c.duration clock) clock.updatedAt
        hsecond hrecord.1
      exact ⟨hk, .inr ⟨u, hu, hp.trans hrecord.2⟩⟩
    · exact ⟨hrecord.1, .inr ⟨u, hu, hrecord.2⟩⟩

theorem bills_of_usage {d : Dispatch} (h : (d.request.charge tokens ok).usage clock = some u) : Bills (u, d) := by
  unfold Charge.usage at h
  split at h
  · rename_i tenantId htenant
    cases h
    exact ⟨rfl, htenant.symm, rfl, rfl, rfl⟩
  · cases h

/-- A completion that comes to its end leaves one record of itself, or none. -/
theorem metered_usage (a : Accounting Dispatch) (d : Dispatch) (py : Builtins) (route : Route) (b : Behaviour)
    (clock : Readings) (hfirst : first.dies = false) (hsecond : second.dies = false)
    (hkept : a.store.committed.usage <+: a.store.working.usage) :
    let t := (tryChatCompletion py d.request route b).metered a clock d first second
    t.store.committed.usage <+: t.store.working.usage ∧
      ∃ more : List UsageRecord, more.length ≤ 1 ∧ (∀ u ∈ more, Bills (u, d)) ∧
        t.store.working.usage <+: a.store.working.usage ++ more.map (·, d) := by
  have hnone : a.store.working.usage <+: a.store.working.usage ++ ([] : List UsageRecord).map (·, d) :=
    List.prefix_append _ _
  unfold Ended.metered
  cases hcharge : (tryChatCompletion py d.request route b).charge with
  | none => exact ⟨hkept, [], Nat.zero_le _, fun u hu => absurd hu List.not_mem_nil, hnone⟩
  | some c =>
    obtain ⟨tokens, ok, rfl⟩ : ∃ tokens ok, c = d.request.charge tokens ok := by
      unfold tryChatCompletion at hcharge
      split at hcharge
      · cases hcharge
      · obtain ⟨tokens, ok, hc, _⟩ := Recording.charge_succeeded hcharge
        exact ⟨tokens, ok, hc⟩
    obtain ⟨hk, hrows | ⟨u, hu, hrows⟩⟩ :=
      meter_usage a (d.request.charge tokens ok) clock d hfirst hsecond hkept
    · exact ⟨hk, [], Nat.zero_le _, fun u hu => absurd hu List.not_mem_nil, hrows.trans hnone⟩
    · exact ⟨hk, [u], le_rfl, List.forall_mem_singleton.mpr (bills_of_usage hu), hrows⟩

/-- Nothing but the books and the queue changes when a completion ends. -/
theorem finish_frame (h : s.finish num i b clock first second = some t) :
    t.keys = s.keys ∧ t.gate = s.gate ∧ t.passes = s.passes ∧ t.dispatched = s.dispatched := by
  unfold Desk.finish at h
  split at h
  · cases h
  · split at h
    · cases h
    · cases h
      exact ⟨rfl, rfl, rfl, rfl⟩

theorem finish_booked (h : s.finish num i b clock first second = some t) (hs : Booked s) : Booked t := by
  unfold Desk.finish at h
  split at h
  · cases h
  · rename_i d route hd
    split at h
    · cases h
    · rename_i hlives
      obtain ⟨hfirst, hsecond⟩ := Bool.or_eq_false_iff.mp (Bool.eq_false_iff.mpr hlives)
      cases h
      obtain ⟨hbills, hkept, honce⟩ := hs
      obtain ⟨hkept', more, hlen, hmore, hrows⟩ :=
        metered_usage s.accounting d num.py route b clock hfirst hsecond hkept
      refine ⟨fun row hrow => ?_, hkept', ?_⟩
      · rcases List.mem_append.mp (hrows.subset hrow) with hold | hnew
        · exact hbills row hold
        · obtain ⟨u, hu, rfl⟩ := List.mem_map.mp hnew
          exact hmore u hu
      · -- what is finished makes room for its record
        have hroom : ((more.map (·, d)).map Prod.snd ++ (s.inFlight.eraseIdx i).map Prod.fst).Subperm
            (s.inFlight.map Prod.fst) := by
          obtain ⟨hi, hget⟩ := List.getElem?_eq_some_iff.mp hd
          have hperm := (List.getElem_cons_eraseIdx_perm hi).map Prod.fst
          rw [hget, List.map_cons] at hperm
          have hone : ((more.map (·, d)).map Prod.snd).Sublist [d] := by
            match more, hlen with
            | [], _ => exact List.nil_sublist _
            | [u], _ => exact List.Sublist.refl _
          exact (hone.append (List.Sublist.refl _)).subperm.trans hperm.subperm
        refine (((hrows.sublist.map Prod.snd).append (List.Sublist.refl _)).subperm.trans ?_).trans honce
        rw [List.map_append, List.append_assoc]
        exact (List.subperm_append_left _).mpr hroom

theorem step_granted (hideal : jwt.Ideal) (h : step num sha256 jwt capitalize settings s a = some t)
    (hs : Granted capacity rate idle s ∧ Booked s) : Granted capacity rate idle t ∧ Booked t := by
  obtain ⟨hg, hb⟩ := hs
  cases a with
  | keys a =>
    obtain ⟨keys, hkeys, rfl⟩ := Option.map_eq_some_iff.mp h
    exact ⟨Asks.granted (s := s) (.not rfl rfl) (keys_clock hkeys) hg, hb.bills, hb.kept, hb.once⟩
  | cluster registry canary =>
    cases h
    exact ⟨Asks.granted (s := s) (.not rfl rfl) le_rfl hg, hb.bills, hb.kept, hb.once⟩
  | request authorization req taskId startedAt =>
    obtain rfl := Option.some.inj h
    obtain ⟨hasks, hkeys, hbooks, hqueue⟩ := chat_spec num sha256 capitalize settings hideal s authorization req
      taskId startedAt
    refine ⟨hasks.granted (le_of_eq (congrArg _ hkeys.symm)) hg, by rw [hbooks]; exact hb.bills,
      by rw [hbooks]; exact hb.kept, ?_⟩
    rcases hqueue with ⟨hflight, hsent⟩ | ⟨d, route, hflight, hsent, _⟩
    · rw [hbooks, hflight, hsent]
      exact hb.once
    · rw [hbooks, hflight, hsent, List.map_cons]
      exact List.perm_middle.subperm.trans ((List.subperm_cons d).mpr hb.once)
  | submit authorization task =>
    obtain rfl := Option.some.inj h
    obtain ⟨hasks, hkeys, hbooks, hflight, hsent⟩ := submit_spec num sha256 jwt s authorization task
    refine ⟨hasks.granted (le_of_eq (congrArg _ hkeys.symm)) hg, by rw [hbooks]; exact hb.bills,
      by rw [hbooks]; exact hb.kept, ?_⟩
    rw [hbooks, hflight, hsent]
    exact hb.once
  | finish i b clock first second =>
    obtain ⟨hkeys, hgate, hpasses, _⟩ := finish_frame h
    exact ⟨Asks.granted (.not (congrArg _ hgate) hpasses) (le_of_eq (congrArg _ hkeys.symm)) hg, finish_booked h hb⟩

theorem run_granted (hideal : jwt.Ideal)
    (h : exec (step num sha256 jwt capitalize settings) (start d clock capacity rate idle registry canary) acts =
      some t) : Granted capacity rate idle t ∧ Booked t := by
  refine exec_invariant (I := fun s => Granted capacity rate idle s ∧ Booked s)
    (fun _ _ _ hs ht => step_granted hideal ht hs) ⟨?_, ?_⟩ h
  · exact ⟨[], rfl, List.Pairwise.nil, fun e he => absurd he List.not_mem_nil, List.Subperm.refl _⟩
  · exact ⟨fun row hrow => absurd hrow List.not_mem_nil, List.prefix_rfl, List.Subperm.refl _⟩

/-- What is sent to nodes is sent lawfully. -/
theorem step_lawful (hideal : jwt.Ideal) (h : step num sha256 jwt capitalize settings s a = some t) :
    t.dispatched = s.dispatched ∨ ∃ d, t.dispatched = d :: s.dispatched ∧ s.Lawful jwt d := by
  cases a with
  | keys a =>
    obtain ⟨keys, _, rfl⟩ := Option.map_eq_some_iff.mp h
    exact .inl rfl
  | cluster registry canary =>
    cases h
    exact .inl rfl
  | request authorization req taskId startedAt =>
    obtain rfl := Option.some.inj h
    obtain ⟨_, _, _, ⟨_, hsent⟩ | ⟨d, _, _, hsent, hlawful⟩⟩ := chat_spec num sha256 capitalize settings hideal s
      authorization req taskId startedAt
    · exact .inl hsent
    · exact .inr ⟨d, hsent, hlawful⟩
  | submit authorization task =>
    obtain rfl := Option.some.inj h
    exact .inl (submit_spec num sha256 jwt s authorization task).2.2.2.2
  | finish i b clock first second =>
    obtain ⟨_, _, _, hsent⟩ := finish_frame h
    exact .inl hsent

/-- What passed for a tenant was granted to its key. -/
theorem Granted.passed_le (h : Granted capacity rate idle s) (hcap : 0 ≤ capacity) (hrate : 0 ≤ rate)
    (tenantId : Text) (h₁₂ : t₁ ≤ t₂) : (s.passed tenantId t₁ t₂ : ℚ) ≤ capacity + rate * (t₂ - t₁) := by
  obtain ⟨asked, hexec, hsort, _, hsub⟩ := h
  refine le_trans (Nat.cast_le.mpr ?_) (answered_granted hcap hrate hexec hsort (tenantKey tenantId) h₁₂)
  have hcount := hsub.countP_le fun e : AcquireCall × Bool =>
    decide (e.1.tenant = tenantKey tenantId) && (e.2 && decide (t₁ ≤ e.1.now) && decide (e.1.now ≤ t₂))
  rw [List.countP_map] at hcount
  rw [TokenBucketLimiter.granted, TokenBucketLimiter.of, List.countP_filter, Desk.passed]
  refine (le_of_eq (List.countP_congr fun p _ => ?_)).trans (hcount.trans (le_of_eq (List.countP_congr fun e _ => ?_)))
  · change _ ↔ (decide (tenantKey p.2 = tenantKey tenantId) && (true && decide (t₁ ≤ p.1) && decide (p.1 ≤ t₂))) = true
    simp only [tenantKey_injective.eq_iff, Bool.true_and, Bool.and_assoc]
  · rw [Bool.and_comm]

end

/-- Over every run on a clock that does not go back, whatever the tokens, keys, nodes and clients do: a completion is
sent to a node only for a live token of an active key, and to a registered node that is not quarantined and offers the
model it names, if it names one; over no interval does more get past for a tenant than the limiter's terms allow,
completions and submitted tasks together; and every usage record bills a completion that was sent for that tenant to
that node, no two of them the same one. -/
theorem front_door (num : Numbers ν) (sha256 : Bytes → Bytes) (jwt : Jwt κ) (hideal : jwt.Ideal)
    (capitalize : Text → Text) (settings : GatewaySettings) (deployment : Deployment κ) (clock capacity rate idle : ℚ)
    (hcap : 0 ≤ capacity) (hrate : 0 ≤ rate) (registry : NodeRegistry) (canary : CanaryVerifier τ)
    (acts : List (Act κ τ)) (s : Desk κ τ)
    (hr : exec (step num sha256 jwt capitalize settings) (start deployment clock capacity rate idle registry canary)
      acts = some s) :
    (∀ a t, step num sha256 jwt capitalize settings s a = some t →
        t.dispatched = s.dispatched ∨ ∃ d, t.dispatched = d :: s.dispatched ∧ s.Lawful jwt d) ∧
      (∀ tenantId t₁ t₂, t₁ ≤ t₂ → (s.passed tenantId t₁ t₂ : ℚ) ≤ capacity + rate * (t₂ - t₁)) ∧
      (∀ row ∈ s.accounting.store.working.usage, Bills row) ∧
      (s.accounting.store.working.usage.map Prod.snd ++ s.inFlight.map Prod.fst).Subperm s.dispatched := by
  obtain ⟨hgranted, hbooked⟩ := run_granted hideal hr
  exact ⟨fun a t ht => step_lawful hideal ht,
    fun tenantId t₁ t₂ h₁₂ => hgranted.passed_le hcap hrate tenantId h₁₂, hbooked.bills, hbooked.once⟩

section

/-- Nothing goes over the mesh. -/
def plainGateway : GatewaySettings := ⟨false, none, false, none, 8000⟩

def oneNode : NodeRegistry := (NodeRegistry.empty.localRegister (Durable.sampleNode (text "n1"))).getD .empty

def helloBehaviour : Behaviour :=
  ⟨⟨[], false, 0⟩, .ok (some (.obj [(text "response", .str (text "hello"))])), .raised, .stays⟩

/-- A tenant gets a token, asks for a completion with it, and is answered. -/
def busyRun : List (Act Bool Unit) :=
  [.keys (.issue developer),
    .request (bearer spelling oldToken) ⟨text "llama3:8b", [⟨text "user", text "Hi"⟩], false, false, none⟩
      (text "chatcmpl-1") 0,
    .finish 0 helloBehaviour ⟨1, 1, 1⟩ .committed .committed]

def busyDesk : Option (Desk Bool Unit) :=
  exec (step exactNumbers (fun _ => []) spelling id plainGateway) (start oldKey 0 5 (1 / 2) 600 oneNode (.new none))
    busyRun

/-- The completion got past, and was billed. -/
theorem front_door_busy :
    ∃ s, busyDesk = some s ∧ s.dispatched.length = 1 ∧ s.accounting.store.working.usage.length = 1 ∧
      (∀ tenantId t₁ t₂, t₁ ≤ t₂ → (s.passed tenantId t₁ t₂ : ℚ) ≤ 5 + 1 / 2 * (t₂ - t₁)) ∧
      ∀ row ∈ s.accounting.store.working.usage, Bills row := by
  have hrun : busyDesk.map (fun s => (s.dispatched.length, s.accounting.store.working.usage.length)) =
      some (1, 1) := by
    decide +kernel
  obtain ⟨s, hs, hcounts⟩ := Option.map_eq_some_iff.mp hrun
  obtain ⟨hsent, hbilled⟩ := Prod.mk.inj hcounts
  obtain ⟨_, hpassed, hbills, _⟩ := front_door exactNumbers (fun _ => []) spelling spelling_ideal id plainGateway oldKey
    0 5 (1 / 2) 600 (by norm_num) (by norm_num) oneNode (.new none) busyRun s hs
  exact ⟨s, hs, hsent, hbilled, hpassed, hbills⟩

end
end PublicIntelligence.System.FrontDoor
