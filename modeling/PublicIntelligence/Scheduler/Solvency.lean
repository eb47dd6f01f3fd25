import PublicIntelligence.Lib.Runs
import PublicIntelligence.Scheduler.RateLimiter

namespace PublicIntelligence.Scheduler.TokenBucketLimiter
open Runs
open Bucket (Account)

/-- What happens to a limiter, each time with a reading of the clock that may lie anywhere. -/
inductive Op where
  | acquire (c : AcquireCall)
  | evictIdle (now : ℚ)
deriving DecidableEq

def step : Step TokenBucketLimiter Op := fun l op =>
  match op with
  | .acquire c => (l.acquire c).map Prod.snd
  | .evictIdle now => some (l.evictIdle now)

/-- No bucket owes tokens, and none holds more than there is room for. -/
def InRange (l : TokenBucketLimiter) : Prop :=
  ∀ tenant tokens, l.buckets.get? tenant = some tokens → 0 ≤ tokens ∧ tokens ≤ l.capacity

/-- The clock has not gone back by more than the tenant's tokens make up for. -/
def Solvent (l : TokenBucketLimiter) : Op → Prop
  | .acquire c => ∀ tokens since, l.buckets.get? c.tenant = some tokens →
      l.lastUpdated.get? c.tenant = some since → 0 ≤ tokens + (c.now - since) * l.refillRate
  | .evictIdle _ => True

section
variable {l l' m : TokenBucketLimiter}

theorem inRange_iff (h : l.Paired) :
    l.InRange ↔ ∀ u a, l.account u = some a → 0 ≤ a.tokens ∧ a.tokens ≤ l.terms.capacity := by
  constructor
  · intro hr u a ha
    exact hr u a.tokens (account_eq_some.mp ha).1
  · intro hr u tokens hb
    obtain ⟨since, -, ha⟩ := account_of_get? h hb
    exact hr u _ ha

/-- What is drawn from is no debt exactly if the call is solvent: a bucket that the sweep drops was full. -/
theorem level_nonneg_iff (hcap : 0 ≤ l.terms.capacity) (hf : Forgets c.now l m) :
    0 ≤ Bucket.level m.terms (m.account c.tenant) c.now ↔ l.Solvent (.acquire c) := by
  have hsolvent : l.Solvent (.acquire c) ↔ ∀ a, l.account c.tenant = some a → 0 ≤ a.refilled l.terms c.now := by
    constructor
    · intro h a ha
      obtain ⟨hb, hs⟩ := account_eq_some.mp ha
      exact h _ _ hb hs
    · intro h tokens since hb hs
      exact h ⟨tokens, since⟩ (account_eq_some.mpr ⟨hb, hs⟩)
  rw [hsolvent, hf.terms]
  rcases hf.account c.tenant with hsame | ⟨hnone, hfull⟩
  · rw [hsame]
    cases ha : l.account c.tenant with
    | none => exact iff_of_true hcap fun a h => by cases h
    | some a =>
      rw [Bucket.level_some, le_min_iff, and_iff_right hcap]
      exact ⟨fun h b hb => Option.some.inj hb ▸ h, fun h => h a rfl⟩
  · rw [hnone]
    exact iff_of_true hcap fun a ha => hcap.trans (hfull a ha)

theorem InRange.forget (h : l.InRange) (hp : l.Paired) (hf : Forgets now l m) : m.InRange := by
  rw [inRange_iff hf.paired, hf.terms]
  intro u a ha
  rcases hf.account u with hsame | ⟨hnone, _⟩
  · exact (inRange_iff hp).mp h u a (hsame.symm.trans ha)
  · cases hnone.symm.trans ha

/-- An acquire leaves every bucket in range exactly if the caller's was drawn from no debt. -/
theorem Draws.inRange_iff (hd : Draws m c ok l') (hm : m.InRange) (hp : m.Paired) :
    l'.InRange ↔ 0 ≤ Bucket.level m.terms (m.account c.tenant) c.now := by
  rw [TokenBucketLimiter.inRange_iff hd.paired, hd.terms, ← Bucket.draw_nonneg]
  constructor
  · intro h
    exact (h c.tenant _ (by rw [hd.account, if_pos rfl])).1
  · intro h u a ha
    rw [hd.account] at ha
    split at ha
    · rw [← Option.some.inj ha]
      exact ⟨h, Bucket.draw_le _ _ _⟩
    · exact (TokenBucketLimiter.inRange_iff hp).mp hm u a ha

theorem acquire_eq (h : l.Paired) (c : AcquireCall) :
    ∃ ok l', l.acquire c = some (ok, l') ∧ Draws (l.sweep c.now) c ok l' :=
  take_draws (forgets_sweep h c.now).paired c

/-- What the steps keep, in range or not. -/
structure Shaped (l : TokenBucketLimiter) : Prop where
  paired : l.Paired
  room : 0 ≤ l.terms.capacity

theorem step_total (h : l.Shaped) (op : Op) : ∃ l', step l op = some l' := by
  cases op with
  | acquire c =>
    obtain ⟨ok, l', hacquire, _⟩ := acquire_eq h.paired c
    exact ⟨l', congrArg (Option.map Prod.snd) hacquire⟩
  | evictIdle now => exact ⟨_, rfl⟩

theorem step_shaped (h : l.Shaped) (hl : step l op = some l') : l'.Shaped := by
  cases op with
  | acquire c =>
    obtain ⟨ok, l'', hacquire, hd⟩ := acquire_eq h.paired c
    have hsame : l'' = l' := Option.some.inj ((congrArg (Option.map Prod.snd) hacquire).symm.trans hl)
    subst hsame
    refine ⟨hd.paired, ?_⟩
    rw [hd.terms, (forgets_sweep h.paired c.now).terms]
    exact h.room
  | evictIdle now =>
    have hf := forgets_evictIdle h.paired now
    cases hl
    exact ⟨hf.paired, hf.terms ▸ h.room⟩

theorem step_inRange_iff (h : l.Shaped) (hr : l.InRange) (hl : step l op = some l') :
    l'.InRange ↔ l.Solvent op := by
  cases op with
  | acquire c =>
    obtain ⟨ok, l'', hacquire, hd⟩ := acquire_eq h.paired c
    have hsame : l'' = l' := Option.some.inj ((congrArg (Option.map Prod.snd) hacquire).symm.trans hl)
    subst hsame
    have hf := forgets_sweep h.paired c.now
    rw [hd.inRange_iff (hr.forget h.paired hf) hf.paired]
    exact level_nonneg_iff h.room hf
  | evictIdle now =>
    have hf := forgets_evictIdle h.paired now
    cases hl
    exact iff_of_true (hr.forget h.paired hf) trivial

theorem exec_total (h : l.Shaped) (ops : List Op) : ∃ l', exec step l ops = some l' := by
  induction ops generalizing l with
  | nil => exact ⟨l, rfl⟩
  | cons op ops ih =>
    obtain ⟨m, hm⟩ := step_total h op
    obtain ⟨l', hl'⟩ := ih (step_shaped h hm)
    exact ⟨l', exec_cons.mpr ⟨m, hm, hl'⟩⟩

end

/-- Whatever the clock does, every call is answered, and the buckets stay in range for as long as the
calls are solvent, and no longer. -/
theorem in_range_iff_solvent (capacity rate idle : ℚ) (hcap : 0 ≤ capacity) (ops : List Op) :
    (∃ l, exec step (init capacity rate idle) ops = some l) ∧
      (Throughout step InRange (init capacity rate idle) ops ↔
        Along step Solvent (init capacity rate idle) ops) := by
  have hshaped : (init capacity rate idle).Shaped := ⟨fun _ => Iff.rfl, hcap⟩
  have hempty : (init capacity rate idle).InRange := fun _ _ h => by cases h
  obtain ⟨l, hl⟩ := exec_total hshaped ops
  refine ⟨⟨l, hl⟩, ?_⟩
  exact throughout_iff_along (fun s a t h hs => step_shaped h hs)
    (fun s a t h hr hs => step_inRange_iff h hr hs) hshaped hempty hl

/-- Going back by five seconds costs two and a half of the four tokens that are left. -/
theorem in_range_after_small_step_back :
    (∃ l, exec step (init 5 (1 / 2) 600) [.acquire ⟨100, "a"⟩, .evictIdle 90, .acquire ⟨95, "a"⟩] = some l) ∧
      (Throughout step InRange (init 5 (1 / 2) 600) [.acquire ⟨100, "a"⟩, .evictIdle 90, .acquire ⟨95, "a"⟩] ↔
        Along step Solvent (init 5 (1 / 2) 600) [.acquire ⟨100, "a"⟩, .evictIdle 90, .acquire ⟨95, "a"⟩]) :=
  in_range_iff_solvent 5 (1 / 2) 600 (by norm_num) _

/-- The clock goes back by a hundred seconds between two calls, and the tenant owes forty-six tokens. -/
theorem backward_clock_makes_debt :
    ¬ ∀ (capacity rate idle : ℚ) (ops : List Op), 0 ≤ capacity → 0 ≤ rate →
      Throughout step InRange (init capacity rate idle) ops := by
  intro h
  have hrange := h 5 (1 / 2) 600 [.acquire ⟨100, "a"⟩, .acquire ⟨0, "a"⟩] (by norm_num) (by norm_num)
  have howes : (exec step (init 5 (1 / 2) 600) [.acquire ⟨100, "a"⟩, .acquire ⟨0, "a"⟩]).map
      (fun l => l.buckets.get? "a") = some (some (-46)) := by decide +kernel
  obtain ⟨l, hl, hb⟩ := Option.map_eq_some_iff.mp howes
  have hlow := (throughout_end hrange hl "a" (-46) hb).1
  norm_num at hlow

end PublicIntelligence.Scheduler.TokenBucketLimiter
