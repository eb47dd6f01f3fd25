import Mathlib.Data.Rat.Cast.Order
import Mathlib.Algebra.Order.Field.Rat
import PublicIntelligence.Lib.Bucket
import PublicIntelligence.Lib.Dict

namespace PublicIntelligence.Scheduler
open Bucket (Account Terms Stands Sound Drawn)

def sweepIntervalAcquisitions : Nat := 256

structure TokenBucketLimiter where
  capacity : ℚ
  refillRate : ℚ
  idleEvictionSeconds : ℚ
  buckets : Dict String ℚ
  lastUpdated : Dict String ℚ
  acquisitionsSinceSweep : Nat

/-- One call of `acquire`, at the time its clock reads under the lock. -/
structure AcquireCall where
  now : ℚ
  tenant : String
deriving DecidableEq

namespace TokenBucketLimiter

def init (capacity refillRate idleEvictionSeconds : ℚ) : TokenBucketLimiter :=
  ⟨capacity, refillRate, idleEvictionSeconds, .empty, .empty, 0⟩

/-- Whether the sweep drops the bucket: idle for long enough, and full by now. -/
def stale (l : TokenBucketLimiter) (now : ℚ) (tenant : String) (tokens : ℚ) : Bool :=
  let idleFor := now - (l.lastUpdated.get? tenant).getD now
  if idleFor < l.idleEvictionSeconds then false
  else decide (l.capacity ≤ min l.capacity (tokens + idleFor * l.refillRate))

def drop (l : TokenBucketLimiter) (tenant : String) : TokenBucketLimiter :=
  { l with buckets := l.buckets.pop tenant, lastUpdated := l.lastUpdated.pop tenant }

def evictIdle (l : TokenBucketLimiter) (now : ℚ) : TokenBucketLimiter :=
  ((l.buckets.entries.filter fun e => l.stale now e.1 e.2).map Prod.fst).foldl drop l

/-- Every acquisition is counted, and each 256th sweeps first. -/
def sweep (l : TokenBucketLimiter) (now : ℚ) : TokenBucketLimiter :=
  let counted := { l with acquisitionsSinceSweep := l.acquisitionsSinceSweep + 1 }
  if sweepIntervalAcquisitions ≤ counted.acquisitionsSinceSweep then
    evictIdle { counted with acquisitionsSinceSweep := 0 } now
  else counted

def openBucket (l : TokenBucketLimiter) (c : AcquireCall) : TokenBucketLimiter :=
  if c.tenant ∈ l.buckets then l
  else { l with buckets := l.buckets.set c.tenant l.capacity, lastUpdated := l.lastUpdated.set c.tenant c.now }

/-- What follows the sweep. `none` is a `KeyError`. -/
def take (l : TokenBucketLimiter) (c : AcquireCall) : Option (Bool × TokenBucketLimiter) := do
  let l := l.openBucket c
  let last ← l.lastUpdated.get? c.tenant
  let stored ← l.buckets.get? c.tenant
  let tokens := min l.capacity (stored + (c.now - last) * l.refillRate)
  let l := { l with buckets := l.buckets.set c.tenant tokens, lastUpdated := l.lastUpdated.set c.tenant c.now }
  if 1 ≤ tokens then some (true, { l with buckets := l.buckets.set c.tenant (tokens - 1) })
  else some (false, l)

def acquire (l : TokenBucketLimiter) (c : AcquireCall) : Option (Bool × TokenBucketLimiter) :=
  (l.sweep c.now).take c

/-- The limiter that never evicts: `acquire` with the sweep left out. -/
def acquireKeeping (l : TokenBucketLimiter) (c : AcquireCall) : Option (Bool × TokenBucketLimiter) := l.take c

/-- Calls one after the other, as the lock orders them, each with its answer. -/
def serve (acquire : TokenBucketLimiter → AcquireCall → Option (Bool × TokenBucketLimiter))
    (l : TokenBucketLimiter) : List AcquireCall → Option (List (AcquireCall × Bool))
  | [] => some []
  | c :: cs => do
    let (ok, l) ← acquire l c
    let answers ← serve acquire l cs
    some ((c, ok) :: answers)

def of (tenant : String) (answers : List (AcquireCall × Bool)) : List (AcquireCall × Bool) :=
  answers.filter fun e => e.1.tenant = tenant

/-- What a tenant sees of its own calls. -/
def seen (tenant : String) (answers : List (AcquireCall × Bool)) : List Bool :=
  (of tenant answers).map Prod.snd

/-- The acquires granted to a tenant from `t₁` to `t₂`, both included. -/
def granted (tenant : String) (t₁ t₂ : ℚ) (answers : List (AcquireCall × Bool)) : ℕ :=
  (of tenant answers).countP fun e => e.2 && decide (t₁ ≤ e.1.now) && decide (e.1.now ≤ t₂)

def terms (l : TokenBucketLimiter) : Terms ℚ := ⟨l.capacity, l.refillRate⟩

def account (l : TokenBucketLimiter) (tenant : String) : Option (Account ℚ) := do
  let tokens ← l.buckets.get? tenant
  let since ← l.lastUpdated.get? tenant
  some ⟨tokens, since⟩

/-- The two maps have the same keys. -/
def Paired (l : TokenBucketLimiter) : Prop := ∀ tenant, tenant ∈ l.buckets ↔ tenant ∈ l.lastUpdated

/-- Every bucket was left by a draw that happened before `now`. -/
structure Kept (l : TokenBucketLimiter) (now : ℚ) : Prop where
  paired : l.Paired
  drawn : ∀ tenant a, l.account tenant = some a → Drawn l.terms a ∧ a.since ≤ now

theorem Kept.mono {l : TokenBucketLimiter} (h : l.Kept now) (hle : now ≤ now') : l.Kept now' :=
  ⟨h.paired, fun tenant a ha => ⟨(h.drawn tenant a ha).1, (h.drawn tenant a ha).2.trans hle⟩⟩

theorem kept_init (capacity refillRate idle now : ℚ) : (init capacity refillRate idle).Kept now :=
  ⟨fun _ => Iff.rfl, fun _ _ h => nomatch h⟩

theorem account_eq_some {l : TokenBucketLimiter} :
    l.account tenant = some a ↔
      l.buckets.get? tenant = some a.tokens ∧ l.lastUpdated.get? tenant = some a.since := by
  unfold account
  cases hb : l.buckets.get? tenant with
  | none => simp
  | some tokens =>
    cases hs : l.lastUpdated.get? tenant with
    | none => simp
    | some since =>
      obtain ⟨t, s⟩ := a
      simp

theorem account_of_get? {l : TokenBucketLimiter} (hp : l.Paired) (hb : l.buckets.get? tenant = some tokens) :
    ∃ since, l.lastUpdated.get? tenant = some since ∧ l.account tenant = some ⟨tokens, since⟩ := by
  obtain ⟨since, hs⟩ := Dict.mem_iff.mp ((hp tenant).mp (Dict.mem_iff.mpr ⟨tokens, hb⟩))
  exact ⟨since, hs, account_eq_some.mpr ⟨hb, hs⟩⟩

theorem account_eq_none {l : TokenBucketLimiter} (h : tenant ∉ l.buckets) : l.account tenant = none := by
  unfold account
  rw [Dict.not_mem_iff.mp h]
  rfl

section
variable {l : TokenBucketLimiter}

theorem account_drop (l : TokenBucketLimiter) (tenant u : String) :
    (l.drop tenant).account u = if tenant = u then none else l.account u := by
  unfold account drop
  simp only [Dict.get?_pop]
  split <;> rfl

theorem Paired.drop (h : l.Paired) (tenant : String) : (l.drop tenant).Paired := by
  intro u
  have hu := h u
  simp only [Dict.mem_iff] at hu ⊢
  unfold TokenBucketLimiter.drop
  simp only [Dict.get?_pop]
  split
  · simp
  · exact hu

theorem foldl_drop (ts : List String) (l : TokenBucketLimiter) :
    (ts.foldl drop l).terms = l.terms ∧ (l.Paired → (ts.foldl drop l).Paired) ∧
      ∀ u, (ts.foldl drop l).account u = if u ∈ ts then none else l.account u := by
  induction ts generalizing l with
  | nil => exact ⟨rfl, id, fun u => (if_neg List.not_mem_nil).symm⟩
  | cons t ts ih =>
    obtain ⟨hterms, hpaired, hacc⟩ := ih (l.drop t)
    refine ⟨hterms, fun hp => hpaired (hp.drop t), fun u => ?_⟩
    rw [List.foldl_cons, hacc, account_drop]
    by_cases hu : u = t
    · subst hu
      simp
    · simp [hu, Ne.symm hu]

/-- The sweep drops a bucket only if it is full, whatever the threshold. -/
theorem stale_full (hs : l.lastUpdated.get? tenant = some since) (h : l.stale now tenant tokens = true) :
    l.terms.capacity ≤ Account.refilled l.terms ⟨tokens, since⟩ now := by
  unfold stale at h
  rw [hs] at h
  simp only [Option.getD_some] at h
  split at h
  · cases h
  · exact (le_min_iff.mp (of_decide_eq_true h)).2

/-- `l'` is `l` with some buckets dropped, each of them full at `now`. -/
structure Forgets (now : ℚ) (l l' : TokenBucketLimiter) : Prop where
  terms : l'.terms = l.terms
  paired : l'.Paired
  account : ∀ u, l'.account u = l.account u ∨
    l'.account u = none ∧ ∀ a, l.account u = some a → l.terms.capacity ≤ a.refilled l.terms now

theorem forgets_evictIdle (h : l.Paired) (now : ℚ) : Forgets now l (l.evictIdle now) := by
  obtain ⟨hterms, hpaired, hacc⟩ :=
    foldl_drop ((l.buckets.entries.filter fun e => l.stale now e.1 e.2).map Prod.fst) l
  refine ⟨hterms, hpaired h, fun u => ?_⟩
  rw [evictIdle, hacc]
  split
  · rename_i hu
    refine .inr ⟨rfl, fun a ha => ?_⟩
    obtain ⟨⟨_, tokens⟩, hmem, rfl⟩ := List.mem_map.mp hu
    obtain ⟨hentry, hstale⟩ := List.mem_filter.mp hmem
    obtain ⟨since, hs, ha'⟩ := account_of_get? h (Dict.get?_eq_some.mpr hentry)
    rw [ha'] at ha
    exact Option.some.inj ha ▸ stale_full hs hstale
  · exact .inl rfl

theorem forgets_sweep (h : l.Paired) (now : ℚ) : Forgets now l (l.sweep now) := by
  by_cases hdue : sweepIntervalAcquisitions ≤ l.acquisitionsSinceSweep + 1
  · have hsweep : l.sweep now = evictIdle { l with acquisitionsSinceSweep := 0 } now := if_pos hdue
    have hforgets := forgets_evictIdle (l := { l with acquisitionsSinceSweep := 0 }) h now
    rw [hsweep]
    exact ⟨hforgets.terms, hforgets.paired, hforgets.account⟩
  · have hsweep : l.sweep now = { l with acquisitionsSinceSweep := l.acquisitionsSinceSweep + 1 } := if_neg hdue
    rw [hsweep]
    exact ⟨rfl, h, fun u => .inl rfl⟩

/-- A bucket that was kept until `now` may be forgotten. -/
theorem Kept.forget {l' : TokenBucketLimiter} (h : l.Kept now) (hf : Forgets now l l') :
    l'.Kept now ∧ ∀ u, Stands l.terms now (l'.account u) (l.account u) := by
  refine ⟨⟨hf.paired, fun u a ha => ?_⟩, fun u => ?_⟩
  · rw [hf.terms]
    rcases hf.account u with hsame | ⟨hnone, _⟩
    · exact h.drawn u a (hsame.symm.trans ha)
    · cases hnone.symm.trans ha
  · rcases hf.account u with hsame | ⟨hnone, hfull⟩
    · rw [hsame]
      exact Stands.refl _ _ _
    · rw [hnone]
      cases ha : l.account u with
      | none => exact Stands.refl _ _ _
      | some a =>
        obtain ⟨hdrawn, hle⟩ := h.drawn u a ha
        exact hdrawn.forget hle (hfull a ha)

theorem Paired.set (h : l.Paired) (tenant : String) (tokens now : ℚ) :
    Paired { l with buckets := l.buckets.set tenant tokens, lastUpdated := l.lastUpdated.set tenant now } := by
  intro u
  have hu := h u
  simp only [Dict.mem_iff] at hu ⊢
  simp only [Dict.get?_set]
  split
  · simp
  · exact hu

theorem account_set (l : TokenBucketLimiter) (tenant : String) (tokens now : ℚ) (u : String) :
    account { l with buckets := l.buckets.set tenant tokens, lastUpdated := l.lastUpdated.set tenant now } u =
      if tenant = u then some ⟨tokens, now⟩ else l.account u := by
  unfold account
  simp only [Dict.get?_set]
  split <;> rfl

/-- `l'` is `l` after one draw on the account of the call. -/
structure Draws (l : TokenBucketLimiter) (c : AcquireCall) (ok : Bool) (l' : TokenBucketLimiter) : Prop where
  answer : ok = (Bucket.draw l.terms (l.account c.tenant) c.now).1
  terms : l'.terms = l.terms
  paired : l'.Paired
  account : ∀ u, l'.account u =
    if c.tenant = u then some (Bucket.draw l.terms (l.account c.tenant) c.now).2 else l.account u

/-- A new bucket is opened full, and drawn from at once. -/
theorem openBucket_spec (h : l.Paired) (c : AcquireCall) :
    ∃ a, (l.openBucket c).account c.tenant = some a ∧ (l.openBucket c).terms = l.terms ∧
      (l.openBucket c).Paired ∧ Bucket.level l.terms (some a) c.now = Bucket.level l.terms (l.account c.tenant) c.now ∧
      ∀ u, c.tenant ≠ u → (l.openBucket c).account u = l.account u := by
  unfold openBucket
  split
  · rename_i hmem
    obtain ⟨tokens, hb⟩ := Dict.mem_iff.mp hmem
    obtain ⟨since, -, ha⟩ := account_of_get? h hb
    exact ⟨_, ha, rfl, h, by rw [ha], fun u _ => rfl⟩
  · rename_i hmem
    refine ⟨⟨l.capacity, c.now⟩, by rw [account_set, if_pos rfl], rfl, h.set _ _ _, ?_, fun u hu => ?_⟩
    · rw [account_eq_none hmem, Bucket.level_some]
      simp [Account.refilled, Bucket.level, TokenBucketLimiter.terms]
    · rw [account_set, if_neg hu]

theorem take_draws (h : l.Paired) (c : AcquireCall) : ∃ ok l', l.take c = some (ok, l') ∧ Draws l c ok l' := by
  obtain ⟨a, ha, hterms, hpaired, hlevel, hother⟩ := openBucket_spec h c
  obtain ⟨hb, hs⟩ := account_eq_some.mp ha
  have hcap : (l.openBucket c).capacity = l.terms.capacity := congrArg Terms.capacity hterms
  have hrate : (l.openBucket c).refillRate = l.terms.rate := congrArg Terms.rate hterms
  have htokens : min (l.openBucket c).capacity (a.tokens + (c.now - a.since) * (l.openBucket c).refillRate) =
      Bucket.level l.terms (l.account c.tenant) c.now := by
    rw [hcap, hrate, ← hlevel]
    rfl
  unfold take
  simp only [hs, hb, Option.bind_eq_bind, Option.bind_some, htokens]
  by_cases hone : 1 ≤ Bucket.level l.terms (l.account c.tenant) c.now
  · have hdraw : Bucket.draw l.terms (l.account c.tenant) c.now =
        (true, ⟨Bucket.level l.terms (l.account c.tenant) c.now - 1, c.now⟩) := if_pos hone
    rw [if_pos hone, Dict.set_set]
    refine ⟨true, _, rfl, by rw [hdraw], hterms, hpaired.set _ _ _, fun u => ?_⟩
    rw [account_set, hdraw]
    split
    · rfl
    · rename_i hu
      exact hother u hu
  · have hdraw : Bucket.draw l.terms (l.account c.tenant) c.now =
        (false, ⟨Bucket.level l.terms (l.account c.tenant) c.now, c.now⟩) := if_neg hone
    rw [if_neg hone]
    refine ⟨false, _, rfl, by rw [hdraw], hterms, hpaired.set _ _ _, fun u => ?_⟩
    rw [account_set, hdraw]
    split
    · rfl
    · rename_i hu
      exact hother u hu

theorem Draws.kept (h : Draws l c ok l') (hk : l.Kept c.now) : l'.Kept c.now := by
  refine ⟨h.paired, fun u a ha => ?_⟩
  rw [h.account] at ha
  rw [h.terms]
  split at ha
  · obtain rfl := Option.some.inj ha
    exact ⟨Bucket.draw_drawn _ _ _, (Bucket.draw_since _ _ _).le⟩
  · exact hk.drawn u a ha

/-- A limiter that answers by drawing on accounts of which it may first forget some that are full. -/
def Serves (acquire : TokenBucketLimiter → AcquireCall → Option (Bool × TokenBucketLimiter)) : Prop :=
  ∀ l c, l.Kept c.now → ∃ m ok l', acquire l c = some (ok, l') ∧ Draws m c ok l' ∧ m.Kept c.now ∧
    m.terms = l.terms ∧ ∀ u, Stands l.terms c.now (m.account u) (l.account u)

theorem acquire_serves : Serves acquire := by
  intro l c hk
  have hforgets := forgets_sweep hk.paired c.now
  obtain ⟨hkept, hstands⟩ := hk.forget hforgets
  obtain ⟨ok, l', htake, hdraws⟩ := take_draws hkept.paired c
  exact ⟨l.sweep c.now, ok, l', htake, hdraws, hkept, hforgets.terms, hstands⟩

theorem acquireKeeping_serves : Serves acquireKeeping := by
  intro l c hk
  obtain ⟨ok, l', htake, hdraws⟩ := take_draws hk.paired c
  exact ⟨l, ok, l', htake, hdraws, hk, rfl, fun u => Stands.refl _ _ _⟩

theorem serve_cons : serve acq l (c :: cs) = some answers ↔
    ∃ ok l' rest, acq l c = some (ok, l') ∧ serve acq l' cs = some rest ∧ (c, ok) :: rest = answers := by
  simp [serve, Option.bind_eq_some_iff]

theorem serve_calls (h : serve acq l cs = some answers) : answers.map Prod.fst = cs := by
  induction cs generalizing l answers with
  | nil =>
    cases h
    rfl
  | cons c cs ih =>
    obtain ⟨ok, l', rest, -, hrest, rfl⟩ := serve_cons.mp h
    exact congrArg (c :: ·) (ih hrest)

/-- Each tenant is answered from an account of its own, whoever else is served
and whatever is evicted in between. -/
theorem serve_spec (hacq : Serves acq) (hsort : cs.Pairwise fun c d => c.now ≤ d.now)
    (hk : ∀ c ∈ cs, l.Kept c.now) (o : String → Option (Account ℚ))
    (ho : ∀ c ∈ cs, ∀ u, Stands l.terms c.now (l.account u) (o u)) :
    ∃ answers, serve acq l cs = some answers ∧ ∀ u, (of u answers).map (fun e => (e.1.now, e.2)) =
      Bucket.log l.terms (o u) ((cs.filter fun c => c.tenant = u).map AcquireCall.now) := by
  induction cs generalizing l o with
  | nil => exact ⟨[], rfl, fun u => rfl⟩
  | cons c cs ih =>
    obtain ⟨hfirst, hrest⟩ := List.pairwise_cons.mp hsort
    obtain ⟨m, ok, l', hcall, hdraws, hkept, hterms, hstands⟩ := hacq l c (hk c List.mem_cons_self)
    have hforget : ∀ u, Stands l.terms c.now (m.account u) (o u) := fun u =>
      (hstands u).trans (ho c List.mem_cons_self u)
    have hterms' : l'.terms = l.terms := hdraws.terms.trans hterms
    have hok : ok = (Bucket.draw l.terms (o c.tenant) c.now).1 := by
      rw [hdraws.answer, hterms, (hforget c.tenant).answer]
    have hafter : ∀ d ∈ cs, ∀ u, Stands l'.terms d.now (l'.account u)
        (if c.tenant = u then some (Bucket.draw l.terms (o c.tenant) c.now).2 else o u) := by
      intro d hd u
      rw [hterms', hdraws.account, hterms]
      split
      · exact (hforget c.tenant).after.mono (hfirst d hd)
      · exact (hforget u).mono (hfirst d hd)
    obtain ⟨answers, hserve, hall⟩ := ih hrest (fun d hd => (hdraws.kept hkept).mono (hfirst d hd)) _ hafter
    refine ⟨(c, ok) :: answers, serve_cons.mpr ⟨ok, l', answers, hcall, hserve, rfl⟩, fun u => ?_⟩
    have hu := hall u
    rw [hterms'] at hu
    unfold of at hu ⊢
    by_cases htenant : c.tenant = u
    · subst htenant
      simpa [Bucket.log, hok] using hu
    · simpa [htenant] using hu

/-- A limiter that never served anyone answers each tenant from a full bucket. -/
theorem serve_init (hacq : Serves acq) (hclock : cs.Pairwise fun c d => c.now ≤ d.now) (capacity rate idle : ℚ) :
    ∃ answers, serve acq (init capacity rate idle) cs = some answers ∧
      ∀ u, (of u answers).map (fun e => (e.1.now, e.2)) =
        Bucket.log ⟨capacity, rate⟩ none ((cs.filter fun c => c.tenant = u).map AcquireCall.now) :=
  serve_spec hacq hclock (fun c _ => kept_init capacity rate idle c.now) (fun _ => none)
    fun _ _ _ => Stands.refl _ _ _

theorem seen_eq_log (h : (of u answers).map (fun e => (e.1.now, e.2)) = log) :
    seen u answers = log.map Prod.snd := by
  rw [← h, List.map_map]
  rfl

end

/-- Over every interval a tenant is granted the capacity and the rate at most. -/
theorem granted_le (capacity rate idle : ℚ) (hcap : 0 ≤ capacity) (hrate : 0 ≤ rate)
    (calls : List AcquireCall) (hclock : calls.Pairwise fun c d => c.now ≤ d.now) :
    ∃ answers, serve acquire (init capacity rate idle) calls = some answers ∧
      ∀ tenant t₁ t₂, t₁ ≤ t₂ → (granted tenant t₁ t₂ answers : ℚ) ≤ capacity + rate * (t₂ - t₁) := by
  obtain ⟨answers, hserve, hall⟩ := serve_init acquire_serves hclock capacity rate idle
  refine ⟨answers, hserve, fun tenant t₁ t₂ h₁₂ => ?_⟩
  have hsort : ((calls.filter fun c => c.tenant = tenant).map AcquireCall.now).Pairwise (· ≤ ·) :=
    List.pairwise_map.mpr (hclock.filter _)
  have hbound := Bucket.grants_le (p := ⟨capacity, rate⟩) (o := none) hcap hrate h₁₂
    (fun t _ a ha => nomatch ha) hsort
  rw [← hall tenant, Bucket.grants, List.countP_map] at hbound
  exact hbound

/-- Two tenants at two different times, under the default limits. -/
theorem granted_le_sample :
    ∃ answers, serve acquire (init 5 (1 / 2) 600) [⟨0, "a"⟩, ⟨0, "b"⟩, ⟨3, "a"⟩] = some answers ∧
      ∀ tenant t₁ t₂, t₁ ≤ t₂ → (granted tenant t₁ t₂ answers : ℚ) ≤ 5 + 1 / 2 * (t₂ - t₁) :=
  granted_le 5 (1 / 2) 600 (by norm_num) (by norm_num) _ (by simp)

/-- Neither the other tenants nor the sweeps make a difference to what a tenant is answered. -/
theorem seen_alone (capacity rate idle : ℚ) (calls : List AcquireCall)
    (hclock : calls.Pairwise fun c d => c.now ≤ d.now) :
    ∃ answers, serve acquire (init capacity rate idle) calls = some answers ∧
      ∀ tenant, ∃ own,
        serve acquireKeeping (init capacity rate idle) (calls.filter fun c => c.tenant = tenant) = some own ∧
          seen tenant answers = own.map Prod.snd := by
  obtain ⟨answers, hserve, hall⟩ := serve_init acquire_serves hclock capacity rate idle
  refine ⟨answers, hserve, fun tenant => ?_⟩
  obtain ⟨own, hown, halone⟩ :=
    serve_init acquireKeeping_serves (hclock.filter fun c => c.tenant = tenant) capacity rate idle
  have hmine : of tenant own = own := by
    refine List.filter_eq_self.mpr fun e he => ?_
    have hcall : e.1 ∈ calls.filter fun c => c.tenant = tenant :=
      serve_calls hown ▸ List.mem_map_of_mem he
    exact (List.mem_filter.mp hcall).2
  have hlog := halone tenant
  rw [List.filter_filter] at hlog
  simp only [Bool.and_self] at hlog
  refine ⟨own, hown, ?_⟩
  calc seen tenant answers = seen tenant own := by rw [seen_eq_log (hall tenant), seen_eq_log hlog]
    _ = own.map Prod.snd := by rw [seen, hmine]

theorem seen_alone_sample :
    ∃ answers, serve acquire (init 2 0 0) [⟨0, "greedy"⟩, ⟨0, "other"⟩, ⟨1, "greedy"⟩, ⟨2, "greedy"⟩] = some answers ∧
      ∀ tenant, ∃ own,
        serve acquireKeeping (init 2 0 0)
            ([⟨0, "greedy"⟩, ⟨0, "other"⟩, ⟨1, "greedy"⟩, ⟨2, "greedy"⟩].filter fun c => c.tenant = tenant) = some own ∧
          seen tenant answers = own.map Prod.snd :=
  seen_alone 2 0 0 _ (by simp)

/-- Traffic that leaves a tenant's own calls as they are leaves its answers as they are. -/
theorem seen_congr (capacity rate idle : ℚ) (hclock : calls.Pairwise fun c d => c.now ≤ d.now)
    (hclock' : calls'.Pairwise fun c d => c.now ≤ d.now)
    (hsame : (calls.filter fun c => c.tenant = u) = calls'.filter fun c => c.tenant = u)
    (h : serve acquire (init capacity rate idle) calls = some answers)
    (h' : serve acquire (init capacity rate idle) calls' = some answers') :
    seen u answers = seen u answers' := by
  obtain ⟨_, hserve, hall⟩ := serve_init acquire_serves hclock capacity rate idle
  obtain ⟨_, hserve', hall'⟩ := serve_init acquire_serves hclock' capacity rate idle
  obtain rfl := Option.some.inj (h.symm.trans hserve)
  obtain rfl := Option.some.inj (h'.symm.trans hserve')
  rw [seen_eq_log (hall u), seen_eq_log (hall' u), hsame]

end TokenBucketLimiter
end PublicIntelligence.Scheduler
