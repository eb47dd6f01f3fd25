import Mathlib.Algebra.Order.Field.Basic
import Mathlib.Tactic.Linarith
import Mathlib.Tactic.Ring

namespace PublicIntelligence.Bucket

/-- A token bucket holds at most `capacity` tokens and gains `rate` of them in a unit of time. -/
structure Terms (K : Type) where
  capacity : K
  rate : K

/-- So many tokens were left when the bucket was last looked at. -/
structure Account (K : Type) where
  tokens : K
  since : K

variable {K : Type} [LinearOrder K]

def grants (t₁ t₂ : K) (l : List (K × Bool)) : ℕ :=
  l.countP fun e => e.2 && decide (t₁ ≤ e.1) && decide (e.1 ≤ t₂)

theorem grants_cons (t₁ t₂ : K) (e : K × Bool) (l : List (K × Bool)) :
    grants t₁ t₂ (e :: l) =
      grants t₁ t₂ l + if (e.2 && decide (t₁ ≤ e.1) && decide (e.1 ≤ t₂)) = true then 1 else 0 :=
  List.countP_cons

variable [Field K]

def Account.refilled (p : Terms K) (a : Account K) (now : K) : K :=
  a.tokens + (now - a.since) * p.rate

/-- What there is to draw from. A bucket that nobody has opened yet is full. -/
def level (p : Terms K) : Option (Account K) → K → K
  | none, _ => p.capacity
  | some a, now => min p.capacity (a.refilled p now)

/-- Draw one token, if there is a whole one. -/
def draw (p : Terms K) (o : Option (Account K)) (now : K) : Bool × Account K :=
  if 1 ≤ level p o now then (true, ⟨level p o now - 1, now⟩) else (false, ⟨level p o now, now⟩)

/-- The draws at the given times, each with its answer. -/
def log (p : Terms K) (o : Option (Account K)) : List K → List (K × Bool)
  | [] => []
  | t :: ts => (t, (draw p o t).1) :: log p (some (draw p o t).2) ts

/-- The bucket has been full at `now` and will not fall below before the next draw. -/
def FullFrom (p : Terms K) (now : K) (a : Account K) : Prop :=
  ∀ t, now ≤ t → p.capacity ≤ a.refilled p t

/-- `o` can be kept in place of `o'`: they are the same, or `o` forgot a full bucket.
Below one token of capacity no draw succeeds, and what is kept is of no matter. -/
def Stands (p : Terms K) (now : K) (o o' : Option (Account K)) : Prop :=
  1 ≤ p.capacity → o = o' ∨ o = none ∧ ∃ a, o' = some a ∧ FullFrom p now a

/-- An account that owes nothing and was not touched after `now`. -/
def Sound (now : K) (o : Option (Account K)) : Prop := ∀ a, o = some a → 0 ≤ a.tokens ∧ a.since ≤ now

/-- No draw leaves a bucket full that has room for a token. -/
def Drawn (p : Terms K) (a : Account K) : Prop := 1 ≤ p.capacity → a.tokens < p.capacity

variable {p : Terms K} {a : Account K} {o o' o'' : Option (Account K)} {now now' t t₁ t₂ : K} {ts : List K}

theorem level_le (p : Terms K) (o : Option (Account K)) (now : K) : level p o now ≤ p.capacity := by
  cases o with
  | none => exact le_rfl
  | some a => exact min_le_left _ _

theorem level_some (p : Terms K) (a : Account K) (now : K) :
    level p (some a) now = min p.capacity (a.refilled p now) := rfl

theorem Stands.refl (p : Terms K) (now : K) (o : Option (Account K)) : Stands p now o o :=
  fun _ => .inl rfl

theorem FullFrom.mono (h : FullFrom p now a) (hle : now ≤ now') : FullFrom p now' a :=
  fun t ht => h t (hle.trans ht)

theorem Stands.mono (h : Stands p now o o') (hle : now ≤ now') : Stands p now' o o' := by
  intro hc
  obtain rfl | ⟨rfl, a, rfl, ha⟩ := h hc
  · exact .inl rfl
  · exact .inr ⟨rfl, a, rfl, ha.mono hle⟩

theorem Stands.trans (h : Stands p now o o') (h' : Stands p now o' o'') : Stands p now o o'' := by
  intro hc
  obtain rfl | ⟨rfl, a, rfl, ha⟩ := h hc
  · exact h' hc
  · obtain rfl | ⟨hnone, -⟩ := h' hc
    · exact .inr ⟨rfl, a, rfl, ha⟩
    · cases hnone

theorem Stands.level (h : Stands p now o o') (hc : 1 ≤ p.capacity) :
    level p o now = level p o' now := by
  obtain rfl | ⟨rfl, a, rfl, ha⟩ := h hc
  · rfl
  · exact (min_eq_left (ha now le_rfl)).symm

theorem Sound.mono (h : Sound now o) (hle : now ≤ now') : Sound now' o :=
  fun a ha => ⟨(h a ha).1, (h a ha).2.trans hle⟩

theorem draw_congr (h : level p o now = level p o' now) : draw p o now = draw p o' now := by
  unfold draw
  rw [h]

/-- A bucket that cannot hold a whole token grants nothing. -/
theorem draw_denied (hc : p.capacity < 1) (o : Option (Account K)) (now : K) :
    (draw p o now).1 = false := by
  unfold draw
  rw [if_neg (not_le.mpr ((level_le p o now).trans_lt hc))]

theorem Stands.answer (h : Stands p now o o') : (draw p o now).1 = (draw p o' now).1 := by
  rcases lt_or_ge p.capacity 1 with hc | hc
  · rw [draw_denied hc, draw_denied hc]
  · rw [draw_congr (h.level hc)]

theorem Stands.after (h : Stands p now o o') :
    Stands p now (some (draw p o now).2) (some (draw p o' now).2) := by
  intro hc
  rw [draw_congr (h.level hc)]
  exact .inl rfl

@[simp] theorem draw_since (p : Terms K) (o : Option (Account K)) (now : K) :
    (draw p o now).2.since = now := by
  unfold draw
  split <;> rfl

theorem log_times (p : Terms K) (o : Option (Account K)) (ts : List K) :
    (log p o ts).map Prod.fst = ts := by
  induction ts generalizing o with
  | nil => rfl
  | cons t ts ih => exact congrArg (t :: ·) (ih _)

theorem grants_late (h : ∀ t ∈ ts, t₂ < t) : grants t₁ t₂ (log p o ts) = 0 := by
  refine List.countP_eq_zero.mpr fun e he => ?_
  have ht : e.1 ∈ ts := log_times p o ts ▸ List.mem_map_of_mem he
  simp [not_le.mpr (h _ ht)]

variable [IsStrictOrderedRing K]

theorem draw_drawn (p : Terms K) (o : Option (Account K)) (now : K) : Drawn p (draw p o now).2 := by
  intro hc
  unfold draw
  split
  · exact (sub_one_lt _).trans_le (level_le p o now)
  · rename_i hlow
    exact (not_le.mp hlow).trans_le hc

/-- A bucket that was drawn from and is full again has been gaining tokens since, so it stays full. -/
theorem Drawn.fullFrom (hd : Drawn p a) (hc : 1 ≤ p.capacity) (hs : a.since ≤ now)
    (hfull : p.capacity ≤ a.refilled p now) : FullFrom p now a := by
  intro t ht
  have hgain : 0 < (now - a.since) * p.rate := by
    have hlow := hd hc
    unfold Account.refilled at hfull
    linarith
  have hrate : 0 < p.rate := pos_of_mul_pos_right hgain (sub_nonneg.mpr hs)
  have hmono : (now - a.since) * p.rate ≤ (t - a.since) * p.rate := by
    apply mul_le_mul_of_nonneg_right _ hrate.le
    linarith
  unfold Account.refilled at hfull ⊢
  linarith

/-- Forgetting a bucket that is full and was drawn from. -/
theorem Drawn.forget (hd : Drawn p a) (hs : a.since ≤ now) (hfull : p.capacity ≤ a.refilled p now) :
    Stands p now none (some a) :=
  fun hc => .inr ⟨rfl, a, rfl, hd.fullFrom hc hs hfull⟩

/-- A draw leaves a debt exactly if there was one. -/
theorem draw_nonneg : 0 ≤ (draw p o now).2.tokens ↔ 0 ≤ level p o now := by
  unfold draw
  split
  · rename_i hone
    exact iff_of_true (sub_nonneg.mpr hone) (zero_le_one.trans hone)
  · exact Iff.rfl

theorem draw_le (p : Terms K) (o : Option (Account K)) (now : K) : (draw p o now).2.tokens ≤ p.capacity := by
  have hlevel := level_le p o now
  unfold draw
  split
  · exact (sub_le_self _ zero_le_one).trans hlevel
  · exact hlevel

theorem Sound.level_nonneg (hc : 0 ≤ p.capacity) (hr : 0 ≤ p.rate) (h : Sound now o) :
    0 ≤ level p o now := by
  cases o with
  | none => exact hc
  | some a =>
    obtain ⟨htok, hs⟩ := h a rfl
    exact le_min hc (add_nonneg htok (mul_nonneg (sub_nonneg.mpr hs) hr))

theorem Sound.draw (hc : 0 ≤ p.capacity) (hr : 0 ≤ p.rate) (h : Sound now o) :
    Sound now (some (draw p o now).2) := by
  intro a ha
  obtain rfl := Option.some.inj ha
  exact ⟨draw_nonneg.mpr (h.level_nonneg hc hr), (draw_since p o now).le⟩

/-- Between two draws a bucket gains at most its rate. -/
theorem level_gain (hr : 0 ≤ p.rate) (hle : now ≤ t) :
    level p o t ≤ level p o now + p.rate * (t - now) := by
  have hgain : 0 ≤ p.rate * (t - now) := mul_nonneg hr (sub_nonneg.mpr hle)
  cases o with
  | none => exact le_add_of_nonneg_right hgain
  | some a =>
    have hstep : a.refilled p t = a.refilled p now + p.rate * (t - now) := by
      unfold Account.refilled
      ring
    rw [level_some, level_some, hstep, ← min_add_add_right]
    exact min_le_min_right _ (le_add_of_nonneg_right hgain)

/-- What a draw answers is paid for by the level it leaves. -/
theorem draw_paid (p : Terms K) (o : Option (Account K)) (now : K) :
    level p (some (draw p o now).2) now + (if (draw p o now).1 then 1 else 0) ≤ level p o now := by
  have hkept : level p (some (draw p o now).2) now ≤ (draw p o now).2.tokens := by
    refine (min_le_right _ _).trans_eq ?_
    unfold Account.refilled
    rw [draw_since, sub_self, zero_mul, add_zero]
  have hsplit : (draw p o now).2.tokens + (if (draw p o now).1 then 1 else 0) = level p o now := by
    unfold draw
    split
    · exact sub_add_cancel _ _
    · exact add_zero _
  linarith

/-- The level pays for every grant that follows, with what the bucket gains until `t₂`. -/
theorem grants_le_level (hc : 0 ≤ p.capacity) (hr : 0 ≤ p.rate) (hs : Sound now o)
    (hsort : (now :: ts).Pairwise (· ≤ ·)) (hnow : now ≤ t₂) :
    (grants t₁ t₂ (log p o ts) : K) ≤ level p o now + p.rate * (t₂ - now) := by
  induction ts generalizing now o with
  | nil =>
    have hgain : 0 ≤ p.rate * (t₂ - now) := mul_nonneg hr (sub_nonneg.mpr hnow)
    simpa [log, grants] using add_nonneg (hs.level_nonneg hc hr) hgain
  | cons t ts ih =>
    obtain ⟨hfirst, hrest⟩ := List.pairwise_cons.mp hsort
    have hle : now ≤ t := hfirst t List.mem_cons_self
    rcases lt_or_ge t₂ t with hlate | hin
    · have hall : ∀ u ∈ t :: ts, t₂ < u := by
        intro u hu
        rcases List.mem_cons.mp hu with rfl | hu
        · exact hlate
        · exact hlate.trans_le ((List.pairwise_cons.mp hrest).1 u hu)
      rw [grants_late hall, Nat.cast_zero]
      exact add_nonneg (hs.level_nonneg hc hr) (mul_nonneg hr (sub_nonneg.mpr hnow))
    · have hnext := ih ((hs.mono hle).draw hc hr) hrest hin
      have hpaid := draw_paid p o t
      have hgain := level_gain (o := o) hr hle
      have hcount : (if ((draw p o t).1 && decide (t₁ ≤ t) && decide (t ≤ t₂)) = true then 1 else 0 : K) ≤
          if (draw p o t).1 then 1 else 0 := by
        cases (draw p o t).1 with
        | false => exact le_rfl
        | true =>
          rw [if_pos rfl]
          split
          · exact le_rfl
          · exact zero_le_one
      rw [log, grants_cons, Nat.cast_add, Nat.cast_ite, Nat.cast_one, Nat.cast_zero]
      linarith

/-- The bound of the token bucket: a burst of the capacity and the rate over the interval. -/
theorem grants_le (hc : 0 ≤ p.capacity) (hr : 0 ≤ p.rate) (h₁₂ : t₁ ≤ t₂) (hs : ∀ t ∈ ts, Sound t o)
    (hsort : ts.Pairwise (· ≤ ·)) :
    (grants t₁ t₂ (log p o ts) : K) ≤ p.capacity + p.rate * (t₂ - t₁) := by
  have hgain : 0 ≤ p.rate * (t₂ - t₁) := mul_nonneg hr (sub_nonneg.mpr h₁₂)
  induction ts generalizing o with
  | nil => simpa [log, grants] using add_nonneg hc hgain
  | cons t ts ih =>
    obtain ⟨hfirst, hrest⟩ := List.pairwise_cons.mp hsort
    have hst := hs t List.mem_cons_self
    rcases lt_or_ge t t₁ with hearly | hfrom
    · -- A draw before the interval counts for nothing.
      have hafter : ∀ u ∈ ts, Sound u (some (draw p o t).2) := fun u hu =>
        (hst.draw hc hr).mono (hfirst u hu)
      rw [log, grants_cons]
      simpa [not_le.mpr hearly] using ih hafter hrest
    · rcases lt_or_ge t₂ t with hlate | hin
      · have hall : ∀ u ∈ t :: ts, t₂ < u := by
          intro u hu
          rcases List.mem_cons.mp hu with rfl | hu
          · exact hlate
          · exact hlate.trans_le (hfirst u hu)
        rw [grants_late hall, Nat.cast_zero]
        exact add_nonneg hc hgain
      · have hself : (t :: t :: ts).Pairwise (· ≤ ·) := by
          refine List.pairwise_cons.mpr ⟨fun u hu => ?_, hsort⟩
          rcases List.mem_cons.mp hu with rfl | hu
          · exact le_rfl
          · exact hfirst u hu
        have hpay : (grants t₁ t₂ (log p o (t :: ts)) : K) ≤ level p o t + p.rate * (t₂ - t) :=
          grants_le_level hc hr hst hself hin
        have hlevel := level_le p o t
        have hshort : p.rate * (t₂ - t) ≤ p.rate * (t₂ - t₁) := by
          apply mul_le_mul_of_nonneg_left _ hr
          linarith
        linarith

end PublicIntelligence.Bucket
