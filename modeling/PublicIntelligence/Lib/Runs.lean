namespace PublicIntelligence.Runs

/-- One step of a system. The label carries every choice the environment made,
and `none` means that the step is not enabled in the state. -/
abbrev Step (σ ℓ : Type) := σ → ℓ → Option σ

/-- Take the steps in order; a run exists only if each of them is enabled. -/
def exec (step : Step σ ℓ) (s : σ) : List ℓ → Option σ
  | [] => some s
  | a :: as => (step s a).bind fun t => exec step t as

/-- Every step of the run is taken in a state and with a label that satisfy `P`. -/
def Along (step : Step σ ℓ) (P : σ → ℓ → Prop) (s : σ) : List ℓ → Prop
  | [] => True
  | a :: as => P s a ∧ ∀ t, step s a = some t → Along step P t as

/-- Every state the run passes through satisfies `Q`, its two ends included. -/
def Throughout (step : Step σ ℓ) (Q : σ → Prop) (s : σ) : List ℓ → Prop
  | [] => Q s
  | a :: as => Q s ∧ ∀ t, step s a = some t → Throughout step Q t as

section
variable {step : Step σ ℓ} {P : σ → ℓ → Prop} {I Q : σ → Prop}

@[simp] theorem exec_nil : exec step s [] = some s := rfl

theorem exec_cons : exec step s (a :: as) = some u ↔
    ∃ t, step s a = some t ∧ exec step t as = some u := by
  simp [exec, Option.bind_eq_some_iff]

theorem exec_append : exec step s (as ++ bs) = some u ↔
    ∃ t, exec step s as = some t ∧ exec step t bs = some u := by
  induction as generalizing s with
  | nil => simp
  | cons a as ih =>
    simp only [List.cons_append, exec_cons, ih]
    constructor
    · rintro ⟨t, ht, v, hv, hu⟩
      exact ⟨v, ⟨t, ht, hv⟩, hu⟩
    · rintro ⟨v, ⟨t, ht, hv⟩, hu⟩
      exact ⟨t, ht, v, hv, hu⟩

/-- What one step preserves whenever its guard holds, a guarded run preserves. -/
theorem along_invariant (hstep : ∀ s a t, I s → P s a → step s a = some t → I t)
    (hi : I s) (hp : Along step P s as) (hr : exec step s as = some u) : I u := by
  induction as generalizing s with
  | nil => cases hr; exact hi
  | cons a as ih =>
    obtain ⟨t, ht, hu⟩ := exec_cons.mp hr
    exact ih (hstep s a t hi hp.1 ht) (hp.2 t ht) hu

theorem along_cons (h : step s a = some t) :
    Along step P s (a :: as) ↔ P s a ∧ Along step P t as := by
  refine and_congr_right fun _ => ⟨fun hall => hall t h, fun hp u hu => ?_⟩
  rwa [← Option.some.inj (h.symm.trans hu)]

theorem along_stop (h : step s a = none) : Along step P s (a :: as) ↔ P s a :=
  ⟨And.left, fun hp => ⟨hp, fun t ht => by rw [h] at ht; cases ht⟩⟩

instance decidableAlong [∀ s a, Decidable (P s a)] :
    (s : σ) → (as : List ℓ) → Decidable (Along step P s as)
  | _, [] => isTrue trivial
  | s, a :: as =>
    match h : step s a with
    | none => decidable_of_iff (P s a) (along_stop h).symm
    | some t =>
      have := decidableAlong t as
      decidable_of_iff (P s a ∧ Along step P t as) (along_cons h).symm

theorem along_true : Along step (fun _ _ => True) s as := by
  induction as generalizing s with
  | nil => trivial
  | cons a as ih => exact ⟨trivial, fun _ _ => ih⟩

theorem along_forall {G : ℓ → Prop} (h : ∀ a ∈ as, G a) : Along step (fun _ a => G a) s as := by
  induction as generalizing s with
  | nil => trivial
  | cons a as ih =>
    obtain ⟨ha, has⟩ := List.forall_mem_cons.mp h
    exact ⟨ha, fun _ _ => ih has⟩

theorem exec_invariant (hstep : ∀ s a t, I s → step s a = some t → I t)
    (hi : I s) (hr : exec step s as = some u) : I u :=
  along_invariant (P := fun _ _ => True) (fun s a t h _ => hstep s a t h) hi along_true hr

theorem along_throughout (hstep : ∀ s a t, I s → P s a → step s a = some t → I t)
    (hi : I s) (hp : Along step P s as) : Throughout step I s as := by
  induction as generalizing s with
  | nil => exact hi
  | cons a as ih => exact ⟨hi, fun t ht => ih (hstep s a t hi hp.1 ht) (hp.2 t ht)⟩

theorem throughout_mono (h : ∀ s, I s → Q s) (hi : Throughout step I s as) :
    Throughout step Q s as := by
  induction as generalizing s with
  | nil => exact h s hi
  | cons a as ih => exact ⟨h s hi.1, fun t ht => ih (hi.2 t ht)⟩

theorem along_mono {P' : σ → ℓ → Prop} (h : ∀ s a, P s a → P' s a) (hp : Along step P s as) :
    Along step P' s as := by
  induction as generalizing s with
  | nil => trivial
  | cons a as ih => exact ⟨h s a hp.1, fun t ht => ih (hp.2 t ht)⟩

/-- Two guards that agree wherever the invariant holds are met by the same runs. -/
theorem along_congr {P' : σ → ℓ → Prop} (hstep : ∀ s a t, I s → step s a = some t → I t)
    (h : ∀ s a, I s → (P s a ↔ P' s a)) (hi : I s) : Along step P s as ↔ Along step P' s as := by
  induction as generalizing s with
  | nil => exact Iff.rfl
  | cons a as ih =>
    exact and_congr (h s a hi) (forall_congr' fun t => imp_congr_right fun ht => ih (hstep s a t hi ht))

theorem along_and {P' : σ → ℓ → Prop} (hp : Along step P s as) (hp' : Along step P' s as) :
    Along step (fun s a => P s a ∧ P' s a) s as := by
  induction as generalizing s with
  | nil => trivial
  | cons a as ih => exact ⟨⟨hp.1, hp'.1⟩, fun t ht => ih (hp.2 t ht) (hp'.2 t ht)⟩

theorem throughout_end (h : Throughout step Q s as) (hr : exec step s as = some u) : Q u := by
  induction as generalizing s with
  | nil =>
    cases hr
    exact h
  | cons a as ih =>
    obtain ⟨t, ht, hu⟩ := exec_cons.mp hr
    exact ih (h.2 t ht) hu

theorem throughout_start (h : Throughout step Q s as) : Q s := by
  cases as with
  | nil => exact h
  | cons a as => exact h.1

/-- Where each step that meets one guard keeps the invariant and meets the other, so does a run. -/
theorem along_imp {P' : σ → ℓ → Prop} (hstep : ∀ s a t, I s → P s a → step s a = some t → I t)
    (himp : ∀ s a, I s → P s a → P' s a) (hi : I s) (hp : Along step P s as) : Along step P' s as := by
  induction as generalizing s with
  | nil => trivial
  | cons a as ih => exact ⟨himp s a hi hp.1, fun t ht => ih (hstep s a t hi hp.1 ht) (hp.2 t ht)⟩

/-- Two guards are met by the same runs if they agree as long as one of them has been met, and so kept the
invariant. -/
theorem along_iff_along {G P' : σ → ℓ → Prop} (hstep : ∀ s a t, I s → G s a → P' s a → step s a = some t → I t)
    (hexact : ∀ s a, I s → G s a → (P s a ↔ P' s a)) (hi : I s) (hg : Along step G s as) :
    Along step P s as ↔ Along step P' s as := by
  induction as generalizing s with
  | nil => exact Iff.rfl
  | cons a as ih =>
    rw [Along, Along, hexact s a hi hg.1]
    exact and_congr_right fun hp => forall_congr' fun t => imp_congr_right fun ht =>
      ih (hstep s a t hi hg.1 hp ht) (hg.2 t ht)

/-- When each step from a good state keeps the state good exactly if it meets
its guard, a run stays good exactly if all its steps meet theirs. `I` is what
holds in every run, good or not, as long as its steps meet `G`. -/
theorem throughout_iff_along_under {G : σ → ℓ → Prop} (hstep : ∀ s a t, I s → G s a → step s a = some t → I t)
    (hexact : ∀ s a t, I s → G s a → Q s → step s a = some t → (Q t ↔ P s a))
    (hi : I s) (hg : Along step G s as) (hq : Q s) (hr : exec step s as = some u) :
    Throughout step Q s as ↔ Along step P s as := by
  induction as generalizing s with
  | nil => exact ⟨fun _ => trivial, fun _ => hq⟩
  | cons a as ih =>
    obtain ⟨t, ht, hu⟩ := exec_cons.mp hr
    have hone : ∀ v, step s a = some v → v = t := fun v hv => Option.some.inj (hv.symm.trans ht)
    constructor
    · rintro ⟨_, h⟩
      have hqt := throughout_start (h t ht)
      refine ⟨(hexact s a t hi hg.1 hq ht).mp hqt, fun v hv => ?_⟩
      rw [hone v hv]
      exact (ih (hstep s a t hi hg.1 ht) (hg.2 t ht) hqt hu).mp (h t ht)
    · rintro ⟨hp, h⟩
      have hqt := (hexact s a t hi hg.1 hq ht).mpr hp
      refine ⟨hq, fun v hv => ?_⟩
      rw [hone v hv]
      exact (ih (hstep s a t hi hg.1 ht) (hg.2 t ht) hqt hu).mpr (h t ht)

/-- The same where every step keeps `I`. -/
theorem throughout_iff_along (hstep : ∀ s a t, I s → step s a = some t → I t)
    (hexact : ∀ s a t, I s → Q s → step s a = some t → (Q t ↔ P s a))
    (hi : I s) (hq : Q s) (hr : exec step s as = some u) :
    Throughout step Q s as ↔ Along step P s as :=
  throughout_iff_along_under (G := fun _ _ => True) (fun s a t h _ => hstep s a t h)
    (fun s a t h _ => hexact s a t h) hi along_true hq hr

end

end PublicIntelligence.Runs
