import PublicIntelligence.Node.Runtime

namespace PublicIntelligence.Node.Runtime

open Runs

variable {r : Runtime}

/-- The retry task is live and has an attempt before it, or is making one. -/
def Trying (r : Runtime) : Prop :=
  (r.retry = .created ∨ r.retry = .sleeping ∨ r.retry = .registering) ∧ r.nodeInfo ≠ none

/-- A node that has started and is pending is trying to register. -/
def KeepsTrying (r : Runtime) : Prop :=
  r.isRunning = true → r.start = .completed → r.registrationStatus = .pending → r.Trying

/-- The two ways to lose the retry task do not happen: its registration raises
nothing but a `SchedulerError`, and no heartbeat finds the node forgotten while the
task is past its last attempt, waiting for the catalogue push after a 409. -/
def Calm (r : Runtime) : Act → Prop
  | .retryAnswered .raised => r.retry ≠ .registering
  | .heartbeatAnswered (.error (some 404)) => r.retry ≠ .publishing
  | _ => True

/-- Which tasks exist in which phase. -/
structure Coherent (r : Runtime) : Prop where
  trying : r.isRunning = true →
    r.retry = .created ∨ r.retry = .sleeping ∨ r.retry = .registering →
    r.registrationStatus = .pending ∧ r.start = .completed
  awake : r.retry = .sleeping ∨ r.retry = .registering ∨ r.retry = .publishing →
    r.isRunning = true ∧ r.start = .completed
  started : r.isRunning = true → r.start ≠ .completed → r.retryLive = false
  informed : r.isRunning = true → r.start = .completed → r.nodeInfo ≠ none
  sending : r.heartbeat = .sleeping ∨ r.heartbeat = .measuring ∨ r.heartbeat = .sending →
    r.isRunning = true ∧ r.start = .completed
  refreshing : r.refresh ≠ .absent → r.refresh ≠ .finished → r.isRunning = true ∧ r.start = .completed
  asked : r.start = .registering ∨ r.start = .publishing → r.nodeInfo ≠ none
  reconciling : r.start = .publishing → r.registrationStatus = .registered
  busy : r.start = .discovering ∨ (∃ ms, r.start = .probing ms) ∨ r.start = .registering ∨
    r.start = .publishing → r.isRunning = true

/-- What each answer makes of a registration. -/
theorem attempt_cases (r : Runtime) (a : Answer) :
    (a = .ok ∧ r.attemptRegistration a = ({ r with
        registrationStatus := .registered
        advertisedModels := r.nodeInfo.getD []
        catalogueSynced := true }, .created)) ∨
    (a = .error (some 409) ∧
      r.attemptRegistration a = ({ r with registrationStatus := .registered }, .conflict)) ∨
    ((∃ s, s ≠ some 409 ∧ a = .error s) ∧ r.attemptRegistration a = (r, .refused)) ∨
    (a = .raised ∧ r.attemptRegistration a = (r, .crashed)) := by
  match a with
  | .ok => exact .inl ⟨rfl, rfl⟩
  | .raised => exact .inr (.inr (.inr ⟨rfl, rfl⟩))
  | .error s =>
    by_cases hs : s = some 409
    · subst hs
      exact .inr (.inl ⟨rfl, rfl⟩)
    · refine .inr (.inr (.inl ⟨⟨s, hs, rfl⟩, ?_⟩))
      unfold attemptRegistration
      split <;> simp_all

/-- No task of the node lives beside `start()`. -/
structure Alone (r : Runtime) : Prop where
  retry : r.retryLive = false
  heartbeat : r.heartbeat = .absent ∨ r.heartbeat = .finished
  refresh : r.refresh = .absent ∨ r.refresh = .finished

theorem retryLive_false : r.retryLive = false ↔ r.retry = .absent ∨ r.retry = .finished := by
  unfold retryLive
  cases r.retry <;> simp

theorem Alone.coherent (ha : Alone r)
    (hinfo : r.isRunning = true → r.start = .completed → r.nodeInfo ≠ none)
    (hasked : r.start = .registering ∨ r.start = .publishing → r.nodeInfo ≠ none)
    (hrec : r.start = .publishing → r.registrationStatus = .registered)
    (hbusy : r.start = .discovering ∨ (∃ ms, r.start = .probing ms) ∨ r.start = .registering ∨
      r.start = .publishing → r.isRunning = true) : Coherent r where
  trying _ ht := by
    rcases retryLive_false.mp ha.retry with hr | hr <;> simp [hr] at ht
  awake ht := by
    rcases retryLive_false.mp ha.retry with hr | hr <;> simp [hr] at ht
  started _ _ := ha.retry
  informed := hinfo
  sending hs := by
    rcases ha.heartbeat with hb | hb <;> simp [hb] at hs
  refreshing h1 h2 := by
    rcases ha.refresh with hf | hf
    · exact absurd hf h1
    · exact absurd hf h2
  asked := hasked
  reconciling := hrec
  busy := hbusy

/-- While `start()` is under way nothing else is. -/
theorem Coherent.alone (h : Coherent r) (hrun : r.isRunning = true) (hs : r.start ≠ .completed) :
    Alone r where
  retry := h.started hrun hs
  heartbeat := by
    have hsend := fun hb => hs (h.sending hb).2
    cases hb : r.heartbeat <;> simp [hb] at hsend ⊢
  refresh := by
    by_contra hf
    rw [not_or] at hf
    exact hs (h.refreshing hf.1 hf.2).2

theorem init_coherent : Coherent init :=
  Alone.coherent ⟨rfl, .inl rfl, .inl rfl⟩ nofun nofun nofun (by simp [init])

theorem start_coherent (hs : step r .start = some t) : Coherent t := by
  simp only [step] at hs
  split at hs
  · rename_i hready
    simp only [startable, Bool.and_eq_true, Bool.or_eq_true, decide_eq_true_eq,
      Bool.not_eq_true'] at hready
    obtain ⟨⟨⟨_, hretry⟩, hbeat⟩, hrefresh⟩ := hready
    cases hs
    exact Alone.coherent ⟨hretry, hbeat, hrefresh⟩ nofun nofun nofun fun _ => rfl
  · cases hs

theorem discovered_coherent (h : Coherent r) (hs : step r (.discovered models) = some t) :
    Coherent t := by
  simp only [step] at hs
  split at hs
  · rename_i hpc
    have hrun := h.busy (.inl hpc)
    obtain ⟨h1, h2, h3⟩ := h.alone hrun (by simp [hpc])
    cases hs
    exact Alone.coherent ⟨h1, h2, h3⟩ nofun (by simp) nofun fun _ => hrun
  · cases hs

theorem probed_coherent (h : Coherent r) (hs : step r (.probed built) = some t) :
    Coherent t := by
  simp only [step] at hs
  split at hs
  · rename_i models hpc
    have hrun := h.busy (.inr (.inl ⟨models, hpc⟩))
    obtain ⟨h1, h2, h3⟩ := h.alone hrun (by simp [hpc])
    split at hs <;> cases hs
    · exact Alone.coherent ⟨h1, h2, h3⟩ nofun (fun _ => Option.some_ne_none _) nofun fun _ => hrun
    · exact Alone.coherent ⟨h1, h2, h3⟩ nofun (by simp) nofun (by simp)
  · cases hs

/-- The end of `start()`: every task begins, or only a retry task is left behind. -/
theorem finishStart_coherent (hrun : r.isRunning = true) (hinfo : r.nodeInfo ≠ none)
    (hretry : r.retryLive = false ∨ r.retry = .created ∧ r.registrationStatus = .pending)
    (hbeat : r.heartbeat = .absent ∨ r.heartbeat = .finished)
    (hrefresh : r.refresh = .absent ∨ r.refresh = .finished) : Coherent (r.finishStart rest) := by
  rw [retryLive_false] at hretry
  unfold finishStart
  split
  · constructor <;> simp [hrun, hinfo]
    rcases hretry with (hr | hr) | ⟨hr, hp⟩
    · simp [hr]
    · simp [hr]
    · simp [hp]
  · constructor <;> simp
    · rcases hretry with (hr | hr) | ⟨hr, _⟩ <;> simp [hr]
    · rcases hbeat with hb | hb <;> simp [hb]
    · rcases hrefresh with hf | hf <;> simp [hf]

theorem startAnswered_coherent (h : Coherent r) (hs : step r (.startAnswered a rest) = some t) :
    Coherent t := by
  simp only [step] at hs
  split at hs
  · rename_i hpc
    have hrun := h.busy (.inr (.inr (.inl hpc)))
    have hinfo := h.asked (.inl hpc)
    obtain ⟨h1, h2, h3⟩ := h.alone hrun (by simp [hpc])
    rcases attempt_cases r a with ⟨_, he⟩ | ⟨_, he⟩ | ⟨_, he⟩ | ⟨_, he⟩
    all_goals rw [he] at hs; cases hs
    · exact finishStart_coherent hrun hinfo (.inl h1) h2 h3
    · exact Alone.coherent ⟨h1, h2, h3⟩ nofun (fun _ => hinfo) (fun _ => rfl) fun _ => hrun
    · have harm : ({ r with registrationStatus := .pending } : Runtime).armRegistrationRetry =
          { r with registrationStatus := .pending, retry := .created } :=
        if_neg (by simpa [retryLive] using h1)
      rw [harm]
      exact finishStart_coherent hrun hinfo (.inr ⟨rfl, rfl⟩) h2 h3
    · exact Alone.coherent ⟨h1, h2, h3⟩ nofun (by simp) nofun (by simp)
  · rename_i hpc
    have hrun := h.busy (.inr (.inr (.inr hpc)))
    have hinfo := h.asked (.inr hpc)
    obtain ⟨h1, h2, h3⟩ := h.alone hrun (by simp [hpc])
    cases hs
    unfold publishModelCatalogue
    split
    · exact finishStart_coherent hrun hinfo (.inl h1) h2 h3
    · exact finishStart_coherent hrun hinfo (.inl h1) h2 h3
  · cases hs

/-- A segment of the heartbeat that moves nothing else. -/
theorem Coherent.beat (h : Coherent r) (hup : r.isRunning = true ∧ r.start = .completed)
    (p : HeartbeatPc) : Coherent { r with heartbeat := p } :=
  { h with sending := fun _ => hup }

/-- The retry task ends. -/
theorem Coherent.retire (h : Coherent r) : Coherent { r with retry := .finished } :=
  { h with trying := nofun, awake := nofun, started := fun _ _ => rfl }

/-- The retry task of a started node that is pending goes on. -/
theorem Coherent.retry (h : Coherent r) (hup : r.isRunning = true ∧ r.start = .completed)
    (hp : r.registrationStatus = .pending) (p : RetryPc) : Coherent { r with retry := p } :=
  { h with
    trying := fun _ _ => ⟨hp, hup.2⟩
    awake := fun _ => hup
    started := fun _ hn => absurd hup.2 hn }

theorem heartbeatWoke_coherent (h : Coherent r) (hs : step r .heartbeatWoke = some t) :
    Coherent t := by
  simp only [step] at hs
  split at hs
  · rename_i hpc
    have hup := h.sending (.inl hpc)
    repeat' split at hs
    all_goals cases hs
    · exact h.beat hup _
    · exact h
    · exact h.beat hup _
  · cases hs

theorem heartbeatMeasured_coherent (h : Coherent r)
    (hs : step r (.heartbeatMeasured built) = some t) : Coherent t := by
  simp only [step] at hs
  split at hs
  · rename_i hpc
    cases hs
    exact h.beat (h.sending (.inr (.inl hpc))) _
  · cases hs

/-- A node that has started may be marked pending, once its retry task is armed. -/
theorem Coherent.rearm (h : Coherent r) (hup : r.isRunning = true ∧ r.start = .completed) :
    Coherent ({ r with registrationStatus := .pending } : Runtime).armRegistrationRetry := by
  have hp : Coherent { r with registrationStatus := .pending } :=
    { h with
      trying := fun _ _ => ⟨rfl, hup.2⟩
      reconciling := fun hpub => by simp [hup.2] at hpub }
  unfold armRegistrationRetry
  split
  · exact hp
  · exact hp.retry hup rfl _

theorem heartbeatAnswered_coherent (h : Coherent r)
    (hs : step r (.heartbeatAnswered a) = some t) : Coherent t := by
  simp only [step] at hs
  split at hs
  · rename_i hpc
    have hup := h.sending (.inr (.inr hpc))
    split at hs <;> cases hs
    · exact (h.beat hup .sleeping).rearm hup
    · exact h.beat hup _
  · cases hs

/-- The retry loop's condition is met by a pending node only. -/
theorem retryTop_coherent (h : Coherent r)
    (hp : r.isRunning = true → r.registrationStatus = .pending ∧ r.start = .completed) :
    Coherent r.retryTop := by
  unfold retryTop
  split
  · rename_i hgo
    exact h.retry ⟨hgo.1, (hp hgo.1).2⟩ (hp hgo.1).1 _
  · exact h.retire

theorem retryWoke_coherent (h : Coherent r) (hs : step r .retryWoke = some t) :
    Coherent t := by
  simp only [step] at hs
  split at hs
  · rename_i hpc
    cases hs
    exact retryTop_coherent h fun hrun => h.trying hrun (.inl hpc)
  · rename_i hpc
    have hup := h.awake (.inl hpc)
    split at hs <;> cases hs
    · exact h.retire
    · exact h.retry hup (h.trying hup.1 (.inr (.inl hpc))).1 _
  · cases hs

theorem retryAnswered_coherent (h : Coherent r) (hs : step r (.retryAnswered a) = some t) :
    Coherent t := by
  simp only [step] at hs
  split at hs
  · rename_i hpc
    have hup := h.awake (.inr (.inl hpc))
    have hp := h.trying hup.1 (.inr (.inr hpc))
    rcases attempt_cases r a with ⟨_, he⟩ | ⟨_, he⟩ | ⟨_, he⟩ | ⟨_, he⟩
    all_goals rw [he] at hs; cases hs
    · exact { h.retire with trying := nofun, reconciling := fun _ => rfl }
    · exact { h.retire with
        trying := nofun
        awake := fun _ => hup
        started := fun _ hn => absurd hup.2 hn
        reconciling := fun _ => rfl }
    · exact retryTop_coherent h fun _ => hp
    · exact h.retire
  · cases hs
    unfold publishModelCatalogue
    split
    · exact { h.retire with }
    · exact h.retire
  · cases hs

/-- A segment of the refresh, which may also record what was pushed. -/
theorem Coherent.refresh (h : Coherent r) (hup : r.isRunning = true ∧ r.start = .completed)
    (p : RefreshPc) : Coherent { r with refresh := p } :=
  { h with refreshing := fun _ _ => hup }

theorem refreshWoke_coherent (h : Coherent r) (hs : step r .refreshWoke = some t) :
    Coherent t := by
  simp only [step] at hs
  split at hs
  · rename_i hpc
    have hup := h.refreshing (by simp [hpc]) (by simp [hpc])
    repeat' split at hs
    all_goals cases hs
    · exact h.refresh hup _
    · exact h
    · exact h.refresh hup _
  · cases hs

theorem refreshListed_coherent (h : Coherent r) (hs : step r (.refreshListed models) = some t) :
    Coherent t := by
  simp only [step] at hs
  split at hs
  · rename_i hpc
    have hup := h.refreshing (by simp [hpc]) (by simp [hpc])
    repeat' split at hs
    all_goals cases hs
    all_goals exact h.refresh hup _
  · cases hs

theorem refreshAnswered_coherent (h : Coherent r)
    (hs : step r (.refreshAnswered a) = some t) : Coherent t := by
  simp only [step] at hs
  split at hs
  · rename_i hpc
    have hup := h.refreshing (by simp [hpc]) (by simp [hpc])
    cases hs
    unfold publishModelCatalogue
    split
    · exact { h.refresh hup _ with }
    · exact h.refresh hup _
  · cases hs

theorem stop_coherent (hs : step r .stop = some t) : Coherent t := by
  simp only [step] at hs
  split at hs
  · rename_i hup
    cases hs
    exact Alone.coherent ⟨rfl, .inl rfl, .inl rfl⟩ nofun (by simp [hup.2]) (by simp [hup.2])
      (by simp [hup.2])
  · cases hs

theorem step_coherent (r : Runtime) (a : Act) (t : Runtime) (h : Coherent r)
    (hs : step r a = some t) : Coherent t := by
  cases a with
  | start => exact start_coherent hs
  | discovered models => exact discovered_coherent h hs
  | probed built => exact probed_coherent h hs
  | startAnswered a rest => exact startAnswered_coherent h hs
  | heartbeatWoke => exact heartbeatWoke_coherent h hs
  | heartbeatMeasured built => exact heartbeatMeasured_coherent h hs
  | heartbeatAnswered a => exact heartbeatAnswered_coherent h hs
  | retryWoke => exact retryWoke_coherent h hs
  | retryAnswered a => exact retryAnswered_coherent h hs
  | refreshWoke => exact refreshWoke_coherent h hs
  | refreshListed models => exact refreshListed_coherent h hs
  | refreshAnswered a => exact refreshAnswered_coherent h hs
  | stop => exact stop_coherent hs

/-- A heartbeat's answer costs the retry task only when it is past its last attempt. -/
theorem heartbeat_keeps (h : Coherent r) (hk : KeepsTrying r)
    (hs : step r (.heartbeatAnswered a) = some t) :
    KeepsTrying t ↔ Calm r (.heartbeatAnswered a) := by
  have h4 := h.informed
  have h5 := h.sending
  simp only [step] at hs
  split at hs
  · rename_i hsend
    split at hs
    · rename_i ha
      subst ha
      cases hs
      have hup := h5 (.inr (.inr hsend))
      have hinfo := h4 hup.1 hup.2
      cases hr : r.retry <;>
        simp [Calm, KeepsTrying, Trying, armRegistrationRetry, retryLive, hr, hup, hinfo]
    · rename_i ha
      have hcalm : Calm r (.heartbeatAnswered a) := by
        unfold Calm
        split
        · cases ‹Act.heartbeatAnswered a = _›
        · rename_i he
          cases he
          exact absurd rfl ha
        · trivial
      cases hs
      exact ⟨fun _ => hcalm, fun _ => hk⟩
  · cases hs

/-- The retry task's own answer costs it the attempt only when it raises. -/
theorem retry_keeps (h : Coherent r) (hk : KeepsTrying r)
    (hs : step r (.retryAnswered a) = some t) : KeepsTrying t ↔ Calm r (.retryAnswered a) := by
  obtain ⟨h1, h2, _, h4, _, _, _, _, _⟩ := h
  simp only [step] at hs
  split at hs
  · rename_i hreg
    rcases attempt_cases r a with ⟨ha, he⟩ | ⟨ha, he⟩ | ⟨⟨s, _, ha⟩, he⟩ | ⟨ha, he⟩
    all_goals
      rw [he] at hs
      cases hs
      subst ha
      simp only [Calm, KeepsTrying, Trying]
      grind [retryTop]
  · rename_i hpub
    have hcalm : Calm r (.retryAnswered a) := by
      unfold Calm
      split
      · rw [hpub]
        exact nofun
      · trivial
      · trivial
    cases hs
    simp only [hcalm, iff_true, KeepsTrying, Trying]
    grind [publishModelCatalogue, KeepsTrying, Trying]
  · cases hs

/-- From a state that keeps trying, a step leads to one exactly if it is calm. -/
theorem step_keeps (r : Runtime) (a : Act) (t : Runtime) (h : Coherent r) (hk : KeepsTrying r)
    (hs : step r a = some t) : KeepsTrying t ↔ Calm r a := by
  cases a with
  | heartbeatAnswered a => exact heartbeat_keeps h hk hs
  | retryAnswered a => exact retry_keeps h hk hs
  | startAnswered a rest =>
    refine iff_of_true ?_ trivial
    obtain ⟨_, _, h3, _, _, _, h7, h9, h8⟩ := h
    simp only [step] at hs
    split at hs
    · rcases attempt_cases r a with ⟨_, he⟩ | ⟨_, he⟩ | ⟨_, he⟩ | ⟨_, he⟩
      all_goals rw [he] at hs; cases hs
      all_goals grind [KeepsTrying, Trying, retryLive, finishStart, armRegistrationRetry]
    · rename_i hpub
      have hstatus := h9 hpub
      cases hs
      grind [KeepsTrying, finishStart, publishModelCatalogue]
    · cases hs
  | start =>
    refine iff_of_true ?_ trivial
    simp only [step] at hs
    split at hs <;> cases hs
    grind [KeepsTrying]
  | retryWoke =>
    refine iff_of_true ?_ trivial
    obtain ⟨h1, h2, _, h4, _, _, _, _, _⟩ := h
    simp only [step, retryTop] at hs
    repeat' split at hs
    all_goals cases hs
    all_goals grind [KeepsTrying, Trying]
  | _ =>
    refine iff_of_true ?_ trivial
    simp only [step, refreshTop, publishModelCatalogue] at hs
    repeat' split at hs
    all_goals cases hs
    all_goals grind [KeepsTrying, Trying]

theorem init_keeps : KeepsTrying init := nofun

/-- A node that is pending keeps trying to register throughout a run exactly when
every step of the run is calm. -/
theorem pending_keeps_trying {as : List Act} {r : Runtime} (hr : exec step init as = some r) :
    Throughout step KeepsTrying init as ↔ Along step Calm init as :=
  throughout_iff_along step_coherent step_keeps init_coherent init_keeps hr

/-- What `Trying` is for: the task's own next segments make the attempt. -/
theorem Trying.attempts (ht : Trying r) (hrun : r.isRunning = true)
    (hp : r.registrationStatus = .pending) :
    ∃ as t, exec step r as = some t ∧ t.retry = .registering ∧ as.length ≤ 2 := by
  obtain ⟨hc | hs | hg, hinfo⟩ := ht
  · refine ⟨[.retryWoke, .retryWoke], { r with retry := .registering }, ?_, rfl, Nat.le_refl 2⟩
    simp [exec, step, hc, retryTop, hrun, hp, hinfo]
  · refine ⟨[.retryWoke], { r with retry := .registering }, ?_, rfl, by decide⟩
    simp [exec, step, hs, hrun, hinfo]
  · exact ⟨[], r, rfl, hg, by decide⟩

/-- The Scheduler is down at startup; the retry is answered 409 and pushes the
catalogue; a heartbeat sent meanwhile is answered 404. -/
def forgotten : List Act :=
  [.start, .discovered (some []), .probed true, .startAnswered (.error none) true, .retryWoke,
    .retryWoke, .retryAnswered (.error (some 409)), .heartbeatWoke, .heartbeatMeasured true,
    .heartbeatAnswered (.error (some 404)), .retryAnswered (.error (some 404))]

/-- A run without the two losses: the first registration succeeds. -/
theorem pending_keeps_trying_registered :
    Throughout step KeepsTrying init
        [.start, .discovered (some []), .probed true, .startAnswered .ok true] ↔
      Along step Calm init
        [.start, .discovered (some []), .probed true, .startAnswered .ok true] :=
  pending_keeps_trying rfl

/-- The node ends up pending with no retry task left. -/
theorem forgotten_never_retries :
    ¬ ∀ as r, exec step init as = some r → KeepsTrying r := by
  intro h
  have hk := h forgotten _ rfl rfl rfl rfl
  exact absurd hk.1 (by decide)

end PublicIntelligence.Node.Runtime
