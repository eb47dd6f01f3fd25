import Mathlib.Tactic.Linarith
import PublicIntelligence.System.Ingress

namespace PublicIntelligence.System

open Runs Text Encoding Mesh Scheduler ZenohRouter

namespace Fleet

section
variable (env : RouterEnv)

/-- The node whose heartbeat a sample brings, if it verifies and is accepted. -/
def verifies (s : Fleet) (payload : Bytes) (keyExpr : Text) : Option Text :=
  (decode payload).bind fun raw =>
    (s.router.verifiedHeartbeat env (s.encryptions env) raw keyExpr).map fun accepted => accepted.1.nodeId

end

section
variable {env : RouterEnv} {s t : Fleet}

/-- A sample that verifies dates its node, and no sample does anything else to the dates. -/
theorem hear_lastVerified (env : RouterEnv) (s : Fleet) (payload : Bytes) (keyExpr : Text) :
    (s.hear env payload keyExpr).router.lastVerified =
      match s.verifies env payload keyExpr with
      | none => s.router.lastVerified
      | some n => s.router.lastVerified.set n s.clock := by
  unfold hear verifies
  cases decode payload with
  | none => rfl
  | some raw =>
    simp only [processHeartbeat, Option.bind_some]
    cases s.router.verifiedHeartbeat env (s.encryptions env) raw keyExpr with
    | none => rfl
    | some accepted => rfl

theorem evictIfStale_lastVerified {r : ZenohRouter}
    (hv : (r.evictIfStale env now m).lastVerified.get? n = some v) : r.lastVerified.get? n = some v := by
  obtain ⟨he, _⟩ | ⟨he, _⟩ := evictIfStale_cases env now r m
  · rwa [he] at hv
  · rw [he] at hv
    exact Dict.of_get?_pop hv

/-- Only a heartbeat dates a node anew. -/
theorem lastVerified_step (h : step env s a = some t) (ha : ∀ payload keyExpr, a ≠ .heartbeat payload keyExpr)
    (hv : t.router.lastVerified.get? n = some v) : s.router.lastVerified.get? n = some v := by
  cases a with
  | tick seconds =>
    simp only [step, Option.ite_none_right_eq_some, Option.some.injEq] at h
    obtain ⟨_, rfl⟩ := h
    exact hv
  | register node token =>
    cases h
    unfold registerNode at hv
    dsimp only at hv
    split at hv <;> exact hv
  | unregister nodeId =>
    cases h
    unfold unregisterNode at hv
    dsimp only at hv
    split at hv <;> exact hv
  | restart =>
    cases h
    cases hv
  | sealed sealing =>
    cases h
    exact hv
  | heartbeat payload keyExpr => exact absurd rfl (ha payload keyExpr)
  | telemetry payload keyExpr wall =>
    cases h
    unfold measure processTelemetry at hv
    split at hv
    · exact hv
    · dsimp only at hv
      split at hv <;> exact hv
  | liveliness kind keyExpr =>
    cases h
    unfold processLiveliness at hv
    dsimp only at hv
    split at hv
    · exact evictIfStale_lastVerified hv
    · exact hv
  | sweepStarts =>
    simp only [step, Option.ite_none_right_eq_some, Option.some.injEq] at h
    obtain ⟨_, rfl⟩ := h
    exact hv
  | sweepNext =>
    simp only [step] at h
    split at h
    · cases h
    · cases h
      exact evictIfStale_lastVerified hv

theorem clock_step (h : step env s a = some t) : s.clock ≤ t.clock := by
  cases a with
  | tick seconds =>
    simp only [step, Option.ite_none_right_eq_some, Option.some.injEq] at h
    obtain ⟨hpos, rfl⟩ := h
    exact le_add_of_nonneg_right hpos
  | register node token =>
    cases h
    exact le_refl _
  | unregister nodeId =>
    cases h
    exact le_refl _
  | restart =>
    cases h
    exact le_refl _
  | sealed sealing =>
    cases h
    exact le_refl _
  | heartbeat payload keyExpr =>
    cases h
    unfold hear
    split <;> exact le_refl _
  | telemetry payload keyExpr wall =>
    cases h
    unfold measure
    split <;> exact le_refl _
  | liveliness kind keyExpr =>
    cases h
    exact le_refl _
  | sweepStarts =>
    simp only [step, Option.ite_none_right_eq_some, Option.some.injEq] at h
    obtain ⟨_, rfl⟩ := h
    exact le_refl _
  | sweepNext =>
    simp only [step] at h
    split at h
    · cases h
    · cases h
      exact le_refl _

end
end Fleet

/-- A Scheduler, and for each node the time at which it last sealed a heartbeat of its own. -/
structure Vigil where
  fleet : Fleet
  latest : Text → Option ℚ

namespace Vigil

/-- A node seals a heartbeat, or anything else happens, the sealings of others included. -/
inductive Act where
  | beats (nodeId token : Text) (iv plaintext : Bytes)
  | fleet (a : Fleet.Act)

section
variable (env : RouterEnv) (window : ℚ)

def step : Step Vigil Act
  | s, .beats nodeId token iv plaintext =>
    (Fleet.step env s.fleet (.sealed ⟨token, nodeId, .heartbeat, iv, plaintext⟩)).map fun fleet =>
      ⟨fleet, Fleet.setAt s.latest nodeId s.fleet.clock⟩
  | s, .fleet a => (Fleet.step env s.fleet a).map fun fleet => { s with fleet }

def start (store : SQLiteStore) (clock : ℚ) : Vigil := ⟨.start store clock, fun _ => none⟩

/-- No node is dated later than `window` after its latest sealing, and a sweep removes
each node whose last sealing is `node_stale_after_seconds` and that window ago. -/
structure Watchful (s : Vigil) : Prop where
  dated : ∀ n v, s.fleet.router.lastVerified.get? n = some v → ∃ x, s.latest n = some x ∧ v ≤ x + window
  swept : ∀ n, (∀ x, s.latest n = some x → x + window + env.nodeStaleAfter ≤ s.fleet.clock) →
    n ∉ (s.fleet.router.sweepStaleNodes env s.fleet.clock).registry.nodes

/-- A heartbeat sample that verifies arrives within `window` of its node's latest sealing. -/
def Prompt (s : Vigil) : Act → Prop
  | .fleet (.heartbeat payload keyExpr) => ∀ n ∈ s.fleet.verifies env payload keyExpr,
      ∃ x ∈ s.latest n, s.fleet.clock ≤ x + window
  | _ => True

end

instance decidablePrompt (env : RouterEnv) (window : ℚ) (s : Vigil) :
    (a : Act) → Decidable (Prompt env window s a)
  | .fleet (.heartbeat _ _) => inferInstanceAs (Decidable (∀ n ∈ _, ∃ x ∈ s.latest n, _ ≤ _))
  | .beats .. | .fleet (.tick _) | .fleet (.register ..) | .fleet (.unregister _) | .fleet .restart
  | .fleet (.sealed _) | .fleet (.telemetry ..) | .fleet (.liveliness ..) | .fleet .sweepStarts
  | .fleet .sweepNext => inferInstanceAs (Decidable True)

/-- Nobody has sealed in the future. -/
def Past (s : Vigil) : Prop := ∀ n x, s.latest n = some x → x ≤ s.fleet.clock

section
variable {env : RouterEnv} {window : ℚ} {s t : Vigil}

theorem past_step (hp : Past s) (h : step env s a = some t) : Past t := by
  cases a with
  | beats nodeId token iv plaintext =>
    cases h
    intro n x hx
    simp only [Fleet.setAt] at hx
    split at hx
    · cases hx
      exact le_refl _
    · exact hp n x hx
  | fleet a =>
    obtain ⟨fleet, hf, rfl⟩ := Option.map_eq_some_iff.mp h
    exact fun n x hx => (hp n x hx).trans (Fleet.clock_step hf)

/-- The dates decide what a sweep removes. -/
theorem watchful_iff : Watchful env window s ↔
    ∀ n v, s.fleet.router.lastVerified.get? n = some v → ∃ x, s.latest n = some x ∧ v ≤ x + window := by
  refine ⟨Watchful.dated, fun hd => ⟨hd, fun n hlong hn => ?_⟩⟩
  have hstale : s.fleet.router.fresh env s.fleet.clock n = false := by
    unfold fresh
    cases hv : s.fleet.router.lastVerified.get? n with
    | none => rfl
    | some v =>
      obtain ⟨x, hx, hle⟩ := hd n v hv
      have hx := hlong x hx
      simp only [Option.any_some, decide_eq_false_iff_not, not_lt]
      linarith
  by_cases hreg : n ∈ s.fleet.router.registry.nodes
  · exact sweepStaleNodes_evicts env s.fleet.clock hstale hreg hn
  · exact sweep_not_mem env s.fleet.clock hreg _ hn

/-- Dates that were there before are as good as they were. -/
theorem Watchful.keep (hw : Watchful env window s) (hlatest : t.latest = s.latest)
    (hold : ∀ n v, t.fleet.router.lastVerified.get? n = some v → s.fleet.router.lastVerified.get? n = some v) :
    Watchful env window t := by
  refine watchful_iff.mpr fun n v hv => ?_
  rw [hlatest]
  exact hw.dated n v (hold n v hv)

theorem watchful_hear (hw : Watchful env window s) (payload : Bytes) (keyExpr : Text) :
    Watchful env window { s with fleet := s.fleet.hear env payload keyExpr } ↔
      Prompt env window s (.fleet (.heartbeat payload keyExpr)) := by
  have hset := Fleet.hear_lastVerified env s.fleet payload keyExpr
  rw [watchful_iff]
  simp only [Prompt, hset]
  cases s.fleet.verifies env payload keyExpr with
  | none => exact iff_of_true hw.dated (fun n hn => absurd hn (Option.not_mem_none n))
  | some m =>
    simp only [Option.mem_some_iff, forall_eq']
    constructor
    · exact fun h => h m s.fleet.clock (Dict.get?_set_self ..)
    · intro hm n v hv
      rw [Dict.get?_set] at hv
      split at hv
      · rename_i hmn
        subst hmn
        cases hv
        exact hm
      · exact hw.dated n v hv

/-- A step from a watchful state leads to one exactly if it is prompt. -/
theorem watchful_step (hp : Past s) (hw : Watchful env window s) (h : step env s a = some t) :
    Watchful env window t ↔ Prompt env window s a := by
  cases a with
  | beats nodeId token iv plaintext =>
    cases h
    refine iff_of_true (watchful_iff.mpr fun n v hv => ?_) trivial
    obtain ⟨x, hx, hle⟩ := hw.dated n v hv
    simp only [Fleet.setAt]
    split
    · rename_i hn
      subst hn
      -- a new sealing is no earlier than the one before
      exact ⟨s.fleet.clock, rfl, hle.trans (add_le_add_left (hp n x hx) window)⟩
    · exact ⟨x, hx, hle⟩
  | fleet a =>
    obtain ⟨fleet, hf, rfl⟩ := Option.map_eq_some_iff.mp h
    by_cases ha : ∃ payload keyExpr, a = .heartbeat payload keyExpr
    · obtain ⟨payload, keyExpr, rfl⟩ := ha
      cases hf
      exact watchful_hear hw payload keyExpr
    · have hother : ∀ payload keyExpr, a ≠ .heartbeat payload keyExpr := fun p k hk => ha ⟨p, k, hk⟩
      refine iff_of_true (hw.keep rfl fun n v hv => Fleet.lastVerified_step hf hother hv) ?_
      cases a with
      | heartbeat payload keyExpr => exact absurd rfl (hother payload keyExpr)
      | _ => trivial

theorem watchful_start (env : RouterEnv) (window : ℚ) (store : SQLiteStore) (clock : ℚ) :
    Watchful env window (start store clock) :=
  watchful_iff.mpr fun n v hv => absurd hv (by simp [start, Fleet.start])

end

/-- For each window: along every run the dates keep to it exactly if every heartbeat sample
that verifies arrives within it. -/
theorem watchful_iff_prompt {env : RouterEnv} {window : ℚ} {store : SQLiteStore} {clock : ℚ}
    {run : List Act} {s : Vigil} (hrun : exec (step env) (start store clock) run = some s) :
    Throughout (step env) (Watchful env window) (start store clock) run ↔
      Along (step env) (Prompt env window) (start store clock) run :=
  throughout_iff_along (fun _ _ _ hp h => past_step hp h) (fun _ _ _ hp hw h => watchful_step hp hw h)
    (fun _ _ h => by cases h) (watchful_start env window store clock) hrun

/-- One heartbeat of the node `n1`, sealed with its token. -/
def sampleBeat : Sealing where
  token := text "secret"
  nodeId := text "n1"
  purpose := .heartbeat
  iv := [1, 2, 3, 4, 5, 6, 7, 8, 9, 10, 11, 12]
  plaintext := (encode (text "\x7b\"node_id\": \"n1\", " ++
    text "\"timestamp\": \"2026-01-01T00:00:00Z\", " ++ text "\"status\": \"online\", " ++
    text "\"queue_length\": 0, " ++ text "\"cpu_utilization\": 12.5, " ++
    text "\"ram_available_gb\": 24.0, " ++ text "\"gpu_utilization\": 0.0, " ++
    text "\"vram_available_gb\": 22.5\x7d")).getD []

/-- SHA-256 where it is needed. -/
def sampleSha256 : Bytes → Bytes :=
  known [((encode (text "secret|public-intelligence|mesh|v1|heartbeat")).getD [],
    [168, 184, 95, 206, 184, 131, 114, 179, 20, 124, 216, 135, 17, 109, 133, 173, 188, 111, 52, 88,
      129, 191, 64, 88, 221, 82, 29, 178, 233, 158, 136, 138])]

/-- AES-256-GCM on what `sampleBeat` encrypts. -/
def sampleGcm (e : Encryption) : Bytes :=
  if some e = sampleBeat.encryption ⟨sampleSha256, .ideal fun _ => []⟩ then
    [142, 122, 147, 201, 34, 170, 237, 19, 126, 245, 157, 76, 226, 10, 43, 231, 60, 129, 255, 225, 160,
      60, 77, 174, 174, 83, 131, 108, 237, 229, 185, 218, 180, 111, 124, 171, 104, 54, 237, 143, 76,
      197, 70, 74, 98, 13, 9, 67, 153, 248, 151, 89, 36, 62, 118, 209, 255, 135, 123, 76, 58, 137, 62,
      107, 78, 5, 19, 89, 176, 120, 51, 245, 192, 150, 55, 218, 0, 142, 196, 167, 2, 32, 175, 227, 216,
      240, 226, 221, 12, 190, 68, 0, 15, 92, 124, 2, 236, 190, 148, 13, 148, 88, 46, 64, 25, 176, 90,
      117, 132, 213, 157, 244, 93, 227, 59, 185, 239, 231, 114, 136, 173, 178, 138, 193, 36, 81, 212,
      26, 41, 25, 216, 215, 201, 159, 136, 227, 146, 146, 157, 110, 210, 119, 204, 210, 136, 186, 130,
      195, 38, 125, 149, 231, 184, 216, 223, 26, 237, 128, 231, 192, 179, 224, 209, 118, 115, 234, 238,
      17, 119, 115, 189, 216, 102, 159, 138, 31, 246, 43, 154, 241, 68, 174, 64, 211, 165, 101, 47, 86,
      142, 82, 98, 100, 67, 65, 168, 111, 63, 97, 18, 69, 166, 25, 17, 96, 43, 117, 197, 150, 13, 197,
      215]
  else e.plaintext

/-- The validation of a heartbeat whose fields have their types. -/
def sampleEnv : RouterEnv where
  crypto := ⟨sampleSha256, .ideal sampleGcm⟩
  validate fields :=
    match Json.get? fields "node_id" with
    | some (.str nodeId) => some ⟨nodeId, fields⟩
    | _ => none
  fromTimestamp := fun _ => none
  fromIsoformat := fun _ => none
  nodeStaleAfter := 90

/-- The payload that carries it. -/
def samplePayload : Bytes := ((sampleBeat.envelope sampleEnv.crypto).bind encode).getD []

/-- The node registers and seals one heartbeat. -/
def oneBeat : List Act :=
  [.fleet (.register ⟨text "n1", []⟩ (some (text "secret"))),
    .beats sampleBeat.nodeId sampleBeat.token sampleBeat.iv sampleBeat.plaintext]

/-- What somebody who has recorded the heartbeat does some time later. -/
def playback (seconds : ℚ) : List Act :=
  [.fleet (.tick seconds), .fleet (.heartbeat samplePayload (Fleet.topic .heartbeat (text "n1")))]

theorem one_beat : ∃ s, exec (step sampleEnv) (start Fleet.emptyStore 0) oneBeat = some s ∧
    s.fleet.verifies sampleEnv samplePayload (Fleet.topic .heartbeat (text "n1")) = some (text "n1") ∧
      s.latest (text "n1") = some 0 ∧ s.fleet.clock = 0 := by
  have hrun : (exec (step sampleEnv) (start Fleet.emptyStore 0) oneBeat).map (fun s =>
    (s.fleet.verifies sampleEnv samplePayload (Fleet.topic .heartbeat (text "n1")), s.latest (text "n1"),
      s.fleet.clock)) = some (some (text "n1"), some 0, 0) := by decide +kernel
  obtain ⟨s, hs, hend⟩ := Option.map_eq_some_iff.mp hrun
  simp only [Prod.mk.injEq] at hend
  exact ⟨s, hs, hend⟩

/-- However late it is played back, the heartbeat verifies and dates the node. -/
theorem playback_dates (hlong : 0 ≤ seconds) : ∃ s,
    exec (step sampleEnv) (start Fleet.emptyStore 0) (oneBeat ++ playback seconds) = some s ∧
      s.latest (text "n1") = some 0 ∧ s.fleet.router.lastVerified.get? (text "n1") = some seconds := by
  obtain ⟨s, hs, hverifies, hlatest, hclock⟩ := one_beat
  -- whether the envelope verifies does not depend on the clock
  let late : Fleet := { s.fleet with clock := s.fleet.clock + seconds }
  have htick : step sampleEnv s (.fleet (.tick seconds)) = some { s with fleet := late } := by
    simp only [step, Fleet.step, if_pos hlong]
    rfl
  have hset := Fleet.hear_lastVerified sampleEnv late samplePayload (Fleet.topic .heartbeat (text "n1"))
  have hlate : late.verifies sampleEnv samplePayload (Fleet.topic .heartbeat (text "n1")) = some (text "n1") :=
    hverifies
  rw [hlate] at hset
  refine ⟨_, exec_append.mpr ⟨s, hs, exec_cons.mpr ⟨_, htick, rfl⟩⟩, hlatest, ?_⟩
  rw [hset, Dict.get?_set_self]
  simp [late, hclock]

theorem watchful_iff_prompt_sample : ∃ s,
    exec (step sampleEnv) (start Fleet.emptyStore 0) (oneBeat ++ playback 40) = some s ∧
      ¬ Along (step sampleEnv) (Prompt sampleEnv 30) (start Fleet.emptyStore 0) (oneBeat ++ playback 40) := by
  obtain ⟨s, hs, hlatest, hdate⟩ := playback_dates (show (0 : ℚ) ≤ 40 by norm_num)
  refine ⟨s, hs, fun hprompt => ?_⟩
  have hend := throughout_end ((watchful_iff_prompt hs).mpr hprompt) hs
  obtain ⟨x, hx, hle⟩ := hend.dated (text "n1") 40 hdate
  cases hlatest.symm.trans hx
  norm_num at hle

/-- So no window bounds the date of a node that has stopped sealing. -/
theorem playback_outlasts_window : ¬ ∃ window : ℚ, ∀ (run : List Act) (s : Vigil),
    exec (step sampleEnv) (start Fleet.emptyStore 0) run = some s → Watchful sampleEnv window s := by
  rintro ⟨window, hall⟩
  have hlong : 0 ≤ max window 0 + 1 := by
    have hmax := le_max_right window 0
    linarith
  obtain ⟨s, hs, hlatest, hdate⟩ := playback_dates hlong
  obtain ⟨x, hx, hle⟩ := (hall _ s hs).dated (text "n1") _ hdate
  cases hlatest.symm.trans hx
  have hmax := le_max_left window 0
  linarith

end Vigil
end PublicIntelligence.System
