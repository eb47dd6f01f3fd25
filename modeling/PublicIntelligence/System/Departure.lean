import PublicIntelligence.Scheduler.Keys
import PublicIntelligence.System.Eviction
import PublicIntelligence.System.LoadFeedback
import PublicIntelligence.System.Vigil

namespace PublicIntelligence.System

open Runs Text Encoding Json Mesh Scheduler ZenohRouter

/-- A Scheduler: the router with its registry, and the canary verifier. The last two fields
are history: of which nodes a canary check was recorded, and of which a heartbeat was
verified, since the process started. A node that the router evicts is no longer heard. -/
structure Service (τ : Type) where
  fleet : Fleet
  canary : CanaryVerifier τ
  checked : Text → Bool
  heard : Text → Bool

namespace Service

inductive Act (τ : Type) where
  | fleet (a : Fleet.Act)
  | heartbeat (h : Heartbeat)
  | update (node : Node)
  | setAvailableModels (nodeId : Text) (models : List Text)
  | clear
  | check (now : τ) (nodeId : Text) (canary : Canary) (response : Text)
  | forget (nodeId : Text)
  | scheduleTask (task : Fields) (uuid : Text)
  | schedulePipeline (task : Fields) (uuid : Text)
  | scheduleSplitInferencePipeline (task : Fields) (totalLayers : Int)
  | selectNode (modelName : Text)

def registry (s : Service τ) : NodeRegistry := s.fleet.router.registry

def withRouter (s : Service τ) (router : ZenohRouter) : Service τ := { s with fleet := { s.fleet with router } }

def withRegistry (s : Service τ) (registry : NodeRegistry) : Service τ :=
  s.withRouter { s.fleet.router with registry }

/-- A Scheduler that has just started on a store. -/
def start (store : SQLiteStore) (clock : ℚ) : Service τ where
  fleet := .start store clock
  canary := .new none
  checked _ := false
  heard _ := false

def mark (f : Text → Bool) (nodeId : Text) (b : Bool) : Text → Bool := fun n => if n = nodeId then b else f n

section
variable (env : RouterEnv) (num : Numbers ν) (sha256 : Bytes → Bytes)

/-- The heartbeat that a payload brings to the router, if it verifies. -/
def heartbeatOf (s : Fleet) (payload : Bytes) (keyExpr : Text) : Option (Heartbeat × NodeRegistry) :=
  (decode payload).bind fun raw => s.router.verifiedHeartbeat env (s.encryptions env) raw keyExpr

/-- The nodes that are heard once a step has led to `t`. -/
def hearing (s : Service τ) (t : Fleet) : Fleet.Act → Text → Bool
  | .restart => fun _ => false
  | .heartbeat payload keyExpr =>
    match heartbeatOf env s.fleet payload keyExpr with
    | none => s.heard
    | some (heartbeat, _) => mark s.heard heartbeat.nodeId true
  | .liveliness _ _ | .sweepNext => fun n =>
    s.heard n && !(decide (n ∈ s.registry.nodes) && decide (n ∉ t.router.registry.nodes))
  | _ => s.heard

/-- The mesh and the API's register and unregister; a restart loses what was found of the nodes. -/
def onFleet (s : Service τ) (a : Fleet.Act) (t : Fleet) : Service τ :=
  let heard := hearing env s t a
  match a with
  | .restart => { fleet := t, canary := .new none, checked := fun _ => false, heard }
  | _ => { s with fleet := t, heard }

def step : Step (Service τ) (Act τ)
  | s, .fleet a => (s.fleet.step env a).map (s.onFleet env a)
  | s, .heartbeat h => some (s.withRegistry ((s.registry.updateHeartbeat h).getD s.registry))
  | s, .update node =>
    match s.registry.update node with
    | none => some s
    | some registry => some (s.withRouter { s.fleet.router with registry, store := s.fleet.router.store.saveNode node })
  | s, .setAvailableModels nodeId models =>
    match s.registry.setAvailableModels nodeId models with
    | none => some s
    | some (updated, registry) =>
      some (s.withRouter { s.fleet.router with registry, store := s.fleet.router.store.saveNode updated })
  | s, .clear => some (s.withRouter { s.fleet.router with registry := .empty, store := s.fleet.router.store.clearNodes })
  | s, .check now nodeId canary response => some { s with
      canary := (s.canary.record num.lower now nodeId canary response).1
      checked := mark s.checked nodeId true }
  | s, .forget nodeId => some { s with canary := s.canary.forget nodeId, checked := mark s.checked nodeId false }
  | s, .scheduleTask task uuid =>
    some (s.withRegistry (Scheduler.scheduleTask num sha256 s.canary task uuid s.registry).1)
  | s, .schedulePipeline task uuid =>
    some (s.withRegistry (Scheduler.schedulePipeline num sha256 s.canary task uuid s.registry).1)
  | s, .scheduleSplitInferencePipeline task totalLayers =>
    some (s.withRegistry (Scheduler.scheduleSplitInferencePipeline num s.canary task totalLayers s.registry).1)
  | s, .selectNode modelName => some (s.withRegistry (Scheduler.selectNode num modelName s.registry).1)

/-- The node that a step registers again: it was registered before, and has left. -/
def returning (s : Service τ) : Act τ → Option Text
  | .fleet (.register node _) =>
    if node.nodeId ∉ s.registry.nodes ∧ (s.fleet.arrived node.nodeId).isSome = true then some node.nodeId else none
  | _ => none

/-- What the Scheduler has of a node that it has never seen before. -/
structure Unseen (s : Service τ) (n : Text) : Prop where
  heartbeat : s.registry.heartbeats.get? n = none
  telemetry : s.registry.telemetry.get? n = none
  mesh : s.registry.isMeshReachable n = false
  lastVerified : s.fleet.router.lastVerified.get? n = none
  dampener : s.registry.dampeners.get? n = some 0
  verdict : s.canary.state.get? n = none

/-- A node that registers again is as one never seen before. -/
def StartsAnew (s : Service τ) (a : Act τ) : Prop :=
  ∀ n ∈ returning s a, ∀ t, step env num sha256 s a = some t → Unseen t n

/-- A node that registers again was not checked, and not heard since it was last evicted. -/
def Unknown (s : Service τ) (a : Act τ) : Prop :=
  ∀ n ∈ returning s a, s.checked n = false ∧ s.heard n = false

instance (s : Service τ) (a : Act τ) : Decidable (Unknown s a) :=
  inferInstanceAs (Decidable (∀ n ∈ returning s a, _ ∧ _))

end

/-- The history tells what the router and the verifier have on record. -/
structure Tracked (s : Service τ) : Prop where
  keyed : s.registry.Keyed
  heard : ∀ n, n ∈ s.fleet.router.lastVerified ↔ s.heard n = true
  checked : ∀ n, n ∈ s.canary.state ↔ s.checked n = true

section
variable {env : RouterEnv} {num : Numbers ν} {sha256 : Bytes → Bytes} {s t : Service τ}

theorem mark_eq_true {f : Text → Bool} : mark f m true n = true ↔ n = m ∨ f n = true := by
  unfold mark
  split
  · rename_i hn
    exact iff_of_true rfl (.inl hn)
  · rename_i hn
    rw [or_iff_right hn]

theorem mark_false_eq_true {f : Text → Bool} : mark f m false n = true ↔ n ≠ m ∧ f n = true := by
  unfold mark
  split
  · rename_i hn
    exact iff_of_false nofun fun h => h.1 hn
  · rename_i hn
    rw [and_iff_right hn]

/-- A step that touches the registry alone keeps the history true. -/
theorem Tracked.withRegistry (h : Tracked s) {registry : NodeRegistry} (hkeyed : registry.Keyed) :
    Tracked (s.withRegistry registry) := ⟨hkeyed, h.heard, h.checked⟩

theorem keyed_registerNode (h : s.registry.Keyed) (node : Node) (token : Option Text) :
    (Fleet.registerNode s.fleet.router node token).registry.Keyed := by
  unfold Fleet.registerNode
  dsimp only
  have htoken := NodeRegistry.Keyed.setNodeToken h node.nodeId token
  split
  · exact htoken
  · rename_i hreg
    exact htoken.localRegister hreg

theorem keyed_hear (h : s.registry.Keyed) (payload : Bytes) (keyExpr : Text) :
    (s.fleet.hear env payload keyExpr).router.registry.Keyed := by
  unfold Fleet.hear
  split
  · exact h
  · simp only [processHeartbeat]
    split
    · exact h
    · rename_i hv
      obtain ⟨_, hreg, _⟩ := verifiedHeartbeat_eq_some hv
      have hbeat := NodeRegistry.Keyed.updateHeartbeat h hreg
      obtain ⟨hn, rfl⟩ := NodeRegistry.updateHeartbeat_eq_some.mp hreg
      exact hbeat.markMeshReachable hn

theorem keyed_measure (h : s.registry.Keyed) (payload : Bytes) (keyExpr : Text) (wall : ℚ) :
    (s.fleet.measure env payload keyExpr wall).router.registry.Keyed := by
  unfold Fleet.measure
  split
  · exact h
  · simp only [processTelemetry]
    split
    · exact h
    · rename_i hv
      obtain ⟨_, hopen⟩ := verifiedTelemetry_eq_some hv
      have hn := (openFromNode_eq_some hopen).1
      exact (NodeRegistry.Keyed.setTelemetry h hn _).markMeshReachable hn

theorem keyed_evictIfStale (h : s.registry.Keyed) (n : Text) :
    (s.fleet.router.evictIfStale env s.fleet.clock n).registry.Keyed := by
  obtain ⟨he, _⟩ | ⟨he, _⟩ := evictIfStale_cases env s.fleet.clock s.fleet.router n
  · rw [he]
    exact h
  · rw [he]
    exact h.localUnregisterNode n

/-- A check for staleness forgets the last heartbeat of a node exactly if it evicts the node. -/
theorem evictIfStale_lastVerified (r : ZenohRouter) (now : ℚ) (m : Text) :
    n ∈ (r.evictIfStale env now m).lastVerified ↔ n ∈ r.lastVerified ∧
      ¬ (n ∈ r.registry.nodes ∧ n ∉ (r.evictIfStale env now m).registry.nodes) := by
  obtain ⟨he, _⟩ | ⟨he, _, hreg⟩ := evictIfStale_cases env now r m
  · rw [he]
    exact ⟨fun h => ⟨h, fun hn => hn.2 hn.1⟩, And.left⟩
  · rw [he]
    refine Dict.mem_pop.trans (and_comm.trans (and_congr_right fun _ => ?_))
    constructor
    · intro hne hn
      exact hn.2 (Table.mem_pop.mpr ⟨hne, hn.1⟩)
    · rintro hn rfl
      exact hn ⟨hreg, fun hm => (Table.mem_pop.mp hm).1 rfl⟩

theorem Tracked.kept (h : Tracked s) {u : Fleet} (hkeyed : u.router.registry.Keyed)
    (hlast : u.router.lastVerified = s.fleet.router.lastVerified) : Tracked { s with fleet := u } :=
  ⟨hkeyed, fun n => by rw [hlast]; exact h.heard n, h.checked⟩

/-- A node that is evicted is no longer heard. -/
theorem Tracked.evicts (h : Tracked s) {u : Fleet}
    (hu : u.router = s.fleet.router ∨ ∃ m, u.router = s.fleet.router.evictIfStale env s.fleet.clock m) :
    Tracked { s with
      fleet := u
      heard := fun n => s.heard n && !(decide (n ∈ s.registry.nodes) && decide (n ∉ u.router.registry.nodes)) } := by
  have hkeyed : u.router.registry.Keyed := by
    rcases hu with he | ⟨m, he⟩
    · exact he ▸ h.keyed
    · exact he ▸ keyed_evictIfStale h.keyed m
  have hlast : ∀ n, n ∈ u.router.lastVerified ↔ n ∈ s.fleet.router.lastVerified ∧
      ¬ (n ∈ s.registry.nodes ∧ n ∉ u.router.registry.nodes) := by
    intro n
    rcases hu with he | ⟨m, he⟩
    · rw [he]
      exact ⟨fun hn => ⟨hn, fun hgone => hgone.2 hgone.1⟩, And.left⟩
    · rw [he]
      exact evictIfStale_lastVerified s.fleet.router s.fleet.clock m
  refine ⟨hkeyed, fun n => ?_, h.checked⟩
  dsimp only
  rw [hlast n, h.heard n, Bool.and_eq_true, Bool.not_eq_true', ← Bool.decide_and, decide_eq_false_iff_not]

theorem tracked_hear (h : Tracked s) (payload : Bytes) (keyExpr : Text) :
    Tracked (s.onFleet env (.heartbeat payload keyExpr) (s.fleet.hear env payload keyExpr)) := by
  refine ⟨keyed_hear h.keyed payload keyExpr, fun n => ?_, h.checked⟩
  simp only [onFleet, hearing, heartbeatOf, Fleet.hear]
  cases hraw : decode payload with
  | none => exact h.heard n
  | some raw =>
    simp only [Option.bind_some, processHeartbeat]
    cases hv : s.fleet.router.verifiedHeartbeat env (s.fleet.encryptions env) raw keyExpr with
    | none => exact h.heard n
    | some accepted => exact Dict.mem_set.trans ((or_congr_right (h.heard n)).trans mark_eq_true.symm)

theorem tracked_fleet (h : Tracked s) {a : Fleet.Act} {u : Fleet} (hu : s.fleet.step env a = some u) :
    Tracked (s.onFleet env a u) := by
  cases a with
  | tick seconds =>
    simp only [Fleet.step] at hu
    split at hu
    · cases hu
      exact h.kept h.keyed rfl
    · cases hu
  | register node token =>
    cases hu
    exact h.kept (keyed_registerNode h.keyed node token) (Fleet.registerNode_lastVerified ..)
  | unregister nodeId =>
    cases hu
    unfold Fleet.unregisterNode
    split
    · exact h.kept (h.keyed.localUnregisterNode nodeId) rfl
    · exact h.kept h.keyed rfl
  | restart =>
    cases hu
    exact ⟨.load _ _, fun n => iff_of_false (Dict.not_mem_empty n) Bool.false_ne_true,
      fun n => iff_of_false (Dict.not_mem_empty n) Bool.false_ne_true⟩
  | sealed sealing =>
    cases hu
    exact h.kept h.keyed rfl
  | heartbeat payload keyExpr =>
    cases hu
    exact tracked_hear h payload keyExpr
  | telemetry payload keyExpr wall =>
    cases hu
    refine h.kept (keyed_measure h.keyed payload keyExpr wall) ?_
    unfold Fleet.measure
    split
    · rfl
    · simp only [processTelemetry]
      split <;> rfl
  | liveliness kind keyExpr =>
    cases hu
    have hcheck : s.fleet.router.processLiveliness env s.fleet.clock kind keyExpr = s.fleet.router ∨
        ∃ m, s.fleet.router.processLiveliness env s.fleet.clock kind keyExpr =
          s.fleet.router.evictIfStale env s.fleet.clock m := by
      unfold processLiveliness
      split
      · exact .inr ⟨_, rfl⟩
      · exact .inl rfl
    exact h.evicts hcheck
  | sweepStarts =>
    simp only [Fleet.step] at hu
    split at hu
    · cases hu
      exact h.kept h.keyed rfl
    · cases hu
  | sweepNext =>
    simp only [Fleet.step] at hu
    split at hu
    · cases hu
    · cases hu
      exact h.evicts (.inr ⟨_, rfl⟩)

theorem tracked_step (h : Tracked s) {a : Act τ} (ht : step env num sha256 s a = some t) : Tracked t := by
  cases a with
  | fleet a =>
    obtain ⟨u, hu, rfl⟩ := Option.map_eq_some_iff.mp ht
    exact tracked_fleet h hu
  | heartbeat b =>
    cases ht
    cases hb : s.registry.updateHeartbeat b with
    | none => exact h.withRegistry h.keyed
    | some registry => exact h.withRegistry (NodeRegistry.Keyed.updateHeartbeat h.keyed hb)
  | update node =>
    simp only [step] at ht
    split at ht
    · cases ht
      exact h
    · rename_i registry hreg
      cases ht
      obtain ⟨hn, rfl⟩ := NodeRegistry.update_eq_some.mp hreg
      exact ⟨h.keyed.replace hn, h.heard, h.checked⟩
  | setAvailableModels nodeId models =>
    simp only [step] at ht
    split at ht
    · cases ht
      exact h
    · rename_i updated registry hreg
      cases ht
      obtain ⟨node, hget, rfl, rfl⟩ := NodeRegistry.setAvailableModels_eq_some.mp hreg
      have hkey := Table.key_of_get? hget
      exact ⟨h.keyed.replace (Table.mem_iff.mpr ⟨node, hkey ▸ hget⟩), h.heard, h.checked⟩
  | clear =>
    cases ht
    exact ⟨.load .empty .empty, h.heard, h.checked⟩
  | check now nodeId canary response =>
    cases ht
    exact ⟨h.keyed, h.heard, fun n => Dict.mem_set.trans ((or_congr_right (h.checked n)).trans mark_eq_true.symm)⟩
  | forget nodeId =>
    cases ht
    exact ⟨h.keyed, h.heard,
      fun n => Dict.mem_pop.trans ((and_congr_right fun _ => h.checked n).trans mark_false_eq_true.symm)⟩
  | scheduleTask task uuid =>
    cases ht
    exact h.withRegistry (h.keyed.scheduleTask task uuid)
  | schedulePipeline task uuid =>
    cases ht
    exact h.withRegistry (h.keyed.schedulePipeline task uuid)
  | scheduleSplitInferencePipeline task totalLayers =>
    cases ht
    exact h.withRegistry (h.keyed.scheduleSplitInferencePipeline task totalLayers)
  | selectNode modelName =>
    cases ht
    exact h.withRegistry (h.keyed.selectNode modelName)

theorem tracked_start (store : SQLiteStore) (clock : ℚ) : Tracked (start store clock : Service τ) :=
  ⟨.load store.nodes store.nodeTokens, fun n => iff_of_false (Dict.not_mem_empty n) Bool.false_ne_true,
    fun n => iff_of_false (Dict.not_mem_empty n) Bool.false_ne_true⟩

theorem registerNode_registry {r : ZenohRouter} (hnew : node.nodeId ∉ r.registry.nodes) (token : Option Text) :
    (Fleet.registerNode r node token).registry = { r.registry.setNodeToken node.nodeId token with
      nodes := (r.registry.setNodeToken node.nodeId token).nodes.put node
      dampeners := (r.registry.setNodeToken node.nodeId token).dampeners.set node.nodeId 0 } := by
  unfold Fleet.registerNode
  dsimp only
  split
  · rename_i hnone
    rw [NodeRegistry.localRegister_eq_none, NodeRegistry.setNodeToken_nodes] at hnone
    exact absurd hnone hnew
  · rename_i registry hreg
    exact (NodeRegistry.localRegister_eq_some.mp hreg).2

/-- A node that is not there starts anew unless the router or the verifier still has it on record. -/
theorem unseen_iff (h : Tracked s) (hnew : node.nodeId ∉ s.registry.nodes)
    (ht : step env num sha256 s (.fleet (.register node token)) = some t) :
    Unseen t node.nodeId ↔ s.checked node.nodeId = false ∧ s.heard node.nodeId = false := by
  rw [← Bool.not_eq_true, ← Bool.not_eq_true, ← h.checked, ← h.heard, Dict.not_mem_iff, Dict.not_mem_iff]
  obtain ⟨hbeat, htelemetry, hmesh⟩ := h.keyed.unregistered hnew
  have hlast : t.fleet.router.lastVerified = s.fleet.router.lastVerified := by
    cases ht
    exact Fleet.registerNode_lastVerified s.fleet.router node token
  have hregistry := registerNode_registry hnew token
  cases ht
  constructor
  · exact fun hu => ⟨hu.verdict, hlast ▸ hu.lastVerified⟩
  · rintro ⟨hverdict, hheard⟩
    constructor
    · refine (congrArg (fun r => r.heartbeats.get? node.nodeId) hregistry).trans ?_
      exact (congrArg (Dict.get? · node.nodeId) (NodeRegistry.setNodeToken_heartbeats ..)).trans hbeat
    · refine (congrArg (fun r => r.telemetry.get? node.nodeId) hregistry).trans ?_
      exact (congrArg (Dict.get? · node.nodeId) (NodeRegistry.setNodeToken_telemetry ..)).trans htelemetry
    · refine (congrArg (fun r => r.isMeshReachable node.nodeId) hregistry).trans (decide_eq_false fun hm => hmesh ?_)
      exact NodeRegistry.setNodeToken_meshNodes hm
    · exact hlast ▸ hheard
    · exact (congrArg (fun r => r.dampeners.get? node.nodeId) hregistry).trans (Dict.get?_set_self ..)
    · exact hverdict

theorem startsAnew_iff (h : Tracked s) (a : Act τ) : StartsAnew env num sha256 s a ↔ Unknown s a := by
  unfold StartsAnew Unknown
  refine forall_congr' fun n => imp_congr_right fun hn => ?_
  unfold returning at hn
  split at hn
  · split at hn
    · rename_i node token hback
      cases hn
      constructor
      · intro hall
        have hstep : step env num sha256 s (.fleet (.register node token)) = some _ := rfl
        exact (unseen_iff h hback.1 hstep).mp (hall _ hstep)
      · exact fun hu t ht => (unseen_iff h hback.1 ht).mpr hu
    · cases hn
  · cases hn

end

/-- In every run only registered nodes have left traces in the registry; and every node that registers again starts
anew exactly if none of them was checked, or heard since it was last evicted. -/
theorem starts_anew_iff (env : RouterEnv) (num : Numbers ν) (sha256 : Bytes → Bytes) (store : SQLiteStore) (clock : ℚ)
    (run : List (Act τ)) :
    Throughout (step env num sha256) (fun s => s.registry.Keyed) (start store clock) run ∧
      (Along (step env num sha256) (StartsAnew env num sha256) (start store clock) run ↔
        Along (step env num sha256) Unknown (start store clock) run) := by
  constructor
  · refine throughout_mono (fun _ h => h.keyed)
      (along_throughout (P := fun _ _ => True) ?_ (tracked_start store clock) along_true)
    exact fun _ _ _ h _ ht => tracked_step h ht
  · exact along_congr (fun _ _ _ h ht => tracked_step h ht) (fun _ a h => startsAnew_iff h a)
      (tracked_start store clock)

/-- A node registers and is heard over the mesh. Then it is unregistered, and registers again. -/
def returningRun : List (Act Unit) :=
  [.fleet (.register ⟨text "n1", []⟩ (some (text "secret"))), .fleet (.sealed Vigil.sampleBeat),
    .fleet (.heartbeat Vigil.samplePayload (Fleet.topic .heartbeat (text "n1"))),
    .fleet (.unregister (text "n1")), .fleet (.register ⟨text "n1", []⟩ (some (text "secret")))]

/-- The time of a node's last heartbeat outlives its registration. -/
theorem heartbeat_outlives_node :
    ¬ ∀ (env : RouterEnv) (num : Numbers ℚ) (sha256 : Bytes → Bytes) (store : SQLiteStore) (clock : ℚ)
      (run : List (Act Unit)),
        Throughout (step env num sha256) (fun s => s.registry.Keyed) (start store clock) run ∧
          Along (step env num sha256) (StartsAnew env num sha256) (start store clock) run := by
  intro h
  have hanew := (h Vigil.sampleEnv exactNumbers (known []) Fleet.emptyStore 0 returningRun).2
  have hunknown : Along (step Vigil.sampleEnv exactNumbers (known [])) Unknown (start Fleet.emptyStore 0)
      returningRun :=
    (along_congr (fun _ _ _ h ht => tracked_step h ht) (fun _ a h => startsAnew_iff h a)
      (tracked_start Fleet.emptyStore 0)).mp hanew
  exact absurd hunknown (by decide +kernel)

end Service
end PublicIntelligence.System
