import PublicIntelligence.Scheduler.Algorithm
import PublicIntelligence.System.Ingress
import PublicIntelligence.System.LoadFeedback
import PublicIntelligence.System.Restart

namespace PublicIntelligence.System

open Runs Text Encoding Json Mesh Scheduler

/-- A node as validation lets it through, with an id that SQLite takes. -/
def Valid (n : Node) : Prop := Scalar n.nodeId ∧ ∃ rec : NodeRecord, n.body = rec.body

/-- What Python promises of floats and of adding one. -/
structure Python (num : Numbers ν) : Prop where
  float_zero : (num.float (.int 0)).isSome = true
  float_float : ∀ l, (num.float (.float l)).isSome = true
  plusOne_zero : (num.plusOne (.int 0)).isSome = true
  plusOne_sum : ∀ j k, num.plusOne j = some k → (num.plusOne k).isSome = true
  format_scalar : ∀ x, Scalar (num.format x)

/-- The validated figures of a heartbeat that are floats. -/
def FloatBeat (h : Heartbeat) : Prop :=
  ∀ field ∈ ["cpu_utilization", "vram_available_gb"], ∃ l, get? h.metrics field = some (.float l)

namespace Dispatch

inductive Act (τ : Type) where
  | fleet (a : Fleet.Act)
  | heartbeat (h : Heartbeat)
  | scheduleTask (canary : CanaryVerifier τ) (task : Fields) (uuid : Text)
  | selectNode (modelName : Text)

/-- What is promised of the values that a step brings in: a heartbeat has passed validation, and a node was saved. -/
def Act.Valid : Act τ → Prop
  | .fleet (.register node _) => System.Valid node
  | .heartbeat h => FloatBeat h
  | _ => True

def withRegistry (s : Fleet) (registry : NodeRegistry) : Fleet :=
  { s with router := { s.router with registry } }

/-- The task's id as it enters the transaction's text. -/
def taskIdOf (num : Numbers ν) (task : Fields) (uuid : Text) : Text :=
  num.py.strOf ((get? task "task_id").getD (.str uuid))

section
variable (env : RouterEnv) (num : Numbers ν) (sha256 : Bytes → Bytes)

/-- The mesh, `POST /heartbeat`, and the two calls that give work to a node. -/
def step : Step Fleet (Act τ)
  | s, .fleet a => s.step env a
  | s, .heartbeat h =>
    some (withRegistry s ((s.router.registry.updateHeartbeat h).getD s.router.registry))
  | s, .scheduleTask canary task uuid =>
    some (withRegistry s (Scheduler.scheduleTask num sha256 canary task uuid s.router.registry).1)
  | s, .selectNode modelName =>
    some (withRegistry s (Scheduler.selectNode num modelName s.router.registry).1)

/-- Some node that is registered satisfies the task's requirements. -/
def Satisfied (canary : CanaryVerifier τ) (r : NodeRegistry) (task : Fields) : Prop :=
  ∃ fields, requirementsOf task = some fields ∧
    ∃ n ∈ r.nodes.values, eligible num canary r fields n = some true

/-- Every task that can be satisfied, and whose id can be encoded, is scheduled. -/
def Schedulable (τ : Type) (r : NodeRegistry) : Prop :=
  ∀ (canary : CanaryVerifier τ) (task : Fields) (uuid : Text), Satisfied num canary r task →
    Scalar (taskIdOf num task uuid) →
      ∃ txHash w, (Scheduler.scheduleTask num sha256 canary task uuid r).2 = .ok (txHash, w)

/-- Scoring can read the node's figures, and its queue can be raised. -/
structure Usable (r : NodeRegistry) (n : Text) : Prop where
  queue : (num.float (r.queueReading n)).isSome = true
  cpu : (num.float (r.cpuReading n)).isSome = true
  reliability : (num.float (r.reliabilityReading n)).isSome = true
  raised : (num.plusOne ((get? (r.telemetryOf n) "queue_depth").getD (.int 0))).isSome = true

/-- The node of which a step brings in telemetry or a heartbeat, and the registry with it. -/
def news (s : Fleet) : Act τ → Option (NodeRegistry × Text)
  | .fleet (.telemetry payload keyExpr wall) => do
    let raw ← decode payload
    let (nodeId, data) ← s.router.verifiedTelemetry env (s.encryptions env) wall raw keyExpr
    return (s.router.registry.setTelemetry nodeId data, nodeId)
  | .fleet (.heartbeat payload keyExpr) => do
    let raw ← decode payload
    let (h, registry) ← s.router.verifiedHeartbeat env (s.encryptions env) raw keyExpr
    return (registry, h.nodeId)
  | .heartbeat h => (s.router.registry.updateHeartbeat h).map fun registry => (registry, h.nodeId)
  | _ => none

/-- The queue depths that giving out work may leave behind. -/
def raisedDepths (s : Fleet) : Act τ → List (Option Json)
  | .scheduleTask _ _ _ => s.router.registry.list.map fun n =>
      num.plusOne ((get? (s.router.registry.telemetryOf n) "queue_depth").getD (.int 0))
  | _ => []

/-- Telemetry and heartbeats leave their node usable, and no queue is at the end of what
`float()` takes when work is given out. -/
def Harmless (s : Fleet) (a : Act τ) : Prop :=
  (∀ p ∈ news env s a, Usable num p.1 p.2) ∧
    ∀ depth ∈ raisedDepths num s a, ∀ k ∈ depth, (num.float k).isSome = true

instance (r : NodeRegistry) (n : Text) : Decidable (Usable num r n) :=
  decidable_of_iff ((num.float (r.queueReading n)).isSome = true ∧ (num.float (r.cpuReading n)).isSome = true ∧
    (num.float (r.reliabilityReading n)).isSome = true ∧
      (num.plusOne ((get? (r.telemetryOf n) "queue_depth").getD (.int 0))).isSome = true)
    ⟨fun ⟨hq, hc, hl, hr⟩ => ⟨hq, hc, hl, hr⟩, fun ⟨hq, hc, hl, hr⟩ => ⟨hq, hc, hl, hr⟩⟩

instance (s : Fleet) (a : Act τ) : Decidable (Harmless env num s a) :=
  inferInstanceAs (Decidable ((∀ p ∈ news env s a, _) ∧ ∀ depth ∈ raisedDepths num s a, _))

end

/-- What holds of the registry, and of the nodes in the store, after every harmless step. -/
structure Fit (num : Numbers ν) (r : NodeRegistry) : Prop where
  valid : ∀ n ∈ r.nodes.values, Valid n
  beats : ∀ n h, r.heartbeats.get? n = some h → FloatBeat h
  usable : ∀ n ∈ r.nodes, Usable num r n
  strangers : ∀ n, n ∉ r.nodes → r.telemetry.get? n = none ∧ r.heartbeats.get? n = none

section
variable {num : Numbers ν} {r r' : NodeRegistry}

theorem Usable.congr (h : Usable num r n) (ht : r'.telemetryOf n = r.telemetryOf n)
    (hb : r'.heartbeats.get? n = r.heartbeats.get? n) : Usable num r' n := by
  obtain ⟨hq, hc, hl, hr⟩ := h
  constructor
  · simpa only [NodeRegistry.queueReading, ht, hb] using hq
  · simpa only [NodeRegistry.cpuReading, ht, hb] using hc
  · simpa only [NodeRegistry.reliabilityReading, ht] using hl
  · rwa [ht]

theorem telemetryOf_congr (h : r'.telemetry.get? n = r.telemetry.get? n) : r'.telemetryOf n = r.telemetryOf n := by
  rw [NodeRegistry.telemetryOf, NodeRegistry.telemetryOf, h]

/-- A node of which nothing has been observed is usable. -/
theorem usable_new (py : Python num) (ht : r.telemetry.get? n = none) (hb : r.heartbeats.get? n = none) :
    Usable num r n := by
  have htel : r.telemetryOf n = [] := by rw [NodeRegistry.telemetryOf, ht, Option.getD_none]
  constructor
  · rw [NodeRegistry.queueReading, htel, hb]
    exact py.float_zero
  · rw [NodeRegistry.cpuReading, htel, hb]
    exact py.float_float _
  · rw [NodeRegistry.reliabilityReading, htel]
    exact py.float_float _
  · rw [htel]
    exact py.plusOne_zero

theorem Fit.congr (h : Fit num r) (hn : r'.nodes = r.nodes) (ht : r'.telemetry = r.telemetry)
    (hb : r'.heartbeats = r.heartbeats) : Fit num r' := by
  constructor
  · rw [hn]
    exact h.valid
  · rw [hb]
    exact h.beats
  · intro n hm
    exact (h.usable n (hn ▸ hm)).congr (by rw [NodeRegistry.telemetryOf, ht]; rfl) (by rw [hb])
  · rw [hn, ht, hb]
    exact h.strangers

theorem Fit.load (py : Python num) {nodes : Nodes} {tokens : Dict Text Text} (h : ∀ n ∈ nodes.values, Valid n) :
    Fit num (.load nodes tokens) where
  valid := h
  beats n b hb := absurd hb (by simp [NodeRegistry.load, NodeRegistry.empty])
  usable n _ := usable_new py rfl rfl
  strangers _ _ := ⟨rfl, rfl⟩

theorem Fit.put (h : Fit num r) (py : Python num) (hnode : Valid node) (hnew : node.nodeId ∉ r.nodes)
    (hn : r'.nodes = r.nodes.put node) (ht : r'.telemetry = r.telemetry) (hb : r'.heartbeats = r.heartbeats) :
    Fit num r' := by
  have hmem : ∀ n, n ∈ r'.nodes ↔ n = node.nodeId ∨ n ∈ r.nodes := fun n => by rw [hn, Table.mem_put]
  constructor
  · intro n hm
    have hget := Table.mem_values.mp (hn ▸ hm)
    rw [Table.get?_put] at hget
    split at hget
    · rwa [← Option.some.inj hget]
    · exact h.valid n (Table.mem_values.mpr hget)
  · rw [hb]
    exact h.beats
  · intro n hm
    rcases (hmem n).mp hm with rfl | hold
    · obtain ⟨hnt, hnb⟩ := h.strangers _ hnew
      exact usable_new py (ht ▸ hnt) (hb ▸ hnb)
    · exact (h.usable n hold).congr (telemetryOf_congr (by rw [ht])) (by rw [hb])
  · intro n hm
    rw [ht, hb]
    exact h.strangers n fun hold => hm ((hmem n).mpr (.inr hold))

theorem Fit.remove (h : Fit num r) (nodeId : Text) : Fit num (r.localUnregisterNode nodeId) := by
  have hother : ∀ n, n ≠ nodeId → (r.localUnregisterNode nodeId).telemetry.get? n = r.telemetry.get? n ∧
      (r.localUnregisterNode nodeId).heartbeats.get? n = r.heartbeats.get? n := fun n hn =>
    ⟨Dict.get?_pop_ne _ (Ne.symm hn), Dict.get?_pop_ne _ (Ne.symm hn)⟩
  constructor
  · intro n hm
    exact h.valid n (Table.mem_values.mpr (Dict.of_get?_pop (Table.mem_values.mp hm)))
  · intro n b hb
    exact h.beats n b (Dict.of_get?_pop hb)
  · intro n hm
    obtain ⟨hne, hold⟩ := Table.mem_pop.mp hm
    obtain ⟨ht, hb⟩ := hother n hne
    exact (h.usable n hold).congr (telemetryOf_congr ht) hb
  · intro n hm
    by_cases hn : n = nodeId
    · subst hn
      exact ⟨(Dict.get?_pop _ _ _).trans (if_pos rfl), (Dict.get?_pop _ _ _).trans (if_pos rfl)⟩
    · obtain ⟨ht, hb⟩ := hother n hn
      rw [ht, hb]
      exact h.strangers n fun hold => hm (Table.mem_pop.mpr ⟨hn, hold⟩)

/-- New observations of one registered node that leave it usable leave all usable. -/
theorem Fit.observe (h : Fit num r) (hw : w ∈ r.nodes) (hn : r'.nodes = r.nodes)
    (ht : ∀ n, n ≠ w → r'.telemetry.get? n = r.telemetry.get? n)
    (hb : ∀ n, n ≠ w → r'.heartbeats.get? n = r.heartbeats.get? n)
    (hbeat : ∀ b, r'.heartbeats.get? w = some b → FloatBeat b) (hu : Usable num r' w) : Fit num r' := by
  constructor
  · rw [hn]
    exact h.valid
  · intro n b hget
    by_cases hnw : n = w
    · subst hnw
      exact hbeat b hget
    · exact h.beats n b ((hb n hnw).symm.trans hget)
  · intro n hm
    by_cases hnw : n = w
    · exact hnw ▸ hu
    · exact (h.usable n (hn ▸ hm)).congr (telemetryOf_congr (ht n hnw)) (hb n hnw)
  · intro n hm
    have hnw : n ≠ w := fun heq => hm (hn ▸ heq ▸ hw)
    rw [ht n hnw, hb n hnw]
    exact h.strangers n (hn ▸ hm)

theorem Fit.heartbeat (h : Fit num r) (hbeat : FloatBeat b) (hb : r.updateHeartbeat b = some r')
    (hu : Usable num r' b.nodeId) : Fit num r' := by
  obtain ⟨hw, rfl⟩ := NodeRegistry.updateHeartbeat_eq_some.mp hb
  refine h.observe hw rfl (fun n _ => rfl) (fun n hn => Dict.get?_set_ne _ _ (Ne.symm hn)) (fun c hc => ?_) hu
  rw [Dict.get?_set_self] at hc
  rwa [← Option.some.inj hc]

theorem Fit.telemetry (h : Fit num r) (hw : w ∈ r.nodes) (hu : Usable num (r.setTelemetry w data) w) :
    Fit num (r.setTelemetry w data) :=
  h.observe hw rfl (fun _ hn => Dict.get?_set_ne _ _ (Ne.symm hn)) (fun _ _ => rfl) (h.beats w) hu

/-- Giving work to a node raises its queue by one, and leaves it usable if that still is a
number that `float()` takes. -/
theorem Fit.scheduled (h : Fit num r) (py : Python num) {sha256 : Bytes → Bytes} {canary : CanaryVerifier τ}
    {task : Fields} {uuid : Text} (hroom : ∀ n ∈ r.nodes, ∀ k,
      num.plusOne ((get? (r.telemetryOf n) "queue_depth").getD (.int 0)) = some k → (num.float k).isSome = true) :
    Fit num (Scheduler.scheduleTask num sha256 canary task uuid r).1 := by
  unfold Scheduler.scheduleTask
  cases hs : selectForTask num canary task r with
  | error e => exact h
  | ok selected =>
    obtain ⟨node, points⟩ := selected
    have hw : node.nodeId ∈ r.nodes := (selectForTask_spec hs).registered
    obtain ⟨hq, hc, hl, hr⟩ := h.usable _ hw
    obtain ⟨k, hk⟩ := Option.isSome_iff_exists.mp hr
    simp only [bumpQueue, hk]
    obtain ⟨hqueue, hcpu, hreliability⟩ := readings_bumped r node.nodeId k rfl
    refine h.observe hw rfl (fun n hn => Dict.get?_set_ne _ _ (Ne.symm hn)) (fun _ _ => rfl) (h.beats _) ?_
    constructor
    · rw [hqueue]
      unfold NodeRegistry.queueReading at hq
      dsimp only at hq
      cases hcurrent : get? (r.telemetryOf node.nodeId) "current_queue_depth" with
      | none => exact hroom _ hw k hk
      | some j =>
        rw [hcurrent] at hq
        exact hq
    · rwa [hcpu]
    · rwa [hreliability]
    · rw [NodeRegistry.telemetryOf, Dict.get?_set_self, Option.getD_some, get?_put, if_pos rfl]
      exact py.plusOne_sum _ _ hk

theorem vram_float (h : Fit num r) (py : Python num) (hn : n ∈ r.nodes.values) :
    (num.float (r.vramAvailable n)).isSome = true := by
  unfold NodeRegistry.vramAvailable
  cases hb : r.heartbeats.get? n.nodeId with
  | some b =>
    obtain ⟨l, hl⟩ := h.beats _ b hb "vram_available_gb" (by simp)
    rw [Scheduler.getattr, hl]
    exact py.float_float l
  | none =>
    obtain ⟨_, rec, hrec⟩ := h.valid n hn
    have hgpu : get? n.body "gpu" = some rec.gpu.json := by
      rw [hrec]
      exact (Dict.find_eq_some (List.nodup_cons.mp (body_keys [] rec)).2).mpr (by simp [NodeRecord.body])
    have hvram : n.gpu "vram_available_gb" = .float rec.gpu.vramAvailableGb := by
      have hfield : get? _ "vram_available_gb" = some (.float rec.gpu.vramAvailableGb) :=
        (Dict.find_eq_some (gpu_keys rec.gpu)).mpr (by simp)
      rw [Node.gpu, hgpu]
      exact congrArg (Option.getD · .null) hfield
    rw [Scheduler.getattr, hvram]
    exact py.float_float _

theorem Fit.fitness (h : Fit num r) (hn : n ∈ r.nodes.values) : (fitnessOf num r n).isSome = true := by
  obtain ⟨hq, hc, hl, _⟩ := h.usable n.nodeId (Table.mem_of_value hn)
  exact fitnessOf_isSome.mpr ⟨hq, hc, hl⟩

theorem Fit.schedulable (h : Fit num r) (py : Python num) (sha256 : Bytes → Bytes) :
    Schedulable num sha256 τ r := by
  rintro canary task uuid ⟨fields, hfields, n, hn, he⟩ hid
  have htotal : ∀ m ∈ r.nodes.values, (eligible num canary r fields m).isSome = true := fun m hm =>
    eligible_isSome (eligible_true he) (vram_float h py hm)
  obtain ⟨kept, hkept, hall⟩ := filterNodes_total htotal
  have hby : filterBy num canary r (requirementsOf task) = some kept := by rw [hfields]; exact hkept
  obtain ⟨m, points, hm⟩ := selectForTask_total hby (hall n hn he) fun m hmem =>
    h.fitness (filterNodes_spec hkept m hmem).1
  have hreg := (selectForTask_spec hm).1
  obtain ⟨k, hk⟩ := Option.isSome_iff_exists.mp
    (h.usable m.nodeId (Table.mem_of_value hreg)).raised
  have hscalar : Scalar (taskText num task uuid m points) := by
    unfold taskText
    simp only [scalar_append]
    exact ⟨⟨⟨⟨(h.valid m hreg).1, scalar_text _⟩, hid⟩, scalar_text _⟩, py.format_scalar points⟩
  obtain ⟨txHash, hok⟩ := scheduleTask_total sha256 hm hk hscalar
  exact ⟨txHash, m.nodeId, hok⟩

end

/-- What harmless steps keep. -/
structure Good (num : Numbers ν) (s : Fleet) : Prop where
  fit : Fit num s.router.registry
  stored : ∀ n ∈ s.router.store.nodes.values, Valid n

section
variable {env : RouterEnv} {num : Numbers ν} {sha256 : Bytes → Bytes} {s t : Fleet}

theorem good_evict (h : Good num s) (n : Text) :
    Fit num (s.router.evictIfStale env s.clock n).registry ∧
      ∀ m ∈ (s.router.evictIfStale env s.clock n).store.nodes.values, Valid m := by
  obtain ⟨he, _⟩ | ⟨he, _⟩ := ZenohRouter.evictIfStale_cases env s.clock s.router n
  · rw [he]
    exact ⟨h.fit, h.stored⟩
  · rw [he]
    exact ⟨h.fit.remove n, fun m hm =>
      h.stored m (Table.mem_values.mpr (Dict.of_get?_pop (Table.mem_values.mp hm)))⟩

theorem good_register (h : Good num s) (py : Python num) (hnode : Valid node) (token : Option Text) :
    Fit num (Fleet.registerNode s.router node token).registry ∧
      ∀ m ∈ (Fleet.registerNode s.router node token).store.nodes.values, Valid m := by
  unfold Fleet.registerNode
  dsimp only
  split
  · constructor
    · exact h.fit.congr (NodeRegistry.setNodeToken_nodes ..) (NodeRegistry.setNodeToken_telemetry ..)
        (NodeRegistry.setNodeToken_heartbeats ..)
    · rw [SQLiteStore.saveNodeToken_nodes]
      exact h.stored
  · rename_i registry hreg
    obtain ⟨hnew, rfl⟩ := NodeRegistry.localRegister_eq_some.mp hreg
    rw [NodeRegistry.setNodeToken_nodes] at hnew
    constructor
    · exact h.fit.put py hnode hnew (congrArg (Table.put · node) (NodeRegistry.setNodeToken_nodes ..))
        (NodeRegistry.setNodeToken_telemetry ..) (NodeRegistry.setNodeToken_heartbeats ..)
    · intro m hm
      have hget := Table.mem_values.mp hm
      simp only [SQLiteStore.saveNode, SQLiteStore.saveNodeToken_nodes, Table.get?_put] at hget
      split at hget
      · rwa [← Option.some.inj hget]
      · exact h.stored m (Table.mem_values.mpr hget)

theorem good_hear (h : Good num s) (henv : ∀ fields b, env.validate fields = some b → FloatBeat b)
    (hsafe : ∀ p ∈ news env s (.fleet (.heartbeat payload keyExpr) : Act τ), Usable num p.1 p.2) :
    Good num (s.hear env payload keyExpr) := by
  unfold Fleet.hear
  cases hraw : decode payload with
  | none => exact h
  | some raw =>
    simp only [ZenohRouter.processHeartbeat]
    cases hv : s.router.verifiedHeartbeat env (s.encryptions env) raw keyExpr with
    | none => exact ⟨h.fit, h.stored⟩
    | some accepted =>
      obtain ⟨b, registry⟩ := accepted
      have hu := hsafe (registry, b.nodeId) (by simp [news, hraw, hv])
      obtain ⟨_, hreg, _⟩ := ZenohRouter.verifiedHeartbeat_eq_some hv
      obtain ⟨data, hdata⟩ := ZenohRouter.verifiedHeartbeat_validated hv
      exact ⟨(h.fit.heartbeat (henv data b hdata) hreg hu).congr rfl rfl rfl, h.stored⟩

theorem good_measure (h : Good num s)
    (hsafe : ∀ p ∈ news env s (.fleet (.telemetry payload keyExpr wall) : Act τ), Usable num p.1 p.2) :
    Good num (s.measure env payload keyExpr wall) := by
  unfold Fleet.measure
  cases hraw : decode payload with
  | none => exact h
  | some raw =>
    simp only [ZenohRouter.processTelemetry]
    cases hv : s.router.verifiedTelemetry env (s.encryptions env) wall raw keyExpr with
    | none => exact ⟨h.fit, h.stored⟩
    | some accepted =>
      obtain ⟨nodeId, data⟩ := accepted
      have hu := hsafe (s.router.registry.setTelemetry nodeId data, nodeId) (by simp [news, hraw, hv])
      obtain ⟨_, hopen⟩ := ZenohRouter.verifiedTelemetry_eq_some hv
      have hw := (ZenohRouter.openFromNode_eq_some hopen).1
      exact ⟨(h.fit.telemetry hw hu).congr rfl rfl rfl, h.stored⟩

theorem good_fleet (h : Good num s) (py : Python num)
    (henv : ∀ fields b, env.validate fields = some b → FloatBeat b) {a : Fleet.Act}
    (hv : Act.Valid (.fleet a : Act τ)) (hsafe : ∀ p ∈ news env s (.fleet a : Act τ), Usable num p.1 p.2)
    (ht : Fleet.step env s a = some t) : Good num t := by
  cases a with
  | tick seconds =>
    simp only [Fleet.step] at ht
    split at ht
    · cases ht
      exact ⟨h.fit, h.stored⟩
    · cases ht
  | register node token =>
    cases ht
    obtain ⟨hfit, hstored⟩ := good_register h py hv token
    exact ⟨hfit, hstored⟩
  | unregister nodeId =>
    cases ht
    unfold Fleet.unregisterNode
    split
    · exact ⟨h.fit.remove nodeId, fun m hm =>
        h.stored m (Table.mem_values.mpr (Dict.of_get?_pop (Table.mem_values.mp hm)))⟩
    · exact ⟨h.fit, h.stored⟩
  | restart =>
    cases ht
    exact ⟨.load py h.stored, h.stored⟩
  | sealed sealing =>
    cases ht
    exact ⟨h.fit, h.stored⟩
  | heartbeat payload keyExpr =>
    cases ht
    exact good_hear h henv hsafe
  | telemetry payload keyExpr wall =>
    cases ht
    exact good_measure h hsafe
  | liveliness kind keyExpr =>
    cases ht
    simp only [ZenohRouter.processLiveliness]
    split
    · obtain ⟨hfit, hstored⟩ := good_evict h _
      exact ⟨hfit, hstored⟩
    · exact ⟨h.fit, h.stored⟩
  | sweepStarts =>
    simp only [Fleet.step] at ht
    split at ht
    · cases ht
      exact ⟨h.fit, h.stored⟩
    · cases ht
  | sweepNext =>
    simp only [Fleet.step] at ht
    split at ht
    · cases ht
    · cases ht
      obtain ⟨hfit, hstored⟩ := good_evict h _
      exact ⟨hfit, hstored⟩

theorem good_step (h : Good num s) (py : Python num)
    (henv : ∀ fields b, env.validate fields = some b → FloatBeat b) {a : Act τ} (hv : a.Valid)
    (hsafe : Harmless env num s a) (ht : step env num sha256 s a = some t) : Good num t := by
  cases a with
  | fleet a => exact good_fleet h py henv hv hsafe.1 ht
  | heartbeat b =>
    cases ht
    cases hb : s.router.registry.updateHeartbeat b with
    | none => exact ⟨h.fit, h.stored⟩
    | some registry =>
      have hu := hsafe.1 (registry, b.nodeId) (by simp [news, hb])
      exact ⟨h.fit.heartbeat hv hb hu, h.stored⟩
  | scheduleTask canary task uuid =>
    cases ht
    refine ⟨h.fit.scheduled py fun n hn k hk => ?_, h.stored⟩
    have hdepth := List.mem_map_of_mem (f := fun n => num.plusOne
      ((get? (s.router.registry.telemetryOf n) "queue_depth").getD (.int 0))) (NodeRegistry.mem_list.mpr hn)
    exact hsafe.2 _ hdepth k hk
  | selectNode modelName =>
    cases ht
    refine ⟨?_, h.stored⟩
    simp only [withRegistry, Scheduler.selectNode]
    split
    · exact h.fit
    · split
      · exact h.fit
      · rename_i raised hraised
        obtain ⟨dampeners, rfl⟩ := NodeRegistry.incrementDampener_eq_some hraised
        exact h.fit.congr rfl rfl rfl

end

/-- In every run of harmless steps, every task that some node satisfies is scheduled in every
state reached. -/
theorem scheduling_survives {env : RouterEnv} {num : Numbers ν} {sha256 : Bytes → Bytes} (py : Python num)
    (henv : ∀ fields b, env.validate fields = some b → FloatBeat b) {store : SQLiteStore}
    (hstore : ∀ n ∈ store.nodes.values, Valid n) {clock : ℚ} {run : List (Act τ)}
    (hrun : ∀ a ∈ run, a.Valid) (hsafe : Along (step env num sha256) (Harmless env num) (Fleet.start store clock) run) :
    Throughout (step env num sha256) (fun s => Schedulable num sha256 τ s.router.registry)
      (Fleet.start store clock) run := by
  have hstart : Good num (Fleet.start store clock) := ⟨.load py hstore, hstore⟩
  have hgood := along_throughout (fun _ _ _ h hp ht => good_step h py henv hp.1 hp.2 ht) hstart
    (along_and (along_forall hrun) hsafe)
  exact throughout_mono (fun s h => h.fit.schedulable py sha256) hgood

/-- Exact numbers that take every float literal for a number. -/
def sampleNumbers : Numbers ℚ :=
  { exactNumbers with
    float
      | .float l => some (if l ∈ nonFinite then 0 else literalValue l)
      | j => valueOf j }

theorem python_sampleNumbers : Python sampleNumbers where
  float_zero := rfl
  float_float _ := rfl
  plusOne_zero := rfl
  plusOne_sum j k h := by
    cases j with
    | null | str s | arr items | obj fields => cases h
    | int n =>
      cases h
      rfl
    | bool b =>
      cases h
      rfl
    | float l =>
      change (if l ∈ nonFinite then some (.float l) else some (.float (succLiteral l))) = some k at h
      have hk : ∃ l', k = .float l' := by
        split at h
        · exact ⟨_, (Option.some.inj h).symm⟩
        · exact ⟨_, (Option.some.inj h).symm⟩
      obtain ⟨l', rfl⟩ := hk
      change (if l' ∈ nonFinite then some (Json.float l') else some (.float (succLiteral l'))).isSome = true
      split <;> rfl
  format_scalar x := scalar_append.mpr ⟨scalar_intText _, scalar_text _⟩

theorem valid_sampleNode : Valid (Durable.sampleNode (text "n1")) := ⟨scalar_text _, _, rfl⟩

/-- The node registers, publishes sound telemetry and is given work. -/
def soundRun : List (Act Unit) :=
  [.fleet (.register (Durable.sampleNode (text "n1")) (some (text "secret"))), .fleet (.sealed Fleet.sampleSealing),
    .fleet (.telemetry (((Fleet.sampleSealing.envelope Fleet.sampleEnv.crypto).bind encode).getD [])
      (text "public-intelligence/net/nodes/n1/telemetry") 1767225610),
    .scheduleTask (.new none) sampleTask []]

theorem soundRun_valid : ∀ a ∈ soundRun, a.Valid := by
  simp [soundRun, Act.Valid, valid_sampleNode]

theorem scheduling_survives_sound :
    Throughout (step Fleet.sampleEnv sampleNumbers (known sampleHashes))
      (fun s => Schedulable sampleNumbers (known sampleHashes) Unit s.router.registry)
      (Fleet.start Fleet.emptyStore 0) soundRun :=
  scheduling_survives python_sampleNumbers (fun _ b h => absurd h (Option.some_ne_none b).symm)
    (fun n hn => absurd hn List.not_mem_nil) soundRun_valid (by decide +kernel)

/-- Telemetry that is accepted, with a queue depth of `null`. -/
def nullSealing : Sealing :=
  { Fleet.sampleSealing with
    plaintext := (encode (text "\x7b\"timestamp\": 1767225600, \"queue_depth\": null\x7d")).getD [] }

/-- AES-256-GCM on what `nullSealing` encrypts. -/
def nullGcm (e : Encryption) : Bytes :=
  if some e = nullSealing.encryption ⟨Fleet.sampleSha256, .ideal fun _ => []⟩ then
    [161, 215, 35, 244, 18, 151, 98, 132, 42, 237, 229, 11, 117, 239, 34, 90, 66, 112, 98, 182, 59, 185, 31,
      167, 162, 149, 45, 131, 99, 241, 137, 30, 12, 154, 243, 229, 90, 98, 156, 59, 113, 122, 119, 251, 209,
      126, 63, 152, 16, 225, 219, 156, 116, 246, 196, 202, 161, 65, 131, 115, 0, 29]
  else e.plaintext

def nullEnv : RouterEnv := { Fleet.sampleEnv with crypto := ⟨Fleet.sampleSha256, .ideal nullGcm⟩ }

def nullRun : List (Act Unit) :=
  [.fleet (.register (Durable.sampleNode (text "n1")) (some (text "secret"))), .fleet (.sealed nullSealing),
    .fleet (.telemetry (((nullSealing.envelope nullEnv.crypto).bind encode).getD [])
      (text "public-intelligence/net/nodes/n1/telemetry") 1767225610)]

/-- Afterwards no task is scheduled: scoring the node raises. -/
theorem null_queue_depth_breaks_scheduling :
    ¬ ∀ (env : RouterEnv) (num : Numbers ℚ) (sha256 : Bytes → Bytes) (store : SQLiteStore) (clock : ℚ)
      (run : List (Act Unit)), Python num → (∀ fields b, env.validate fields = some b → FloatBeat b) →
        (∀ n ∈ store.nodes.values, Valid n) → (∀ a ∈ run, a.Valid) →
          Throughout (step env num sha256) (fun s => Schedulable num sha256 Unit s.router.registry)
            (Fleet.start store clock) run := by
  intro h
  have hvalid : ∀ a ∈ nullRun, a.Valid := by simp [nullRun, Act.Valid, valid_sampleNode]
  have hall := h nullEnv sampleNumbers (known sampleHashes) Fleet.emptyStore 0 nullRun python_sampleNumbers
    (fun _ b h => absurd h (Option.some_ne_none b).symm) (fun n hn => absurd hn List.not_mem_nil) hvalid
  have hend : (exec (step nullEnv sampleNumbers (known sampleHashes)) (Fleet.start Fleet.emptyStore 0)
      nullRun).map (fun s => (s.router.registry.nodes.values.any fun n =>
        eligible sampleNumbers (.new none : CanaryVerifier Unit) s.router.registry [] n == some true,
        (Scheduler.scheduleTask sampleNumbers (known sampleHashes) (.new none : CanaryVerifier Unit) sampleTask []
          s.router.registry).2.isOk)) = some (true, false) := by decide +kernel
  obtain ⟨s, hs, heq⟩ := Option.map_eq_some_iff.mp hend
  obtain ⟨hany, hraises⟩ := Prod.mk.inj heq
  obtain ⟨n, hn, he⟩ := List.any_eq_true.mp hany
  obtain ⟨txHash, w, hok⟩ := throughout_end hall hs (.new none) sampleTask []
    ⟨[], rfl, n, hn, eq_of_beq he⟩ (by decide +kernel)
  rw [hok] at hraises
  cases hraises

end Dispatch
end PublicIntelligence.System
