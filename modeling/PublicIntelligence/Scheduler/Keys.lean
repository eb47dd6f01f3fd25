import PublicIntelligence.Scheduler.Algorithm
import PublicIntelligence.Scheduler.Pipeline

namespace PublicIntelligence.Scheduler

open Text Json

namespace NodeRegistry

/-- Only registered nodes have a heartbeat, telemetry or a mark of the mesh, and just these have
a dampener. -/
structure Keyed (r : NodeRegistry) : Prop where
  heartbeats : ∀ n ∈ r.heartbeats, n ∈ r.nodes
  telemetry : ∀ n ∈ r.telemetry, n ∈ r.nodes
  meshNodes : ∀ n ∈ r.meshNodes, n ∈ r.nodes
  dampeners : ∀ n, n ∈ r.dampeners ↔ n ∈ r.nodes

namespace Keyed

section
variable {r : NodeRegistry}

theorem load (nodes : Nodes) (tokens : Dict Text Text) : Keyed (.load nodes tokens) where
  heartbeats n h := absurd h nofun
  telemetry n h := absurd h nofun
  meshNodes n h := absurd h (Finset.notMem_empty n)
  dampeners n := by
    rw [Dict.mem_iff, load_dampeners]
    split
    · rename_i hn
      exact iff_of_true ⟨0, rfl⟩ hn
    · rename_i hn
      exact iff_of_false nofun hn

theorem localUnregisterNode (h : Keyed r) (nodeId : Text) : Keyed (r.localUnregisterNode nodeId) where
  heartbeats n hn := by
    obtain ⟨hne, hn⟩ := Dict.mem_pop.mp hn
    exact Table.mem_pop.mpr ⟨hne, h.heartbeats n hn⟩
  telemetry n hn := by
    obtain ⟨hne, hn⟩ := Dict.mem_pop.mp hn
    exact Table.mem_pop.mpr ⟨hne, h.telemetry n hn⟩
  meshNodes n hn := by
    obtain ⟨hne, hn⟩ := Finset.mem_erase.mp hn
    exact Table.mem_pop.mpr ⟨hne, h.meshNodes n hn⟩
  dampeners n := by
    refine Dict.mem_pop.trans (Iff.trans ?_ Table.mem_pop.symm)
    exact and_congr_right fun _ => h.dampeners n

/-- The record of a registered node is replaced. -/
theorem replace (h : Keyed r) {node : Node} (hn : node.nodeId ∈ r.nodes) :
    Keyed { r with nodes := r.nodes.put node } where
  heartbeats n hb := Table.mem_put.mpr (.inr (h.heartbeats n hb))
  telemetry n ht := Table.mem_put.mpr (.inr (h.telemetry n ht))
  meshNodes n hm := Table.mem_put.mpr (.inr (h.meshNodes n hm))
  dampeners n := by
    rw [h.dampeners n, Table.mem_put]
    exact ⟨.inr, fun hor => hor.elim (fun he => he ▸ hn) id⟩

theorem localRegister (h : Keyed r) (hr : r.localRegister node = some r') : Keyed r' := by
  obtain ⟨_, rfl⟩ := localRegister_eq_some.mp hr
  refine ⟨fun n hb => Table.mem_put.mpr (.inr (h.heartbeats n hb)),
    fun n ht => Table.mem_put.mpr (.inr (h.telemetry n ht)),
    fun n hm => Table.mem_put.mpr (.inr (h.meshNodes n hm)), fun n => ?_⟩
  refine Dict.mem_set.trans (Iff.trans ?_ Table.mem_put.symm)
  exact or_congr_right (h.dampeners n)

/-- A change of credentials marks no node. -/
theorem setNodeToken (h : Keyed r) (nodeId : Text) (token : Option Text) : Keyed (r.setNodeToken nodeId token) := by
  have hmesh : ∀ n ∈ (r.setNodeToken nodeId token).meshNodes, n ∈ r.nodes :=
    fun n hm => h.meshNodes n (setNodeToken_meshNodes hm)
  unfold NodeRegistry.setNodeToken at hmesh ⊢
  split at hmesh <;> exact ⟨h.heartbeats, h.telemetry, hmesh, h.dampeners⟩

theorem setTelemetry (h : Keyed r) (hn : nodeId ∈ r.nodes) (data : Fields) : Keyed (r.setTelemetry nodeId data) where
  heartbeats := h.heartbeats
  telemetry n ht := (Dict.mem_set.mp ht).elim (fun he => he ▸ hn) (h.telemetry n)
  meshNodes := h.meshNodes
  dampeners := h.dampeners

theorem markMeshReachable (h : Keyed r) (hn : nodeId ∈ r.nodes) : Keyed (r.markMeshReachable nodeId) where
  heartbeats := h.heartbeats
  telemetry := h.telemetry
  meshNodes n hm := (Finset.mem_insert.mp hm).elim (fun he => he ▸ hn) (h.meshNodes n)
  dampeners := h.dampeners

theorem setDampener (h : Keyed r) (hn : nodeId ∈ r.nodes) (x : ℚ) :
    Keyed { r with dampeners := r.dampeners.set nodeId x } where
  heartbeats := h.heartbeats
  telemetry := h.telemetry
  meshNodes := h.meshNodes
  dampeners n := by
    rw [Dict.mem_set, h.dampeners n]
    exact ⟨fun hor => hor.elim (fun he => he ▸ hn) id, .inr⟩

theorem updateHeartbeat (h : Keyed r) (hb : r.updateHeartbeat heartbeat = some r') : Keyed r' := by
  obtain ⟨hn, rfl⟩ := updateHeartbeat_eq_some.mp hb
  have hset := h.setDampener hn 0
  exact ⟨fun n hm => (Dict.mem_set.mp hm).elim (fun he => he ▸ hn) (h.heartbeats n), hset.telemetry,
    hset.meshNodes, hset.dampeners⟩

theorem incrementDampener (h : Keyed r) (hi : r.incrementDampener nodeId = some r') : Keyed r' := by
  unfold NodeRegistry.incrementDampener at hi
  split at hi
  · rename_i hn
    cases hi
    exact h.setDampener hn _
  · cases hi

/-- What is not registered has left no trace. -/
theorem unregistered (h : Keyed r) (hn : n ∉ r.nodes) :
    r.heartbeats.get? n = none ∧ r.telemetry.get? n = none ∧ n ∉ r.meshNodes := by
  refine ⟨Dict.not_mem_iff.mp ?_, Dict.not_mem_iff.mp ?_, ?_⟩
  · exact fun hb => hn (h.heartbeats n hb)
  · exact fun ht => hn (h.telemetry n ht)
  · exact fun hm => hn (h.meshNodes n hm)

end

section
variable {num : Numbers ν} {sha256 : Bytes → Bytes} {canary : CanaryVerifier τ} {r : NodeRegistry}

theorem bumpQueue (h : Keyed r) (hn : nodeId ∈ r.nodes) : Keyed (Scheduler.bumpQueue num r nodeId).1 := by
  unfold Scheduler.bumpQueue
  dsimp only
  split
  · exact h.setTelemetry hn _
  · exact h.setTelemetry hn _

theorem assigned (h : Keyed r) (hn : nodeId ∈ r.nodes) (depth : Json) : Keyed (Scheduler.assigned r nodeId depth) :=
  (h.setTelemetry hn (Dict.put (text "queue_depth") depth (r.telemetryOf nodeId))).setDampener hn _

theorem buildStages {stage : Nat → Int → Int → Text → PipelineStage} (h : Keyed r)
    (hreg : ∀ a ∈ allocations, a.1.nodeId ∈ r.nodes) :
    Keyed (Scheduler.buildStages num stage r index layer allocations).1 := by
  induction allocations generalizing r index layer with
  | nil => exact h
  | cons a rest ih =>
    obtain ⟨n, count⟩ := a
    obtain ⟨hn, hrest⟩ := List.forall_mem_cons.mp hreg
    unfold Scheduler.buildStages
    dsimp only
    split
    · rcases assignStage_registered num hn with ⟨_, hassign⟩ | ⟨depth, _, hassign⟩
      · rw [hassign]
        exact h.setTelemetry hn _
      · rw [hassign]
        exact ih (h.assigned hn depth) hrest
    · exact h

theorem scheduleTask (h : Keyed r) (task : Fields) (uuid : Text) :
    Keyed (Scheduler.scheduleTask num sha256 canary task uuid r).1 := by
  unfold Scheduler.scheduleTask
  split
  · exact h
  · rename_i hselect
    exact h.bumpQueue (selectForTask_spec hselect).registered

theorem schedulePipeline (h : Keyed r) (task : Fields) (uuid : Text) :
    Keyed (Scheduler.schedulePipeline num sha256 canary task uuid r).1 := by
  unfold Scheduler.schedulePipeline
  split
  · exact h
  · rename_i hplan
    exact h.buildStages fun a ha => (planPipeline_spec hplan a ha).registered

theorem scheduleSplitInferencePipeline (h : Keyed r) (task : Fields) (layers : Int) :
    Keyed (Scheduler.scheduleSplitInferencePipeline num canary task layers r).1 := by
  unfold Scheduler.scheduleSplitInferencePipeline
  split
  · exact h
  · rename_i hplan
    exact h.buildStages fun a ha => (planSplit_spec hplan a ha).registered

theorem selectNode (h : Keyed r) (modelName : Text) : Keyed (Scheduler.selectNode num modelName r).1 := by
  unfold Scheduler.selectNode
  split
  · exact h
  · split
    · exact h
    · rename_i hraised
      exact h.incrementDampener hraised

end

end Keyed
end NodeRegistry
end PublicIntelligence.Scheduler
