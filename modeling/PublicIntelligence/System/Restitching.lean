import Mathlib.Algebra.BigOperators.Group.List.Basic
import PublicIntelligence.Scheduler.Pipeline
import PublicIntelligence.System.LoadFeedback

namespace PublicIntelligence.System

open Text Encoding Json Mesh Scheduler

/-- A pipeline as it was scheduled: its compute stages, and the memory that a layer was taken to need. -/
structure ScheduledPipeline (num : Numbers ν) (sha256 : Bytes → Bytes) (canary : CanaryVerifier τ) where
  task : Fields
  registry : NodeRegistry
  stages : List PipelineStage
  layers : Int
  perLayer : ν
  made :
    (∃ uuid txHash, (schedulePipeline num sha256 canary task uuid registry).2 = .ok (txHash, stages) ∧
        totalLayers num task = some layers ∧ vramPerLayer num task layers = .ok perLayer) ∨
      ∃ asked all total, (scheduleSplitInferencePipeline num canary task asked registry).2 = .ok all ∧
        stages = all.tail.dropLast ∧ splitLayers num task asked = .ok total ∧ layers = total - 1 ∧
          splitVramPerLayer num task total = .ok perLayer

namespace Restitching

/-- The layers of a pipeline that a node holds. -/
def layersOn (nodeId : Text) (stages : List PipelineStage) : Int :=
  ((stages.filter fun s => s.nodeId = nodeId).map fun s => s.endLayer - s.startLayer + 1).sum

/-- What scheduling asks of a node that is to hold so many layers: the filter lets it through for
the model, and its memory is enough. -/
def Suits (num : Numbers ν) (canary : CanaryVerifier τ) (r : NodeRegistry) (modelId : Text) (perLayer : ν)
    (layers : Int) (n : Node) (held : Int) : Prop :=
  (∃ kept, filterNodes num canary r [(text "model", .str modelId)] r.nodes.values = some kept ∧ n ∈ kept) ∧
    ∃ available cap, num.float (r.vramAvailable n) = some available ∧
      layerCapacity num available perLayer layers = .ok cap ∧ held ≤ cap

section
variable {num : Numbers ν} {sha256 : Bytes → Bytes} {scheduling : CanaryVerifier τ}

/-- The stages of the failed node are on a node that scheduling could have put them on, and nothing
else is different. -/
structure Keeps (canary : CanaryVerifier τ) (r : NodeRegistry) (p : ScheduledPipeline num sha256 scheduling)
    (failedNodeId : Text) (result : List PipelineStage) : Prop where
  gone : ∀ s ∈ result, s.nodeId ≠ failedNodeId
  replaced : ∃ n ∈ r.nodes.values,
    List.Forall₂ (fun s t => t = if s.nodeId = failedNodeId then { s with nodeId := n.nodeId } else s) p.stages result ∧
      Suits num canary r (modelIdOf num p.task) p.perLayer p.layers n (layersOn n.nodeId result)

/-- The first registered node that did not fail happens to suit, with the layers it has already. -/
def FirstSuits (canary : CanaryVerifier τ) (r : NodeRegistry) (p : ScheduledPipeline num sha256 scheduling)
    (failedNodeId : Text) : Prop :=
  ∃ n, r.nodes.values.find? (fun n => n.nodeId ≠ failedNodeId) = some n ∧
    Suits num canary r (modelIdOf num p.task) p.perLayer p.layers n
      (layersOn n.nodeId p.stages + layersOn failedNodeId p.stages)

/-- A replacement takes over the layers of the failed node, beside its own. -/
theorem layersOn_restitch (h : w ≠ failed) (stages : List PipelineStage) :
    layersOn w (restitch failed w stages) = layersOn w stages + layersOn failed stages := by
  induction stages with
  | nil => rfl
  | cons s rest ih =>
    unfold layersOn restitch at ih ⊢
    by_cases hf : s.nodeId = failed
    · subst hf
      simp [Ne.symm h] at ih ⊢
      omega
    · by_cases hw : s.nodeId = w
      · subst hw
        simp [hf] at ih ⊢
        omega
      · simp [hf, hw] at ih ⊢
        exact ih

theorem restitch_forall (failed w : Text) (stages : List PipelineStage) :
    List.Forall₂ (fun s t => t = if s.nodeId = failed then { s with nodeId := w } else s) stages
      (restitch failed w stages) := by
  induction stages with
  | nil => exact .nil
  | cons s rest ih => exact .cons rfl ih

/-- The replacement can be told from the result, where a stage was replaced. -/
theorem replacement_unique (hfailed : failed ∈ stages.map PipelineStage.nodeId)
    (h : List.Forall₂ (fun s t => t = if s.nodeId = failed then { s with nodeId := v } else s) stages
      (restitch failed w stages)) : v = w := by
  induction stages with
  | nil => cases hfailed
  | cons s rest ih =>
    rw [restitch, List.map_cons] at h
    obtain ⟨hs, hrest⟩ := List.forall₂_cons.mp h
    by_cases hf : s.nodeId = failed
    · rw [if_pos hf, if_pos hf] at hs
      exact (congrArg PipelineStage.nodeId hs).symm
    · refine ih ?_ hrest
      exact (List.mem_cons.mp hfailed).resolve_left (Ne.symm hf)

theorem restitch_gone (h : w ≠ failed) : ∀ s ∈ restitch failed w stages, s.nodeId ≠ failed := by
  intro t ht
  obtain ⟨s, _, rfl⟩ := List.mem_map.mp ht
  split
  · exact h
  · assumption

/-- Restitching keeps what scheduling enforced exactly where the first node that is left suits. -/
theorem restitch_keeps_iff {canary : CanaryVerifier τ} {r : NodeRegistry}
    (p : ScheduledPipeline num sha256 scheduling) (hfailed : failed ∈ p.stages.map PipelineStage.nodeId)
    (h : restitchPipelineOnEviction sha256 taskId failed snapshot p.stages r = .ok result) :
    Keeps canary r p failed result ↔ FirstSuits canary r p failed := by
  obtain ⟨_, replacement, hfirst, rfl⟩ := restitchPipelineOnEviction_ok.mp h
  have hfound : r.nodes.values.find? (fun n => n.nodeId ≠ failed) = some replacement := hfirst
  have hne : replacement.nodeId ≠ failed := by simpa using List.find?_some hfound
  have hmem : replacement ∈ r.nodes.values := List.mem_of_find?_eq_some hfound
  constructor
  · rintro ⟨_, n, hn, hall, hsuits⟩
    have hid := replacement_unique hfailed hall
    have hn' := Table.mem_values.mp hn
    rw [hid] at hn'
    obtain rfl := Option.some.inj (hn'.symm.trans (Table.mem_values.mp hmem))
    rw [layersOn_restitch hne] at hsuits
    exact ⟨n, hfound, hsuits⟩
  · rintro ⟨n, hn, hsuits⟩
    obtain rfl := Option.some.inj (hn.symm.trans hfound)
    rw [← layersOn_restitch hne] at hsuits
    exact ⟨restitch_gone hne, n, hmem, restitch_forall _ _ _, hsuits⟩

end

/-- A node with 16 GB of memory that is free, and the models it serves. -/
def serving (id : String) (models : List String) : Node :=
  ⟨text id, [(text "available_models", .arr (models.map fun m => .str (text m))), (text "gpu", .obj
    [(text "vram_total_gb", .int 16), (text "vram_available_gb", .int 16)])]⟩

/-- What is hashed to schedule a pipeline over two nodes, and its SHA-256. -/
def splitText : Bytes := (encode (text "pipeline:t1:2:n1,n2")).getD []

def splitDigest : Bytes :=
  [30, 235, 249, 12, 39, 88, 116, 38, 25, 7, 205, 156, 63, 171, 127, 13, 88, 137, 32, 103, 246, 181, 68, 151, 66,
    188, 140, 125, 236, 235, 235, 199]

/-- The SHA-256 of an empty cache. -/
def emptyDigest : Bytes :=
  [227, 176, 196, 66, 152, 252, 28, 20, 154, 251, 244, 200, 153, 111, 185, 36, 39, 174, 65, 228, 100, 155, 147, 76,
    164, 149, 153, 27, 120, 82, 184, 85]

def splitSha : Bytes → Bytes := known [(splitText, splitDigest), ([], emptyDigest)]

/-- Four layers of the model, two on each of two nodes. -/
def splitPipeline : ScheduledPipeline exactNumbers splitSha (CanaryVerifier.new none : CanaryVerifier Unit) where
  task := [(text "task_id", .str (text "t1")), (text "model", .str (text "m")), (text "total_layers", .int 4),
    (text "num_stages", .int 2)]
  registry := .refill [serving "n1" ["m"], serving "n2" ["m"]] .empty
  stages := [⟨0, 2, 0, 1, text "n1", text "m", false, .compute, false⟩,
    ⟨1, 2, 2, 3, text "n2", text "m", false, .compute, false⟩]
  layers := 4
  perLayer := 1 / 2
  made := .inl ⟨[], hexText splitDigest, by decide +kernel, by decide +kernel, by decide +kernel⟩

/-- The other node takes over the stage of one that failed, beside its own. -/
theorem restitch_keeps_iff_sample :
    Keeps (.new none : CanaryVerifier Unit) (.refill [serving "n2" ["m"]] .empty) splitPipeline (text "n1")
        [⟨0, 2, 0, 1, text "n2", text "m", false, .compute, false⟩,
          ⟨1, 2, 2, 3, text "n2", text "m", false, .compute, false⟩] ↔
      FirstSuits (.new none : CanaryVerifier Unit) (.refill [serving "n2" ["m"]] .empty) splitPipeline (text "n1") := by
  have hmade : restitchPipelineOnEviction splitSha (text "t1") (text "n1") ⟨[], hexText emptyDigest⟩
      splitPipeline.stages (.refill [serving "n2" ["m"]] .empty) =
        .ok [⟨0, 2, 0, 1, text "n2", text "m", false, .compute, false⟩,
          ⟨1, 2, 2, 3, text "n2", text "m", false, .compute, false⟩] := by decide +kernel
  exact restitch_keeps_iff splitPipeline (by decide +kernel) hmade

/-- Two layers of the model on one node. -/
def samplePipeline : ScheduledPipeline exactNumbers (fun _ => []) (CanaryVerifier.new none : CanaryVerifier Unit) where
  task := [(text "task_id", .str (text "t1")), (text "model", .str (text "m")), (text "total_layers", .int 2)]
  registry := .refill [serving "n1" ["m"]] .empty
  stages := [⟨0, 1, 0, 1, text "n1", text "m", false, .compute, false⟩]
  layers := 2
  perLayer := 1 / 2
  made := .inl ⟨[], [], by decide +kernel, by decide +kernel, by decide +kernel⟩

def sampleSnapshot : KVCacheSnapshot := ⟨[], []⟩

/-- A node that does not serve the model takes over, though another one serves it. -/
theorem restitching_ignores_model :
    ¬ ∀ (num : Numbers ℚ) (sha256 : Bytes → Bytes) (scheduling canary : CanaryVerifier Unit)
      (p : ScheduledPipeline num sha256 scheduling) (r : NodeRegistry) (taskId failedNodeId : Text)
      (snapshot : KVCacheSnapshot) (result : List PipelineStage), Exact num →
        failedNodeId ∈ p.stages.map PipelineStage.nodeId →
          restitchPipelineOnEviction sha256 taskId failedNodeId snapshot p.stages r = .ok result →
            Keeps canary r p failedNodeId result := by
  intro h
  have hkeeps := h exactNumbers (fun _ => []) (.new none) (.new none) samplePipeline
    (.refill [serving "n0" [], serving "n2" ["m"]] .empty) (text "t1") (text "n1") sampleSnapshot
    [⟨0, 1, 0, 1, text "n0", text "m", false, .compute, false⟩] exact_exactNumbers (by decide +kernel)
    (by decide +kernel)
  obtain ⟨n, _, hall, ⟨kept, hkept, hmem⟩, _⟩ := hkeeps.replaced
  have honly : (filterNodes exactNumbers (CanaryVerifier.new none : CanaryVerifier Unit)
      (.refill [serving "n0" [], serving "n2" ["m"]] .empty)
      [(text "model", .str (modelIdOf exactNumbers samplePipeline.task))]
      (NodeRegistry.refill [serving "n0" [], serving "n2" ["m"]] .empty).nodes.values).map (List.map Node.nodeId) =
        some [text "n2"] := by
    decide +kernel
  rw [hkept, Option.map_some, Option.some.injEq] at honly
  have hid : n.nodeId = text "n2" := List.mem_singleton.mp (honly ▸ List.mem_map_of_mem hmem)
  obtain ⟨hstage, _⟩ := List.forall₂_cons.mp hall
  have hmoved : text "n0" = n.nodeId := congrArg PipelineStage.nodeId hstage
  rw [hid] at hmoved
  exact absurd hmoved (by decide +kernel)

end Restitching
end PublicIntelligence.System
