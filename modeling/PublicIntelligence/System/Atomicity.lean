import PublicIntelligence.Scheduler.Pipeline
import PublicIntelligence.System.LoadFeedback

namespace PublicIntelligence.System

open Text Encoding Json Mesh Scheduler

namespace Atomicity

/-- The text that a pipeline is known by the hash of. -/
def pipelineText (num : Numbers ν) (task : Fields) (uuid : Text) (nodeIds : List Text) : Text :=
  text "pipeline:" ++ num.py.strOf ((get? task "task_id").getD (.str uuid)) ++ text ":" ++
    natText nodeIds.length ++ text ":" ++ (text ",").intercalate nodeIds

/-- The registry is changed by the call only if the call succeeds. -/
def Atomic (num : Numbers ν) (sha256 : Bytes → Bytes) (canary : CanaryVerifier τ) (task : Fields) (uuid : Text)
    (r : NodeRegistry) : Prop :=
  ∀ e, (schedulePipeline num sha256 canary task uuid r).2 = .error e →
    (schedulePipeline num sha256 canary task uuid r).1 = r

/-- No stage fails after another one was given out: either the very first stage's counter cannot be
raised, or no more stages are asked for than there are layers, every counter can be raised, and the
text to be hashed can be encoded. -/
def Undivided (num : Numbers ν) (canary : CanaryVerifier τ) (task : Fields) (uuid : Text) (r : NodeRegistry) : Prop :=
  ∀ allocations, planPipeline num canary task r = .ok allocations →
    (∃ a ∈ allocations.head?, (r.telemetry.get? a.1.nodeId).isSome = true ∧
        num.plusOne (queueDepth r a.1.nodeId) = none) ∨
      FewStages num task ∧ (∀ a ∈ allocations, (num.plusOne (queueDepth r a.1.nodeId)).isSome = true) ∧
        Scalar (pipelineText num task uuid (allocations.map fun a => a.1.nodeId))

/-- The stage of `schedule_pipeline`. -/
def computeStage (total : Nat) (modelId : Text) (index : Nat) (first last : Int) (nodeId : Text) : PipelineStage :=
  ⟨index, total, first, last, nodeId, modelId, false, .compute, false⟩

section
variable {num : Numbers ν} {canary : CanaryVerifier τ} {r : NodeRegistry}

theorem makes_computeStage (total : Nat) (modelId : Text) : Makes (computeStage total modelId) total :=
  ⟨fun _ _ _ _ => rfl, fun _ _ _ _ => rfl, fun _ _ _ _ => rfl, fun _ _ _ _ => rfl, fun _ _ _ _ => rfl⟩

theorem sha256Hex_isSome (sha256 : Bytes → Bytes) (t : Text) : (sha256Hex sha256 t).isSome = true ↔ Scalar t := by
  rw [sha256Hex, Option.isSome_map, encode_isSome]

/-- The loop leaves nothing as it was once its first stage is given out. -/
theorem buildStages_changes {stage : Nat → Int → Int → Text → PipelineStage} (hm : Makes stage total)
    (hreg : ∀ b ∈ a :: rest, b.1.nodeId ∈ r.nodes) (hindex : index < total) (hlayer : 0 ≤ layer) (hcount : 0 < a.2)
    (hdepth : (num.plusOne (queueDepth r a.1.nodeId)).isSome = true) :
    (buildStages num stage r index layer (a :: rest)).1 ≠ r := by
  intro hsame
  obtain ⟨n, count⟩ := a
  obtain ⟨hn, hrest⟩ := List.forall_mem_cons.mp hreg
  have hvalid := hm.valid hindex hlayer count n.nodeId
  rw [decide_eq_true hcount] at hvalid
  rcases assignStage_registered num hn with ⟨hnone, _⟩ | ⟨depth, _, hassign⟩
  · rw [hnone] at hdepth
    cases hdepth
  · have hafter : (buildStages num stage r index layer ((n, count) :: rest)).1 =
        (buildStages num stage (assigned r n.nodeId depth) (index + 1) (layer + count) rest).1 := by
      rw [buildStages]
      dsimp only
      rw [if_pos hvalid, hassign]
    have hkept : ∀ b ∈ rest, b.1.nodeId ∈ (assigned r n.nodeId depth).nodes := hrest
    have hup : ((assigned r n.nodeId depth).dampeners.get? n.nodeId).getD 0 ≤
        ((buildStages num stage (assigned r n.nodeId depth) (index + 1) (layer + count) rest).1.dampeners.get?
          n.nodeId).getD 0 := buildStages_dampener hkept n.nodeId
    rw [← hafter, hsame] at hup
    unfold assigned at hup
    rw [Dict.get?_set_self, Option.getD_some] at hup
    linarith

theorem registered_of_planned (h : planPipeline num canary task r = .ok allocations) :
    ∀ a ∈ allocations, a.1.nodeId ∈ r.nodes :=
  fun a ha => (planPipeline_spec h a ha).registered

theorem planned_ne_nil (h : planPipeline num canary task r = .ok allocations) : allocations ≠ [] := by
  obtain ⟨total, _, _, _, hpos, _, _, hdealt, _⟩ := planPipeline_dealt h
  rintro rfl
  exact hpos.ne hdealt.total

theorem pipelineText_stages {allocations : List (Node × Int)} {stages : List PipelineStage}
    (hnodes : stages.map PipelineStage.nodeId = allocations.map fun a => a.1.nodeId) :
    pipelineText num task uuid (allocations.map fun a => a.1.nodeId) =
      text "pipeline:" ++ num.py.strOf ((get? task "task_id").getD (.str uuid)) ++ text ":" ++
        natText allocations.length ++ text ":" ++ (text ",").intercalate (stages.map PipelineStage.nodeId) := by
  rw [pipelineText, List.length_map, hnodes]

/-- What `schedule_pipeline` does with a plan. -/
theorem schedulePipeline_planned (sha256 : Bytes → Bytes) (uuid : Text)
    (h : planPipeline num canary task r = .ok allocations) :
    (schedulePipeline num sha256 canary task uuid r).1 =
        (buildStages num (computeStage allocations.length (modelIdOf num task)) r 0 0 allocations).1 ∧
      ((∃ v, (schedulePipeline num sha256 canary task uuid r).2 = .ok v) ↔
        (∃ stages, (buildStages num (computeStage allocations.length (modelIdOf num task)) r 0 0 allocations).2 =
            .ok stages) ∧
          Scalar (pipelineText num task uuid (allocations.map fun a => a.1.nodeId))) := by
  unfold schedulePipeline
  rw [h]
  have hnodes : ∀ stages, (buildStages num (computeStage allocations.length (modelIdOf num task)) r 0 0
      allocations).2 = .ok stages → stages.map PipelineStage.nodeId = allocations.map fun a => a.1.nodeId :=
    fun stages hb => buildStages_nodes (fun _ _ _ _ => rfl) (Prod.ext rfl hb)
  refine ⟨rfl, ?_, ?_⟩
  · rintro ⟨v, hv⟩
    obtain ⟨stages, hb, hv⟩ := bind_ok.mp hv
    obtain ⟨hash, hhash, _⟩ := map_ok.mp hv
    refine ⟨⟨stages, hb⟩, (sha256Hex_isSome sha256 _).mp ?_⟩
    rw [pipelineText_stages (hnodes stages hb), orRaise_ok.mp hhash]
    rfl
  · rintro ⟨⟨stages, hb⟩, ht⟩
    obtain ⟨hash, hhash⟩ := Option.isSome_iff_exists.mp ((sha256Hex_isSome sha256 _).mpr ht)
    rw [pipelineText_stages (hnodes stages hb)] at hhash
    exact ⟨(hash, stages), bind_ok.mpr ⟨stages, hb, map_ok.mpr ⟨hash, orRaise_ok.mpr hhash, rfl⟩⟩⟩

theorem atomic_of_changes {sha256 : Bytes → Bytes} (h : (schedulePipeline num sha256 canary task uuid r).1 ≠ r) :
    Atomic num sha256 canary task uuid r ↔ ∃ v, (schedulePipeline num sha256 canary task uuid r).2 = .ok v := by
  unfold Atomic
  cases hv : (schedulePipeline num sha256 canary task uuid r).2 with
  | ok v => exact iff_of_true (fun e he => nomatch he) ⟨v, rfl⟩
  | error e => exact iff_of_false (fun hall => h (hall e rfl)) fun ⟨_, hok⟩ => nomatch hok

/-- Where the first counter cannot be raised, only an empty telemetry record may be left behind. -/
theorem buildStages_stuck {stage : Nat → Int → Int → Text → PipelineStage} (hm : Makes stage total)
    (hn : a.1.nodeId ∈ r.nodes) (hindex : index < total) (hlayer : 0 ≤ layer) (hcount : 0 < a.2)
    (hdepth : num.plusOne (queueDepth r a.1.nodeId) = none) :
    buildStages num stage r index layer (a :: rest) =
      ({ r with telemetry := r.telemetry.set a.1.nodeId (r.telemetryOf a.1.nodeId) }, .error .raised) := by
  obtain ⟨n, count⟩ := a
  have hvalid := hm.valid hindex hlayer count n.nodeId
  rw [decide_eq_true hcount] at hvalid
  rcases assignStage_registered num hn with ⟨_, hassign⟩ | ⟨depth, hsome, _⟩
  · rw [buildStages]
    dsimp only
    rw [if_pos hvalid, hassign]
  · rw [hdepth] at hsome
    cases hsome

/-- What `Undivided` asks of the one plan there is. -/
theorem undivided_planned (h : planPipeline num canary task r = .ok (a :: rest)) :
    Undivided num canary task uuid r ↔
      (r.telemetry.get? a.1.nodeId).isSome = true ∧ num.plusOne (queueDepth r a.1.nodeId) = none ∨
        FewStages num task ∧ (∀ b ∈ a :: rest, (num.plusOne (queueDepth r b.1.nodeId)).isSome = true) ∧
          Scalar (pipelineText num task uuid ((a :: rest).map fun b => b.1.nodeId)) := by
  have hfirst : (∃ b ∈ (a :: rest).head?, (r.telemetry.get? b.1.nodeId).isSome = true ∧
      num.plusOne (queueDepth r b.1.nodeId) = none) ↔
      (r.telemetry.get? a.1.nodeId).isSome = true ∧ num.plusOne (queueDepth r a.1.nodeId) = none := by
    simp
  unfold Undivided
  rw [h, ← hfirst]
  exact ⟨fun hall => hall _ rfl, fun hall allocations heq => Except.ok.inj heq ▸ hall⟩

/-- Where the first counter cannot be raised, the call fails, and is atomic if the telemetry record was there. -/
theorem atomic_of_stuck (sha256 : Bytes → Bytes) (uuid : Text)
    (hplan : planPipeline num canary task r = .ok (a :: rest))
    (hdepth : num.plusOne (queueDepth r a.1.nodeId) = none) :
    Atomic num sha256 canary task uuid r ↔ (r.telemetry.get? a.1.nodeId).isSome = true := by
  have hm := makes_computeStage (a :: rest).length (modelIdOf num task)
  obtain ⟨hafter, hok⟩ := schedulePipeline_planned sha256 uuid hplan
  obtain ⟨_, _, _, _, _, _, _, _, hhead, _⟩ := planPipeline_dealt hplan
  have hstuck : buildStages num (computeStage (a :: rest).length (modelIdOf num task)) r 0 0 (a :: rest) =
      ({ r with telemetry := r.telemetry.set a.1.nodeId (r.telemetryOf a.1.nodeId) }, .error .raised) :=
    buildStages_stuck hm (registered_of_planned hplan a List.mem_cons_self) (Nat.succ_pos _) le_rfl (hhead a rfl) hdepth
  have hraised : ¬ ∃ v, (schedulePipeline num sha256 canary task uuid r).2 = .ok v := by
    rw [hok, hstuck]
    rintro ⟨⟨stages, hstages⟩, _⟩
    cases hstages
  rw [hstuck] at hafter
  cases ht : r.telemetry.get? a.1.nodeId with
  | some fields =>
    refine iff_of_true (fun _ _ => ?_) rfl
    rw [hafter, NodeRegistry.telemetryOf, ht, Option.getD_some, Dict.set_get? ht]
  | none =>
    have hchanged : (schedulePipeline num sha256 canary task uuid r).1 ≠ r := by
      intro hsame
      rw [hafter] at hsame
      have hget := congrArg (fun r => r.telemetry.get? a.1.nodeId) hsame
      rw [ht] at hget
      simp at hget
    rw [atomic_of_changes hchanged]
    exact iff_of_false hraised Bool.false_ne_true

/-- Where it can, the call changes the registry, and is atomic if it succeeds. -/
theorem atomic_of_counted (sha256 : Bytes → Bytes) (uuid : Text)
    (hplan : planPipeline num canary task r = .ok (a :: rest))
    (hdepth : (num.plusOne (queueDepth r a.1.nodeId)).isSome = true) :
    Atomic num sha256 canary task uuid r ↔
      FewStages num task ∧ (∀ b ∈ a :: rest, (num.plusOne (queueDepth r b.1.nodeId)).isSome = true) ∧
        Scalar (pipelineText num task uuid ((a :: rest).map fun b => b.1.nodeId)) := by
  have hm := makes_computeStage (a :: rest).length (modelIdOf num task)
  have hreg := registered_of_planned hplan
  obtain ⟨hafter, hok⟩ := schedulePipeline_planned sha256 uuid hplan
  obtain ⟨_, _, _, _, _, _, _, hdealt, hhead, hfew⟩ := planPipeline_dealt hplan
  have hchanged : (schedulePipeline num sha256 canary task uuid r).1 ≠ r := by
    rw [hafter]
    exact buildStages_changes hm hreg (Nat.succ_pos _) le_rfl (hhead a rfl) hdepth
  have hbuilt : (∃ stages, (buildStages num (computeStage (a :: rest).length (modelIdOf num task)) r 0 0
      (a :: rest)).2 = .ok stages) ↔ FewStages num task ∧
        ∀ b ∈ a :: rest, (num.plusOne (queueDepth r b.1.nodeId)).isSome = true := by
    rw [exists_congr fun _ => buildStages_ok hm hreg hdealt.distinct (Nat.zero_add _).le le_rfl]
    rw [exists_and_left, and_iff_left ⟨_, rfl⟩, ← hfew]
    exact ⟨fun h => ⟨fun b hb => (h b hb).1, fun b hb => (h b hb).2⟩, fun h b hb => ⟨h.1 b hb, h.2 b hb⟩⟩
  rw [atomic_of_changes hchanged, hok, hbuilt, and_assoc]

/-- A pipeline call is atomic exactly where no stage can fail after another one was given out. -/
theorem schedule_pipeline_atomic_iff (num : Numbers ν) (sha256 : Bytes → Bytes) (canary : CanaryVerifier τ)
    (task : Fields) (uuid : Text) (r : NodeRegistry) :
    Atomic num sha256 canary task uuid r ↔ Undivided num canary task uuid r := by
  cases hplan : planPipeline num canary task r with
  | error e =>
    refine iff_of_true (fun _ _ => ?_) fun allocations h => ?_
    · rw [schedulePipeline, hplan]
    · rw [hplan] at h
      cases h
  | ok allocations =>
    cases allocations with
    | nil => exact absurd rfl (planned_ne_nil hplan)
    | cons a rest =>
      rw [undivided_planned hplan]
      cases hdepth : num.plusOne (queueDepth r a.1.nodeId) with
      | none =>
        have hnot : ¬ ∀ b ∈ a :: rest, (num.plusOne (queueDepth r b.1.nodeId)).isSome = true := by
          intro hall
          have hsome := hall a List.mem_cons_self
          rw [hdepth] at hsome
          cases hsome
        rw [atomic_of_stuck sha256 uuid hplan hdepth, and_iff_left rfl, or_iff_left fun h => hnot h.2.1]
      | some depth =>
        rw [atomic_of_counted sha256 uuid hplan (hdepth ▸ rfl), or_iff_right fun h => by cases h.2]

end

/-- A node with 16 GB of memory that is free. -/
def freeNode (id : String) : Node :=
  ⟨text id, [(text "available_models", .arr [.str (text "m")]), (text "gpu", .obj
    [(text "vram_total_gb", .int 16), (text "vram_available_gb", .int 16)])]⟩

/-- Two nodes, registered and idle. -/
def idleRegistry : NodeRegistry :=
  .refill [freeNode "n1", freeNode "n2"] .empty

/-- One layer, in two stages. -/
def narrowTask : Fields :=
  [(text "task_id", .str (text "t1")), (text "total_layers", .int 1), (text "num_stages", .int 2)]

/-- The first node keeps the load of a pipeline that was never scheduled. -/
theorem failed_pipeline_loads_node :
    ¬ ∀ (num : Numbers ℚ) (sha256 : Bytes → Bytes) (canary : CanaryVerifier Unit) (task : Fields) (uuid : Text)
      (r : NodeRegistry), Exact num → Atomic num sha256 canary task uuid r := by
  intro h
  have hraised : (schedulePipeline exactNumbers (fun _ => []) (CanaryVerifier.new none : CanaryVerifier Unit)
      narrowTask [] idleRegistry).2 = .error .raised := by decide +kernel
  have hsame := h exactNumbers (fun _ => []) (.new none) narrowTask [] idleRegistry exact_exactNumbers _ hraised
  have hloaded : (schedulePipeline exactNumbers (fun _ => []) (CanaryVerifier.new none : CanaryVerifier Unit)
      narrowTask [] idleRegistry).1.dampeners.get? (text "n1") = some (1 / 10) := by decide +kernel
  rw [hsame] at hloaded
  exact absurd hloaded (by decide +kernel)

end Atomicity
end PublicIntelligence.System
