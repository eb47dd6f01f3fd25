import Mathlib.Data.Rat.Floor
import PublicIntelligence.System.Atomicity

namespace PublicIntelligence.System

open Text Encoding Json Mesh Scheduler

/-- Memory is counted in exact rationals. -/
structure ExactMemory (num : Numbers ℚ) : Prop extends Exact num where
  value : ∀ q, num.value q = some ((q : WithTop ℚ) : WithBot (WithTop ℚ))
  floorDivide : ∀ a b, b ≠ 0 → num.floorDivide a b = some ⌊a / b⌋

/-- The memory figures of the registered nodes are numbers. -/
def NumericMemory (r : NodeRegistry) : Prop := ∀ n ∈ r.nodes.values, (valueOf (r.vramAvailable n)).isSome = true

namespace Partition

/-- How many layers fit into a node's available memory. -/
def capacity (r : NodeRegistry) (perLayer : ℚ) (n : Node) : Int :=
  max 0 ⌊(valueOf (r.vramAvailable n)).getD 0 / perLayer⌋

/-- The stages hold the layers from `a` up to `c`, each of them once, at least one a stage, on distinct
eligible nodes with room for what they are given. -/
structure Partitions (num : Numbers ℚ) (canary : CanaryVerifier τ) (task : Fields) (r : NodeRegistry)
    (perLayer : ℚ) (a c : Int) (stages : List PipelineStage) : Prop where
  covers : Covers a c stages
  distinct : (stages.map PipelineStage.nodeId).Nodup
  fits : ∃ kept, eligibleNodes num canary task r = some kept ∧ ∀ s ∈ stages, ∃ n ∈ kept, n.nodeId = s.nodeId ∧
    s.endLayer - s.startLayer + 1 ≤ capacity r perLayer n

/-- There is an eligible node, and those there are have room for the layers. -/
def Enough (num : Numbers ℚ) (canary : CanaryVerifier τ) (task : Fields) (r : NodeRegistry) (perLayer : ℚ)
    (layers : Int) : Prop :=
  ∃ kept, eligibleNodes num canary task r = some kept ∧ kept ≠ [] ∧ layers ≤ (kept.map (capacity r perLayer)).sum

section
variable {num : Numbers ℚ} {canary : CanaryVerifier τ} {r : NodeRegistry}

/-- Every layer is held by one stage, and by no second. -/
theorem Partitions.once (h : Partitions num canary task r perLayer a c stages) (hk : a ≤ k) (hk' : k < c) :
    (stages.countP fun s => decide (s.startLayer ≤ k) && decide (k ≤ s.endLayer)) = 1 :=
  h.covers.countP_eq_one hk hk'

theorem layerCapacity_exact (exact : ExactMemory num) (hv : 0 < perLayer) (available : ℚ) (layers : Int) :
    layerCapacity num available perLayer layers = .ok ⌊available / perLayer⌋ := by
  have hzero : num.literal "0.0" = 0 := by
    rw [exact.literal]
    decide +kernel
  have hless : num.less (num.literal "0.0") perLayer = true := by
    rw [Numbers.less, exact.value, exact.value, hzero]
    simpa using hv
  rw [layerCapacity, if_pos hless, exact.floorDivide _ _ hv.ne']
  rfl

theorem partitions_of_dealt (exact : ExactMemory num) (hv : 0 < perLayer)
    (hkept : eligibleNodes num canary task r = some kept) (hdealt : Dealt num r kept perLayer layers allocations)
    (hcount : ∀ a ∈ allocations, 0 < a.2) (hnumeric : NumericMemory r) (hm : Makes stage total)
    (index : Nat) (layer : Int) :
    Partitions num canary task r perLayer layer (layer + layers) (stagesFor stage index layer allocations) where
  covers := hdealt.total ▸ stagesFor_covers hm hcount index layer
  distinct := stagesFor_nodes hm index layer allocations ▸ hdealt.distinct
  fits := by
    refine ⟨kept, hkept, fun s hs => ?_⟩
    obtain ⟨a, ha, hid, hlen⟩ := mem_stagesFor hm hs
    obtain ⟨available, cap, havailable, hcap, hle⟩ := hdealt.fits a ha
    have hmem := (eligibleNodes_spec hkept).1.subset (hdealt.eligible a ha)
    obtain ⟨x, hx⟩ := Option.isSome_iff_exists.mp (hnumeric a.1 hmem)
    obtain rfl := Option.some.inj (havailable.symm.trans (exact.float _ _ hx))
    rw [layerCapacity_exact exact hv] at hcap
    obtain rfl := Except.ok.inj hcap
    refine ⟨a.1, hdealt.eligible a ha, hid, ?_⟩
    rw [hlen, capacity, hx, Option.getD_some]
    exact hle.trans (le_max_right _ _)

theorem nodeCapacities_exact (exact : ExactMemory num) (hv : 0 < perLayer) (layers : Int)
    (havailable : ∀ n ∈ ns, (valueOf (r.vramAvailable n)).isSome = true) :
    ∃ capacities, nodeCapacities num r perLayer layers ns = .ok capacities ∧
      totalCapacity capacities = (ns.map (capacity r perLayer)).sum := by
  induction ns with
  | nil => exact ⟨[], rfl, rfl⟩
  | cons n ns ih =>
    obtain ⟨hn, hns⟩ := List.forall_mem_cons.mp havailable
    obtain ⟨x, hx⟩ := Option.isSome_iff_exists.mp hn
    obtain ⟨rest, hrest, hsum⟩ := ih hns
    have hcap := layerCapacity_exact exact hv x layers
    have hown : capacity r perLayer n = max 0 ⌊x / perLayer⌋ := by rw [capacity, hx, Option.getD_some]
    refine ⟨if 0 < ⌊x / perLayer⌋ then (n, ⌊x / perLayer⌋) :: rest else rest, ?_, ?_⟩
    · exact bind_ok.mpr ⟨x, orRaise_ok.mpr (exact.float _ _ hx), bind_ok.mpr ⟨_, hcap, bind_ok.mpr ⟨rest, hrest, rfl⟩⟩⟩
    · rw [List.map_cons, List.sum_cons, hown, ← hsum]
      split
      · rename_i hpos
        rw [max_eq_right hpos.le]
        rfl
      · rename_i hneg
        rw [max_eq_left (not_lt.mp hneg), zero_add]

theorem scoreNodes_numeric (exact : ExactMemory num) (hload : NumericLoad r) (ns : List Node) :
    ∃ scores, scoreNodes num r ns = some scores := by
  have hall : (scored num r ns).isSome = true := by
    refine scored_isSome.mpr fun n _ => ?_
    obtain ⟨q, hq⟩ := Option.isSome_iff_exists.mp (hload.queueReading n.nodeId)
    obtain ⟨c, hc⟩ := Option.isSome_iff_exists.mp (hload.cpuReading n.nodeId)
    obtain ⟨l, hl⟩ := Option.isSome_iff_exists.mp (hload.reliabilityReading n.nodeId)
    rw [fitnessOf_exact exact.toExact hq hc hl]
    rfl
  obtain ⟨list, hlist⟩ := Option.isSome_iff_exists.mp hall
  exact ⟨num.rank list, by rw [scoreNodes, hlist, Option.map_some]⟩

/-- The ranking is there if there is anyone to rank. -/
theorem rankForPipeline_numeric (exact : ExactMemory num) (hload : NumericLoad r)
    (hkept : eligibleNodes num canary task r = some kept) (hne : kept ≠ []) (message : Text) :
    ∃ ranked, rankForPipeline num canary task (modelIdOf num task) message r = .ok ranked := by
  obtain ⟨requirements, hreq, hfilter⟩ := Option.bind_eq_some_iff.mp hkept
  obtain ⟨scores, hscores⟩ := scoreNodes_numeric exact hload kept
  obtain ⟨n, hn⟩ := List.exists_mem_of_ne_nil kept hne
  have hvalues := Table.mem_values.mp ((eligibleNodes_spec hkept).1.subset hn)
  refine ⟨scores.map Prod.fst, ?_⟩
  rw [rankForPipeline, Table.isEmpty_of_get? hvalues, if_neg Bool.false_ne_true]
  refine bind_ok.mpr ⟨requirements, orRaise_ok.mpr hreq, bind_ok.mpr ⟨kept, orRaise_ok.mpr hfilter, ?_⟩⟩
  rw [if_neg (by rwa [List.isEmpty_iff])]
  exact bind_ok.mpr ⟨scores, orRaise_ok.mpr hscores, rfl⟩

/-- Ranking and measuring the nodes finds out whether there is enough memory. -/
theorem enough_iff (exact : ExactMemory num) (hload : NumericLoad r) (hnumeric : NumericMemory r)
    (hv : 0 < perLayer) (layers needed : Int) (message : Text) :
    Enough num canary task r perLayer needed ↔ ∃ ranked capacities,
      rankForPipeline num canary task (modelIdOf num task) message r = .ok ranked ∧
        nodeCapacities num r perLayer layers ranked = .ok capacities ∧ needed ≤ totalCapacity capacities := by
  have hmeasured : ∀ kept ranked, eligibleNodes num canary task r = some kept → ranked.Perm kept →
      ∃ capacities, nodeCapacities num r perLayer layers ranked = .ok capacities ∧
        totalCapacity capacities = (kept.map (capacity r perLayer)).sum := by
    intro kept ranked hkept hperm
    have havailable : ∀ n ∈ ranked, (valueOf (r.vramAvailable n)).isSome = true := fun n hn =>
      hnumeric n ((eligibleNodes_spec hkept).1.subset (hperm.subset hn))
    obtain ⟨capacities, hcap, hsum⟩ := nodeCapacities_exact exact hv layers havailable
    exact ⟨capacities, hcap, hsum.trans (hperm.map _).sum_eq⟩
  constructor
  · rintro ⟨kept, hkept, hne, hle⟩
    obtain ⟨ranked, hranked⟩ := rankForPipeline_numeric exact hload hkept hne message
    obtain ⟨kept', hkept', _, hperm⟩ := rankForPipeline_ok hranked
    obtain rfl := Option.some.inj (hkept.symm.trans hkept')
    obtain ⟨capacities, hcap, hsum⟩ := hmeasured kept ranked hkept hperm
    exact ⟨ranked, capacities, hranked, hcap, hsum ▸ hle⟩
  · rintro ⟨ranked, capacities, hranked, hcap, hle⟩
    obtain ⟨kept, hkept, hne, hperm⟩ := rankForPipeline_ok hranked
    obtain ⟨capacities', hcap', hsum⟩ := hmeasured kept ranked hkept hperm
    obtain rfl := Except.ok.inj (hcap.symm.trans hcap')
    exact ⟨kept, hkept, hne, hsum ▸ hle⟩

/-- The ids that a pipeline is hashed by can be encoded. -/
structure EncodableIds (num : Numbers ℚ) (task : Fields) (uuid : Text) (r : NodeRegistry) : Prop where
  taskId : Scalar (num.py.strOf ((get? task "task_id").getD (.str uuid)))
  nodeIds : ∀ n ∈ r.nodes.values, Scalar n.nodeId

theorem EncodableIds.pipelineText (h : EncodableIds num task uuid r)
    (hplan : planPipeline num canary task r = .ok allocations) :
    Scalar (Atomicity.pipelineText num task uuid (allocations.map fun a => a.1.nodeId)) := by
  have hnodes : ∀ t ∈ allocations.map fun a => a.1.nodeId, Scalar t := by
    intro t ht
    obtain ⟨a, ha, rfl⟩ := List.mem_map.mp ht
    exact h.nodeIds a.1 (planPipeline_spec hplan a ha).1
  unfold Atomicity.pipelineText
  simp only [scalar_append]
  exact ⟨⟨⟨⟨⟨scalar_text _, h.taskId⟩, scalar_text _⟩, scalar_natText _⟩, scalar_text _⟩,
    scalar_intercalate (scalar_text _) hnodes⟩

theorem queueDepth_numeric (exact : ExactMemory num) (hload : NumericLoad r) (n : Text) :
    (num.plusOne (queueDepth r n)).isSome = true := by
  have hvalue : (valueOf (queueDepth r n)).isSome = true := numeric_getD (hload.telemetry n _ (by simp)) rfl
  obtain ⟨x, hx⟩ := Option.isSome_iff_exists.mp hvalue
  obtain ⟨k, hk, _⟩ := exact.plusOne _ x hx
  rw [hk]
  rfl

/-- A plan is there exactly where there is enough memory, if no number of stages is asked for. -/
theorem planPipeline_iff (canary : CanaryVerifier τ) (exact : ExactMemory num) (hload : NumericLoad r)
    (hnumeric : NumericMemory r)
    (htotal : totalLayers num task = some total) (hone : 1 ≤ total)
    (hper : vramPerLayer num task total = .ok perLayer) (hv : 0 < perLayer) (hnull : requestedStages task = .null) :
    (∃ allocations, planPipeline num canary task r = .ok allocations) ↔
      Enough num canary task r perLayer total := by
  rw [enough_iff exact hload hnumeric hv total total
    (text "No active nodes satisfy the pipeline task requirements.")]
  constructor
  · rintro ⟨allocations, h⟩
    obtain ⟨total', ranked, perLayer', capacities, htotal', _, hranked, hper', hcap, hle, _⟩ := planPipeline_ok.mp h
    obtain rfl := Option.some.inj (htotal.symm.trans htotal')
    obtain rfl := Except.ok.inj (hper.symm.trans hper')
    exact ⟨ranked, capacities, hranked, hcap, hle⟩
  · rintro ⟨ranked, capacities, hranked, hcap, hle⟩
    have hremaining : 0 ≤ total := by omega
    obtain ⟨_, _, _, hleft⟩ := fillNodes_spec (fun e he => (nodeCapacities_spec hcap e he).1) hremaining
    exact ⟨_, planPipeline_ok.mpr ⟨total, ranked, perLayer, capacities, htotal, by omega, hranked, hper, hcap, hle,
      allocate_ok.mpr (.inl ⟨hnull, by omega, rfl⟩)⟩⟩

theorem planSplit_iff (canary : CanaryVerifier τ) (exact : ExactMemory num) (hload : NumericLoad r)
    (hnumeric : NumericMemory r)
    (htotal : splitLayers num task asked = .ok total) (htwo : 2 ≤ total)
    (hper : splitVramPerLayer num task total = .ok perLayer) (hv : 0 < perLayer) :
    (∃ allocations, planSplit num canary task asked r = .ok (total, allocations)) ↔
      Enough num canary task r perLayer (total - 1) := by
  rw [enough_iff exact hload hnumeric hv (total - 1) (total - 1)
    (text "No active nodes satisfy the split-inference task requirements.")]
  constructor
  · rintro ⟨allocations, h⟩
    obtain ⟨_, _, ranked, perLayer', capacities, hranked, hper', hcap, hle, _⟩ := planSplit_ok.mp h
    obtain rfl := Except.ok.inj (hper.symm.trans hper')
    exact ⟨ranked, capacities, hranked, hcap, hle⟩
  · rintro ⟨ranked, capacities, hranked, hcap, hle⟩
    have hremaining : 0 ≤ total - 1 := by omega
    obtain ⟨_, _, _, hleft⟩ := fillNodes_spec (fun e he => (nodeCapacities_spec hcap e he).1) hremaining
    exact ⟨_, planSplit_ok.mpr ⟨htotal, htwo, ranked, perLayer, capacities, hranked, hper, hcap, hle, by omega, rfl⟩⟩

/-- The stages of a pipeline that was scheduled are those of its plan. -/
theorem schedulePipeline_stages {sha256 : Bytes → Bytes}
    (h : (schedulePipeline num sha256 canary task uuid r).2 = .ok (txHash, stages)) :
    ∃ allocations, planPipeline num canary task r = .ok allocations ∧ (∀ a ∈ allocations, 0 < a.2) ∧
      stagesFor (Atomicity.computeStage allocations.length (modelIdOf num task)) 0 0 allocations = stages := by
  unfold schedulePipeline at h
  cases hplan : planPipeline num canary task r with
  | error e =>
    rw [hplan] at h
    cases h
  | ok allocations =>
    rw [hplan] at h
    obtain ⟨built, hb, h⟩ := bind_ok.mp h
    obtain ⟨_, _, heq⟩ := map_ok.mp h
    cases heq
    obtain ⟨_, _, _, _, _, _, _, hdealt, _⟩ := planPipeline_dealt hplan
    obtain ⟨hall, hstages⟩ := (buildStages_ok (Atomicity.makes_computeStage allocations.length (modelIdOf num task))
      (Atomicity.registered_of_planned hplan) hdealt.distinct (Nat.zero_add _).le le_rfl).mp hb
    exact ⟨allocations, rfl, fun a ha => (hall a ha).1, hstages⟩

/-- A remote stage of a split pipeline. -/
def remoteStage (total : Nat) (modelId : Text) (index : Nat) (first last : Int) (nodeId : Text) : PipelineStage :=
  ⟨index, total, first, last, nodeId, modelId, false, .remoteHidden, true⟩

theorem makes_remoteStage (total : Nat) (modelId : Text) : Makes (remoteStage total modelId) total :=
  ⟨fun _ _ _ _ => rfl, fun _ _ _ _ => rfl, fun _ _ _ _ => rfl, fun _ _ _ _ => rfl, fun _ _ _ _ => rfl⟩

def embedding (total : Nat) (modelId : Text) : PipelineStage :=
  ⟨0, total, 0, 0, clientLocal, modelId, true, .clientEmbedding, true⟩

def lmHead (total : Nat) (layers : Int) (modelId : Text) : PipelineStage :=
  ⟨total - 1, total, layers, layers, clientLocal, modelId, true, .clientLmHead, true⟩

/-- The client's stages around the remote ones. -/
def splitStages (layers : Int) (modelId : Text) (allocations : List (Node × Int)) : List PipelineStage :=
  embedding (allocations.length + 2) modelId ::
    stagesFor (remoteStage (allocations.length + 2) modelId) 1 1 allocations ++
      [lmHead (allocations.length + 2) layers modelId]

theorem remote_covers (hdealt : Dealt num r kept perLayer (layers - 1) allocations) (hcount : ∀ a ∈ allocations, 0 < a.2)
    (modelId : Text) : Covers 1 layers (stagesFor (remoteStage (allocations.length + 2) modelId) 1 1 allocations) := by
  have hcovers := stagesFor_covers (makes_remoteStage (allocations.length + 2) modelId) hcount 1 1
  rwa [hdealt.total, add_sub_cancel] at hcovers

/-- The checks at the end of `schedule_split_inference_pipeline` accept what it has built. -/
theorem checkSplit_accepts (hdealt : Dealt num r kept perLayer (layers - 1) allocations) (htwo : 2 ≤ layers)
    (hcount : ∀ a ∈ allocations, 0 < a.2) (modelId : Text) :
    checkSplit layers (splitStages layers modelId allocations) = .ok (splitStages layers modelId allocations) := by
  have hcovers := remote_covers hdealt hcount modelId
  have hremote : ∀ s ∈ stagesFor (remoteStage (allocations.length + 2) modelId) 1 1 allocations,
      s.isLocalBoundary = false ∧ s.stageType = .remoteHidden ∧ s.isSplitInference = true := by
    intro s hs
    obtain ⟨_, _, _, _, rfl⟩ := stagesFor_form hs
    exact ⟨rfl, rfl, rfl⟩
  unfold splitStages
  cases hstages : stagesFor (remoteStage (allocations.length + 2) modelId) 1 1 allocations with
  | nil =>
    rw [hstages] at hcovers
    cases hcovers
    omega
  | cons s rest =>
    rw [hstages] at hcovers hremote
    have hlast := hcovers.getLast (List.cons_ne_nil s rest)
    have hend : (s :: rest).getLast? = some ((s :: rest).getLast (List.cons_ne_nil s rest)) :=
      List.getLast?_eq_some_getLast _
    have hflags : ((s :: rest).any fun s => s.isLocalBoundary || s.stageType ≠ .remoteHidden || !s.isSplitInference) =
        false := by
      refine List.any_eq_false.mpr fun t ht => ?_
      obtain ⟨hlocal, htype, hsplit⟩ := hremote t ht
      simp [hlocal, htype, hsplit]
    have hinner : (embedding (allocations.length + 2) modelId :: s :: rest ++
        [lmHead (allocations.length + 2) layers modelId]).tail.dropLast = s :: rest := by
      rw [List.cons_append, List.tail_cons, List.dropLast_concat]
    have hfirst : (embedding (allocations.length + 2) modelId :: s :: rest ++
        [lmHead (allocations.length + 2) layers modelId]).tail.head? = some s := rfl
    have hhead : (embedding (allocations.length + 2) modelId :: s :: rest ++
        [lmHead (allocations.length + 2) layers modelId]).getLast? =
          some (lmHead (allocations.length + 2) layers modelId) := List.getLast?_concat
    have hbefore : (embedding (allocations.length + 2) modelId :: s :: rest ++
        [lmHead (allocations.length + 2) layers modelId]).dropLast.getLast? =
          some ((s :: rest).getLast (List.cons_ne_nil s rest)) := by
      rw [List.dropLast_concat, List.getLast?_cons_cons, hend]
    unfold checkSplit
    dsimp only
    rw [hinner, hfirst, hhead, hbefore, hflags, contiguous_of_chain hcovers.adjacent]
    have hstart : s.startLayer = 1 := hcovers.head
    have hstop : ((s :: rest).getLast (List.cons_ne_nil s rest)).endLayer = layers - 1 := by omega
    simp [hstart, hstop, isBoundary, embedding, lmHead]

/-- All stages together are in order and cover the layers up to the head's. -/
theorem splitStages_validate (hdealt : Dealt num r kept perLayer (layers - 1) allocations)
    (hcount : ∀ a ∈ allocations, 0 < a.2) (modelId : Text) :
    validateBounds layers (splitStages layers modelId allocations) = .ok () := by
  have hlen := stagesFor_length (remoteStage (allocations.length + 2) modelId) 1 1 allocations
  refine validateBounds_ok (c := layers + 1) ?_ ?_ ?_
  · unfold splitStages
    rw [List.map_append, List.map_cons, stagesFor_indices (makes_remoteStage _ _), List.length_append, List.length_cons,
      hlen, List.length_singleton, List.range_eq_range', List.range'_succ, List.range'_1_concat,
      Nat.add_comm _ allocations.length]
    rfl
  · have hremote := remote_covers hdealt hcount modelId
    exact .cons rfl le_rfl (hremote.append (.cons rfl le_rfl .nil))
  · intro s hs
    rw [splitStages, List.getLast?_concat] at hs
    obtain rfl := Option.some.inj hs
    rfl

theorem buildRemote_ok (hplan : planSplit num canary task asked r = .ok (layers, allocations)) :
    (buildStages num (remoteStage (allocations.length + 2) (modelIdOf num task)) r 1 1 allocations).2 = .ok stages ↔
      (∀ a ∈ allocations, 0 < a.2 ∧ (num.plusOne (queueDepth r a.1.nodeId)).isSome = true) ∧
        stagesFor (remoteStage (allocations.length + 2) (modelIdOf num task)) 1 1 allocations = stages := by
  obtain ⟨_, _, _, _, _, _, hdealt, _⟩ := planSplit_dealt hplan
  exact buildStages_ok (makes_remoteStage _ _) (fun a ha => (planSplit_spec hplan a ha).registered) hdealt.distinct
    (by omega) zero_le_one

/-- What `schedule_split_inference_pipeline` returns: the stages of its plan, wherever the counters can be raised. -/
theorem scheduleSplit_ok :
    (scheduleSplitInferencePipeline num canary task asked r).2 = .ok stages ↔ ∃ layers allocations,
      planSplit num canary task asked r = .ok (layers, allocations) ∧
        (∀ a ∈ allocations, (num.plusOne (queueDepth r a.1.nodeId)).isSome = true) ∧
          splitStages layers (modelIdOf num task) allocations = stages := by
  unfold scheduleSplitInferencePipeline
  cases hplan : planSplit num canary task asked r with
  | error e => exact iff_of_false nofun fun ⟨_, _, h, _⟩ => nomatch h
  | ok plan =>
    obtain ⟨layers, allocations⟩ := plan
    obtain ⟨_, _, _, htwo, _, _, hdealt, hcount⟩ := planSplit_dealt hplan
    have haccepts := checkSplit_accepts hdealt htwo hcount (modelIdOf num task)
    constructor
    · intro h
      obtain ⟨built, hb, h⟩ := bind_ok.mp h
      obtain ⟨hall, rfl⟩ := (buildRemote_ok hplan).mp hb
      exact ⟨layers, allocations, rfl, fun a ha => (hall a ha).2, Except.ok.inj (haccepts.symm.trans h)⟩
    · rintro ⟨layers', allocations', heq, hall, rfl⟩
      cases heq
      exact bind_ok.mpr ⟨_, (buildRemote_ok hplan).mpr ⟨fun a ha => ⟨hcount a ha, hall a ha⟩, rfl⟩, haccepts⟩

variable (num : Numbers ℚ) (sha256 : Bytes → Bytes) (canary : CanaryVerifier τ) (task : Fields) (r : NodeRegistry)

/-- The contract of `schedule_pipeline`: what it returns is a partition of the layers, and with no
number of stages to meet it returns something where there is enough memory. -/
def PartitionsPipeline : Prop :=
  ∀ uuid total perLayer, totalLayers num task = some total → 1 ≤ total →
    vramPerLayer num task total = .ok perLayer → 0 < perLayer →
      (∀ txHash stages, (schedulePipeline num sha256 canary task uuid r).2 = .ok (txHash, stages) →
        Partitions num canary task r perLayer 0 total stages ∧ validateBounds total stages = .ok ()) ∧
      (requestedStages task = .null → EncodableIds num task uuid r →
        ((∃ v, (schedulePipeline num sha256 canary task uuid r).2 = .ok v) ↔
          Enough num canary task r perLayer total))

/-- The contract of `schedule_split_inference_pipeline`, whose first and last stage are the client's. -/
def PartitionsSplit : Prop :=
  ∀ asked layers perLayer, splitLayers num task asked = .ok layers → 2 ≤ layers →
    splitVramPerLayer num task layers = .ok perLayer → 0 < perLayer →
      (∀ stages, (scheduleSplitInferencePipeline num canary task asked r).2 = .ok stages →
        ∃ first remote last, stages = first :: remote ++ [last] ∧ isBoundary .clientEmbedding 0 first = true ∧
          isBoundary .clientLmHead layers last = true ∧ Partitions num canary task r perLayer 1 layers remote ∧
            validateBounds layers stages = .ok ()) ∧
      ((∃ stages, (scheduleSplitInferencePipeline num canary task asked r).2 = .ok stages) ↔
        Enough num canary task r perLayer (layers - 1))

variable {num sha256 canary task r}

theorem partitionsPipeline (exact : ExactMemory num) (hload : NumericLoad r) (hnumeric : NumericMemory r) :
    PartitionsPipeline num sha256 canary task r := by
  intro uuid total perLayer htotal hone hper hv
  refine ⟨fun txHash stages h => ?_, fun hnull hids => ?_⟩
  · obtain ⟨allocations, hplan, hcount, rfl⟩ := schedulePipeline_stages h
    obtain ⟨total', perLayer', kept, htotal', _, hper', hkept, hdealt, _⟩ := planPipeline_dealt hplan
    obtain rfl := Option.some.inj (htotal.symm.trans htotal')
    obtain rfl := Except.ok.inj (hper.symm.trans hper')
    have hm := Atomicity.makes_computeStage allocations.length (modelIdOf num task)
    have hparts := partitions_of_dealt exact hv hkept hdealt hcount hnumeric hm 0 0
    rw [zero_add] at hparts
    refine ⟨hparts, validateBounds_ok ?_ hparts.covers fun s hs => ?_⟩
    · rw [stagesFor_indices hm, stagesFor_length, List.range_eq_range']
    · obtain ⟨_, _, _, _, rfl⟩ := stagesFor_form (List.mem_of_getLast? hs)
      exact Int.sub_add_cancel total 1
  · rw [← planPipeline_iff canary exact hload hnumeric htotal hone hper hv hnull]
    constructor
    · rintro ⟨⟨txHash, stages⟩, h⟩
      obtain ⟨allocations, hplan, _⟩ := schedulePipeline_stages h
      exact ⟨allocations, hplan⟩
    · rintro ⟨allocations, hplan⟩
      obtain ⟨_, _, _, _, _, _, _, hdealt, _, hfew⟩ := planPipeline_dealt hplan
      have hcount := hfew.mpr fun _ _ _ hgiven => absurd hnull hgiven
      have hm := Atomicity.makes_computeStage allocations.length (modelIdOf num task)
      have hbuilt : (buildStages num (Atomicity.computeStage allocations.length (modelIdOf num task)) r 0 0
          allocations).2 = .ok (stagesFor (Atomicity.computeStage allocations.length (modelIdOf num task)) 0 0
            allocations) :=
        (buildStages_ok hm (Atomicity.registered_of_planned hplan) hdealt.distinct (Nat.zero_add _).le le_rfl).mpr
          ⟨fun a ha => ⟨hcount a ha, queueDepth_numeric exact hload a.1.nodeId⟩, rfl⟩
      exact (Atomicity.schedulePipeline_planned sha256 uuid hplan).2.mpr ⟨⟨_, hbuilt⟩, hids.pipelineText hplan⟩

theorem partitionsSplit (exact : ExactMemory num) (hload : NumericLoad r) (hnumeric : NumericMemory r) :
    PartitionsSplit num canary task r := by
  intro asked layers perLayer hlayers htwo hper hv
  constructor
  · intro stages h
    obtain ⟨layers', allocations, hplan, _, rfl⟩ := scheduleSplit_ok.mp h
    obtain ⟨perLayer', kept, hlayers', _, hper', hkept, hdealt, hcount⟩ := planSplit_dealt hplan
    obtain rfl := Except.ok.inj (hlayers.symm.trans hlayers')
    obtain rfl := Except.ok.inj (hper.symm.trans hper')
    have hm := makes_remoteStage (allocations.length + 2) (modelIdOf num task)
    have hparts := partitions_of_dealt exact hv hkept hdealt hcount hnumeric hm 1 1
    rw [add_sub_cancel] at hparts
    refine ⟨_, _, _, rfl, rfl, ?_, hparts, splitStages_validate hdealt hcount _⟩
    simp [isBoundary, lmHead]
  · rw [← planSplit_iff canary exact hload hnumeric hlayers htwo hper hv]
    constructor
    · rintro ⟨stages, h⟩
      obtain ⟨layers', allocations, hplan, _⟩ := scheduleSplit_ok.mp h
      obtain ⟨_, _, hlayers', _⟩ := planSplit_dealt hplan
      obtain rfl := Except.ok.inj (hlayers.symm.trans hlayers')
      exact ⟨allocations, hplan⟩
    · rintro ⟨allocations, hplan⟩
      exact ⟨_, scheduleSplit_ok.mpr ⟨layers, allocations, hplan,
        fun a _ => queueDepth_numeric exact hload a.1.nodeId, rfl⟩⟩

/-- Both schedulers partition the layers, over every registry with numeric telemetry. -/
theorem pipelines_partition (exact : ExactMemory num) (hload : NumericLoad r) (hnumeric : NumericMemory r) :
    PartitionsPipeline num sha256 canary task r ∧ PartitionsSplit num canary task r :=
  ⟨partitionsPipeline exact hload hnumeric, partitionsSplit exact hload hnumeric⟩

end

theorem exactMemory_exactNumbers : ExactMemory exactNumbers where
  toExact := exact_exactNumbers
  value _ := rfl
  floorDivide _ _ hb := if_neg hb

theorem numericLoad_idle : NumericLoad Atomicity.idleRegistry :=
  numericLoad_of_entries (by decide +kernel) (by decide +kernel)

/-- A task that names neither a model nor requirements. -/
def oneLayerTask (taskId : Text) : Fields :=
  [(text "task_id", .str taskId), (text "total_layers", .int 1)]

theorem numericMemory_idle : NumericMemory Atomicity.idleRegistry := by
  unfold NumericMemory
  decide +kernel

theorem pipelines_partition_idle :
    PartitionsPipeline exactNumbers (fun _ => []) (CanaryVerifier.new none : CanaryVerifier Unit)
        (oneLayerTask (text "t1")) Atomicity.idleRegistry ∧
      PartitionsSplit exactNumbers (CanaryVerifier.new none : CanaryVerifier Unit) (oneLayerTask (text "t1"))
        Atomicity.idleRegistry :=
  pipelines_partition exactMemory_exactNumbers numericLoad_idle numericMemory_idle

/-- A task id that is a lone surrogate cannot be hashed, however much memory there is. -/
theorem surrogate_task_fails :
    ¬ ∀ (num : Numbers ℚ) (sha256 : Bytes → Bytes) (canary : CanaryVerifier Unit) (task : Fields) (uuid : Text)
      (r : NodeRegistry) (total : Int) (perLayer : ℚ), ExactMemory num → NumericLoad r → NumericMemory r →
        totalLayers num task = some total → 1 ≤ total → vramPerLayer num task total = .ok perLayer → 0 < perLayer →
          requestedStages task = .null → ((∃ v, (schedulePipeline num sha256 canary task uuid r).2 = .ok v) ↔
            Enough num canary task r perLayer total) := by
  intro h
  have hper : vramPerLayer exactNumbers (oneLayerTask [point 0xD800]) 1 = .ok (1 / 2) := by decide +kernel
  have hiff := h exactNumbers (fun _ => []) (.new none) (oneLayerTask [point 0xD800]) [] Atomicity.idleRegistry 1
    (1 / 2) exactMemory_exactNumbers numericLoad_idle numericMemory_idle (by decide +kernel) le_rfl hper (by norm_num) rfl
  have hplanned : (planPipeline exactNumbers (CanaryVerifier.new none : CanaryVerifier Unit)
      (oneLayerTask [point 0xD800]) Atomicity.idleRegistry).toOption.isSome = true := by decide +kernel
  have henough : Enough exactNumbers (CanaryVerifier.new none : CanaryVerifier Unit) (oneLayerTask [point 0xD800])
      Atomicity.idleRegistry (1 / 2) 1 := by
    refine (planPipeline_iff (.new none) exactMemory_exactNumbers numericLoad_idle numericMemory_idle
      (by decide +kernel) le_rfl hper (by norm_num) rfl).mp ?_
    cases hplan : planPipeline exactNumbers (CanaryVerifier.new none : CanaryVerifier Unit)
        (oneLayerTask [point 0xD800]) Atomicity.idleRegistry with
    | error e =>
      rw [hplan] at hplanned
      cases hplanned
    | ok allocations => exact ⟨allocations, rfl⟩
  obtain ⟨v, hv⟩ := hiff.mpr henough
  have hraised : (schedulePipeline exactNumbers (fun _ => []) (CanaryVerifier.new none : CanaryVerifier Unit)
      (oneLayerTask [point 0xD800]) [] Atomicity.idleRegistry).2 = .error .raised := by decide +kernel
  rw [hraised] at hv
  cases hv

end Partition
end PublicIntelligence.System
