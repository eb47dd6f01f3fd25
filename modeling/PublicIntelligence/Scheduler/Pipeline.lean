import Mathlib.Algebra.Order.BigOperators.Group.List
import Mathlib.Algebra.Order.Ring.Int
import Mathlib.Tactic.Linarith
import PublicIntelligence.Lib.Tiling
import PublicIntelligence.Scheduler.Engine

namespace PublicIntelligence.Scheduler

open Text Json

/-- The number of stages a pipeline task asks for. -/
def requestedStages (task : Fields) : Json := orElse (get? task "num_stages") (get? task "target_stages")

/-- The counter that a stage raises, as it stands in the telemetry. -/
def queueDepth (r : NodeRegistry) (nodeId : Text) : Json :=
  (get? (r.telemetryOf nodeId) "queue_depth").getD (.int 0)

/-- Each node is given some layers, and no more than it can hold. -/
def Within (capacities allocations : List (Node × Int)) : Prop :=
  ∀ a ∈ allocations, ∃ cap, (a.1, cap) ∈ capacities ∧ a.2 ≤ cap

theorem within_nil (capacities : List (Node × Int)) : Within capacities [] :=
  fun _ ha => absurd ha List.not_mem_nil

theorem Within.cons (h : Within capacities allocations) (e : Node × Int) : Within (e :: capacities) allocations :=
  fun a ha => (h a ha).imp fun _ hcap => hcap.imp_left (List.mem_cons_of_mem e)

theorem fillNodes_done (h : remaining ≤ 0) (capacities : List (Node × Int)) :
    fillNodes remaining capacities = ([], remaining) := by
  cases capacities with
  | nil => rfl
  | cons e rest => exact if_pos h

theorem fillNodes_cons (h : 0 < remaining) (n : Node) (cap : Int) (rest : List (Node × Int)) :
    fillNodes remaining ((n, cap) :: rest) =
      ((n, min remaining cap) :: (fillNodes (remaining - min remaining cap) rest).1,
        (fillNodes (remaining - min remaining cap) rest).2) :=
  if_neg (not_le.mpr h)

/-- The greedy loop: every layer goes somewhere, or is left because all nodes are full. -/
theorem fillNodes_spec (hcap : ∀ e ∈ capacities, 0 < e.2) {remaining : Int} (hr : 0 ≤ remaining) :
    Within capacities (fillNodes remaining capacities).1 ∧
      (∀ a ∈ (fillNodes remaining capacities).1, 0 < a.2) ∧
        ((fillNodes remaining capacities).1.map Prod.snd).sum + (fillNodes remaining capacities).2 = remaining ∧
          (fillNodes remaining capacities).2 = max 0 (remaining - totalCapacity capacities) := by
  induction capacities generalizing remaining with
  | nil =>
    refine ⟨within_nil _, fun a ha => absurd ha List.not_mem_nil, ?_, ?_⟩
    · simp [fillNodes]
    · simp [fillNodes, totalCapacity, hr]
  | cons e rest ih =>
    obtain ⟨n, cap⟩ := e
    obtain ⟨hpos, hrest⟩ := List.forall_mem_cons.mp hcap
    have htotal : totalCapacity ((n, cap) :: rest) = cap + totalCapacity rest := List.sum_cons
    have hge : 0 ≤ totalCapacity rest := List.sum_nonneg fun x hx => by
      obtain ⟨e, he, rfl⟩ := List.mem_map.mp hx
      exact (hrest e he).le
    rcases hr.eq_or_lt with rfl | hr
    · rw [fillNodes_done le_rfl]
      refine ⟨within_nil _, fun a ha => absurd ha List.not_mem_nil, rfl, ?_⟩
      change 0 = _
      omega
    · rw [fillNodes_cons hr]
      have hr' : 0 ≤ remaining - min remaining cap := by omega
      obtain ⟨hwithin, hall, hsum, hleft⟩ := ih hrest hr'
      refine ⟨?_, ?_, ?_, ?_⟩
      · exact List.forall_mem_cons.mpr ⟨⟨cap, List.mem_cons_self, min_le_right _ _⟩, hwithin.cons _⟩
      · exact List.forall_mem_cons.mpr ⟨lt_min hr hpos, hall⟩
      · simp only [List.map_cons, List.sum_cons]
        omega
      · rw [htotal]
        simp only [hleft]
        omega

/-- The even split: the first `extra` nodes are given one layer more than the others. -/
theorem spreadLayers_spec (h : spreadLayers base extra capacities = .ok allocations)
    (hextra : extra ≤ capacities.length) :
    Within capacities allocations ∧ (∀ a ∈ allocations, base ≤ a.2) ∧
      (allocations.map Prod.snd).sum = base * capacities.length + max 0 extra := by
  induction capacities generalizing extra allocations with
  | nil =>
    cases h
    refine ⟨within_nil _, fun a ha => absurd ha List.not_mem_nil, ?_⟩
    simpa using hextra
  | cons e rest ih =>
    obtain ⟨n, cap⟩ := e
    unfold spreadLayers at h
    dsimp only at h
    by_cases hcap : cap < base + if 0 < extra then 1 else 0
    · rw [if_pos hcap] at h
      cases h
    · rw [if_neg hcap] at h
      obtain ⟨more, hmore, h⟩ := bind_ok.mp h
      cases h
      have hlen : extra - 1 ≤ rest.length := by
        rw [List.length_cons] at hextra
        push_cast at hextra
        omega
      obtain ⟨hwithin, hall, hsum⟩ := ih hmore hlen
      refine ⟨?_, ?_, ?_⟩
      · exact List.forall_mem_cons.mpr ⟨⟨cap, List.mem_cons_self, not_lt.mp hcap⟩, hwithin.cons _⟩
      · refine List.forall_mem_cons.mpr ⟨?_, hall⟩
        dsimp only
        split <;> omega
      · simp only [List.map_cons, List.sum_cons, hsum, List.length_cons, Nat.cast_add, Nat.cast_one, mul_add, mul_one]
        split <;> omega

theorem spreadLayers_head (h : spreadLayers base extra capacities = .ok (a :: rest)) :
    a.2 = base + if 0 < extra then 1 else 0 := by
  cases capacities with
  | nil => cases h
  | cons e capacities =>
    unfold spreadLayers at h
    dsimp only at h
    by_cases hcap : e.2 < base + if 0 < extra then 1 else 0
    · rw [if_pos hcap] at h
      cases h
    · rw [if_neg hcap] at h
      obtain ⟨more, _, h⟩ := bind_ok.mp h
      cases h
      rfl

theorem within_of_sublist (h : Within capacities allocations) (hs : capacities.Sublist all) : Within all allocations :=
  fun a ha => (h a ha).imp fun _ hcap => hcap.imp_left (hs.subset ·)

section
variable {num : Numbers ν} {canary : CanaryVerifier τ} {r : NodeRegistry}

theorem filterNodes_sublist (h : filterNodes num canary r requirements ns = some kept) : kept.Sublist ns := by
  induction ns generalizing kept with
  | nil =>
    cases h
    exact .slnil
  | cons m ns ih =>
    simp only [filterNodes, bind, Option.bind_eq_some_iff, pure, Option.some.injEq] at h
    obtain ⟨keep, _, rest, hrest, rfl⟩ := h
    split
    · exact (ih hrest).cons_cons m
    · exact (ih hrest).cons m

/-- The nodes that a pipeline may use, as `filter_nodes` gives them. -/
def eligibleNodes (num : Numbers ν) (canary : CanaryVerifier τ) (task : Fields) (r : NodeRegistry) :
    Option (List Node) := do
  let requirements ← pipelineRequirements num task (modelIdOf num task)
  filterNodes num canary r requirements r.nodes.values

theorem rankForPipeline_ok (h : rankForPipeline num canary task (modelIdOf num task) message r = .ok ranked) :
    ∃ kept, eligibleNodes num canary task r = some kept ∧ kept ≠ [] ∧ ranked.Perm kept := by
  unfold rankForPipeline at h
  split at h
  · cases h
  · obtain ⟨requirements, hreq, h⟩ := bind_ok.mp h
    obtain ⟨kept, hkept, h⟩ := bind_ok.mp h
    split at h
    · cases h
    · rename_i hne
      obtain ⟨scores, hs, h⟩ := bind_ok.mp h
      cases h
      refine ⟨kept, ?_, fun hnil => hne (hnil ▸ rfl), scoreNodes_perm (orRaise_ok.mp hs)⟩
      rw [eligibleNodes, orRaise_ok.mp hreq]
      exact orRaise_ok.mp hkept

theorem eligibleNodes_spec (h : eligibleNodes num canary task r = some kept) :
    kept.Sublist r.nodes.values ∧ (kept.map Node.nodeId).Nodup := by
  obtain ⟨requirements, _, hkept⟩ := Option.bind_eq_some_iff.mp h
  have hsub := filterNodes_sublist hkept
  exact ⟨hsub, r.nodes.values_nodup.sublist (hsub.map _)⟩

/-- What a node can hold is counted from its available memory, and nodes that can hold nothing
are left out. -/
theorem nodeCapacities_spec (h : nodeCapacities num r perLayer layers ns = .ok capacities) :
    ∀ e ∈ capacities, 0 < e.2 ∧ ∃ available, num.float (r.vramAvailable e.1) = some available ∧
      layerCapacity num available perLayer layers = .ok e.2 := by
  induction ns generalizing capacities with
  | nil =>
    cases h
    exact fun e he => absurd he List.not_mem_nil
  | cons n ns ih =>
    obtain ⟨available, ha, h⟩ := bind_ok.mp h
    obtain ⟨cap, hcap, h⟩ := bind_ok.mp h
    obtain ⟨rest, hrest, h⟩ := bind_ok.mp h
    cases h
    split
    · rename_i hpos
      exact List.forall_mem_cons.mpr ⟨⟨hpos, available, orRaise_ok.mp ha, hcap⟩, ih hrest⟩
    · exact ih hrest

theorem allocate_ok : allocate num task total capacities = .ok allocations ↔
    (requestedStages task = .null ∧ (fillNodes total capacities).2 ≤ 0 ∧
        allocations = (fillNodes total capacities).1) ∨
      requestedStages task ≠ .null ∧ ∃ stages, num.py.intOf (requestedStages task) = some stages ∧ 0 < stages ∧
        stages ≤ capacities.length ∧
          spreadLayers (total / stages) (total % stages) (capacities.take stages.toNat) = .ok allocations := by
  unfold allocate requestedStages
  split
  · rename_i hnull
    simp only [hnull, true_and, ne_eq, not_true, false_and, or_false]
    by_cases hleft : 0 < (fillNodes total capacities).2
    · rw [if_pos hleft]
      exact iff_of_false nofun fun h => absurd hleft (not_lt.mpr h.1)
    · rw [if_neg hleft, and_iff_right (not_lt.mp hleft), Except.ok.injEq, eq_comm]
  · rename_i hgiven
    rw [or_iff_right (fun h => hgiven h.1), and_iff_right (fun h => hgiven h), bind_ok]
    refine exists_congr fun stages => and_congr orRaise_ok ?_
    by_cases hpos : stages ≤ 0
    · rw [if_pos hpos]
      exact iff_of_false nofun fun h => absurd h.1 (not_lt.mpr hpos)
    · rw [if_neg hpos, and_iff_right (not_le.mp hpos)]
      by_cases hmany : (capacities.length : Int) < stages
      · rw [if_pos hmany]
        exact iff_of_false nofun fun h => absurd hmany (not_lt.mpr h.1)
      · rw [if_neg hmany, and_iff_right (not_lt.mp hmany)]

/-- The layers of the model that a pipeline task is about. -/
def totalLayers (num : Numbers ν) (task : Fields) : Option Int :=
  num.py.intOf ((get? task "total_layers").getD (.int 32))

theorem planPipeline_ok : planPipeline num canary task r = .ok allocations ↔
    ∃ total ranked perLayer capacities, totalLayers num task = some total ∧ 0 < total ∧
      rankForPipeline num canary task (modelIdOf num task)
        (text "No active nodes satisfy the pipeline task requirements.") r = .ok ranked ∧
      vramPerLayer num task total = .ok perLayer ∧ nodeCapacities num r perLayer total ranked = .ok capacities ∧
        total ≤ totalCapacity capacities ∧ allocate num task total capacities = .ok allocations := by
  unfold planPipeline totalLayers
  rw [bind_ok]
  refine exists_congr fun total => ?_
  rw [orRaise_ok]
  by_cases hpos : total ≤ 0
  · rw [if_pos hpos]
    exact iff_of_false (fun h => nomatch h.2) fun ⟨_, _, _, _, h, _⟩ => absurd h (not_lt.mpr hpos)
  · rw [if_neg hpos]
    simp only [bind_ok]
    constructor
    · rintro ⟨htotal, ranked, hranked, perLayer, hper, capacities, hcap, h⟩
      split at h
      · cases h
      · rename_i henough
        exact ⟨ranked, perLayer, capacities, htotal, not_le.mp hpos, hranked, hper, hcap, not_lt.mp henough, h⟩
    · rintro ⟨ranked, perLayer, capacities, htotal, _, hranked, hper, hcap, henough, h⟩
      exact ⟨htotal, ranked, hranked, perLayer, hper, capacities, hcap, by rwa [if_neg (not_lt.mpr henough)]⟩

theorem planSplit_ok : planSplit num canary task asked r = .ok (total, allocations) ↔
    splitLayers num task asked = .ok total ∧ 2 ≤ total ∧ ∃ ranked perLayer capacities,
      rankForPipeline num canary task (modelIdOf num task)
        (text "No active nodes satisfy the split-inference task requirements.") r = .ok ranked ∧
      splitVramPerLayer num task total = .ok perLayer ∧
        nodeCapacities num r perLayer (total - 1) ranked = .ok capacities ∧
          total - 1 ≤ totalCapacity capacities ∧ (fillNodes (total - 1) capacities).2 ≤ 0 ∧
            allocations = (fillNodes (total - 1) capacities).1 := by
  unfold planSplit
  rw [bind_ok]
  constructor
  · rintro ⟨layers, hlayers, h⟩
    split at h
    · cases h
    · rename_i htwo
      simp only [bind_ok] at h
      obtain ⟨ranked, hranked, perLayer, hper, capacities, hcap, h⟩ := h
      split at h
      · cases h
      · rename_i henough
        split at h
        · cases h
        · rename_i hleft
          cases h
          exact ⟨hlayers, not_lt.mp htwo, ranked, perLayer, capacities, hranked, hper, hcap, not_lt.mp henough,
            not_lt.mp hleft, rfl⟩
  · rintro ⟨hlayers, htwo, ranked, perLayer, capacities, hranked, hper, hcap, henough, hleft, rfl⟩
    refine ⟨total, hlayers, ?_⟩
    rw [if_neg (not_lt.mpr htwo)]
    simp only [bind_ok]
    refine ⟨ranked, hranked, perLayer, hper, capacities, hcap, ?_⟩
    rw [if_neg (not_lt.mpr henough), if_neg (not_lt.mpr hleft)]

/-- Layers dealt out to distinct eligible nodes, to each as many as its memory holds at most. -/
structure Dealt (num : Numbers ν) (r : NodeRegistry) (kept : List Node) (perLayer : ν) (layers : Int)
    (allocations : List (Node × Int)) : Prop where
  eligible : ∀ a ∈ allocations, a.1 ∈ kept
  distinct : (allocations.map fun a => a.1.nodeId).Nodup
  fits : ∀ a ∈ allocations, ∃ available cap, num.float (r.vramAvailable a.1) = some available ∧
    layerCapacity num available perLayer layers = .ok cap ∧ a.2 ≤ cap
  total : (allocations.map Prod.snd).sum = layers

theorem dealt_of_within (hkept : eligibleNodes num canary task r = some kept) (hranked : ranked.Perm kept)
    (hcap : nodeCapacities num r perLayer layers ranked = .ok capacities)
    (hsub : (allocations.map Prod.fst).Sublist (capacities.map Prod.fst)) (hwithin : Within capacities allocations)
    (htotal : (allocations.map Prod.snd).sum = layers) : Dealt num r kept perLayer layers allocations := by
  have hnodes := hsub.trans (nodeCapacities_sublist hcap)
  refine ⟨fun a ha => hranked.subset (hnodes.subset (List.mem_map_of_mem ha)), ?_, fun a ha => ?_, htotal⟩
  · have hids := (hranked.map Node.nodeId).nodup_iff.mpr (eligibleNodes_spec hkept).2
    have hmap := hids.sublist (hnodes.map Node.nodeId)
    rwa [List.map_map] at hmap
  · obtain ⟨cap, hmem, hle⟩ := hwithin a ha
    obtain ⟨_, available, havailable, hlayers⟩ := nodeCapacities_spec hcap _ hmem
    exact ⟨available, cap, havailable, hlayers, hle⟩

/-- No more stages are asked for than there are layers. -/
def FewStages (num : Numbers ν) (task : Fields) : Prop :=
  ∀ total stages, totalLayers num task = some total → requestedStages task ≠ .null →
    num.py.intOf (requestedStages task) = some stages → stages ≤ total

theorem length_le_sum (h : ∀ a ∈ allocations, 0 < a.2) :
    (allocations.length : Int) ≤ (List.map (Prod.snd : Node × Int → Int) allocations).sum := by
  induction allocations with
  | nil => rfl
  | cons a rest ih =>
    obtain ⟨ha, hrest⟩ := List.forall_mem_cons.mp h
    have := ih hrest
    simp only [List.length_cons, List.map_cons, List.sum_cons]
    push_cast
    omega

/-- A pipeline's plan deals out all of its layers. A stage without a layer comes only from
asking for more stages than there are layers. -/
theorem planPipeline_dealt (h : planPipeline num canary task r = .ok allocations) :
    ∃ total perLayer kept, totalLayers num task = some total ∧ 0 < total ∧
      vramPerLayer num task total = .ok perLayer ∧ eligibleNodes num canary task r = some kept ∧
        Dealt num r kept perLayer total allocations ∧ (∀ a ∈ allocations.head?, 0 < a.2) ∧
          ((∀ a ∈ allocations, 0 < a.2) ↔ FewStages num task) := by
  obtain ⟨total, ranked, perLayer, capacities, htotal, hpos, hranked, hper, hcap, _, halloc⟩ := planPipeline_ok.mp h
  obtain ⟨kept, hkept, _, hperm⟩ := rankForPipeline_ok hranked
  refine ⟨total, perLayer, kept, htotal, hpos, hper, hkept, ?_⟩
  have hsub := allocate_sublist halloc
  rcases allocate_ok.mp halloc with ⟨hnull, hleft, rfl⟩ | ⟨hgiven, stages, hstages, hone, hmany, hspread⟩
  · have hpositive := fun e he => (nodeCapacities_spec hcap e he).1
    obtain ⟨hwithin, hall, hsum, hrest⟩ := fillNodes_spec hpositive hpos.le
    refine ⟨dealt_of_within hkept hperm hcap hsub hwithin (by omega),
      fun a ha => hall a (List.mem_of_mem_head? ha), iff_of_true hall ?_⟩
    exact fun _ _ _ hgiven => absurd hnull hgiven
  · have hlen : ((capacities.take stages.toNat).length : Int) = stages := by
      rw [List.length_take]
      omega
    have hextra : total % stages ≤ (capacities.take stages.toNat).length := by
      rw [hlen]
      exact (Int.emod_lt_of_pos total hone).le
    obtain ⟨hwithin, hall, hsum⟩ := spreadLayers_spec hspread hextra
    have hexact : (allocations.map Prod.snd).sum = total := by
      rw [hsum, hlen, max_eq_right (Int.emod_nonneg total hone.ne'), mul_comm]
      exact Int.mul_ediv_add_emod total stages
    refine ⟨dealt_of_within hkept hperm hcap hsub (within_of_sublist hwithin (List.take_sublist _ _)) hexact,
      fun a ha => ?_, fun hcount => ?_, fun hfew a ha => ?_⟩
    · obtain ⟨rest, rfl⟩ := List.head?_eq_some_iff.mp ha
      rw [spreadLayers_head hspread]
      have hdiv := Int.mul_ediv_add_emod total stages
      have hquot := Int.ediv_nonneg hpos.le hone.le
      split
      · omega
      · rename_i hextra
        have hmod := Int.emod_nonneg total hone.ne'
        have hzero : total % stages = 0 := by omega
        rw [hzero, add_zero] at hdiv
        have := pos_of_mul_pos_right (hdiv ▸ hpos) hone.le
        omega
    · intro total' stages' htotal' _ hstages'
      obtain rfl := Option.some.inj (htotal.symm.trans htotal')
      obtain rfl := Option.some.inj (hstages.symm.trans hstages')
      have hsame : allocations.length = (capacities.take stages.toNat).length := by
        have := congrArg List.length (spreadLayers_nodes hspread)
        simpa using this
      have := length_le_sum hcount
      omega
    · have hbase : 1 ≤ total / stages :=
        (Int.le_ediv_iff_mul_le hone).mpr (by rw [one_mul]; exact hfew total stages htotal hgiven hstages)
      exact lt_of_lt_of_le Int.zero_lt_one (hbase.trans (hall a ha))

theorem planSplit_dealt (h : planSplit num canary task asked r = .ok (total, allocations)) :
    ∃ perLayer kept, splitLayers num task asked = .ok total ∧ 2 ≤ total ∧
      splitVramPerLayer num task total = .ok perLayer ∧ eligibleNodes num canary task r = some kept ∧
        Dealt num r kept perLayer (total - 1) allocations ∧ ∀ a ∈ allocations, 0 < a.2 := by
  obtain ⟨htotal, htwo, ranked, perLayer, capacities, hranked, hper, hcap, _, hleft, rfl⟩ := planSplit_ok.mp h
  obtain ⟨kept, hkept, _, hperm⟩ := rankForPipeline_ok hranked
  have hpositive := fun e he => (nodeCapacities_spec hcap e he).1
  have hremaining : 0 ≤ total - 1 := by omega
  obtain ⟨hwithin, hall, hsum, hrest⟩ := fillNodes_spec hpositive hremaining
  exact ⟨perLayer, kept, htotal, htwo, hper, hkept,
    dealt_of_within hkept hperm hcap (fillNodes_sublist _ _) hwithin (by omega), hall⟩

end

/-- The stages of an allocation, one after the other. -/
def stagesFor (stage : Nat → Int → Int → Text → PipelineStage) : Nat → Int → List (Node × Int) → List PipelineStage
  | _, _, [] => []
  | index, layer, (n, count) :: rest =>
    stage index layer (layer + count - 1) n.nodeId :: stagesFor stage (index + 1) (layer + count) rest

/-- How the two schedulers make a stage of `total`. -/
structure Makes (stage : Nat → Int → Int → Text → PipelineStage) (total : Nat) : Prop where
  stageIndex : ∀ index first last nodeId, (stage index first last nodeId).stageIndex = index
  totalStages : ∀ index first last nodeId, (stage index first last nodeId).totalStages = total
  startLayer : ∀ index first last nodeId, (stage index first last nodeId).startLayer = first
  endLayer : ∀ index first last nodeId, (stage index first last nodeId).endLayer = last
  nodeId : ∀ index first last nodeId, (stage index first last nodeId).nodeId = nodeId

/-- A stage has been given to the node. -/
def assigned (r : NodeRegistry) (nodeId : Text) (depth : Json) : NodeRegistry :=
  { r with
    telemetry := r.telemetry.set nodeId (Dict.put (text "queue_depth") depth (r.telemetryOf nodeId))
    dampeners := r.dampeners.set nodeId ((r.dampeners.get? nodeId).getD 0 + 1 / 10) }

section
variable {num : Numbers ν} {r : NodeRegistry} {stage : Nat → Int → Int → Text → PipelineStage}

theorem Makes.valid (hm : Makes stage total) (hindex : index < total) (hlayer : 0 ≤ layer) (count : Int) (n : Text) :
    (stage index layer (layer + count - 1) n).valid = decide (0 < count) := by
  unfold PipelineStage.valid
  rw [hm.stageIndex, hm.totalStages, hm.startLayer, hm.endLayer]
  simp only [hindex, hlayer, decide_true, Bool.true_and]
  exact decide_eq_decide.mpr (by omega)

theorem assignStage_registered (num : Numbers ν) (hn : n ∈ r.nodes) :
    (num.plusOne (queueDepth r n) = none ∧
        assignStage num r n = ({ r with telemetry := r.telemetry.set n (r.telemetryOf n) }, .error .raised)) ∨
      ∃ depth, num.plusOne (queueDepth r n) = some depth ∧ assignStage num r n = (assigned r n depth, .ok ()) := by
  unfold queueDepth
  cases hd : num.plusOne ((get? (r.telemetryOf n) "queue_depth").getD (.int 0)) with
  | none =>
    have hbump : bumpQueue num r n =
        ({ r with telemetry := r.telemetry.set n (r.telemetryOf n) }, .error .raised) := by
      simp only [bumpQueue, hd]
    refine .inl ⟨rfl, ?_⟩
    rw [assignStage, hbump]
  | some depth =>
    have hbump : bumpQueue num r n = ({ r with
        telemetry := r.telemetry.set n (Dict.put (text "queue_depth") depth (r.telemetryOf n)) }, .ok ()) := by
      simp only [bumpQueue, hd]
    refine .inr ⟨depth, rfl, ?_⟩
    rw [assignStage, hbump]
    dsimp only [NodeRegistry.incrementDampener]
    rw [if_pos hn]
    rfl

theorem queueDepth_assigned (h : n ≠ m) (depth : Json) : queueDepth (assigned r n depth) m = queueDepth r m := by
  unfold queueDepth NodeRegistry.telemetryOf assigned
  rw [Dict.get?_set_ne _ _ h]

/-- The loop succeeds where every stage has a layer and every counter can be raised; and then it
has made the stages of the allocation. -/
theorem buildStages_ok (hm : Makes stage total) (hreg : ∀ a ∈ allocations, a.1.nodeId ∈ r.nodes)
    (hids : (allocations.map fun a => a.1.nodeId).Nodup) (hindex : index + allocations.length ≤ total)
    (hlayer : 0 ≤ layer) : (buildStages num stage r index layer allocations).2 = .ok stages ↔
      (∀ a ∈ allocations, 0 < a.2 ∧ (num.plusOne (queueDepth r a.1.nodeId)).isSome = true) ∧
        stagesFor stage index layer allocations = stages := by
  induction allocations generalizing r index layer stages with
  | nil => simp [buildStages, stagesFor]
  | cons a rest ih =>
    obtain ⟨n, count⟩ := a
    obtain ⟨hn, hrest⟩ := List.forall_mem_cons.mp hreg
    obtain ⟨hfresh, hids⟩ := List.nodup_cons.mp hids
    rw [List.length_cons] at hindex
    have hvalid := hm.valid (show index < total by omega) hlayer count n.nodeId
    rw [List.forall_mem_cons]
    unfold buildStages
    dsimp only
    rw [hvalid]
    by_cases hcount : 0 < count
    · rw [decide_eq_true hcount, if_pos rfl]
      rcases assignStage_registered num hn with ⟨hnone, hassign⟩ | ⟨depth, hsome, hassign⟩
      · rw [hassign, hnone]
        exact iff_of_false nofun fun h => nomatch h.1.1.2
      · have hsame : ∀ a ∈ rest, queueDepth (assigned r n.nodeId depth) a.1.nodeId = queueDepth r a.1.nodeId := by
          intro a ha
          refine queueDepth_assigned (fun heq => hfresh ?_) depth
          exact List.mem_map.mpr ⟨a, ha, heq.symm⟩
        have htail : ∀ stages, (buildStages num stage (assigned r n.nodeId depth) (index + 1) (layer + count) rest).2 =
            .ok stages ↔ (∀ a ∈ rest, 0 < a.2 ∧
              (num.plusOne (queueDepth (assigned r n.nodeId depth) a.1.nodeId)).isSome = true) ∧
                stagesFor stage (index + 1) (layer + count) rest = stages :=
          fun _ => ih hrest hids (by omega) (by omega)
        rw [hassign, hsome]
        dsimp only
        rw [map_ok]
        constructor
        · rintro ⟨more, hmore, rfl⟩
          obtain ⟨hall, rfl⟩ := (htail more).mp hmore
          exact ⟨⟨⟨hcount, rfl⟩, fun a ha => hsame a ha ▸ hall a ha⟩, rfl⟩
        · rintro ⟨⟨_, hall⟩, rfl⟩
          exact ⟨_, (htail _).mpr ⟨fun a ha => (hsame a ha).symm ▸ hall a ha, rfl⟩, rfl⟩
    · rw [decide_eq_false hcount, if_neg Bool.false_ne_true]
      exact iff_of_false nofun fun h => hcount h.1.1.1

/-- No dampener goes down while the stages are built. -/
theorem buildStages_dampener (hreg : ∀ a ∈ allocations, a.1.nodeId ∈ r.nodes) (w : Text) :
    (r.dampeners.get? w).getD 0 ≤ ((buildStages num stage r index layer allocations).1.dampeners.get? w).getD 0 := by
  induction allocations generalizing r index layer with
  | nil => exact le_rfl
  | cons a rest ih =>
    obtain ⟨n, count⟩ := a
    obtain ⟨hn, hrest⟩ := List.forall_mem_cons.mp hreg
    unfold buildStages
    dsimp only
    split
    · rcases assignStage_registered num hn with ⟨_, hassign⟩ | ⟨depth, _, hassign⟩
      · rw [hassign]
      · rw [hassign]
        refine le_trans ?_ (ih (r := assigned r n.nodeId depth) hrest)
        unfold assigned
        rw [Dict.get?_set]
        split
        · rename_i hw
          subst hw
          rw [Option.getD_some]
          linarith
        · exact le_rfl
    · exact le_rfl

end

/-- The check of the indices in `PipelineConfig.validate_bounds`. -/
def checkIndices : Nat → List PipelineStage → Except ScheduleError Unit
  | _, [] => .ok ()
  | idx, s :: rest =>
    if s.stageIndex ≠ idx then
      .error (.value (text "Stage index mismatch at position " ++ natText idx ++ text ": got " ++
        natText s.stageIndex))
    else checkIndices (idx + 1) rest

/-- Its check that each stage begins where the one before it ends. -/
def checkContinuity : Nat → List PipelineStage → Except ScheduleError Unit
  | i, s :: t :: rest =>
    if s.endLayer + 1 ≠ t.startLayer then
      .error (.value (text "Discontinuity between stage " ++ natText i ++ text " (end " ++ intText s.endLayer ++
        text ") and stage " ++ natText (i + 1) ++ text " (start " ++ intText t.startLayer ++ text ")"))
    else checkContinuity (i + 1) (t :: rest)
  | _, _ => .ok ()

/-- The last layer that a pipeline which ends with this stage has to reach. -/
def expectedEnd (totalLayers : Int) (last : PipelineStage) : Int :=
  if last.isSplitInference || last.isLocalBoundary || last.stageType = .clientLmHead then totalLayers
  else totalLayers - 1

/-- `PipelineConfig.validate_bounds` -/
def validateBounds (totalLayers : Int) (stages : List PipelineStage) : Except ScheduleError Unit :=
  match stages.head?, stages.getLast? with
  | some first, some last => do
    checkIndices 0 stages
    if first.startLayer ≠ 0 then .error (.value (text "First pipeline stage must start at layer 0"))
    else if last.endLayer ≠ expectedEnd totalLayers last then
      .error (.value (text "Last pipeline stage end layer (" ++ intText last.endLayer ++
        text ") must match expected end layer (" ++ intText (expectedEnd totalLayers last) ++ text ")"))
    else checkContinuity 0 stages
  | _, _ => .ok ()

/-- The stages cover the layers from `a` to `c` without a gap. -/
abbrev Covers (a c : Int) (stages : List PipelineStage) : Prop :=
  Tiles PipelineStage.startLayer PipelineStage.endLayer a c stages

theorem checkIndices_ok (h : stages.map PipelineStage.stageIndex = List.range' idx stages.length) :
    checkIndices idx stages = .ok () := by
  induction stages generalizing idx with
  | nil => rfl
  | cons s rest ih =>
    rw [List.length_cons, List.range'_succ, List.map_cons] at h
    obtain ⟨hs, hrest⟩ := List.cons.inj h
    rw [checkIndices, if_neg (not_not.mpr hs)]
    exact ih hrest

theorem checkContinuity_ok (i : Nat) (h : stages.IsChain fun s t => s.endLayer + 1 = t.startLayer) :
    checkContinuity i stages = .ok () := by
  induction h generalizing i with
  | nil => rfl
  | singleton => rfl
  | cons_cons hst _ ih =>
    rw [checkContinuity, if_neg (not_not.mpr hst)]
    exact ih (i + 1)

theorem contiguous_of_chain (h : stages.IsChain fun s t => s.endLayer + 1 = t.startLayer) :
    contiguous stages = true := by
  induction h with
  | nil => rfl
  | singleton => rfl
  | cons_cons hst _ ih =>
    rw [contiguous, ih, Bool.and_true]
    exact decide_eq_true hst

/-- Stages in order that cover all layers up to the expected end are accepted. -/
theorem validateBounds_ok (hindex : stages.map PipelineStage.stageIndex = List.range stages.length)
    (hcovers : Covers 0 c stages) (hend : ∀ s ∈ stages.getLast?, expectedEnd layers s + 1 = c) :
    validateBounds layers stages = .ok () := by
  cases stages with
  | nil => rfl
  | cons s rest =>
    have hlast? : (s :: rest).getLast? = some ((s :: rest).getLast (List.cons_ne_nil s rest)) :=
      List.getLast?_eq_some_getLast _
    have hlast := hcovers.getLast (List.cons_ne_nil s rest)
    have hexpected := hend _ hlast?
    rw [List.range_eq_range'] at hindex
    rw [validateBounds, hlast?, List.head?_cons]
    refine bind_ok.mpr ⟨(), checkIndices_ok hindex, ?_⟩
    rw [if_neg (not_not.mpr hcovers.head), if_neg (not_not.mpr (by omega))]
    exact checkContinuity_ok 0 hcovers.adjacent

section
variable {stage : Nat → Int → Int → Text → PipelineStage}

theorem stagesFor_length (stage : Nat → Int → Int → Text → PipelineStage) (index : Nat) (layer : Int)
    (allocations : List (Node × Int)) : (stagesFor stage index layer allocations).length = allocations.length := by
  induction allocations generalizing index layer with
  | nil => rfl
  | cons a rest ih => exact congrArg (· + 1) (ih _ _)

theorem stagesFor_indices (hm : Makes stage total) (index : Nat) (layer : Int) (allocations : List (Node × Int)) :
    (stagesFor stage index layer allocations).map PipelineStage.stageIndex =
      List.range' index allocations.length := by
  induction allocations generalizing index layer with
  | nil => rfl
  | cons a rest ih => rw [stagesFor, List.map_cons, hm.stageIndex, ih, List.length_cons, List.range'_succ]

/-- Stages of at least a layer each cover what was allocated. -/
theorem stagesFor_covers (hm : Makes stage total) (hcount : ∀ a ∈ allocations, 0 < a.2) (index : Nat) (layer : Int) :
    Covers layer (layer + (allocations.map Prod.snd).sum) (stagesFor stage index layer allocations) := by
  induction allocations generalizing index layer with
  | nil =>
    rw [List.map_nil, List.sum_nil, add_zero]
    exact .nil
  | cons a rest ih =>
    obtain ⟨n, count⟩ := a
    obtain ⟨hone, hrest⟩ := List.forall_mem_cons.mp hcount
    have hend := hm.endLayer index layer (layer + count - 1) n.nodeId
    refine .cons (hm.startLayer _ _ _ _) (by rw [hend]; omega) ?_
    have hnext : (stage index layer (layer + count - 1) n.nodeId).endLayer + 1 = layer + count := by
      rw [hend]
      omega
    rw [hnext, List.map_cons, List.sum_cons, ← add_assoc]
    exact ih hrest (index + 1) (layer + count)

theorem stagesFor_form (h : s ∈ stagesFor stage index layer allocations) :
    ∃ i first last nodeId, s = stage i first last nodeId := by
  induction allocations generalizing index layer with
  | nil => cases h
  | cons a rest ih =>
    rcases List.mem_cons.mp h with rfl | h
    · exact ⟨_, _, _, _, rfl⟩
    · exact ih h

/-- Each stage is one allocation's. -/
theorem mem_stagesFor (hm : Makes stage total) (h : s ∈ stagesFor stage index layer allocations) :
    ∃ a ∈ allocations, a.1.nodeId = s.nodeId ∧ s.endLayer - s.startLayer + 1 = a.2 := by
  induction allocations generalizing index layer with
  | nil => cases h
  | cons a rest ih =>
    rcases List.mem_cons.mp h with rfl | h
    · refine ⟨a, List.mem_cons_self, (hm.nodeId _ _ _ _).symm, ?_⟩
      rw [hm.endLayer, hm.startLayer]
      omega
    · obtain ⟨b, hb, hs⟩ := ih h
      exact ⟨b, List.mem_cons_of_mem _ hb, hs⟩

theorem stagesFor_nodes (hm : Makes stage total) (index : Nat) (layer : Int) (allocations : List (Node × Int)) :
    (stagesFor stage index layer allocations).map PipelineStage.nodeId = allocations.map fun a => a.1.nodeId := by
  induction allocations generalizing index layer with
  | nil => rfl
  | cons a rest ih => rw [stagesFor, List.map_cons, hm.nodeId, ih, List.map_cons]

end

end PublicIntelligence.Scheduler
