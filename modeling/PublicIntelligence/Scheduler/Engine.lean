import PublicIntelligence.Scheduler.Matchmaker

namespace PublicIntelligence.Scheduler

open Text Encoding Json

/-- A `ValueError` the engine raises itself, or any other exception. -/
inductive ScheduleError where
  | value (message : Text)
  | raised
deriving DecidableEq

/-- A value, or the exception of a computation that has none. -/
def orRaise (v : Option α) : Except ScheduleError α :=
  match v with
  | none => .error .raised
  | some a => .ok a

/-- The hexadecimal SHA-256 of a text, unless the text cannot be encoded. -/
def sha256Hex (sha256 : Bytes → Bytes) (t : Text) : Option Text :=
  (encode t).map fun bs => hexText (sha256 bs)

section
variable (num : Numbers ν) (sha256 : Bytes → Bytes) (canary : CanaryVerifier τ)

/-- The tracked load of a node goes up by one assignment. -/
def bumpQueue (r : NodeRegistry) (nodeId : Text) : NodeRegistry × Except ScheduleError Unit :=
  let telemetry := r.telemetryOf nodeId
  match num.plusOne ((get? telemetry "queue_depth").getD (.int 0)) with
  | none => ({ r with telemetry := r.telemetry.set nodeId telemetry }, .error .raised)
  | some depth =>
    ({ r with telemetry := r.telemetry.set nodeId (Dict.put (text "queue_depth") depth telemetry) },
      .ok ())

/-- Filtering with requirements that are no dictionary fails at the first node that is
not quarantined. -/
def filterBy (r : NodeRegistry) (requirements : Option Fields) : Option (List Node) :=
  match requirements with
  | some fields => filterNodes num canary r fields r.nodes.values
  | none => if r.nodes.values.all fun n => canary.isQuarantined n.nodeId then some [] else none

/-- `task.get("requirements", {})` -/
def requirementsOf (task : Fields) : Option Fields :=
  match get? task "requirements" with
  | none => some []
  | some (.obj fields) => some fields
  | some _ => none

/-- The node that `schedule_task` selects, and its score. -/
def selectForTask (task : Fields) (r : NodeRegistry) : Except ScheduleError (Node × ν) := do
  let eligible ← orRaise (filterBy num canary r (requirementsOf task))
  if eligible.isEmpty then .error (.value (text "No active nodes satisfy the task requirements."))
  else
    let ranked ← orRaise (scoreNodes num r eligible)
    orRaise ranked.head?

/-- `schedule_task`: the transaction hash and the node id, and the registry after the
call. `uuid` is drawn for a task without an id. -/
def scheduleTask (task : Fields) (uuid : Text) (r : NodeRegistry) :
    NodeRegistry × Except ScheduleError (Text × Text) :=
  match selectForTask num canary task r with
  | .error e => (r, .error e)
  | .ok (node, score) =>
    let (after, bumped) := bumpQueue num r node.nodeId
    let taskId := num.py.strOf ((get? task "task_id").getD (.str uuid))
    let txRaw := node.nodeId ++ text ":" ++ taskId ++ text ":" ++ num.format score
    (after, bumped.bind fun _ => (orRaise (sha256Hex sha256 txRaw)).map fun hash => (hash, node.nodeId))

end

inductive StageType where
  | clientEmbedding
  | remoteHidden
  | clientLmHead
  | compute
deriving DecidableEq

/-- A stage of a pipeline, with the first and last of its layers. -/
structure PipelineStage where
  stageIndex : Nat
  totalStages : Nat
  startLayer : Int
  endLayer : Int
  nodeId : Text
  modelId : Text
  isLocalBoundary : Bool
  stageType : StageType
  isSplitInference : Bool
deriving DecidableEq

/-- What the model's validators ask of a stage. -/
def PipelineStage.valid (s : PipelineStage) : Bool :=
  s.stageIndex < s.totalStages && 0 ≤ s.startLayer && s.startLayer ≤ s.endLayer

section
variable (num : Numbers ν) (canary : CanaryVerifier τ)

/-- The model a pipeline task names. -/
def modelIdOf (task : Fields) : Text :=
  let named := orElse (get? task "model_id") (get? task "model")
  if truthy named then num.py.strOf named else []

/-- `dict(...)` of the requirements, with the model if they name none. -/
def pipelineRequirements (task : Fields) (modelId : Text) : Option Fields := do
  let requirements ←
    match (get? task "requirements").getD (.obj []) with
    | .obj fields => some fields
    | other => num.dict other
  if modelId ≠ [] ∧ (get? requirements "model").isNone ∧ (get? requirements "model_name").isNone then
    return Dict.put (text "model") (.str modelId) requirements
  else return requirements

/-- The eligible nodes of a pipeline task, best first. -/
def rankForPipeline (task : Fields) (modelId noneSatisfy : Text) (r : NodeRegistry) :
    Except ScheduleError (List Node) := do
  if r.nodes.isEmpty then .error (.value (text "No active nodes available in registry."))
  else
    let requirements ← orRaise (pipelineRequirements num task modelId)
    let eligible ← orRaise (filterNodes num canary r requirements r.nodes.values)
    if eligible.isEmpty then .error (.value noneSatisfy)
    else
      let ranked ← orRaise (scoreNodes num r eligible)
      return ranked.map Prod.fst

/-- `float(value) / divisor`, if the value is there. -/
def quotient (value : Option Json) (divisor : Json) : Except ScheduleError (Option ν) :=
  match value with
  | none => .ok none
  | some v => do
    let dividend ← orRaise (num.float v)
    let divisor ← orRaise (num.float divisor)
    return some (← orRaise (num.divide dividend divisor))

/-- A value that is given, as a float. -/
def floatOf (value : Option Json) : Except ScheduleError (Option ν) :=
  match value.getD .null with
  | .null => .ok none
  | v => (orRaise (num.float v)).map some

/-- The first of some computations that yields a value. -/
def firstOf : List (Except ScheduleError (Option ν)) → Except ScheduleError (Option ν)
  | [] => .ok none
  | c :: cs =>
    match c with
    | .error e => .error e
    | .ok (some v) => .ok (some v)
    | .ok none => firstOf cs

def halfGigabyte (given : Option ν) : Except ScheduleError ν :=
  match given with
  | some v => .ok v
  | none => orRaise (num.float (.float "0.5"))

/-- `vram_per_layer` of `schedule_pipeline`. -/
def vramPerLayer (task : Fields) (totalLayers : Int) : Except ScheduleError ν := do
  let given ← firstOf [floatOf num (get? task "vram_per_layer_gb"),
    floatOf num (get? task "layer_vram_gb"),
    quotient num (get? task "vram_per_layer_mb") (.float "1024.0"),
    quotient num (get? task "model_vram_gb") (.int totalLayers),
    quotient num (get? task "vram_required_gb") (.int totalLayers)]
  halfGigabyte num given

/-- `vram_per_layer` of `schedule_split_inference_pipeline`. -/
def splitVramPerLayer (task : Fields) (totalLayers : Int) : Except ScheduleError ν := do
  let given ← firstOf [
    floatOf num (some (orElse (get? task "vram_per_layer_gb") (get? task "layer_vram_gb"))),
    quotient num (get? task "vram_required_gb") (.int totalLayers)]
  halfGigabyte num given

/-- How many of the layers fit into a node's memory: all, where they need none. -/
def layerCapacity (available perLayer : ν) (layers : Int) : Except ScheduleError Int :=
  if num.less (num.literal "0.0") perLayer then orRaise (num.floorDivide available perLayer)
  else .ok layers

/-- The nodes that can hold at least one layer, and how many they can hold. -/
def nodeCapacities (r : NodeRegistry) (perLayer : ν) (layers : Int) :
    List Node → Except ScheduleError (List (Node × Int))
  | [] => .ok []
  | n :: ns => do
    let available ← orRaise (num.float (r.vramAvailable n))
    let cap ← layerCapacity num available perLayer layers
    let rest ← nodeCapacities r perLayer layers ns
    return if 0 < cap then (n, cap) :: rest else rest

def totalCapacity (capacities : List (Node × Int)) : Int := (capacities.map Prod.snd).sum

end

/-- Layers handed out node by node, each up to its capacity; and what is left. -/
def fillNodes : Int → List (Node × Int) → List (Node × Int) × Int
  | remaining, [] => ([], remaining)
  | remaining, (n, cap) :: rest =>
    if remaining ≤ 0 then ([], remaining)
    else
      let assigned := min remaining cap
      let (more, left) := fillNodes (remaining - assigned) rest
      ((n, assigned) :: more, left)

/-- Layers handed out evenly over a given number of nodes, the first `extra` one more. -/
def spreadLayers (base : Int) : Int → List (Node × Int) → Except ScheduleError (List (Node × Int))
  | _, [] => .ok []
  | extra, (n, cap) :: rest => do
    let assigned := base + if 0 < extra then 1 else 0
    if cap < assigned then
      .error (.value (text "Node " ++ n.nodeId ++ text " capacity (" ++ intText cap ++
        text " layers) insufficient for stage assignment (" ++ intText assigned ++ text " layers)."))
    else
      let more ← spreadLayers base (extra - 1) rest
      return (n, assigned) :: more

section
variable (num : Numbers ν) (canary : CanaryVerifier τ)

/-- The stages `schedule_pipeline` asks for, given the nodes' capacities. -/
def allocate (task : Fields) (totalLayers : Int) (capacities : List (Node × Int)) :
    Except ScheduleError (List (Node × Int)) :=
  match orElse (get? task "num_stages") (get? task "target_stages") with
  | .null =>
    let (allocations, left) := fillNodes totalLayers capacities
    if 0 < left then .error (.value (text "Insufficient VRAM across cluster to schedule pipeline."))
    else .ok allocations
  | requested => do
    let stages ← orRaise (num.py.intOf requested)
    if stages ≤ 0 then .error (.value (text "num_stages must be > 0"))
    else if capacities.length < stages then
      .error (.value (text "Requested " ++ intText stages ++ text " stages, but only " ++
        natText capacities.length ++ text " eligible nodes available."))
    else spreadLayers (totalLayers / stages) (totalLayers % stages) (capacities.take stages.toNat)

/-- The nodes and layer counts that `schedule_pipeline` settles on. -/
def planPipeline (task : Fields) (r : NodeRegistry) : Except ScheduleError (List (Node × Int)) := do
  let totalLayers ← orRaise (num.py.intOf ((get? task "total_layers").getD (.int 32)))
  if totalLayers ≤ 0 then .error (.value (text "total_layers must be greater than 0"))
  else
    let ranked ← rankForPipeline num canary task (modelIdOf num task)
      (text "No active nodes satisfy the pipeline task requirements.") r
    let perLayer ← vramPerLayer num task totalLayers
    let capacities ← nodeCapacities num r perLayer totalLayers ranked
    if totalCapacity capacities < totalLayers then
      .error (.value (text "Insufficient VRAM in cluster: required " ++ intText totalLayers ++
        text " layers, but cluster can only host " ++ intText (totalCapacity capacities) ++ text " layers."))
    else allocate num task totalLayers capacities

/-- `total_layers` of a split-inference task. -/
def splitLayers (task : Fields) (totalLayers : Int) : Except ScheduleError Int :=
  match (get? task "total_layers").getD (.int totalLayers) with
  | .null => .ok totalLayers
  | v => orRaise (num.py.intOf v)

/-- `total_layers`, and the remote nodes and layer counts that
`schedule_split_inference_pipeline` settles on. -/
def planSplit (task : Fields) (totalLayers : Int) (r : NodeRegistry) :
    Except ScheduleError (Int × List (Node × Int)) := do
  let layers ← splitLayers num task totalLayers
  if layers < 2 then .error (.value (text "total_layers must be at least 2 for split inference"))
  else
    let ranked ← rankForPipeline num canary task (modelIdOf num task)
      (text "No active nodes satisfy the split-inference task requirements.") r
    let perLayer ← splitVramPerLayer num task layers
    let capacities ← nodeCapacities num r perLayer (layers - 1) ranked
    if totalCapacity capacities < layers - 1 then
      .error (.value (text "Insufficient VRAM in cluster for intermediate layers: req " ++
        intText (layers - 1) ++ text ", avail " ++ intText (totalCapacity capacities) ++ text "."))
    else
      let (allocations, left) := fillNodes (layers - 1) capacities
      if 0 < left then
        .error (.value (text "Insufficient VRAM across cluster to schedule intermediate split layers."))
      else .ok (layers, allocations)

end

section
variable (num : Numbers ν)

/-- A stage more on the node: its tracked load and its dampener go up. -/
def assignStage (r : NodeRegistry) (nodeId : Text) : NodeRegistry × Except ScheduleError Unit :=
  match bumpQueue num r nodeId with
  | (after, .error e) => (after, .error e)
  | (after, .ok _) =>
    match after.incrementDampener nodeId with
    | none => (after, .error (.value (text "Node not found: " ++ nodeId)))
    | some raised => (raised, .ok ())

/-- The loop that makes a stage of each allocation. What it wrote stays where it raises. -/
def buildStages (stage : Nat → Int → Int → Text → PipelineStage) :
    NodeRegistry → Nat → Int → List (Node × Int) → NodeRegistry × Except ScheduleError (List PipelineStage)
  | r, _, _, [] => (r, .ok [])
  | r, index, layer, (n, count) :: rest =>
    let made := stage index layer (layer + count - 1) n.nodeId
    if made.valid then
      match assignStage num r n.nodeId with
      | (after, .error e) => (after, .error e)
      | (after, .ok _) =>
        let (last, more) := buildStages stage after (index + 1) (layer + count) rest
        (last, more.map (made :: ·))
    else (r, .error .raised)

end

section
variable (num : Numbers ν) (sha256 : Bytes → Bytes) (canary : CanaryVerifier τ)

/-- `schedule_pipeline`: the transaction hash and the stages, and the registry after it. -/
def schedulePipeline (task : Fields) (uuid : Text) (r : NodeRegistry) :
    NodeRegistry × Except ScheduleError (Text × List PipelineStage) :=
  match planPipeline num canary task r with
  | .error e => (r, .error e)
  | .ok allocations =>
    let total := allocations.length
    let stage := fun index first last nodeId =>
      PipelineStage.mk index total first last nodeId (modelIdOf num task) false .compute false
    let (after, built) := buildStages num stage r 0 0 allocations
    let taskId := num.py.strOf ((get? task "task_id").getD (.str uuid))
    (after, built.bind fun stages =>
      let txRaw := text "pipeline:" ++ taskId ++ text ":" ++ natText total ++ text ":" ++
        (text ",").intercalate (stages.map PipelineStage.nodeId)
      (orRaise (sha256Hex sha256 txRaw)).map fun hash => (hash, stages))

def clientLocal : Text := text "client_local"

def isBoundary (kind : StageType) (layer : Int) (s : PipelineStage) : Bool :=
  s.isLocalBoundary && s.stageType = kind && s.nodeId = clientLocal && s.startLayer = layer &&
    s.endLayer = layer

def contiguous : List PipelineStage → Bool
  | s :: t :: rest => s.endLayer + 1 = t.startLayer && contiguous (t :: rest)
  | _ => true

/-- The checks that `schedule_split_inference_pipeline` ends with. -/
def checkSplit (layers : Int) (stages : List PipelineStage) : Except ScheduleError (List PipelineStage) :=
  let remote := stages.tail.dropLast
  if ¬ stages.head?.any (isBoundary .clientEmbedding 0) then
    .error (.value (text "Invalid split-inference client embedding boundary stage"))
  else if ¬ stages.getLast?.any (isBoundary .clientLmHead layers) then
    .error (.value (text "Invalid split-inference client LM head boundary stage"))
  else if ¬ stages.tail.head?.any (fun s => s.startLayer = 1) then
    .error (.value (text "Split-inference remote stages must start at layer 1"))
  else if ¬ contiguous remote then
    .error (.value (text "Split-inference remote stage layer ranges must be contiguous"))
  else if ¬ stages.dropLast.getLast?.any (fun s => s.endLayer = layers - 1) then
    .error (.value (text "Split-inference remote stages must end before the LM head layer"))
  else if remote.any fun s => s.isLocalBoundary || s.stageType ≠ .remoteHidden || !s.isSplitInference then
    .error (.value (text "Invalid split-inference remote hidden stage"))
  else .ok stages

/-- `schedule_split_inference_pipeline` with a task that is a dictionary. -/
def scheduleSplitInferencePipeline (task : Fields) (totalLayers : Int) (r : NodeRegistry) :
    NodeRegistry × Except ScheduleError (List PipelineStage) :=
  match planSplit num canary task totalLayers r with
  | .error e => (r, .error e)
  | .ok (layers, allocations) =>
    let modelId := modelIdOf num task
    let total := allocations.length + 2
    let remote := fun index first last nodeId =>
      PipelineStage.mk index total first last nodeId modelId false .remoteHidden true
    let embedding : PipelineStage := ⟨0, total, 0, 0, clientLocal, modelId, true, .clientEmbedding, true⟩
    let lmHead : PipelineStage :=
      ⟨total - 1, total, layers, layers, clientLocal, modelId, true, .clientLmHead, true⟩
    let (after, built) := buildStages num remote r 1 1 allocations
    (after, built.bind fun stages => checkSplit layers (embedding :: stages ++ [lmHead]))

end

/-- A key-value cache of an evicted node, as far as restitching reads it. -/
structure KVCacheSnapshot where
  cacheBytes : Bytes
  checksum : Text

def verifyChecksum (sha256 : Bytes → Bytes) (snapshot : KVCacheSnapshot) : Except ScheduleError Unit :=
  let actual := hexText (sha256 snapshot.cacheBytes)
  if actual = snapshot.checksum then .ok ()
  else .error (.value (text "Checksum mismatch: expected " ++ snapshot.checksum ++ text ", got " ++ actual))

/-- The stages with those of the failed node on another one. What a stage is validated for
does not change. -/
def restitch (failedNodeId replacement : Text) (stages : List PipelineStage) : List PipelineStage :=
  stages.map fun s => if s.nodeId = failedNodeId then { s with nodeId := replacement } else s

/-- The node `restitch_pipeline_on_eviction` puts in for a failed one. -/
def replacementFor (r : NodeRegistry) (failedNodeId : Text) : Option Node :=
  r.nodes.values.find? fun n => n.nodeId ≠ failedNodeId

def restitchPipelineOnEviction (sha256 : Bytes → Bytes) (taskId failedNodeId : Text)
    (snapshot : KVCacheSnapshot) (stages : List PipelineStage) (r : NodeRegistry) :
    Except ScheduleError (List PipelineStage) := do
  verifyChecksum sha256 snapshot
  match replacementFor r failedNodeId with
  | none => .error (.value (text "No replacement compute nodes available to restitch task " ++ taskId))
  | some replacement => return restitch failedNodeId replacement.nodeId stages

section
variable {num : Numbers ν} {canary : CanaryVerifier τ} {r : NodeRegistry}

theorem bind_ok {x : Except ε α} {f : α → Except ε β} : (x >>= f) = .ok b ↔ ∃ a, x = .ok a ∧ f a = .ok b := by
  cases x with
  | error e => exact iff_of_false nofun nofun
  | ok a => exact ⟨fun h => ⟨a, rfl, h⟩, fun ⟨_, ha, h⟩ => by cases ha; exact h⟩

theorem orRaise_ok : orRaise v = .ok a ↔ v = some a := by
  cases v <;> simp [orRaise]

theorem map_ok {x : Except ε α} {f : α → β} : x.map f = .ok b ↔ ∃ a, x = .ok a ∧ f a = b := by
  cases x <;> simp [Except.map]

theorem bumpQueue_ok (h : bumpQueue num r nodeId = (after, .ok ())) :
    ∃ depth, num.plusOne ((get? (r.telemetryOf nodeId) "queue_depth").getD (.int 0)) = some depth ∧
      after = { r with
        telemetry := r.telemetry.set nodeId
          (Dict.put (text "queue_depth") depth (r.telemetryOf nodeId)) } := by
  unfold bumpQueue at h
  dsimp only at h
  split at h
  · cases h
  · rename_i depth hd
    cases h
    exact ⟨depth, hd, rfl⟩

/-- A task that is scheduled was given to the selected node, whose queue went up. -/
theorem scheduleTask_ok {sha256 : Bytes → Bytes}
    (h : scheduleTask num sha256 canary task uuid r = (after, .ok (txHash, w))) :
    ∃ n points, selectForTask num canary task r = .ok (n, points) ∧ n.nodeId = w ∧
      bumpQueue num r w = (after, .ok ()) := by
  unfold scheduleTask at h
  cases hs : selectForTask num canary task r with
  | error e =>
    rw [hs] at h
    cases h
  | ok selected =>
    obtain ⟨n, points⟩ := selected
    rw [hs] at h
    obtain ⟨hafter, hres⟩ := Prod.mk.inj h
    obtain ⟨u, hb, hres⟩ := bind_ok.mp hres
    obtain ⟨_, _, heq⟩ := map_ok.mp hres
    cases heq
    exact ⟨n, points, rfl, rfl, Prod.ext hafter hb⟩

/-- The text whose hash a scheduled task is known by. -/
def taskText (num : Numbers ν) (task : Fields) (uuid : Text) (n : Node) (points : ν) : Text :=
  n.nodeId ++ text ":" ++ num.py.strOf ((get? task "task_id").getD (.str uuid)) ++ text ":" ++ num.format points

theorem scheduleTask_total (sha256 : Bytes → Bytes) (hs : selectForTask num canary task r = .ok (n, points))
    (hq : num.plusOne ((get? (r.telemetryOf n.nodeId) "queue_depth").getD (.int 0)) = some depth)
    (ht : Scalar (taskText num task uuid n points)) :
    ∃ txHash, (scheduleTask num sha256 canary task uuid r).2 = .ok (txHash, n.nodeId) := by
  have hhash : sha256Hex sha256 (taskText num task uuid n points) =
      some (hexText (sha256 ((taskText num task uuid n points).flatMap encodePoint))) := by
    rw [sha256Hex, encode_some.mpr ⟨ht, rfl⟩]
    rfl
  refine ⟨hexText (sha256 ((taskText num task uuid n points).flatMap encodePoint)), ?_⟩
  unfold taskText at hhash
  simp only [scheduleTask, hs, bumpQueue, hq, hhash, orRaise, Except.bind, Except.map]
  rfl

/-- A node that a filter may let through. -/
def Admissible (canary : CanaryVerifier τ) (r : NodeRegistry) (n : Node) : Prop :=
  n ∈ r.nodes.values ∧ canary.isQuarantined n.nodeId = false

theorem Admissible.registered (h : Admissible canary r n) : n.nodeId ∈ r.nodes := Table.mem_of_value h.1

theorem filterBy_spec (h : filterBy num canary r requirements = some kept) :
    ∀ n ∈ kept, Admissible canary r n := by
  unfold filterBy at h
  split at h
  · exact filterNodes_spec h
  · split at h
    · cases h
      exact fun n hn => absurd hn List.not_mem_nil
    · cases h

/-- Whom a ranking of nodes puts in any place was among them. -/
theorem scoreNodes_mem (h : scoreNodes num r ns = some ranked) (hn : entry ∈ ranked) :
    entry.1 ∈ ns :=
  (scoreNodes_perm h).subset (List.mem_map_of_mem hn)

theorem selectForTask_spec (h : selectForTask num canary task r = .ok (n, points)) :
    Admissible canary r n := by
  obtain ⟨eligible, he, h⟩ := bind_ok.mp h
  split at h
  · cases h
  · obtain ⟨ranked, hr, h⟩ := bind_ok.mp h
    have hmem := scoreNodes_mem (orRaise_ok.mp hr) (List.mem_of_head? (orRaise_ok.mp h))
    exact filterBy_spec (orRaise_ok.mp he) n hmem

/-- Where the filter keeps a node and every node it keeps can be scored, one is selected. -/
theorem selectForTask_total (hf : filterBy num canary r (requirementsOf task) = some kept) (hn : n ∈ kept)
    (hs : ∀ m ∈ kept, (fitnessOf num r m).isSome = true) :
    ∃ m points, selectForTask num canary task r = .ok (m, points) := by
  obtain ⟨list, hlist⟩ := Option.isSome_iff_exists.mp (scored_isSome.mpr hs)
  have hscores : scoreNodes num r kept = some (num.rank list) := by rw [scoreNodes, hlist, Option.map_some]
  have hempty : kept.isEmpty = false := by
    rw [List.isEmpty_eq_false_iff]
    exact List.ne_nil_of_mem hn
  cases hrank : num.rank list with
  | nil =>
    have hperm := (scoreNodes_perm hscores).symm.subset hn
    rw [hrank] at hperm
    cases hperm
  | cons entry rest =>
    refine ⟨entry.1, entry.2, ?_⟩
    simp only [selectForTask, hf, orRaise, bind, Except.bind, hempty, hscores, hrank]
    rfl

theorem rankForPipeline_spec (h : rankForPipeline num canary task modelId message r = .ok ranked) :
    ∀ n ∈ ranked, Admissible canary r n := by
  unfold rankForPipeline at h
  split at h
  · cases h
  · obtain ⟨requirements, _, h⟩ := bind_ok.mp h
    obtain ⟨eligible, he, h⟩ := bind_ok.mp h
    split at h
    · cases h
    · obtain ⟨scores, hs, h⟩ := bind_ok.mp h
      cases h
      intro n hn
      obtain ⟨entry, hm, rfl⟩ := List.mem_map.mp hn
      exact filterNodes_spec (orRaise_ok.mp he) _ (scoreNodes_mem (orRaise_ok.mp hs) hm)

theorem nodeCapacities_sublist (h : nodeCapacities num r perLayer layers ns = .ok capacities) :
    (capacities.map Prod.fst).Sublist ns := by
  induction ns generalizing capacities with
  | nil =>
    cases h
    exact .slnil
  | cons n ns ih =>
    obtain ⟨available, _, h⟩ := bind_ok.mp h
    obtain ⟨cap, _, h⟩ := bind_ok.mp h
    obtain ⟨rest, hr, h⟩ := bind_ok.mp h
    cases h
    split
    · exact (ih hr).cons_cons n
    · exact (ih hr).cons n

theorem fillNodes_sublist (remaining : Int) (capacities : List (Node × Int)) :
    ((fillNodes remaining capacities).1.map Prod.fst).Sublist (capacities.map Prod.fst) := by
  induction capacities generalizing remaining with
  | nil => exact .slnil
  | cons entry rest ih =>
    unfold fillNodes
    split
    · exact List.nil_sublist _
    · exact (ih _).cons_cons _

theorem spreadLayers_nodes (h : spreadLayers base extra capacities = .ok allocations) :
    allocations.map Prod.fst = capacities.map Prod.fst := by
  induction capacities generalizing extra allocations with
  | nil =>
    cases h
    rfl
  | cons entry rest ih =>
    obtain ⟨n, cap⟩ := entry
    unfold spreadLayers at h
    dsimp only at h
    by_cases hcap : cap < base + if 0 < extra then 1 else 0
    · rw [if_pos hcap] at h
      cases h
    · rw [if_neg hcap] at h
      obtain ⟨more, hm, h⟩ := bind_ok.mp h
      cases h
      rw [List.map_cons, List.map_cons, ih hm]

theorem allocate_sublist (h : allocate num task totalLayers capacities = .ok allocations) :
    (allocations.map Prod.fst).Sublist (capacities.map Prod.fst) := by
  unfold allocate at h
  split at h
  · dsimp only at h
    split at h
    · cases h
    · cases h
      exact fillNodes_sublist totalLayers capacities
  · obtain ⟨stages, _, h⟩ := bind_ok.mp h
    split at h
    · cases h
    · split at h
      · cases h
      · rw [spreadLayers_nodes h]
        exact (List.take_sublist _ _).map Prod.fst

/-- A pipeline is planned over nodes that the filter lets through. -/
theorem planPipeline_spec (h : planPipeline num canary task r = .ok allocations) :
    ∀ a ∈ allocations, Admissible canary r a.1 := by
  obtain ⟨totalLayers, _, h⟩ := bind_ok.mp h
  split at h
  · cases h
  · obtain ⟨ranked, hranked, h⟩ := bind_ok.mp h
    obtain ⟨perLayer, _, h⟩ := bind_ok.mp h
    obtain ⟨capacities, hc, h⟩ := bind_ok.mp h
    split at h
    · cases h
    · intro a ha
      have hsub := (allocate_sublist h).trans (nodeCapacities_sublist hc)
      exact rankForPipeline_spec hranked _ (hsub.subset (List.mem_map_of_mem ha))

theorem planSplit_spec (h : planSplit num canary task totalLayers r = .ok (layers, allocations)) :
    ∀ a ∈ allocations, Admissible canary r a.1 := by
  obtain ⟨count, _, h⟩ := bind_ok.mp h
  split at h
  · cases h
  · obtain ⟨ranked, hranked, h⟩ := bind_ok.mp h
    obtain ⟨perLayer, _, h⟩ := bind_ok.mp h
    obtain ⟨capacities, hc, h⟩ := bind_ok.mp h
    split at h
    · cases h
    · dsimp only at h
      split at h
      · cases h
      · cases h
        intro a ha
        have hsub := (fillNodes_sublist (layers - 1) capacities).trans (nodeCapacities_sublist hc)
        exact rankForPipeline_spec hranked _ (hsub.subset (List.mem_map_of_mem ha))

/-- The stages that are built are those of the allocations, in their order. -/
theorem buildStages_nodes {stage : Nat → Int → Int → Text → PipelineStage}
    (hstage : ∀ index first last nodeId, (stage index first last nodeId).nodeId = nodeId)
    (h : buildStages num stage r index layer allocations = (after, .ok stages)) :
    stages.map PipelineStage.nodeId = allocations.map fun a => a.1.nodeId := by
  induction allocations generalizing r index layer after stages with
  | nil =>
    cases h
    rfl
  | cons entry rest ih =>
    unfold buildStages at h
    dsimp only at h
    split at h
    · split at h
      · cases h
      · obtain ⟨rfl, hmore⟩ := Prod.mk.inj h
        obtain ⟨more, hm, rfl⟩ := map_ok.mp hmore
        rw [List.map_cons, List.map_cons, hstage, ih (Prod.ext rfl hm)]
    · cases h

/-- The nodes of a pipeline that was scheduled. -/
theorem schedulePipeline_spec {sha256 : Bytes → Bytes}
    (h : (schedulePipeline num sha256 canary task uuid r).2 = .ok (txHash, stages)) :
    ∀ s ∈ stages, ∃ n, Admissible canary r n ∧ n.nodeId = s.nodeId := by
  unfold schedulePipeline at h
  cases hp : planPipeline num canary task r with
  | error e =>
    rw [hp] at h
    cases h
  | ok allocations =>
    rw [hp] at h
    obtain ⟨built, hb, h⟩ := bind_ok.mp h
    obtain ⟨_, _, heq⟩ := map_ok.mp h
    cases heq
    intro s hs
    have hnodes := buildStages_nodes (fun _ _ _ _ => rfl) (Prod.ext rfl hb)
    have hm : s.nodeId ∈ allocations.map fun a => a.1.nodeId := hnodes ▸ List.mem_map_of_mem hs
    obtain ⟨a, ha, hid⟩ := List.mem_map.mp hm
    exact ⟨a.1, planPipeline_spec hp a ha, hid⟩

theorem checkSplit_ok (h : checkSplit layers stages = .ok checked) : checked = stages := by
  unfold checkSplit at h
  dsimp only at h
  repeat' split at h
  all_goals cases h
  rfl

/-- The nodes of a split pipeline that was scheduled: the client itself at both ends. -/
theorem scheduleSplit_spec
    (h : (scheduleSplitInferencePipeline num canary task totalLayers r).2 = .ok stages) :
    ∀ s ∈ stages, s.isLocalBoundary = true ∨ ∃ n, Admissible canary r n ∧ n.nodeId = s.nodeId := by
  unfold scheduleSplitInferencePipeline at h
  cases hp : planSplit num canary task totalLayers r with
  | error e =>
    rw [hp] at h
    cases h
  | ok plan =>
    obtain ⟨layers, allocations⟩ := plan
    rw [hp] at h
    obtain ⟨built, hb, h⟩ := bind_ok.mp h
    rw [checkSplit_ok h]
    have hnodes := buildStages_nodes (fun _ _ _ _ => rfl) (Prod.ext rfl hb)
    intro s hs
    rcases List.mem_append.mp hs with hs | hs
    · rcases List.mem_cons.mp hs with rfl | hs
      · exact .inl rfl
      · have hm : s.nodeId ∈ allocations.map fun a => a.1.nodeId := hnodes ▸ List.mem_map_of_mem hs
        obtain ⟨a, ha, hid⟩ := List.mem_map.mp hm
        exact .inr ⟨a.1, planSplit_spec hp a ha, hid⟩
    · exact .inl (List.mem_singleton.mp hs ▸ rfl)

theorem restitchPipelineOnEviction_ok {sha256 : Bytes → Bytes} :
    restitchPipelineOnEviction sha256 taskId failedNodeId snapshot stages r = .ok made ↔
      hexText (sha256 snapshot.cacheBytes) = snapshot.checksum ∧ ∃ replacement,
        replacementFor r failedNodeId = some replacement ∧
          made = restitch failedNodeId replacement.nodeId stages := by
  unfold restitchPipelineOnEviction verifyChecksum
  rw [bind_ok]
  by_cases hsum : hexText (sha256 snapshot.cacheBytes) = snapshot.checksum
  · simp only [if_pos hsum]
    cases replacementFor r failedNodeId with
    | none => simp
    | some replacement => simp [hsum, pure, Except.pure, eq_comm]
  · simp [hsum]

end

end PublicIntelligence.Scheduler
