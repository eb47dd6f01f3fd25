import PublicIntelligence.Scheduler.FrontDoor
import PublicIntelligence.Scheduler.ModelList
import PublicIntelligence.System.TelemetrySafety

namespace PublicIntelligence.System.Listing

open Runs Text Encoding Json Scheduler Dispatch

/-- The task that a completion is scheduled as. -/
def chatTask (taskId model : Text) : Fields :=
  [(text "task_id", .str taskId), (text "requirements", .obj [(text "model_name", .str model)])]

/-- A node may be given work and advertises the model; a completion that names none is any node's. -/
def Servable (canary : CanaryVerifier τ) (r : NodeRegistry) (model : Text) : Prop :=
  ∃ n ∈ r.nodes.values, canary.isQuarantined n.nodeId = false ∧ (model = [] ∨ model ∈ n.availableModels)

def noneSuits : Text := text "No active nodes satisfy the task requirements."

/-- A completion gets past the token and the rate limiter. -/
def Reaches (limiter : TokenBucketLimiter) (now : ℚ) (claims : Fields) : Prop :=
  ∃ tenantId, asStr (get? claims "tenant_id") = some tenantId ∧ tenantId ≠ [] ∧
    ∃ after, limiter.acquire ⟨now, tenantKey tenantId⟩ = some (true, after)

/-- What becomes of a completion that gets there: the 501 if split inference is asked for, else a node
if one suits it, else the 503. -/
structure Served (num : Numbers ν) (canary : CanaryVerifier τ) (settings : GatewaySettings) (r : NodeRegistry)
    (req : ChatCompletionRequest) (out : Passage (Assigned × Route)) : Prop where
  split : Gate.wantsSplit num settings req = true → out = .refused splitNotImplemented
  admitted : Gate.wantsSplit num settings req = false → Servable canary r req.model → ∃ a, out = .admitted a
  refused : Gate.wantsSplit num settings req = false → ¬ Servable canary r req.model →
    out = .refused (Gate.noNode req.model noneSuits)

/-- The list of models is in order, tells what can be looked up, and what a completion may ask for. -/
structure Truthful (num : Numbers ν) (sha256 : Bytes → Bytes) (τ : Type) (capitalize : Text → Text)
    (settings : GatewaySettings) (r : NodeRegistry) : Prop where
  sorted : ((listModels r).map ModelObject.id).SortedLT
  found : ∀ modelId, modelObject modelId ∈ listModels r ↔ getModel r modelId = .ok (modelObject modelId)
  routed : ∀ modelId, modelObject modelId ∈ listModels r →
    (modelRequest r (modelsPath ++ modelId) = some (.ok (modelObject modelId)) ↔
      modelId ≠ [] ∧ ofChar '/' ∉ modelId)
  served : ∀ (canary : CanaryVerifier τ) limiter now claims req taskId startedAt,
    Reaches limiter now claims → Scalar taskId → Served num canary settings r req
      (Gate.admitChat num sha256 canary capitalize settings ⟨limiter, r⟩ now claims req taskId startedAt).2
  listed : ∀ (canary : CanaryVerifier τ) model, model ≠ [] → Servable canary r model →
    modelObject model ∈ listModels r

section
variable {num : Numbers ν} {sha256 : Bytes → Bytes} {canary : CanaryVerifier τ} {r : NodeRegistry}

/-- The matchmaker's answer for a node: a model with an empty name is not asked for. -/
theorem eligible_model (model : Text) (n : Node) :
    eligible num canary r [(text "model_name", .str model)] n =
      some (!canary.isQuarantined n.nodeId && (model.isEmpty || n.availableModels.contains model)) := by
  have hname : get? [(text "model_name", .str model)] "model_name" = some (.str model) := rfl
  have habsent : ∀ key ∈ ["model", "min_vram_gb", "vram", "backend_type"],
      get? [(text "model_name", .str model)] key = none := by
    intro key hkey
    simp only [List.mem_cons, List.not_mem_nil, or_false] at hkey
    rcases hkey with rfl | rfl | rfl | rfl
    · rfl
    · rfl
    · rfl
    · rfl
  have hsuits : suitsModel [(text "model_name", .str model)] n =
      (model.isEmpty || n.availableModels.contains model) := by
    cases model with
    | nil => simp [suitsModel, orElse, hname, habsent, truthy]
    | cons c cs => simp [suitsModel, orElse, hname, truthy]
  have hvram : suitsVram num r [(text "model_name", .str model)] n = some true := by
    simp [suitsVram, orElse, habsent, truthy, isNull]
  have hbackend : suitsBackend num r [(text "model_name", .str model)] n = true := by
    simp [suitsBackend, habsent, truthy]
  rw [eligible, hsuits, hvram, hbackend]
  cases canary.isQuarantined n.nodeId with
  | true => rfl
  | false => cases model.isEmpty || n.availableModels.contains model <;> rfl

theorem filterNodes_model (num : Numbers ν) (canary : CanaryVerifier τ) (r : NodeRegistry) (model : Text)
    (ns : List Node) :
    filterNodes num canary r [(text "model_name", .str model)] ns =
      some (ns.filter fun n =>
        !canary.isQuarantined n.nodeId && (model.isEmpty || n.availableModels.contains model)) := by
  induction ns with
  | nil => rfl
  | cons n ns ih =>
    simp only [filterNodes, eligible_model, ih, Option.bind_eq_bind, Option.bind_some, Option.pure_def,
      List.filter_cons]

/-- A node that the matchmaker keeps is one that may serve the model. -/
theorem keeps_iff {n : Node} :
    (!canary.isQuarantined n.nodeId && (model.isEmpty || n.availableModels.contains model)) = true ↔
      canary.isQuarantined n.nodeId = false ∧ (model = [] ∨ model ∈ n.availableModels) := by
  simp [List.isEmpty_iff]

/-- The request is given to a node wherever one may serve it. -/
theorem schedules (sha256 : Bytes → Bytes) (h : Fit num r) (py : Python num) (hid : Scalar taskId)
    (hserve : Servable canary r model) :
    ∃ txHash n, (scheduleTask num sha256 canary (chatTask taskId model) [] r).2 = .ok (txHash, n) := by
  obtain ⟨n, hn, hsuits⟩ := hserve
  have hsatisfied : Satisfied num canary r (chatTask taskId model) := by
    refine ⟨[(text "model_name", .str model)], rfl, n, hn, ?_⟩
    rw [eligible_model, keeps_iff.mpr hsuits]
  have htask : Scalar (taskIdOf num (chatTask taskId model) []) := by
    have hsame : taskIdOf num (chatTask taskId model) [] = taskId := rfl
    rw [hsame]
    exact hid
  exact h.schedulable py sha256 canary (chatTask taskId model) [] hsatisfied htask

theorem refuses (hnone : ¬ Servable canary r model) :
    (scheduleTask num sha256 canary (chatTask taskId model) [] r).2 = .error (.value noneSuits) := by
  have hempty : filterBy num canary r (requirementsOf (chatTask taskId model)) = some [] := by
    have hfilter := filterNodes_model num canary r model r.nodes.values
    have hnil : (r.nodes.values.filter fun n =>
        !canary.isQuarantined n.nodeId && (model.isEmpty || n.availableModels.contains model)) = [] := by
      apply List.filter_eq_nil_iff.mpr
      intro n hn hkeep
      exact hnone ⟨n, hn, keeps_iff.mp hkeep⟩
    rw [hnil] at hfilter
    exact hfilter
  simp only [scheduleTask, selectForTask, hempty, orRaise, bind, Except.bind, List.isEmpty_nil, if_true]
  rfl

/-- What becomes of a completion that gets past the limiter. -/
theorem serves (sha256 : Bytes → Bytes) (canary : CanaryVerifier τ) (capitalize : Text → Text)
    (settings : GatewaySettings) (req : ChatCompletionRequest) (startedAt : ℚ) (h : Fit num r) (py : Python num)
    (hid : Scalar taskId) (hreach : Reaches limiter now claims) :
    Served num canary settings r req
      (Gate.admitChat num sha256 canary capitalize settings ⟨limiter, r⟩ now claims req taskId startedAt).2 := by
  obtain ⟨tenantId, hclaim, hne, after, hcall⟩ := hreach
  obtain ⟨c, cs, rfl⟩ := List.exists_cons_of_ne_nil hne
  have hout : (Gate.admitChat num sha256 canary capitalize settings ⟨limiter, r⟩ now claims req taskId startedAt).2 =
      if Gate.wantsSplit num settings req then .refused splitNotImplemented
      else (Gate.scheduled num sha256 canary ⟨after, r⟩ (chatTask taskId req.model) (Gate.noNode req.model)
        fun registry _ nodeId => Gate.assign capitalize settings req (c :: cs) taskId startedAt registry nodeId).2 := by
    unfold Gate.admitChat
    rw [hclaim]
    simp only [Gate.limited, hcall]
    split
    · rfl
    · rfl
  rw [hout]
  constructor
  · exact fun hsplit => if_pos hsplit
  · intro hwhole hserve
    rw [if_neg (Bool.eq_false_iff.mp hwhole)]
    unfold Gate.scheduled
    dsimp only
    obtain ⟨txHash, w, hok⟩ := schedules sha256 h py hid hserve
    obtain ⟨n, points, hselect, rfl, hbump⟩ := scheduleTask_ok (Prod.ext rfl hok)
    obtain ⟨depth, _, hafter⟩ := bumpQueue_ok hbump
    have hnode : (scheduleTask num sha256 canary (chatTask taskId req.model) [] r).1.nodes.get? n.nodeId = some n := by
      have hnodes := congrArg (·.nodes.get? n.nodeId) hafter
      exact hnodes.trans (Table.mem_values.mp (selectForTask_spec hselect).1)
    rw [hok]
    simp only [Gate.assign, hnode]
    exact ⟨_, rfl⟩
  · intro hwhole hnone
    rw [if_neg (Bool.eq_false_iff.mp hwhole)]
    unfold Gate.scheduled
    dsimp only
    rw [refuses hnone]

end

/-- In every state that sound telemetry and heartbeats lead to, the list of models is in order and names each model
once; a model is listed exactly when it can be looked up, and it is found under its path unless its name is empty or
has a slash; and a completion that does not ask for split inference is admitted exactly when an unquarantined node
advertises its model, which is then on the list, or takes any where it names none. -/
theorem listing {env : RouterEnv} {num : Numbers ν} {sha256 : Bytes → Bytes} (capitalize : Text → Text)
    (settings : GatewaySettings) (py : Python num) (henv : ∀ fields b, env.validate fields = some b → FloatBeat b)
    {store : SQLiteStore} (hstore : ∀ n ∈ store.nodes.values, Valid n) {clock : ℚ} {run : List (Act τ)}
    (hrun : ∀ a ∈ run, a.Valid)
    (hsafe : Along (step env num sha256) (Harmless env num) (Fleet.start store clock) run) :
    Throughout (step env num sha256) (fun s => Truthful num sha256 τ capitalize settings s.router.registry)
      (Fleet.start store clock) run := by
  have hstart : Good num (Fleet.start store clock) := ⟨.load py hstore, hstore⟩
  have hgood := along_throughout (fun _ _ _ h hp ht => good_step h py henv hp.1 hp.2 ht) hstart
    (along_and (along_forall hrun) hsafe)
  refine throughout_mono (fun s h => ?_) hgood
  refine ⟨listModels_sorted, fun modelId => ?_, fun modelId hlisted => ?_, ?_, ?_⟩
  · simp [mem_listModels, getModel_ok, modelObject]
  · have hget : getModel s.router.registry modelId = .ok (modelObject modelId) := by
      simpa [mem_listModels, getModel_ok, modelObject] using hlisted
    rw [modelRequest, modelParameter_path]
    split
    · rename_i hname
      simp [hget, hname]
    · rename_i hname
      simp [hname]
  · intro canary limiter now claims req taskId startedAt hreach hid
    exact serves sha256 canary capitalize settings req startedAt h.fit py hid hreach
  · rintro canary model hnamed ⟨n, hn, _, hempty | hhas⟩
    · exact absurd hempty hnamed
    · exact mem_listModels.mpr ⟨model, ⟨n, hn, hhas⟩, rfl⟩

theorem listing_sound :
    Throughout (step Fleet.sampleEnv sampleNumbers (known sampleHashes))
      (fun s => Truthful sampleNumbers (known sampleHashes) Unit id ⟨false, none, false, none, 8001⟩ s.router.registry)
      (Fleet.start Fleet.emptyStore 0) soundRun :=
  listing id ⟨false, none, false, none, 8001⟩ python_sampleNumbers
    (fun _ b h => absurd h (Option.some_ne_none b).symm) (fun n hn => absurd hn List.not_mem_nil) soundRun_valid
    (by decide +kernel)

end PublicIntelligence.System.Listing
