import PublicIntelligence.Mesh.Auth
import PublicIntelligence.Scheduler.Credentials
import PublicIntelligence.Scheduler.Engine
import PublicIntelligence.Scheduler.Gateway
import PublicIntelligence.Scheduler.RateLimiter

namespace PublicIntelligence.Scheduler

open Text Json Mesh

structure ChatMessage where
  role : Text
  content : Text

/-- `ChatCompletionRequest`, as far as the gateway reads it, with the header `x-split-inference`. -/
structure ChatCompletionRequest where
  model : Text
  messages : List ChatMessage
  stream : Bool
  splitInference : Bool
  splitHeader : Option Text

/-- What a client asks of `POST /submit`. -/
structure TaskSubmission where
  taskId : Text
  data : Fields

/-- What the gateway reads of its settings and of `app.state` to reach a node. -/
structure GatewaySettings where
  enableSplitInference : Bool
  client : Option MeshInferenceClient
  meshInferenceEnabled : Bool
  networkAuthToken : Option Text
  nodeApiPort : Nat

/-- The rate limiter's key for a tenant. A `Char` is no surrogate, so that each character is written as two. -/
def tenantKey (tenantId : Text) : String :=
  .ofList (tenantId.flatMap fun c => [Char.ofNat (c.val / 0x1000), Char.ofNat (c.val % 0x1000)])

theorem tenantKey_injective : Function.Injective tenantKey := by
  have hchar : ∀ m n : Nat, m < 0x1000 → n < 0x1000 → Char.ofNat m = Char.ofNat n → m = n := by
    intro m n hm hn h
    have hm : m.isValidChar := .inl (by omega)
    have hn : n.isValidChar := .inl (by omega)
    rw [Char.ofNat, Char.ofNat, dif_pos hm, dif_pos hn] at h
    exact congrArg Char.toNat h
  intro t u h
  replace h := String.ofList_injective h
  induction t generalizing u with
  | nil =>
    cases u with
    | nil => rfl
    | cons d u => cases h
  | cons c t ih =>
    cases u with
    | nil => cases h
    | cons d u =>
      simp only [List.flatMap_cons, List.cons_append, List.nil_append, List.cons.injEq] at h
      obtain ⟨hhigh, hlow, hrest⟩ := h
      have hc := c.isLt
      have hd := d.isLt
      have hhigh := hchar _ _ (by omega) (by omega) hhigh
      have hlow := hchar _ _ (by omega) (by omega) hlow
      rw [Fin.ext (show c.val = d.val by omega), ih hrest]

/-- What `str.capitalize` makes of a role is left to Python. -/
def ChatMessage.line (capitalize : Text → Text) (m : ChatMessage) : Text :=
  (if m.role = text "system" then text "System"
    else if m.role = text "user" then text "User"
    else if m.role = text "assistant" then text "Assistant"
    else capitalize m.role) ++ text ": " ++ m.content

def messagesToPrompt (capitalize : Text → Text) (messages : List ChatMessage) : Text :=
  (text "\n\n").intercalate (messages.map (·.line capitalize) ++ [text "Assistant:"])

/-- A validated float of a node's record. -/
def figure : Json → ℚ
  | .float l => literalValue l
  | .int n => n
  | _ => 0

/-- What metering and dispatch read of a node's record. -/
def Node.host (n : Node) : Host :=
  ⟨n.nodeId, figure (n.gpu "vram_total_gb"), figure ((get? n.body "ram_total_gb").getD .null)⟩

def Node.ipAddress (n : Node) : Text := (asStr (get? n.body "ip_address")).getD []

def routeOf (settings : GatewaySettings) (r : NodeRegistry) (nodeId : Text) : Route :=
  ⟨settings.client, settings.meshInferenceEnabled, r.isMeshReachable nodeId, r.getNodeToken nodeId,
    settings.networkAuthToken, settings.nodeApiPort⟩

/-- What becomes of a request before anything is sent to a node. -/
inductive Passage (α : Type) where
  | refused (e : HttpError)
  | serverError
  | admitted (a : α)

/-- The limiter and the registry, which every request goes past. -/
structure Gate where
  limiter : TokenBucketLimiter
  registry : NodeRegistry

def missingTenant : HttpError := ⟨401, text "Invalid claims: Missing 'tenant_id' in token payload."⟩

def rateLimited : HttpError := ⟨429, text "Rate limit exceeded. Multi-tenant quota exhausted."⟩

def splitNotImplemented : HttpError :=
  ⟨501, text "Split inference is not implemented. It is cut from v1 (see ROADMAP.md); the previous implementation returned simulated tokens. Retry without `split_inference` / `x-split-inference` for a single-node completion."⟩

namespace Gate

/-- The rate limiting guard, and what a request that passes it goes on to. -/
def limited (g : Gate) (now : ℚ) (tenantId : Text) (next : Gate → Gate × Passage α) : Gate × Passage α :=
  match g.limiter.acquire ⟨now, tenantKey tenantId⟩ with
  | none => (g, .serverError)
  | some (false, limiter) => ({ g with limiter }, .refused rateLimited)
  | some (true, limiter) => next { g with limiter }

section
variable (num : Numbers ν) (sha256 : Bytes → Bytes) (canary : CanaryVerifier τ)

/-- Schedule a task, and go on with the node it was given to. `refuse` tells a client of a `ValueError`. -/
def scheduled (g : Gate) (task : Fields) (refuse : Text → HttpError) (next : NodeRegistry → Text → Text → Passage α) :
    Gate × Passage α :=
  let (registry, result) := scheduleTask num sha256 canary task [] g.registry
  let g := { g with registry }
  match result with
  | .error (.value message) => (g, .refused (refuse message))
  | .error .raised => (g, .serverError)
  | .ok (txHash, nodeId) => (g, next registry txHash nodeId)

variable (capitalize : Text → Text) (settings : GatewaySettings)

def wantsSplit (req : ChatCompletionRequest) : Bool :=
  req.splitInference || decide (num.lower (req.splitHeader.getD []) = text "true") || settings.enableSplitInference

/-- The node a completion goes to, and how it is reached. -/
def assign (req : ChatCompletionRequest) (tenantId taskId : Text) (startedAt : ℚ) (registry : NodeRegistry)
    (nodeId : Text) : Passage (Assigned × Route) :=
  match registry.nodes.get? nodeId with
  | none => .refused ⟨503, text "Target node '" ++ nodeId ++ text "' is no longer registered."⟩
  | some node =>
    .admitted (⟨taskId, .str tenantId, node.host, node.ipAddress, req.model, messagesToPrompt capitalize req.messages,
      req.stream, startedAt⟩, routeOf settings registry nodeId)

def noNode (model message : Text) : HttpError :=
  ⟨503, text "No suitable compute node available for model '" ++ model ++ text "': " ++ message⟩

/-- `create_chat_completion` with the claims of its token, up to the dispatch. Every token that is signed names its
tenant by a string. -/
def admitChat (g : Gate) (now : ℚ) (claims : Fields) (req : ChatCompletionRequest) (taskId : Text) (startedAt : ℚ) :
    Gate × Passage (Assigned × Route) :=
  match asStr (get? claims "tenant_id") with
  | none | some [] => (g, .refused missingTenant)
  | some tenantId =>
    g.limited now tenantId fun g =>
      if wantsSplit num settings req then (g, .refused splitNotImplemented)
      else
        g.scheduled num sha256 canary [(text "task_id", .str taskId),
            (text "requirements", .obj [(text "model_name", .str req.model)])] (noNode req.model)
          fun registry _ nodeId => assign capitalize settings req tenantId taskId startedAt registry nodeId

def submission (task : TaskSubmission) : Fields :=
  [(text "task_id", .str task.taskId), (text "requirements", .obj [
    (text "model_name", orElse (get? task.data "model_name") (get? task.data "model")),
    (text "min_vram_gb", orElse (get? task.data "min_vram_gb") (get? task.data "vram")),
    (text "backend_type", (get? task.data "backend_type").getD .null)])]

/-- `submit_task`: the transaction hash and the node. -/
def submitTask (g : Gate) (now : ℚ) (claims : Fields) (task : TaskSubmission) : Gate × Passage (Text × Text) :=
  match asStr (get? claims "tenant_id") with
  | none => (g, .serverError)
  | some tenantId =>
    g.limited now tenantId fun g =>
      g.scheduled num sha256 canary (submission task) (fun message => ⟨400, message⟩)
        fun _ txHash nodeId => .admitted (txHash, nodeId)

end

section
variable {num : Numbers ν} {sha256 : Bytes → Bytes} {canary : CanaryVerifier τ} {g : Gate}

/-- A request leaves the limiter as it is and gets nowhere, or asks it once, and goes on if it may. -/
theorem limited_spec (g : Gate) (now : ℚ) (tenantId : Text) {next : Gate → Gate × Passage α}
    (hnext : ∀ g, (next g).1.limiter = g.limiter) :
    (g.limited now tenantId next).1.limiter = g.limiter ∧ (∀ a, (g.limited now tenantId next).2 ≠ .admitted a) ∨
      ∃ ok, g.limiter.acquire ⟨now, tenantKey tenantId⟩ = some (ok, (g.limited now tenantId next).1.limiter) ∧
        ∀ a, (g.limited now tenantId next).2 = .admitted a →
          ok = true ∧ ∃ limiter, (next { g with limiter }).2 = .admitted a := by
  unfold limited
  cases hcall : g.limiter.acquire ⟨now, tenantKey tenantId⟩ with
  | none => exact .inl ⟨rfl, fun a => nofun⟩
  | some answer =>
    obtain ⟨ok, limiter⟩ := answer
    cases ok with
    | false => exact .inr ⟨false, rfl, fun a => nofun⟩
    | true => exact .inr ⟨true, by rw [hnext], fun a ha => ⟨rfl, limiter, ha⟩⟩

theorem scheduled_limiter (next : NodeRegistry → Text → Text → Passage α) :
    (g.scheduled num sha256 canary task refuse next).1.limiter = g.limiter := by
  unfold scheduled
  dsimp only
  split <;> rfl

theorem scheduled_admitted {next : NodeRegistry → Text → Text → Passage α}
    (h : (g.scheduled num sha256 canary task refuse next).2 = .admitted a) :
    ∃ n points r txHash, selectForTask num canary task g.registry = .ok (n, points) ∧
      r.nodes = g.registry.nodes ∧ next r txHash n.nodeId = .admitted a := by
  unfold scheduled at h
  dsimp only at h
  split at h
  · cases h
  · cases h
  · rename_i txHash nodeId hresult
    obtain ⟨n, points, hselect, rfl, hbump⟩ := scheduleTask_ok (Prod.ext rfl hresult)
    obtain ⟨depth, _, hafter⟩ := bumpQueue_ok hbump
    exact ⟨n, points, _, txHash, hselect, congrArg (·.nodes) hafter, h⟩

theorem assign_admitted {r : NodeRegistry}
    (h : assign capitalize settings req tenantId taskId startedAt r nodeId = .admitted (q, route)) :
    ∃ n, r.nodes.get? nodeId = some n ∧ q.taskId = taskId ∧ q.tenantId = .str tenantId ∧ q.node = n.host ∧
      q.model = req.model := by
  unfold assign at h
  split at h
  · cases h
  · rename_i n hn
    cases h
    exact ⟨n, hn, rfl, rfl, rfl, rfl⟩

/-- The node can take the model. -/
def Hosts (canary : CanaryVerifier τ) (r : NodeRegistry) (model : Text) (n : Node) : Prop :=
  Admissible canary r n ∧ (model = [] ∨ model ∈ n.availableModels)

theorem selectForTask_hosts {r : NodeRegistry}
    (h : selectForTask num canary [(text "task_id", .str taskId),
      (text "requirements", .obj [(text "model_name", .str model)])] r = .ok (n, points)) : Hosts canary r model n := by
  refine ⟨selectForTask_spec h, ?_⟩
  obtain ⟨kept, hkept, h⟩ := bind_ok.mp h
  split at h
  · cases h
  · obtain ⟨ranked, hranked, h⟩ := bind_ok.mp h
    have hmem := scoreNodes_mem (orRaise_ok.mp hranked) (List.mem_of_head? (orRaise_ok.mp h))
    exact eligible_named rfl (filterNodes_eligible (orRaise_ok.mp hkept) n hmem)

/-- What becomes of a request once the limiter has let it by: it goes to a node that can take it. -/
theorem scheduled_assign {refuse : Text → HttpError}
    (h : (g.scheduled num sha256 canary [(text "task_id", .str taskId),
        (text "requirements", .obj [(text "model_name", .str req.model)])] refuse
      fun r _ nodeId => assign capitalize settings req tenantId taskId startedAt r nodeId).2 = .admitted (q, route)) :
    q.taskId = taskId ∧ q.tenantId = .str tenantId ∧ q.model = req.model ∧
      ∃ n, Hosts canary g.registry req.model n ∧ q.node = n.host := by
  obtain ⟨n, points, r, txHash, hselect, hnodes, hassign⟩ := scheduled_admitted h
  obtain ⟨m, hm, htask, htenant, hnode, hmodel⟩ := assign_admitted hassign
  have hhosts := selectForTask_hosts hselect
  rw [hnodes, Table.mem_values.mp hhosts.1.1] at hm
  exact ⟨htask, htenant, hmodel, n, hhosts, Option.some.inj hm ▸ hnode⟩

/-- A completion asks the limiter once, for the tenant of its token, and is given to a node that can take it if
the limiter lets it. -/
theorem admitChat_spec (num : Numbers ν) (sha256 : Bytes → Bytes) (canary : CanaryVerifier τ)
    (capitalize : Text → Text) (settings : GatewaySettings) (g : Gate) (now : ℚ) (claims : Fields)
    (req : ChatCompletionRequest) (taskId : Text) (startedAt : ℚ) :
    let out := g.admitChat num sha256 canary capitalize settings now claims req taskId startedAt
    out.1.limiter = g.limiter ∧ (∀ a, out.2 ≠ .admitted a) ∨
      ∃ tenantId ok, asStr (get? claims "tenant_id") = some tenantId ∧ tenantId ≠ [] ∧
        g.limiter.acquire ⟨now, tenantKey tenantId⟩ = some (ok, out.1.limiter) ∧
        ∀ q route, out.2 = .admitted (q, route) → ok = true ∧ q.taskId = taskId ∧ q.tenantId = .str tenantId ∧
          q.model = req.model ∧ ∃ n, Hosts canary g.registry req.model n ∧ q.node = n.host := by
  unfold admitChat
  dsimp only
  split
  · exact .inl ⟨rfl, fun a => nofun⟩
  · exact .inl ⟨rfl, fun a => nofun⟩
  · rename_i tenantId hne htenant
    have hkeeps : ∀ g : Gate, (if wantsSplit num settings req then (g, .refused splitNotImplemented)
        else g.scheduled num sha256 canary [(text "task_id", .str taskId),
            (text "requirements", .obj [(text "model_name", .str req.model)])] (noNode req.model)
          fun registry _ nodeId => assign capitalize settings req tenantId taskId startedAt registry nodeId).1.limiter =
        g.limiter := by
      intro g
      split
      · rfl
      · exact scheduled_limiter _
    rcases limited_spec g now tenantId hkeeps with hstays | ⟨ok, hcall, hgoes⟩
    · exact .inl hstays
    · refine .inr ⟨tenantId, ok, htenant, hne, hcall, fun q route ha => ?_⟩
      obtain ⟨hok, limiter, hnext⟩ := hgoes (q, route) ha
      split at hnext
      · cases hnext
      · exact ⟨hok, scheduled_assign (g := { g with limiter }) hnext⟩

/-- A task that is submitted asks the same limiter. -/
theorem submitTask_spec (num : Numbers ν) (sha256 : Bytes → Bytes) (canary : CanaryVerifier τ) (g : Gate) (now : ℚ)
    (claims : Fields) (task : TaskSubmission) :
    let out := g.submitTask num sha256 canary now claims task
    out.1.limiter = g.limiter ∧ (∀ a, out.2 ≠ .admitted a) ∨
      ∃ tenantId ok, asStr (get? claims "tenant_id") = some tenantId ∧
        g.limiter.acquire ⟨now, tenantKey tenantId⟩ = some (ok, out.1.limiter) ∧
        ∀ a, out.2 = .admitted a → ok = true := by
  unfold submitTask
  dsimp only
  split
  · exact .inl ⟨rfl, fun a => nofun⟩
  · rename_i tenantId htenant
    have hkeeps : ∀ g : Gate, (g.scheduled num sha256 canary (submission task) (fun message => ⟨400, message⟩)
        fun _ txHash nodeId => .admitted (txHash, nodeId)).1.limiter = g.limiter := fun g => scheduled_limiter _
    rcases limited_spec g now tenantId hkeeps with hstays | ⟨ok, hcall, hgoes⟩
    · exact .inl hstays
    · exact .inr ⟨tenantId, ok, htenant, hcall, fun a ha => (hgoes a ha).1⟩

end
end Gate
end PublicIntelligence.Scheduler
