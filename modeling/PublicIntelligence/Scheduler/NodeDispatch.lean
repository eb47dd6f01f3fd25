import PublicIntelligence.Scheduler.MeshClient

namespace PublicIntelligence.Scheduler

open Text Json Mesh

/-- What `infer_once` and `open_inference_stream` read of the settings and of the
registry's knowledge about the node. -/
structure Route where
  client : Option MeshInferenceClient
  meshInferenceEnabled : Bool
  meshReachable : Bool
  nodeToken : Option Text
  networkAuthToken : Option Text
  nodeApiPort : Nat

structure Target where
  nodeId : Text
  ipAddress : Text
  model : Text
  prompt : Text

def nodeInferUrl (ipAddress : Text) (nodeApiPort : Nat) : Text :=
  if startswith ipAddress (text "http://") || startswith ipAddress (text "https://") then
    ipAddress ++ text "/infer"
  else text "http://" ++ ipAddress ++ text ":" ++ natText nodeApiPort ++ text "/infer"

/-- The node's own token if it has one that is not empty, else the fleet's. -/
def resolveToken (r : Route) : Option Text :=
  match r.nodeToken with
  | none => r.networkAuthToken
  | some t => if t = [] then r.networkAuthToken else some t

/-- The mesh client, if the mesh is to be tried for this node. -/
def useMesh (r : Route) : Option MeshInferenceClient :=
  if r.meshInferenceEnabled && r.meshReachable then r.client else none

/-- A prompt leaving the Scheduler for a node. -/
inductive Handed where
  | mesh (nodeId token model prompt : Text)
  | http (url : Text) (token : Option Text) (model prompt : Text)
deriving DecidableEq

/-- `NodeDispatchError`, or an exception that the HTTP answer's body raises. -/
inductive DispatchError where
  | dispatch (detail : Text) (status : Int)
  | unexpected
deriving DecidableEq

/-- How the POST to `/infer` ends; the body of a 200 is the JSON it holds, if it does.
`raised` is an exception that is no `RequestError`, as for an address that makes no URL. -/
inductive HttpAnswer where
  | requestError (message : Text)
  | raised
  | failed (status : Nat) (body : Text)
  | ok (body : Option Json)

def handHttp (r : Route) (t : Target) : Handed :=
  let token := (resolveToken r).filter (· ≠ [])
  .http (nodeInferUrl t.ipAddress r.nodeApiPort) token t.model t.prompt

def httpInferOnce (py : Builtins) (model : Text) : HttpAnswer → Except DispatchError (Text × Text)
  | .requestError message =>
    .error (.dispatch (text "Failed to communicate with compute node: " ++ message) 502)
  | .raised => .error .unexpected
  | .failed status body => .error (.dispatch (text "Compute node error: " ++ body) status)
  | .ok (some (.obj data)) =>
    .ok (py.strOf ((get? data "model").getD (.str model)),
      py.strOf ((get? data "response").getD (.str [])))
  | .ok _ => .error .unexpected

/-- The prompts a call handed out, in order, and what it returned or raised. -/
structure Dispatched where
  handed : List Handed
  result : Except DispatchError (Text × Text)

def handMesh (r : Route) (t : Target) : Handed :=
  .mesh t.nodeId ((resolveToken r).getD []) t.model t.prompt

/-- `infer_once`: `queue` is what comes back over the mesh, `http` what a POST would
be answered. Only a node that is unavailable over the mesh is tried over HTTP. -/
def inferOnce (py : Builtins) (r : Route) (t : Target) (queue : List (ℚ × Item)) (http : HttpAnswer) :
    Dispatched :=
  let overHttp := fun before : List Handed =>
    (⟨before ++ [handHttp r t], httpInferOnce py t.model http⟩ : Dispatched)
  match useMesh r with
  | none => overHttp []
  | some c =>
    let sent := if c.session = .opened then [handMesh r t] else []
    match c.infer py t.model queue with
    | .ok answer => ⟨sent, .ok answer⟩
    | .error (.node message status) => ⟨sent, .error (.dispatch message status)⟩
    | .error .badStatus => ⟨sent, .error .unexpected⟩
    | .error (.unavailable _) => overHttp sent

/-- One line of the HTTP stream: the token it yields, if any; an error is an
exception that `_http_stream` lets through. -/
def httpLine (py : Builtins) (line : Text) : Except LoadsError (Option Text) :=
  if strip line = [] then .ok none
  else
    let clean := if startswith line (text "data: ") then strip (line.drop 6) else line
    if startswith clean (text "session_id:") then .ok none
    else
      match loads clean with
      | .error .decode => .ok (some clean)
      | .error e => .error e
      | .ok (.obj fields) =>
        match (get? fields "response").getD ((get? fields "text").getD (.str clean)) with
        | .null => .ok (some [])
        | value => .ok (some (py.strOf value))
      | .ok _ => .ok (some clean)

/-- How the iterator that `open_inference_stream` returns ends. `broken` is any
exception but `NodeDispatchError`. -/
inductive StreamEnding where
  | stopped
  | dispatchError (detail : Text) (status : Int)
  | broken
  | waiting
deriving DecidableEq

structure Streamed where
  tokens : List Text
  ending : StreamEnding
deriving DecidableEq

/-- The loop of `_http_stream` over the lines of a response body that ends
cleanly, or breaks off after them. -/
def httpTokens (py : Builtins) (clean : Bool) : List Text → Streamed
  | [] => ⟨[], if clean then .stopped else .broken⟩
  | line :: rest =>
    match httpLine py line with
    | .error _ => ⟨[], .broken⟩
    | .ok none => httpTokens py clean rest
    | .ok (some token) =>
      let more := httpTokens py clean rest
      ⟨token :: more.tokens, more.ending⟩

/-- `_http_stream` of a response that was 200: the body is what the node's frames
spell, split into lines. -/
def httpStream (py : Builtins) (clean : Bool) (frames : List Text) : Streamed :=
  httpTokens py clean (splitlines frames.flatten)

/-- `_iterate_mesh_stream`: a `MeshNodeError` becomes a `NodeDispatchError`. -/
def iterateMeshStream (i : Iterated) : Streamed :=
  ⟨i.tokens, match i.ending with
    | .stopped => .stopped
    | .raised (.node message status) => .dispatchError message status
    | .raised _ => .broken
    | .waiting => .waiting⟩

/-- `open_inference_stream` over the mesh, with what the node replies to the query. -/
def openMeshStream (py : Builtins) (queue : List Item) : Except MeshError Streamed :=
  match queue with
  | [] => .error (.unavailable .timedOut)
  | item :: rest => do
    let fields ← firstItem item
    let s ← openWith py fields rest
    return iterateMeshStream (s.iterate py)

end PublicIntelligence.Scheduler
