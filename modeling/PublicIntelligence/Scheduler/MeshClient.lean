import Mathlib.Data.Rat.Defs
import Mathlib.Algebra.Order.Ring.Rat
import PublicIntelligence.Mesh.Protocol

namespace PublicIntelligence.Scheduler

open Text Json Mesh

/-- Why a `MeshUnavailableError` was raised: nothing that counts as an answer came back. -/
inductive Unavailable where
  | noSession
  | notSent
  | replyError
  | undecodable
  | drainFailed
  | timedOut
  | noQueryable
deriving DecidableEq

/-- The fixed part of the error's text; what another exception adds to it is left out. -/
def Unavailable.message : Unavailable → Text
  | .noSession => text "Scheduler has no Zenoh session."
  | .notSent => text "Mesh query could not be sent: "
  | .replyError => text "Node replied with an error."
  | .undecodable => text "Undecodable mesh reply: "
  | .drainFailed => []
  | .timedOut => text "Node did not answer over the mesh in time."
  | .noQueryable => text "No queryable answered for node."

/-- `MeshUnavailableError`, `MeshNodeError`, or a reply whose `status` is no number. -/
inductive MeshError where
  | unavailable (why : Unavailable)
  | node (message : Text) (status : Int)
  | badStatus
deriving DecidableEq

/-- What the drain thread puts on the queue. -/
inductive Item where
  | reply (fields : Fields)
  | failure (why : Unavailable)
  | finished

/-- One round of the drain loop; `none` is a zenoh `reply_err`. -/
def drained : Option Bytes → Item
  | none => .failure .replyError
  | some payload =>
    match decodeReply payload with
    | none => .failure .undecodable
    | some fields => .reply fields

/-- The queue once every reply has been drained. -/
def drain (replies : List (Option Bytes)) : List Item := replies.map drained ++ [.finished]

def isOk (fields : Fields) : Bool := truthy ((get? fields "ok").getD (.bool false))

def isDone (fields : Fields) : Bool := truthy ((get? fields "done").getD .null)

/-- The `MeshNodeError` a reply that is not `ok` becomes. -/
def nodeError (py : Builtins) (fields : Fields) : MeshError :=
  match py.intOf ((get? fields "status").getD (.int 500)) with
  | none => .badStatus
  | some status =>
    .node (py.strOf ((get? fields "error").getD (.str (text "Node reported an error.")))) status

/-- The item `_first_reply` got in time. -/
def firstItem : Item → Except MeshError Fields
  | .finished => .error (.unavailable .noQueryable)
  | .failure why => .error (.unavailable why)
  | .reply fields => .ok fields

/-- The Scheduler's Zenoh session: there may be none, or it may refuse the query. -/
inductive Session where
  | absent
  | refusing
  | opened
deriving DecidableEq

structure MeshInferenceClient where
  session : Session
  timeout : ℚ
  firstReplyTimeout : ℚ

namespace MeshInferenceClient

def defaultTimeout : ℚ := 120

def defaultFirstReplyTimeout : ℚ := 5

/-- `_first_reply` on a queue whose items arrive at the given seconds after the
query. An item that is not there before the timeout is not waited for. -/
def firstReply (c : MeshInferenceClient) :
    List (ℚ × Item) → Except MeshError (Fields × List (ℚ × Item))
  | [] => .error (.unavailable .timedOut)
  | (arrival, item) :: rest =>
    if arrival < c.firstReplyTimeout then (firstItem item).map fun fields => (fields, rest)
    else .error (.unavailable .timedOut)

/-- What `infer` makes of the reply: the model and the response, or the node's error. -/
def answerOf (py : Builtins) (model : Text) (fields : Fields) : Except MeshError (Text × Text) :=
  if isOk fields then
    .ok (py.strOf ((get? fields "model").getD (.str model)),
      py.strOf ((get? fields "response").getD (.str [])))
  else .error (nodeError py fields)

/-- `_start_query`, as far as whether the query is on its way. -/
def startQuery (c : MeshInferenceClient) : Except MeshError Unit :=
  match c.session with
  | .absent => .error (.unavailable .noSession)
  | .refusing => .error (.unavailable .notSent)
  | .opened => .ok ()

def infer (c : MeshInferenceClient) (py : Builtins) (model : Text) (queue : List (ℚ × Item)) :
    Except MeshError (Text × Text) := do
  c.startQuery
  let (fields, _) ← c.firstReply queue
  answerOf py model fields

/-- The queue of a query that one reply answers after `delay` seconds. Zenoh ends
the reply iterator at the query's own timeout. -/
def singleReply (c : MeshInferenceClient) (delay : ℚ) (reply : Option Bytes) : List (ℚ × Item) :=
  if delay ≤ c.timeout then [(delay, drained reply), (delay, .finished)] else [(c.timeout, .finished)]

end MeshInferenceClient

/-- An open streaming reply whose first chunk has already arrived. -/
structure MeshStream where
  firstChunk : Option Text
  queue : List Item
  finished : Bool

/-- The end of an iteration. `waiting` is a queue that stays empty. -/
inductive Ending where
  | stopped
  | raised (e : MeshError)
  | waiting
deriving DecidableEq

structure Iterated where
  tokens : List Text
  ending : Ending
deriving DecidableEq

/-- `open_stream` after its first reply. -/
def openWith (py : Builtins) (fields : Fields) (queue : List Item) : Except MeshError MeshStream :=
  if !isOk fields then .error (nodeError py fields)
  else if isDone fields then .ok ⟨none, queue, true⟩
  else
    match (get? fields "chunk").getD .null with
    | .null => .error (.node (text "Node sent a reply with no content.") 502)
    | chunk => .ok ⟨some (py.strOf chunk), queue, false⟩

/-- `open_stream` on a queue whose items arrive at the given seconds after the query. -/
def MeshInferenceClient.openStream (c : MeshInferenceClient) (py : Builtins)
    (queue : List (ℚ × Item)) : Except MeshError MeshStream := do
  c.startQuery
  let (fields, rest) ← c.firstReply queue
  openWith py fields (rest.map Prod.snd)

/-- The loop of `__anext__`, run until it raises. The chunk index is only logged. -/
def iterateQueue (py : Builtins) : List Item → Iterated
  | [] => ⟨[], .waiting⟩
  | .finished :: _ =>
    ⟨[], .raised (.node (text "Node stopped streaming without completing the response.") 502)⟩
  | .failure why :: _ => ⟨[], .raised (.node (text "Mesh stream failed: " ++ why.message) 502)⟩
  | .reply fields :: rest =>
    if !isOk fields then ⟨[], .raised (nodeError py fields)⟩
    else if isDone fields then ⟨[], .stopped⟩
    else
      match (get? fields "chunk").getD .null with
      | .null => iterateQueue py rest
      | chunk =>
        let more := iterateQueue py rest
        ⟨py.strOf chunk :: more.tokens, more.ending⟩

def MeshStream.iterate (py : Builtins) (s : MeshStream) : Iterated :=
  let more := if s.finished then ⟨[], .stopped⟩ else iterateQueue py s.queue
  match s.firstChunk with
  | none => more
  | some chunk => ⟨chunk :: more.tokens, more.ending⟩

end PublicIntelligence.Scheduler
