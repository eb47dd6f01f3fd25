import PublicIntelligence.Scheduler.Metering
import PublicIntelligence.Scheduler.NodeDispatch

namespace PublicIntelligence.Scheduler

open Text Json Mesh

def estimateTokens (t : Text) : Nat := if t = [] then 0 else max 1 (t.length / 4)

/-- What a node's queryable makes arrive for a query: replies (`none` is a zenoh `reply_err`)
with the second each comes at, whether the iterator over them then raises, and when it is over. -/
structure MeshAnswer where
  replies : List (ℚ × Option Bytes)
  broke : Bool
  ends : ℚ

/-- What `drain` puts on the queue. -/
def MeshAnswer.queue (a : MeshAnswer) : List (ℚ × Item) :=
  (a.replies.map fun (arrival, reply) => (arrival, drained reply)) ++
    (if a.broke then [(a.ends, .failure .drainFailed)] else []) ++ [(a.ends, .finished)]

/-- How the streaming POST to `/infer` goes: it raises before there is a response, it is not a
200, or its body comes in frames, and ends cleanly or breaks off. -/
inductive HttpStreamAnswer where
  | raised
  | failed (status : Nat) (body : Text)
  | ok (clean : Bool) (frames : List Text)

/-- What iterating over `_http_stream` yields. -/
def httpStreamed (py : Builtins) : HttpStreamAnswer → Streamed
  | .raised => ⟨[], .broken⟩
  | .failed status body => ⟨[], .dispatchError body status⟩
  | .ok clean frames => httpStream py clean frames

/-- `open_inference_stream`, with what iterating over the stream will yield. -/
def openInferenceStream (py : Builtins) (r : Route) (queue : List (ℚ × Item)) (http : HttpStreamAnswer) :
    Except DispatchError Streamed :=
  match useMesh r with
  | none => .ok (httpStreamed py http)
  | some c =>
    match c.openStream py queue with
    | .ok stream => .ok (iterateMeshStream (stream.iterate py))
    | .error (.node message status) => .error (.dispatch message status)
    | .error .badStatus => .error .unexpected
    | .error (.unavailable _) => .ok (httpStreamed py http)

/-- `stream_outcome` -/
structure StreamOutcome where
  generatedChars : Nat
  failed : Bool

/-- A chunk of the SSE body, as far as it says something. An error chunk for an exception other
than `NodeDispatchError` has a text that is left out. -/
inductive Frame where
  | role
  | content (t : Text)
  | error (detail : Option Text)
  | stop
  | done
deriving DecidableEq

inductive GeneratorEnding where
  | returned
  | raised
  | waiting
deriving DecidableEq

/-- What a generator yields, each with `stream_outcome` as it then is, and how it ends. -/
structure Generated where
  frames : List (Frame × StreamOutcome)
  outcome : StreamOutcome
  ending : GeneratorEnding

def Generated.before (g : Generated) (frame : Frame) (o : StreamOutcome) : Generated :=
  { g with frames := (frame, o) :: g.frames }

/-- The end of the generator: two more frames. -/
def closing (o : StreamOutcome) (last : Frame) : Generated := ⟨[(last, o), (.done, o)], o, .returned⟩

/-- The relaying part of `sse_generator`. `model_dump_json` raises on a text with a lone
surrogate: within the `try` for a token, outside for an error's detail. -/
def relay (o : StreamOutcome) : List Text → StreamEnding → Generated
  | [], .stopped => closing o .stop
  | [], .dispatchError detail _ =>
    if Scalar detail then closing { o with failed := true } (.error (some detail))
    else ⟨[], { o with failed := true }, .raised⟩
  | [], .broken => closing { o with failed := true } (.error none)
  | [], .waiting => ⟨[], o, .waiting⟩
  | token :: rest, ending =>
    let o' := { o with generatedChars := o.generatedChars + token.length }
    if Scalar token then (relay o' rest ending).before (.content token) o'
    else closing { o' with failed := true } (.error none)

/-- `sse_generator` -/
def sseGenerator (s : Streamed) : Generated := (relay ⟨0, false⟩ s.tokens s.ending).before .role ⟨0, false⟩

/-- The requester of a stream. `leaves n`: the generator is closed where it yields its frame of
index `n`, or is cancelled before it yields the next; `gone`: it is never asked for a frame. -/
inductive Client where
  | stays
  | leaves (n : Nat)
  | gone

/-- What the `finally` of `metered_sse` sees when the generator has come to its end:
`stream_outcome`, and whether an exception passes. -/
def Generated.over (g : Generated) : Option (StreamOutcome × Bool) :=
  match g.ending with
  | .returned => some (g.outcome, false)
  | .raised => some (g.outcome, true)
  | .waiting => none

/-- The same for a requester; `none` where the `finally` is not reached. -/
def meteredSse (g : Generated) : Client → Option (StreamOutcome × Bool)
  | .stays => g.over
  | .leaves n =>
    match g.frames[n]? with
    | some (_, outcome) => some (outcome, true)
    | none => if g.ending = .waiting then some (g.outcome, true) else g.over
  | .gone => none

/-- A request that `create_chat_completion` has assigned to a registered node. -/
structure Assigned where
  taskId : Text
  tenantId : Json
  node : Host
  ipAddress : Text
  model : Text
  promptText : Text
  stream : Bool
  startedAt : ℚ

namespace Assigned

def target (q : Assigned) : Target := ⟨q.node.nodeId, q.ipAddress, q.model, q.promptText⟩

/-- The arguments `_meter` is called with. -/
def charge (q : Assigned) (completionTokens : Nat) (succeeded : Bool) : Charge :=
  ⟨q.taskId, q.tenantId, q.node, q.model, estimateTokens q.promptText, completionTokens, q.startedAt, succeeded⟩

end Assigned

/-- What the node and the requester do, on every transport that may be taken. -/
structure Behaviour where
  mesh : MeshAnswer
  http : HttpAnswer
  httpStream : HttpStreamAnswer
  client : Client

inductive Reply where
  | completion (generatedText : Text) (promptTokens completionTokens : Nat)
  | httpException (status : Int) (detail : Text)
  | serverError
  | stream (frames : List Frame)

section
variable (py : Builtins) (q : Assigned) (r : Route) (b : Behaviour)

/-- How a request ends: the `_meter` call it makes, if it makes one, and the reply. -/
structure Ended where
  charge : Option Charge
  reply : Reply

/-- `create_chat_completion` from the dispatch on, where `stream` is false. -/
def completeOnce : Ended :=
  match (inferOnce py r q.target b.mesh.queue b.http).result with
  | .error (.dispatch detail status) => ⟨some (q.charge 0 false), .httpException status detail⟩
  | .error .unexpected => ⟨none, .serverError⟩
  | .ok (_, generatedText) =>
    let completionTokens := estimateTokens generatedText
    ⟨some (q.charge completionTokens true),
      if Scalar generatedText then
        .completion generatedText (estimateTokens q.promptText) completionTokens
      else .serverError⟩

/-- `create_chat_completion` from the dispatch on, where `stream` is true. -/
def completeStream : Ended :=
  match openInferenceStream py r b.mesh.queue b.httpStream with
  | .error (.dispatch detail status) => ⟨some (q.charge 0 false), .httpException status detail⟩
  | .error .unexpected => ⟨none, .serverError⟩
  | .ok tokenStream =>
    let g := sseGenerator tokenStream
    let taken := match b.client with
      | .stays => g.frames
      | .leaves n => g.frames.take (n + 1)
      | .gone => []
    ⟨(meteredSse g b.client).map fun (outcome, raised) =>
        q.charge (outcome.generatedChars / 4) (!raised && !outcome.failed),
      .stream (taken.map Prod.fst)⟩

/-- `create_chat_completion` from the dispatch on, where the query can be encoded. -/
def createChatCompletion : Ended := if q.stream then completeStream py q r b else completeOnce py q r b

/-- There is a session to query the node over, but `encode_request` raises: a text of the query has a lone surrogate. -/
def unencodable : Bool :=
  match useMesh r with
  | none => false
  | some c => c.session ≠ .absent && !decide (Scalar q.node.nodeId ∧ Scalar ((resolveToken r).getD []) ∧
      Scalar q.model ∧ Scalar q.promptText)

/-- The same for texts of any kind: nothing catches what `encode_request` raises. -/
def tryChatCompletion : Ended :=
  if unencodable q r then ⟨none, .serverError⟩ else createChatCompletion py q r b

/-- What the request leaves in the ledger, the meter and the store. -/
def Ended.metered (e : Ended) (s : Accounting γ) (clock : Readings) (note : γ) (first second : Landing) :
    Accounting γ :=
  match e.charge with
  | none => s
  | some charge => s.meter charge clock note first second

end
end PublicIntelligence.Scheduler
