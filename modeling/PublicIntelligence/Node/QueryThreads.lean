import Mathlib.Data.Finset.Basic
import PublicIntelligence.Lib.Runs
import PublicIntelligence.Node.MeshServer

namespace PublicIntelligence.Node

open Runs Text Encoding Mesh

/-- Where the thread stands that zenoh calls `_on_query` on: at reading `_loop`, handing the coroutine to it, adding
its future to `_inflight`, and giving that a callback. -/
inductive ThreadPc where
  | called
  | accepted
  | scheduled
  | added
  | returned
deriving DecidableEq

/-- How far `_serve` is with a query: there is no coroutine, it has not begun, it has these replies to send, its
future is done, and what was a callback of the future by then has run. -/
inductive TaskPc where
  | absent
  | waiting
  | replying (rest : List Bytes)
  | done
  | settled
deriving DecidableEq

namespace TaskPc

/-- `future.done()` -/
def ended : TaskPc → Bool
  | .done | .settled => true
  | _ => false

def begun : TaskPc → Bool
  | .absent | .waiting => false
  | _ => true

/-- What is still to be sent. -/
def rest : TaskPc → List Bytes
  | .replying rest => rest
  | _ => []

end TaskPc

/-- One call of `_on_query`, and what was replied to its query. `watched`: the future has `_forget_inflight` for a
callback. -/
structure QueryCall where
  payload : QueryPayload
  thread : ThreadPc
  task : TaskPc
  watched : Bool
  sent : List Bytes

/-- A node's server with the calls of its queryable. `loop`: `_loop` is set; `queryable`: `_queryable` is. -/
structure QueryThreads (τ : Type) where
  server : ZenohInferenceServer τ
  queryable : Bool
  loop : Bool
  calls : Dict Nat QueryCall
  inflight : Finset Nat

/-- What happens next: the server is started or stopped, zenoh delivers a query, the thread of a call goes on, its
coroutine is begun by the event loop, or goes on. -/
inductive ThreadAct (τ : Type) where
  | start (declares : Bool)
  | stop
  | deliver (i : Nat) (payload : QueryPayload)
  | thread (i : Nat)
  | begin (i : Nat) (ollama : OllamaClient) (now : τ)
  | task (i : Nat)

namespace QueryThreads

def start (server : ZenohInferenceServer τ) : QueryThreads τ := ⟨server, false, false, .empty, ∅⟩

def put (s : QueryThreads τ) (i : Nat) (c : QueryCall) : QueryThreads τ := { s with calls := s.calls.set i c }

/-- The reply where there is no loop to run inference on. -/
def notAccepting : List Bytes := (encodeError (text "Node is not accepting inference.") 503).toList

/-- One step of the thread of a call. A future that is done runs its callback at once. -/
def threadStep (s : QueryThreads τ) (i : Nat) (c : QueryCall) : Option (QueryThreads τ) :=
  match c.thread with
  | .called =>
    if s.loop then some (s.put i { c with thread := .accepted })
    else some (s.put i { c with thread := .returned, sent := notAccepting })
  | .accepted => some (s.put i { c with thread := .scheduled, task := .waiting })
  | .scheduled => some { s.put i { c with thread := .added } with inflight := insert i s.inflight }
  | .added =>
    if c.task.ended then some { s.put i { c with thread := .returned } with inflight := s.inflight.erase i }
    else some (s.put i { c with thread := .returned, watched := true })
  | .returned => none

/-- A coroutine is begun: up to its first await it verifies the query. What it raises is the future's. -/
def beginStep (env : Signing τ) (s : QueryThreads τ) (i : Nat) (c : QueryCall) (ollama : OllamaClient) (now : τ) :
    Option (QueryThreads τ) :=
  if c.task = .waiting then
    match s.server.serve env ollama c.payload now with
    | (none, server) => some { s.put i { c with task := .done } with server }
    | (some replies, server) => some { s.put i { c with task := .replying replies } with server }
  else none

/-- One step of a coroutine, and of its future after it. -/
def taskStep (s : QueryThreads τ) (i : Nat) (c : QueryCall) : Option (QueryThreads τ) :=
  match c.task with
  | .replying (reply :: rest) => some (s.put i { c with task := .replying rest, sent := c.sent ++ [reply] })
  | .replying [] => some (s.put i { c with task := .done })
  | .done =>
    some { s.put i { c with task := .settled } with
      inflight := if c.watched then s.inflight.erase i else s.inflight }
  | .absent | .waiting | .settled => none

/-- The event loop runs throughout. -/
def step (env : Signing τ) : Step (QueryThreads τ) (ThreadAct τ)
  | s, .start declares => some (if s.queryable then s else { s with loop := true, queryable := declares })
  | s, .stop => some (if s.queryable then { s with queryable := false, loop := false } else s)
  | s, .deliver i payload =>
    if s.queryable ∧ i ∉ s.calls then some (s.put i ⟨payload, .called, .absent, false, []⟩) else none
  | s, .thread i => (s.calls.get? i).bind (s.threadStep i)
  | s, .begin i ollama now => (s.calls.get? i).bind fun c => s.beginStep env i c ollama now
  | s, .task i => (s.calls.get? i).bind (s.taskStep i)

/-- `[f for f in self._inflight if not f.done()]`: what `wait_for_inflight` waits for, and without a timeout returns
once there is none. -/
def pending (s : QueryThreads τ) : Finset Nat :=
  s.inflight.filter fun i => (s.calls.get? i).any fun c => !c.task.ended

end QueryThreads
end PublicIntelligence.Node
