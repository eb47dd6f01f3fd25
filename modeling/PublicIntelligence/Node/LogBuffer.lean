import Mathlib.Data.List.DropRight
import PublicIntelligence.Lib.Dict
import PublicIntelligence.Lib.Json
import PublicIntelligence.Lib.Runs

namespace PublicIntelligence.Node

open Text Json Encoding Runs

/-- A line that a sandbox printed. -/
structure LogEntry where
  timestamp : Text
  stream : Text
  branch : Text
  message : Text
deriving DecidableEq

/-- The last entries, and the queue of each subscriber under its identity. -/
structure SandboxLogBuffer where
  maxlen : Nat
  buffer : List LogEntry
  subscribers : Dict Nat (List LogEntry)
  nextQueue : Nat

namespace SandboxLogBuffer

def init (maxlen : Nat) : SandboxLogBuffer := ⟨maxlen, [], .empty, 0⟩

/-- A full `deque` drops its oldest entry. -/
def addLog (b : SandboxLogBuffer) (entry : LogEntry) : SandboxLogBuffer :=
  { b with
    buffer := (b.buffer ++ [entry]).rtake b.maxlen
    subscribers := b.subscribers.mapValues fun queue => queue ++ [entry] }

def getLogs (b : SandboxLogBuffer) (limit : Option Int) : List LogEntry :=
  match limit with
  | some n => if 0 < n then b.buffer.rtake n.toNat else b.buffer
  | none => b.buffer

def clear (b : SandboxLogBuffer) : SandboxLogBuffer := { b with buffer := [] }

def subscribe (b : SandboxLogBuffer) : Nat × SandboxLogBuffer :=
  (b.nextQueue, { b with subscribers := b.subscribers.set b.nextQueue [], nextQueue := b.nextQueue + 1 })

def unsubscribe (b : SandboxLogBuffer) (queue : Nat) : SandboxLogBuffer :=
  { b with subscribers := b.subscribers.pop queue }

/-- `queue.get()` where there is something to get. -/
def getEntry (b : SandboxLogBuffer) (queue : Nat) : Option (LogEntry × SandboxLogBuffer) :=
  match b.subscribers.get? queue with
  | some (entry :: rest) => some (entry, { b with subscribers := b.subscribers.set queue rest })
  | _ => none

section
variable {b : SandboxLogBuffer}

@[simp] theorem foldl_addLog_maxlen (es : List LogEntry) (b : SandboxLogBuffer) :
    (es.foldl addLog b).maxlen = b.maxlen := by
  induction es generalizing b with
  | nil => rfl
  | cons e es ih => exact ih (b.addLog e)

@[simp] theorem foldl_addLog_nextQueue (es : List LogEntry) (b : SandboxLogBuffer) :
    (es.foldl addLog b).nextQueue = b.nextQueue := by
  induction es generalizing b with
  | nil => rfl
  | cons e es ih => exact ih (b.addLog e)

/-- Every subscriber is told of every entry, in order. -/
theorem foldl_addLog_subscribers (es : List LogEntry) (b : SandboxLogBuffer) (queue : Nat) :
    (es.foldl addLog b).subscribers.get? queue = (b.subscribers.get? queue).map fun pending => pending ++ es := by
  induction es generalizing b with
  | nil => simp
  | cons e es ih =>
    rw [List.foldl_cons, ih, addLog, Dict.get?_mapValues, Option.map_map]
    simp [Function.comp_def]

theorem getEntry_eq (h : b.subscribers.get? queue = some (e :: pending)) :
    b.getEntry queue = some (e, { b with subscribers := b.subscribers.set queue pending }) := by
  rw [getEntry, h]

theorem getEntry_eq_some (h : b.getEntry queue = some r) :
    ∃ pending, b.subscribers.get? queue = some (r.1 :: pending) ∧
      r.2 = { b with subscribers := b.subscribers.set queue pending } := by
  unfold getEntry at h
  split at h
  · rename_i entry pending hget
    cases h
    exact ⟨pending, hget, rfl⟩
  · cases h

end
end SandboxLogBuffer

/-- The lines of an output that are not blank. -/
def outputLines (output : Bytes) : List Text :=
  (splitlines (decodeReplace output)).filter fun line => strip line ≠ []

/-- What `execute_in_sandbox` logs of a process that ended, or of one that it had to kill. `clock` tells the time
of each entry. -/
def sandboxEntries (clock : Nat → Text) (branch : Text) (stdout stderr : Bytes) (expired : Bool) : List LogEntry :=
  let out := (outputLines stdout).map fun line => (text "stdout", line)
  let err := (outputLines stderr).map fun line => (text "stderr", line)
  let late :=
    if expired then [(text "stderr", text "Sandbox execution timed out on branch " ++ branch ++ text ".")] else []
  (out ++ err ++ late).mapIdx fun i line => ⟨clock i, line.1, branch, line.2⟩

/-- What a log stream sends: an entry, or a comment that keeps the connection open. -/
inductive LogFrame where
  | event (entry : LogEntry)
  | keepAlive
deriving DecidableEq

def LogEntry.formatted (e : LogEntry) : Text :=
  text "[" ++ e.timestamp ++ text "] [" ++ e.stream ++ text "] " ++ e.message

def LogEntry.json (e : LogEntry) : Json :=
  .obj [(text "entry", .obj [(text "timestamp", .str e.timestamp), (text "stream", .str e.stream),
    (text "branch", .str e.branch), (text "message", .str e.message)]), (text "log", .str e.formatted)]

def LogFrame.text : LogFrame → Text
  | .event entry => Text.text "data: " ++ write .dumps entry.json ++ Text.text "\n\n"
  | .keepAlive => Text.text ": keep-alive\n\n"

/-- Where a log stream stands: at an entry of the snapshot with the rest of it to come, at an entry of the queue,
at a comment, at the queue, or at its end. -/
inductive Stand where
  | snapshot (rest : List LogEntry)
  | live
  | idle
  | waiting
  | ended
deriving DecidableEq

/-- `log_generator`, and the frames it has sent. -/
structure LogStream where
  maxEvents : Option Int
  count : Nat
  stand : Stand
  frames : List LogFrame

namespace LogStream

def init (maxEvents : Option Int) : LogStream := ⟨maxEvents, 0, .waiting, []⟩

/-- `max_events is not None and count >= max_events` -/
def full (s : LogStream) : Bool := s.maxEvents.any fun n => n ≤ (s.count : Int)

def send (s : LogStream) (frame : LogFrame) (stand : Stand) : LogStream :=
  { s with frames := s.frames ++ [frame], stand := stand }

/-- The loop over the snapshot, up to its next `yield`. -/
def replay (s : LogStream) : List LogEntry → LogStream
  | [] => { s with stand := .waiting }
  | entry :: rest => s.send (.event entry) (.snapshot rest)

/-- Behind the `yield` of an entry. -/
def counted (s : LogStream) (next : LogStream → LogStream) : LogStream :=
  let s := { s with count := s.count + 1 }
  if s.full then { s with stand := .ended } else next s

/-- The response asks for the next item. -/
def resume (s : LogStream) : Option LogStream :=
  match s.stand with
  | .snapshot rest => some (s.counted fun s => s.replay rest)
  | .live => some (s.counted fun s => s.replay [])
  | .idle => some (s.replay [])
  | .waiting | .ended => none

/-- The client is gone, or the wait for the queue is over. -/
inductive Wake where
  | disconnected
  | got
  | timedOut
deriving DecidableEq

end LogStream

/-- A node's log, and the streams that were opened on it. -/
structure LogHost where
  log : SandboxLogBuffer
  streams : Dict Nat LogStream

inductive LogAct where
  | executed (clock : Nat → Text) (branch : Text) (stdout stderr : Bytes) (expired : Bool)
  | clear
  | opened (maxEvents : Option Int)
  | pull (queue : Nat)
  | wake (queue : Nat) (wake : LogStream.Wake)
  | close (queue : Nat)

namespace LogHost

def start (maxlen : Nat) : LogHost := ⟨.init maxlen, .empty⟩

/-- Leave a stream as it is now. One that ends unsubscribes. -/
def settle (h : LogHost) (queue : Nat) (s : LogStream) : LogHost where
  log := if s.stand = .ended then h.log.unsubscribe queue else h.log
  streams := h.streams.set queue s

/-- The wait of a stream is over. Between an entry and a timeout there is a race. -/
def wakeUp (h : LogHost) (queue : Nat) (s : LogStream) : LogStream.Wake → Option LogHost
  | .disconnected => some (h.settle queue { s with stand := .ended })
  | .got => (h.log.getEntry queue).map fun r => { h with log := r.2 }.settle queue (s.send (.event r.1) .live)
  | .timedOut =>
    some (h.settle queue (if s.maxEvents.isSome then { s with stand := .ended } else s.send .keepAlive .idle))

def step : Step LogHost LogAct
  | h, .executed clock branch stdout stderr expired =>
    some { h with log := (sandboxEntries clock branch stdout stderr expired).foldl SandboxLogBuffer.addLog h.log }
  | h, .clear => some { h with log := h.log.clear }
  | h, .opened maxEvents =>
    let (queue, log) := h.log.subscribe
    some ({ h with log := log }.settle queue ((LogStream.init maxEvents).replay (log.getLogs (some 50))))
  | h, .pull queue => do
    let s ← h.streams.get? queue
    return h.settle queue (← s.resume)
  | h, .wake queue wake => do
    let s ← h.streams.get? queue
    if s.stand = .waiting then h.wakeUp queue s wake else none
  | h, .close queue => do
    let s ← h.streams.get? queue
    if s.stand = .ended then none else some (h.settle queue { s with stand := .ended })

section
variable {h : LogHost}

@[simp] theorem settle_buffer (queue : Nat) (s : LogStream) : (h.settle queue s).log.buffer = h.log.buffer := by
  unfold settle
  dsimp only
  split <;> rfl

@[simp] theorem settle_maxlen (queue : Nat) (s : LogStream) : (h.settle queue s).log.maxlen = h.log.maxlen := by
  unfold settle
  dsimp only
  split <;> rfl

@[simp] theorem settle_nextQueue (queue : Nat) (s : LogStream) :
    (h.settle queue s).log.nextQueue = h.log.nextQueue := by
  unfold settle
  dsimp only
  split <;> rfl

@[simp] theorem settle_streams (queue : Nat) (s : LogStream) :
    (h.settle queue s).streams = h.streams.set queue s := rfl

theorem settle_open (queue : Nat) (hs : s.stand ≠ .ended) : (h.settle queue s).log = h.log := if_neg hs

theorem settle_ended (queue : Nat) (hs : s.stand = .ended) :
    (h.settle queue s).log = h.log.unsubscribe queue := if_pos hs

/-- The queues of the other streams are left as they are. -/
theorem settle_other (s : LogStream) (hq : queue ≠ other) :
    (h.settle queue s).log.subscribers.get? other = h.log.subscribers.get? other := by
  unfold settle
  dsimp only
  split
  · exact Dict.get?_pop_ne _ hq
  · rfl

end
end LogHost
end PublicIntelligence.Node
