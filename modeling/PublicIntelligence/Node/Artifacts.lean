import PublicIntelligence.Lib.Dict
import PublicIntelligence.Lib.Json
import PublicIntelligence.Lib.Posix
import PublicIntelligence.Lib.Runs

namespace PublicIntelligence.Node

open Text Encoding Json Runs Posix

structure ArtifactMetadata where
  artifactId : Text
  taskId : Text
  uri : Text
  checksum : Text
  status : Text
  metadata : Fields

def ArtifactMetadata.json (m : ArtifactMetadata) : Json :=
  .obj [(text "artifact_id", .str m.artifactId), (text "task_id", .str m.taskId), (text "uri", .str m.uri),
    (text "checksum", .str m.checksum), (text "status", .str m.status), (text "metadata", .obj m.metadata)]

/-- How an attempt to write a file ends: it could not be opened, it holds the data, or it holds the first bytes of
them and the write has raised. -/
inductive WriteEnd where
  | refused
  | whole
  | broken (written : Nat)

inductive ArtifactError where
  | value (message : Text)
  | notFound (message : Text)
deriving DecidableEq

/-- The store, and the disk below it: `locate` is the file that a path leads to, if its directory is there. -/
structure LocalDiskArtifactStore (ι : Type) where
  baseDirectory : Text
  sha256 : Bytes → Bytes
  locate : Text → Option ι

namespace LocalDiskArtifactStore

section
variable [DecidableEq ι] (s : LocalDiskArtifactStore ι)

def checksum (data : Bytes) : Text := hexText (s.sha256 data)

def artifactId (task : Text) (data : Bytes) : Text := text "art_" ++ task ++ text "_" ++ (s.checksum data).take 12

def filename (task : Text) (data : Bytes) : Text := s.artifactId task data ++ text ".bin"

def filepath (task : Text) (data : Bytes) : Text := join s.baseDirectory (s.filename task data)

/-- A task id that is no text is refused once the file is written. -/
def describe (taskId : Json) (data : Bytes) (metadata : Fields) : Option ArtifactMetadata := do
  let task ← asStr (some taskId)
  return ⟨s.artifactId task data, task, text "file://" ++ s.filepath task data, s.checksum data, text "COMMITTED",
    metadata⟩

/-- The files, and what is known of the artifact unless something was raised. -/
def saveArtifact (py : Builtins) (files : Dict ι Bytes) (taskId : Json) (data : Bytes) (metadata : Fields)
    (write : WriteEnd) : Dict ι Bytes × Option ArtifactMetadata :=
  match s.locate (s.filepath (py.strOf taskId) data), write with
  | none, _ | some _, .refused => (files, none)
  | some file, .broken written => (files.set file (data.take written), none)
  | some file, .whole => (files.set file data, s.describe taskId data metadata)

def getArtifact (files : Dict ι Bytes) (uri : Text) : Except ArtifactError Bytes :=
  if startswith uri (text "file://") = false then
    .error (.value (text "Invalid URI format. Expected protocol prefix: 'file://'"))
  else
    let path := uri.drop (text "file://").length
    match (s.locate path).bind files.get? with
    | none => .error (.notFound (text "Artifact file not found at local storage path: '" ++ path ++ text "'"))
    | some data => .ok data

end

section
variable {s : LocalDiskArtifactStore ι}

/-- An artifact's id tells its task. -/
theorem artifactId_task (hs : ∀ data, 6 ≤ (s.sha256 data).length)
    (h : s.artifactId task data = s.artifactId task' data') : task = task' := by
  have hlength : ∀ data, ((s.checksum data).take 12).length = 12 := by
    intro data
    have := hs data
    rw [List.length_take, checksum, length_hexText]
    omega
  unfold artifactId at h
  simp only [List.append_assoc] at h
  have htail := List.append_cancel_left h
  rw [← List.append_assoc, ← List.append_assoc] at htail
  have hhead := (List.append_inj' htail (by rw [hlength, hlength])).1
  exact List.append_cancel_right hhead

/-- The name of an artifact is one entry of a directory, unless the task's id has a slash. -/
theorem filename_plain (htask : slash ∉ task) (data : Bytes) : Posix.Plain (s.filename task data) := by
  have hhex : slash ∉ (s.checksum data).take 12 := by
    intro hmem
    exact forall_mem_hexText (P := (slash ≠ ·)) (by decide) _ _ (List.mem_of_mem_take hmem) rfl
  have hname : s.filename task data = ofChar 'a' :: (text "rt_" ++ task ++ text "_" ++ (s.checksum data).take 12 ++
    text ".bin") := rfl
  have hstem : slash ∉ text "rt_" ++ task ++ text "_" ++ (s.checksum data).take 12 ++ text ".bin" := by
    simp only [List.mem_append, not_or]
    exact ⟨⟨⟨⟨by decide, htask⟩, by decide⟩, hhex⟩, by decide⟩
  rw [hname]
  constructor
  · intro h
    rcases List.mem_cons.mp h with h | h
    · cases h
    · exact hstem h
  · exact List.cons_ne_nil _ _
  · intro h
    cases h
  · intro h
    cases h

/-- It can be written as UTF-8 when the task's id can. -/
theorem filename_scalar (htask : Scalar task) (data : Bytes) : Scalar (s.filename task data) := by
  have hhex : Scalar ((s.checksum data).take 12) :=
    fun c hc => hexText_scalar _ c (List.mem_of_mem_take hc)
  simp only [filename, artifactId, scalar_append]
  exact ⟨⟨⟨⟨scalar_text _, htask⟩, scalar_text _⟩, hhex⟩, scalar_text _⟩

theorem describe_some (h : s.describe taskId data metadata = some m) :
    taskId = .str m.taskId ∧ m.uri = text "file://" ++ s.filepath m.taskId data ∧ m.checksum = s.checksum data := by
  obtain ⟨task, htask, h⟩ := Option.bind_eq_some_iff.mp h
  cases h
  refine ⟨?_, rfl, rfl⟩
  cases taskId with
  | str t => rw [Option.some.inj htask]
  | null | bool b | int n | float l | arr js | obj fs => cases htask

variable [DecidableEq ι]

theorem getArtifact_ok (files : Dict ι Bytes) (path : Text) :
    s.getArtifact files (text "file://" ++ path) = .ok data ↔
      ∃ file, s.locate path = some file ∧ files.get? file = some data := by
  have hstart : startswith (text "file://" ++ path) (text "file://") = true := by simp [startswith]
  have hpath : (text "file://" ++ path).drop (text "file://").length = path := List.drop_left
  simp only [getArtifact, hstart, hpath, Bool.true_eq_false, if_false]
  cases hlocate : s.locate path with
  | none => simp
  | some file =>
    simp only [Option.bind_some, Option.some.injEq, exists_eq_left']
    cases files.get? file <;> simp

/-- What a save does to the files, and when it is known to have been made. -/
theorem saveArtifact_cases (py : Builtins) (files : Dict ι Bytes) (taskId : Json) (data : Bytes) (metadata : Fields)
    (write : WriteEnd) : s.saveArtifact py files taskId data metadata write = (files, none) ∨
      ∃ file, s.locate (s.filepath (py.strOf taskId) data) = some file ∧
        ((∃ contents, s.saveArtifact py files taskId data metadata write = (files.set file contents, none)) ∨
          s.saveArtifact py files taskId data metadata write =
            (files.set file data, s.describe taskId data metadata)) := by
  unfold saveArtifact
  cases hlocate : s.locate (s.filepath (py.strOf taskId) data) with
  | none => exact .inl rfl
  | some file =>
    cases write with
    | refused => exact .inl rfl
    | whole => exact .inr ⟨file, rfl, .inr rfl⟩
    | broken written => exact .inr ⟨file, rfl, .inl ⟨_, rfl⟩⟩

end
end LocalDiskArtifactStore

/-- What the worker reads of a task. -/
structure Job where
  taskId : Json
  modelName : Json
  prompt : Json

/-- A task without an id or a prompt raises. -/
def readTask (task : Fields) : Option Job := do
  let taskId ← get? task "task_id"
  let named := (get? task "model_name").getD .null
  let modelName := if truthy named then named else (get? task "model").getD (.str (text "echo"))
  let prompt ← get? task "prompt"
  return ⟨taskId, modelName, prompt⟩

/-- `len`, where there is one. -/
def lengthOf : Json → Option Int
  | .str s => some s.length
  | .arr js => some js.length
  | .obj fs => some fs.length
  | _ => none

inductive Backend where
  | echo
  | ollama
deriving DecidableEq

/-- What a backend generates; `answer` is Ollama's. -/
def Backend.generate (py : Builtins) (prompt : Json) (answer : Option Text) : Backend → Option Text
  | .echo => some (text "Echo: " ++ py.strOf prompt)
  | .ollama => answer

/-- Where the worker waits. -/
inductive WorkerPc where
  | waiting
  | generating (task : Fields) (job : Job)
  | pausing
  | ended

/-- A task that came to its end, what it put out, and what was reported of it. -/
structure Finished where
  task : Fields
  output : Text
  artifact : ArtifactMetadata
  report : Option (Text × Text)

/-- The worker of a node with its queue, and the files on the node's disk. -/
structure Worker (ι : Type) where
  running : Bool
  pc : WorkerPc
  backend : Option Backend
  connected : Bool
  queue : List Fields
  unfinished : Nat
  files : Dict ι Bytes
  finished : List Finished

inductive WorkerAct where
  | put (task : Fields)
  | take
  | answered (answer : Option Text) (write : WriteEnd) (sent : Bool)
  | woke
  | connect (connected : Bool)
  | stop
  | cancelled
  | start

namespace Worker

def init (backend : Option Backend) (files : Dict ι Bytes) : Worker ι :=
  ⟨true, .waiting, backend, false, [], 0, files, []⟩

/-- The top of the loop. -/
def again (w : Worker ι) : Worker ι := { w with pc := if w.running then .waiting else .ended }

/-- A task was taken off the queue. -/
def begin (w : Worker ι) (task : Fields) : Worker ι :=
  match readTask task with
  | none => { w with pc := .pausing }
  | some job => { w with backend := some (w.backend.getD .echo), pc := .generating task job }

section
variable [DecidableEq ι] (s : LocalDiskArtifactStore ι) (py : Builtins)

def resultKey (taskId : Json) : Text :=
  text "public-intelligence/net/tasks/" ++ py.strOf taskId ++ text "/result"

/-- The report of an artifact, if there is a session: it may raise. -/
def report (w : Worker ι) (job : Job) (artifact : ArtifactMetadata) (sent : Bool) : Option (Option (Text × Text)) :=
  if w.connected then
    match dumps artifact.json with
    | some payload => if sent then some (some (resultKey py job.taskId, payload)) else none
    | none => none
  else some none

/-- From the backend's answer to the end of the round. -/
def complete (w : Worker ι) (task : Fields) (job : Job) (answer : Option Text) (write : WriteEnd) (sent : Bool) :
    Worker ι :=
  let output := (w.backend.getD .echo).generate py job.prompt answer
  match output, output.bind encode, lengthOf job.prompt with
  | some output, some data, some length =>
    let saved := s.saveArtifact py w.files job.taskId data
      [(text "model", job.modelName), (text "prompt_length", .int length)] write
    let w := { w with files := saved.1 }
    match saved.2 with
    | none => { w with pc := .pausing }
    | some artifact =>
      match w.report py job artifact sent with
      | none => { w with pc := .pausing }
      | some report =>
        let done : Finished := ⟨task, output, artifact, report⟩
        { w with unfinished := w.unfinished - 1, finished := w.finished ++ [done] }.again
  | _, _, _ => { w with pc := .pausing }

/-- One step of the worker or of those around it. `stop` waits for the worker it has cancelled, and a start comes once
the last stop is through: two workers never run side by side. -/
def step : Step (Worker ι) WorkerAct
  | w, .put task => some { w with queue := w.queue ++ [task], unfinished := w.unfinished + 1 }
  | w, .take =>
    match w.pc, w.queue with
    | .waiting, task :: rest => some ({ w with queue := rest }.begin task)
    | _, _ => none
  | w, .answered answer write sent =>
    match w.pc with
    | .generating task job => some (w.complete s py task job answer write sent)
    | _ => none
  | w, .woke =>
    match w.pc with
    | .pausing => some w.again
    | _ => none
  | w, .connect connected => some { w with connected }
  | w, .stop => some { w with running := false }
  | w, .cancelled => if w.running then none else some { w with pc := .ended }
  | w, .start =>
    match w.running, w.pc with
    | false, .ended => some { w with running := true, pc := .waiting }
    | _, _ => none

end

section
variable {w : Worker ι}

@[simp] theorem again_queue (w : Worker ι) : w.again.queue = w.queue := rfl

@[simp] theorem again_unfinished (w : Worker ι) : w.again.unfinished = w.unfinished := rfl

@[simp] theorem again_files (w : Worker ι) : w.again.files = w.files := rfl

@[simp] theorem again_finished (w : Worker ι) : w.again.finished = w.finished := rfl

/-- The worker has a task in hand. -/
def inHand (w : Worker ι) : List Fields :=
  match w.pc with
  | .generating task _ => [task]
  | _ => []

@[simp] theorem again_inHand (w : Worker ι) : w.again.inHand = [] := by
  unfold inHand again
  cases w.running <;> rfl

/-- What is in hand is what was read of it. -/
def Reads (w : Worker ι) : Prop := ∀ task job, w.pc = .generating task job → readTask task = some job

theorem again_reads (w : Worker ι) : w.again.Reads := by
  intro task job h
  have hpc : w.again.inHand = [task] := by rw [inHand, h]
  rw [again_inHand] at hpc
  cases hpc

theorem begin_frame (w : Worker ι) (task : Fields) :
    (w.begin task).queue = w.queue ∧ (w.begin task).unfinished = w.unfinished ∧ (w.begin task).files = w.files ∧
      (w.begin task).finished = w.finished ∧ (w.begin task).inHand.Sublist [task] ∧ (w.begin task).Reads := by
  unfold begin
  cases hread : readTask task with
  | none =>
    refine ⟨rfl, rfl, rfl, rfl, List.nil_sublist _, ?_⟩
    intro task' job h
    cases h
  | some job =>
    refine ⟨rfl, rfl, rfl, rfl, List.Sublist.refl _, ?_⟩
    intro task' job' h
    cases h
    exact hread

variable [DecidableEq ι] {s : LocalDiskArtifactStore ι} {py : Builtins}

/-- A report names the task, and says what is known of its artifact. -/
def Tells (py : Builtins) (taskId : Json) (artifact : ArtifactMetadata) (report : Option (Text × Text)) : Prop :=
  ∀ r, report = some r → r.1 = resultKey py taskId ∧ dumps artifact.json = some r.2

omit [DecidableEq ι] in
theorem report_tells (h : w.report py job artifact sent = some told) : Tells py job.taskId artifact told := by
  unfold Worker.report at h
  rintro r rfl
  split at h
  · split at h
    · rename_i payload hpayload
      split at h
      · cases h
        exact ⟨rfl, hpayload⟩
      · cases h
    · cases h
  · cases h

/-- A round ends with a pause, and the files may have changed at the path of the task; or the task is finished. -/
theorem complete_cases (s : LocalDiskArtifactStore ι) (py : Builtins) (w : Worker ι) (task : Fields) (job : Job)
    (answer : Option Text) (write : WriteEnd) (sent : Bool) :
    (∃ files, w.complete s py task job answer write sent = { w with files := files, pc := .pausing } ∧
      (files = w.files ∨ ∃ data file contents, s.locate (s.filepath (py.strOf job.taskId) data) = some file ∧
        files = w.files.set file contents)) ∨
    ∃ output data metadata artifact report file, encode output = some data ∧
      s.describe job.taskId data metadata = some artifact ∧ Tells py job.taskId artifact report ∧
      s.locate (s.filepath (py.strOf job.taskId) data) = some file ∧
      w.complete s py task job answer write sent =
        { w with
          files := w.files.set file data
          unfinished := w.unfinished - 1
          finished := w.finished ++ [⟨task, output, artifact, report⟩] : Worker ι }.again := by
  unfold complete
  dsimp only
  split
  · rename_i output data length houtput hdata hlength
    have hencode : encode output = some data := by rwa [houtput] at hdata
    generalize hmetadata : [(text "model", job.modelName), (text "prompt_length", Json.int length)] = metadata
    obtain hsave | ⟨file, hlocate, ⟨contents, hsave⟩ | hsave⟩ :=
      s.saveArtifact_cases py w.files job.taskId data metadata write
    · rw [hsave]
      exact .inl ⟨_, rfl, .inl rfl⟩
    · rw [hsave]
      exact .inl ⟨_, rfl, .inr ⟨data, file, contents, hlocate, rfl⟩⟩
    · rw [hsave]
      cases hdescribe : s.describe job.taskId data metadata with
      | none => exact .inl ⟨_, rfl, .inr ⟨data, file, data, hlocate, rfl⟩⟩
      | some artifact =>
        dsimp only
        split
        · exact .inl ⟨_, rfl, .inr ⟨data, file, data, hlocate, rfl⟩⟩
        · rename_i report hreport
          exact .inr ⟨output, data, metadata, artifact, report, file, hencode, hdescribe, report_tells hreport, hlocate,
            rfl⟩
  · exact .inl ⟨_, rfl, .inl rfl⟩

end
end Worker
end PublicIntelligence.Node
