import PublicIntelligence.Lib.Aead
import PublicIntelligence.Node.Artifacts

namespace PublicIntelligence.System.Artifacts

open Runs Text Encoding Json Posix Node

/-- The task that an act puts on the queue. -/
def putOf : WorkerAct → List Fields
  | .put task => [task]
  | _ => []

def puts (acts : List WorkerAct) : List Fields := acts.flatMap putOf

/-- The id that a task has in the names of files and keys, unless the task cannot be worked on. -/
def idOf (py : Builtins) (task : Fields) : Option Text := (readTask task).map fun job => py.strOf job.taskId

def ids (py : Builtins) (tasks : List Fields) : List Text := tasks.filterMap (idOf py)

/-- A digest is long enough, and two names in the base directory that UTF-8 has are two files: of the others Python
writes some lone surrogates as single bytes. -/
structure Sound (s : LocalDiskArtifactStore ι) : Prop where
  digest : ∀ data, 6 ≤ (s.sha256 data).length
  apart : ∀ a b file, Posix.Plain a → Scalar a → Posix.Plain b → Scalar b →
    s.locate (join s.baseDirectory a) = some file → s.locate (join s.baseDirectory b) = some file → a = b

/-- An id that is a part of one name in a directory. -/
def Usable (id : Text) : Prop := slash ∉ id ∧ Scalar id

instance (id : Text) : Decidable (Usable id) := inferInstanceAs (Decidable (_ ∧ _))

/-- What a finished task put out is in the file of its artifact, and the report says so. -/
def Stored [DecidableEq ι] (s : LocalDiskArtifactStore ι) (py : Builtins) (files : Dict ι Bytes) (f : Finished) :
    Prop :=
  ∃ job data metadata file, readTask f.task = some job ∧ encode f.output = some data ∧
    s.describe job.taskId data metadata = some f.artifact ∧ Worker.Tells py job.taskId f.artifact f.report ∧
    s.locate (s.filepath (py.strOf job.taskId) data) = some file ∧ files.get? file = some data

/-- Tasks are finished in the order they were put, the others are in hand, on the queue or lost, and whatever was
finished is stored. -/
structure Delivered [DecidableEq ι] (s : LocalDiskArtifactStore ι) (py : Builtins) (tasks : List Fields)
    (w : Worker ι) : Prop where
  order : (w.finished.map Finished.task ++ (w.inHand ++ w.queue)).Sublist tasks
  counted : w.finished.length + w.unfinished = tasks.length
  reads : w.Reads
  stored : ∀ f ∈ w.finished, Stored s py w.files f

section
variable [DecidableEq ι] {s : LocalDiskArtifactStore ι} {py : Builtins} {w w' : Worker ι}

/-- Tasks at two places of a list have two ids. -/
theorem ids_apart {before after : List Fields} (hsub : (before ++ after).Sublist tasks)
    (hnodup : (ids py tasks).Nodup) (ht : t ∈ before) (hi : idOf py t = some i) (hu : u ∈ after)
    (hj : idOf py u = some j) :
    i ≠ j ∧ i ∈ ids py tasks ∧ j ∈ ids py tasks := by
  have hids : (ids py before ++ ids py after).Sublist (ids py tasks) := by
    have := hsub.filterMap (idOf py)
    rwa [List.filterMap_append] at this
  have hmem : i ∈ ids py before := List.mem_filterMap.mpr ⟨t, ht, hi⟩
  have hmem' : j ∈ ids py after := List.mem_filterMap.mpr ⟨u, hu, hj⟩
  have hdisjoint := List.disjoint_of_nodup_append (hnodup.sublist hids)
  refine ⟨?_, hids.subset (List.mem_append_left _ hmem), hids.subset (List.mem_append_right _ hmem')⟩
  rintro rfl
  exact hdisjoint hmem hmem'

/-- What is written for another task leaves an artifact as it is. -/
theorem Stored.kept (h : Stored s py files f) (hs : Sound s)
    (hid : ∀ i, idOf py f.task = some i → i ≠ taskId ∧ Usable i) (husable : Usable taskId)
    (hfile : s.locate (s.filepath taskId data) = some file) :
    Stored s py (files.set file contents) f := by
  obtain ⟨job, out, metadata, place, hread, hout, hdescribe, htells, hplace, hget⟩ := h
  refine ⟨job, out, metadata, place, hread, hout, hdescribe, htells, hplace, ?_⟩
  have hidf : idOf py f.task = some (py.strOf job.taskId) := by rw [idOf, hread, Option.map_some]
  obtain ⟨hne, hslash, hscalar⟩ := hid _ hidf
  rw [Dict.get?_set_ne]
  · exact hget
  · rintro rfl
    have hname := hs.apart _ _ _ (s.filename_plain husable.1 data) (s.filename_scalar husable.2 data)
      (s.filename_plain hslash out) (s.filename_scalar hscalar out) hfile hplace
    exact hne (LocalDiskArtifactStore.artifactId_task hs.digest (List.append_cancel_right hname)).symm

theorem answered_delivered (hs : Sound s) (hw : Delivered s py tasks w) (hpc : w.pc = .generating task job)
    (husable : ∀ id ∈ ids py tasks, Usable id) (hnodup : (ids py tasks).Nodup) :
    Delivered s py tasks (w.complete s py task job answer ending sent) := by
  have hhand : w.inHand = [task] := by rw [Worker.inHand, hpc]
  have hread := hw.reads task job hpc
  have hid : idOf py task = some (py.strOf job.taskId) := by rw [idOf, hread, Option.map_some]
  have horder := hw.order
  rw [hhand] at horder
  have hapart : ∀ f ∈ w.finished, ∀ i, idOf py f.task = some i → i ≠ py.strOf job.taskId ∧ Usable i := by
    intro f hf i hi
    obtain ⟨hne, hmem, _⟩ := ids_apart horder hnodup (List.mem_map_of_mem hf) hi (List.mem_cons_self ..) hid
    exact ⟨hne, husable i hmem⟩
  have hown : Usable (py.strOf job.taskId) := by
    have hmem : task ∈ tasks := horder.subset (List.mem_append_right _ List.mem_cons_self)
    exact husable _ (List.mem_filterMap.mpr ⟨task, hmem, hid⟩)
  obtain ⟨files, heq, hfiles⟩ |
      ⟨output, data, metadata, artifact, report, file, hdata, hdescribe, htells, hfile, heq⟩ :=
    w.complete_cases s py task job answer ending sent
  · rw [heq]
    refine ⟨?_, hw.counted, ?_, ?_⟩
    · have hdrop : (w.finished.map Finished.task ++ w.queue).Sublist
          (w.finished.map Finished.task ++ ([task] ++ w.queue)) :=
        (List.sublist_append_right _ _).append_left _
      exact hdrop.trans horder
    · intro task job h
      cases h
    · intro f hf
      have hstored := hw.stored f hf
      obtain rfl | ⟨data, file, contents, hfile, rfl⟩ := hfiles
      · exact hstored
      · exact hstored.kept hs (hapart f hf) hown hfile
  · rw [heq]
    have hpositive : 0 < w.unfinished := by
      have hlength := horder.length_le
      have hcounted := hw.counted
      simp only [List.length_append, List.length_map, List.length_cons, List.length_nil] at hlength
      omega
    refine ⟨?_, ?_, Worker.again_reads _, ?_⟩
    · simpa using horder
    · have hcounted := hw.counted
      simp only [Worker.again_finished, Worker.again_unfinished, List.length_append, List.length_cons, List.length_nil]
      omega
    · intro f hf
      simp only [Worker.again_finished, List.mem_append, List.mem_singleton] at hf
      rw [Worker.again_files]
      rcases hf with hf | rfl
      · exact (hw.stored f hf).kept hs (hapart f hf) hown hfile
      · exact ⟨job, data, metadata, file, hread, hdata, hdescribe, htells, hfile, Dict.get?_set_self _ _ _⟩

theorem step_delivered (hs : Sound s) (hw : Delivered s py tasks w) (hstep : Worker.step s py w a = some w')
    (husable : ∀ id ∈ ids py tasks, Usable id) (hnodup : (ids py tasks).Nodup) :
    Delivered s py (tasks ++ putOf a) w' := by
  cases a with
  | put task =>
    cases hstep
    refine ⟨?_, ?_, hw.reads, hw.stored⟩
    · have hsub := hw.order.append_right [task]
      simpa [putOf, Worker.inHand] using hsub
    · have hcounted := hw.counted
      simp only [putOf, List.length_append, List.length_cons, List.length_nil]
      omega
  | take =>
    simp only [putOf, List.append_nil]
    simp only [Worker.step] at hstep
    split at hstep
    · rename_i task rest hpc hqueue
      cases hstep
      obtain ⟨hrest, hunfinished, hfiles, hfinished, hhand, hreads⟩ := Worker.begin_frame { w with queue := rest } task
      have hold : w.inHand = [] := by rw [Worker.inHand, hpc]
      have horder := hw.order
      rw [hold, hqueue, List.nil_append] at horder
      refine ⟨?_, by rw [hfinished, hunfinished]; exact hw.counted, hreads, ?_⟩
      · rw [hfinished, hrest]
        exact ((hhand.append_right rest).append_left _).trans horder
      · rw [hfinished, hfiles]
        exact hw.stored
    · cases hstep
  | answered answer write sent =>
    simp only [putOf, List.append_nil]
    simp only [Worker.step] at hstep
    split at hstep
    · rename_i task job hpc
      cases hstep
      exact answered_delivered hs hw hpc husable hnodup
    · cases hstep
  | woke =>
    simp only [putOf, List.append_nil]
    simp only [Worker.step] at hstep
    split at hstep
    · rename_i hpc
      cases hstep
      have hold : w.inHand = [] := by rw [Worker.inHand, hpc]
      have horder := hw.order
      rw [hold] at horder
      exact ⟨by simpa using horder, hw.counted, Worker.again_reads w, hw.stored⟩
    · cases hstep
  | connect connected =>
    cases hstep
    simp only [putOf, List.append_nil]
    exact ⟨hw.order, hw.counted, hw.reads, hw.stored⟩
  | stop =>
    cases hstep
    simp only [putOf, List.append_nil]
    exact ⟨hw.order, hw.counted, hw.reads, hw.stored⟩
  | cancelled =>
    simp only [putOf, List.append_nil]
    simp only [Worker.step] at hstep
    split at hstep
    · cases hstep
    · cases hstep
      refine ⟨?_, hw.counted, ?_, hw.stored⟩
      · exact ((List.sublist_append_right _ _).append_left _).trans hw.order
      · intro task job h
        cases h
  | start =>
    simp only [putOf, List.append_nil]
    simp only [Worker.step] at hstep
    split at hstep
    · rename_i hpc
      cases hstep
      have hold : w.inHand = [] := by rw [Worker.inHand, hpc]
      have horder := hw.order
      rw [hold] at horder
      refine ⟨horder, hw.counted, ?_, hw.stored⟩
      intro task job h
      cases h
    · cases hstep

theorem run_delivered (hs : Sound s) (hw : Delivered s py tasks w) (hrun : exec (Worker.step s py) w acts = some w')
    (husable : ∀ id ∈ ids py (tasks ++ puts acts), Usable id) (hnodup : (ids py (tasks ++ puts acts)).Nodup) :
    Delivered s py (tasks ++ puts acts) w' := by
  induction acts generalizing w tasks with
  | nil =>
    cases hrun
    simpa [puts] using hw
  | cons a acts ih =>
    obtain ⟨u, hstep, hrun⟩ := exec_cons.mp hrun
    have hsub : (ids py tasks).Sublist (ids py (tasks ++ puts (a :: acts))) :=
      (List.sublist_append_left _ _).filterMap _
    have hu := step_delivered hs hw hstep (fun id hid => husable id (hsub.subset hid)) (hnodup.sublist hsub)
    have hsame : tasks ++ puts (a :: acts) = tasks ++ putOf a ++ puts acts := by
      rw [puts, List.flatMap_cons, ← List.append_assoc]
      rfl
    rw [hsame] at husable hnodup ⊢
    exact ih hu hrun husable hnodup

end

/-- Whatever is put on the queue, however Ollama, the disk and the mesh behave and however often the worker is stopped
and then started: where the ids of tasks are usable and no two tasks have one, tasks are finished in the order they
were put, each at most once; `join()` waits for exactly the tasks that are not finished; and the artifact of each
finished task is found under its URI, with what the task put out and the checksum of it, which is what was reported. -/
theorem artifacts [DecidableEq ι] {s : LocalDiskArtifactStore ι} {py : Builtins} (hs : Sound s)
    {backend : Option Backend} {files : Dict ι Bytes} {acts : List WorkerAct} {w : Worker ι}
    (husable : ∀ id ∈ ids py (puts acts), Usable id) (hnodup : (ids py (puts acts)).Nodup)
    (hrun : exec (Worker.step s py) (.init backend files) acts = some w) :
    (w.finished.map Finished.task ++ w.queue).Sublist (puts acts) ∧
      w.finished.length + w.unfinished = (puts acts).length ∧
      ∀ f ∈ w.finished, get? f.task "task_id" = some (.str f.artifact.taskId) ∧
        (∃ data, encode f.output = some data ∧ s.getArtifact w.files f.artifact.uri = .ok data ∧
          f.artifact.checksum = s.checksum data) ∧
        ∀ r, f.report = some r → r.1 = Worker.resultKey py (.str f.artifact.taskId) ∧
          dumps f.artifact.json = some r.2 := by
  have hstart : Delivered s py [] (.init backend files) := by
    refine ⟨List.Sublist.refl _, rfl, ?_, ?_⟩
    · intro task job h
      cases h
    · intro f hf
      cases hf
  obtain ⟨horder, hcounted, _, hstored⟩ := run_delivered hs hstart hrun (by simpa using husable) (by simpa using hnodup)
  rw [List.nil_append] at horder hcounted
  refine ⟨((List.sublist_append_right _ _).append_left _).trans horder, hcounted, fun f hf => ?_⟩
  obtain ⟨job, data, metadata, file, hread, hdata, hdescribe, htells, hfile, hget⟩ := hstored f hf
  obtain ⟨hid, huri, hchecksum⟩ := LocalDiskArtifactStore.describe_some hdescribe
  have hfield : get? f.task "task_id" = some job.taskId := by
    unfold readTask at hread
    obtain ⟨taskId, hget, hread⟩ := Option.bind_eq_some_iff.mp hread
    obtain ⟨prompt, _, hread⟩ := Option.bind_eq_some_iff.mp hread
    cases hread
    exact hget
  rw [hid] at hfile hfield htells
  refine ⟨hfield, ⟨data, hdata, ?_, hchecksum⟩, htells⟩
  rw [huri]
  exact (s.getArtifact_ok w.files _).mpr ⟨file, hfile, hget⟩

/-- What a task put out, and its SHA-256. -/
def echoed : Bytes := (encode (text "Echo: hi")).getD []

def echoedDigest : Bytes :=
  [35, 86, 182, 107, 122, 181, 138, 168, 229, 81, 197, 106, 23, 111, 61, 23, 191, 194, 112, 86, 47, 188, 98, 156, 175,
    168, 95, 223, 245, 0, 156, 131]

/-- A store in which every path leads to a file of its own. -/
def flatStore : LocalDiskArtifactStore Text := ⟨text "/tmp/artifacts", known [(echoed, echoedDigest)], some⟩

theorem sound_flatStore : Sound flatStore where
  digest data := by
    by_cases h : echoed = data
    · subst h
      decide
    · simp [flatStore, known, Dict.find, h]
  apart a b file ha _ hb _ hfile hfile' := by
    have hstart : ∀ {name : Text}, Posix.Plain name → startswith name [slash] = false :=
      fun h => startswith_slashes h.slash [] 1
    have hsame := Option.some.inj (hfile.trans hfile'.symm)
    rw [join_eq (hstart ha), join_eq (hstart hb)] at hsame
    exact List.append_cancel_left hsame

/-- A task is echoed, and one without a prompt is lost. -/
def echoActs : List WorkerAct :=
  [.connect true, .put [(text "task_id", .str (text "t1")), (text "prompt", .str (text "hi"))],
    .put [(text "task_id", .str (text "t2"))], .take, .answered none .whole true, .take, .woke]

theorem artifacts_echoed :
    ∃ w, (exec (Worker.step flatStore ⟨fun _ => [], fun _ => none⟩) (.init none .empty) echoActs = some w ∧
        w.finished.length = 1) ∧
      (w.finished.map Finished.task ++ w.queue).Sublist (puts echoActs) ∧
        w.finished.length + w.unfinished = (puts echoActs).length ∧
        ∀ f ∈ w.finished, get? f.task "task_id" = some (.str f.artifact.taskId) ∧
          (∃ data, encode f.output = some data ∧ flatStore.getArtifact w.files f.artifact.uri = .ok data ∧
            f.artifact.checksum = flatStore.checksum data) ∧
          ∀ r, f.report = some r →
            r.1 = Worker.resultKey ⟨fun _ => [], fun _ => none⟩ (.str f.artifact.taskId) ∧
              dumps f.artifact.json = some r.2 := by
  have hend : (exec (Worker.step flatStore ⟨fun _ => [], fun _ => none⟩) (.init none .empty) echoActs).map
      (fun w => w.finished.length) = some 1 := by decide +kernel
  obtain ⟨w, hrun, hone⟩ := Option.map_eq_some_iff.mp hend
  exact ⟨w, ⟨hrun, hone⟩, artifacts sound_flatStore (by decide) (by decide) hrun⟩

end PublicIntelligence.System.Artifacts
