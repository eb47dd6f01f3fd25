import PublicIntelligence.Node.Ollama
import PublicIntelligence.Scheduler.NodeDispatch

namespace PublicIntelligence.System

open Text Json Mesh Node Scheduler

section
variable (py : Builtins) (complaint : String) (request : InferenceRequest)

/-- What the requester is streamed when the node is reached over the mesh: every
reply of `_serve_stream` is delivered once and in order. -/
def overMesh (stream : OllamaStream) : Except MeshError Streamed :=
  openMeshStream py
    (drain ((serveStream complaint (generateStream complaint request (.ok stream))).map some))

/-- What the requester is streamed when the node is reached over HTTP. -/
def overHttp (stream : OllamaStream) : Streamed :=
  let (frames, error) := generateStream complaint request (.ok stream)
  httpStream py error.isNone frames

/-- Both transports yield the same tokens to the end, and these spell the chunks'
responses. -/
def Agree (chunks : List Chunk) : Prop :=
  ∃ tokens, overMesh py complaint request ⟨chunks, none⟩ = .ok ⟨tokens, .stopped⟩ ∧
    overHttp py complaint request ⟨chunks, none⟩ = ⟨tokens, .stopped⟩ ∧
    tokens.flatten = (chunks.map Chunk.response).flatten

variable {py complaint request}

theorem iterateMeshStream_stopped : (iterateMeshStream i).ending = .stopped ↔ i.ending = .stopped := by
  obtain ⟨tokens, ending⟩ := i
  cases ending with
  | stopped => simp [iterateMeshStream]
  | waiting => simp [iterateMeshStream]
  | raised e => cases e <;> simp [iterateMeshStream]

/-- Taking the first reply off the queue before iterating changes nothing. -/
theorem openMeshStream_ok (h : openMeshStream py queue = .ok s) :
    s = iterateMeshStream (iterateQueue py queue) := by
  match queue with
  | [] => cases h
  | .finished :: _ => cases h
  | .failure _ :: _ => cases h
  | .reply fields :: rest =>
    change (openWith py fields rest).map (fun s => iterateMeshStream (s.iterate py)) = .ok s at h
    unfold openWith at h
    unfold iterateQueue
    split at h
    · cases h
    split at h
    · rename_i hok hdone
      cases h
      rw [if_neg hok, if_pos hdone]
      rfl
    · rename_i hok hdone
      rw [if_neg hok, if_neg hdone]
      split at h
      · cases h
      · rename_i chunk hnull
        cases h
        rfl

theorem iterateQueue_chunk (fs : List Item) (i : Nat) (f : Text) :
    iterateQueue py
        (.reply (envelope [("ok", .bool true), ("i", .int i), ("chunk", .str f)]) :: fs) =
      ⟨f :: (iterateQueue py fs).tokens, (iterateQueue py fs).ending⟩ := rfl

theorem iterateQueue_failure (message : Text) (status : Nat) :
    (iterateQueue py (drain ((encodeError message status).toList.map some))).ending ≠ .stopped := by
  cases hb : encodeError message status with
  | none => exact nofun
  | some b =>
    have hd : drained (some b) = .reply (envelope [("ok", .bool false), ("status", .int status),
        ("error", .str (joined message))]) := by
      rw [drained, decode_encodeError hb]
    change (iterateQueue py (drained (some b) :: _)).ending ≠ _
    rw [hd]
    exact nofun

/-- If the iterator over the node's replies ends well, it yielded the frames. -/
theorem iterateQueue_frames {error : Option Text} (frames : List Text) : ∀ i, (∀ f ∈ frames, Scalar f) →
    (iterateQueue py (drain ((serveFrames complaint error i frames).map some))).ending = .stopped →
    (iterateQueue py (drain ((serveFrames complaint error i frames).map some))).tokens = frames ∧
      error = none := by
  induction frames with
  | nil =>
    intro i _ hstop
    cases error with
    | none =>
      obtain ⟨b, hb, hd⟩ := decode_encodeDone
      have hone : drained (some b) =
          .reply (envelope [("ok", .bool true), ("done", .bool true)]) := by rw [drained, hd]
      refine ⟨?_, rfl⟩
      rw [serveFrames, hb]
      change (iterateQueue py (drained (some b) :: _)).tokens = []
      rw [hone]
      rfl
    | some m => exact absurd hstop (iterateQueue_failure m (statusOf m))
  | cons f fs ih =>
    intro i hs hstop
    unfold serveFrames at hstop ⊢
    split at hstop
    · exact absurd hstop (iterateQueue_failure _ 500)
    · rename_i b hb
      have hone : drained (some b) =
          .reply (envelope [("ok", .bool true), ("i", .int i), ("chunk", .str f)]) := by
        rw [drained, decode_encodeChunk (hs f List.mem_cons_self) hb]
      have hqueue : drain ((b :: serveFrames complaint error (i + 1) fs).map some) =
          drained (some b) :: drain ((serveFrames complaint error (i + 1) fs).map some) := rfl
      rw [hqueue, hone, iterateQueue_chunk] at hstop
      obtain ⟨htokens, herror⟩ := ih (i + 1) (fun g hg => hs g (List.mem_cons_of_mem _ hg)) hstop
      rw [hqueue, hone, iterateQueue_chunk, htokens]
      exact ⟨rfl, herror⟩

/-- Over the mesh a stream that ends well is the frames themselves. -/
theorem overMesh_tokens (h : overMesh py complaint request ⟨chunks, none⟩ = .ok ⟨tokens, .stopped⟩) :
    tokens = (generateFrames complaint none chunks).1 ∧
      (generateFrames complaint none chunks).2 = none := by
  have hs := openMeshStream_ok h
  have hstop := iterateMeshStream_stopped.mp (congrArg Streamed.ending hs).symm
  obtain ⟨htokens, herror⟩ := iterateQueue_frames
    (generateFrames complaint none chunks).1 0 (generateFrames_scalar complaint none chunks) hstop
  exact ⟨(congrArg Streamed.tokens hs).trans htokens, herror⟩

/-- The frames say more than the responses they carry. -/
theorem not_agree_of_chunk (hc : chunks ≠ []) : ¬ Agree py complaint request chunks := by
  rintro ⟨tokens, hmesh, _, hflat⟩
  obtain ⟨htokens, herror⟩ := overMesh_tokens hmesh
  have hlen := generateFrames_length complaint none chunks herror
  have hpos := List.length_pos_of_ne_nil hc
  rw [← htokens, hflat] at hlen
  omega

theorem agree_nil : Agree py complaint request [] := by
  refine ⟨[], ?_, rfl, rfl⟩
  obtain ⟨b, hb, hd⟩ := decode_encodeDone
  have hone : drained (some b) =
      .reply (envelope [("ok", .bool true), ("done", .bool true)]) := by rw [drained, hd]
  have hserve : serveStream complaint (generateStream complaint request (.ok ⟨[], none⟩)) = [b] := by
    change encodeDone.toList = [b]
    rw [hb]
    rfl
  rw [overMesh, hserve]
  change openMeshStream py (drained (some b) :: _) = _
  rw [hone]
  rfl

end

/-- The two transports stream the same only where there is nothing to stream. -/
theorem transports_agree_iff (py : Builtins) (complaint : String) (request : InferenceRequest)
    (chunks : List Chunk) : Agree py complaint request chunks ↔ chunks = [] := by
  constructor
  · intro h
    by_contra hc
    exact not_agree_of_chunk hc h
  · rintro rfl
    exact agree_nil

def plainBuiltins : Builtins := ⟨fun _ => [], fun _ => none⟩

def greetingRequest : InferenceRequest := ⟨text "llama3", text "hello", true, none⟩

/-- One token and Ollama's last chunk. -/
def greeting : List Chunk :=
  [⟨false, [], text "Hi", [(text "done", .bool false)], by decide +kernel⟩,
    ⟨false, [], [], [(text "done", .bool true)], by decide +kernel⟩]

theorem greeting_frames : (generateFrames "" none greeting).1 =
    [frame (text "\x7b\"response\":\"Hi\",\"done\":false\x7d"),
      frame (text "\x7b\"response\":\"\",\"done\":true\x7d")] := by
  decide +kernel

/-- Over HTTP the greeting is `Hi`, over the mesh it is the raw event frames. -/
theorem greeting_differs :
    overHttp plainBuiltins "" greetingRequest ⟨greeting, none⟩ = ⟨[text "Hi", []], .stopped⟩ ∧
    (∀ tokens, overMesh plainBuiltins "" greetingRequest ⟨greeting, none⟩ = .ok ⟨tokens, .stopped⟩ →
      tokens = [frame (text "\x7b\"response\":\"Hi\",\"done\":false\x7d"),
        frame (text "\x7b\"response\":\"\",\"done\":true\x7d")]) ∧
    ¬ ∀ (py : Builtins) (complaint : String) (request : InferenceRequest) (chunks : List Chunk),
      Agree py complaint request chunks :=
  ⟨by decide +kernel, fun _ h => (overMesh_tokens h).1.trans greeting_frames, fun h =>
    not_agree_of_chunk (List.cons_ne_nil _ _) (h plainBuiltins "" greetingRequest greeting)⟩

end PublicIntelligence.System
