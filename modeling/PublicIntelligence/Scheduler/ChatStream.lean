import PublicIntelligence.Lib.JsonRead
import PublicIntelligence.Scheduler.Gateway

namespace PublicIntelligence.Scheduler

open Text Json

/-- A field pydantic writes as `null` where it is not set. -/
def orNull : Option Text → Json
  | none => .null
  | some t => .str t

/-- `ChatCompletionChunkDelta` -/
structure ChunkDelta where
  role : Option Text
  content : Option Text

/-- `ChatCompletionChunk`, with its one choice. -/
structure ChatCompletionChunk where
  id : Text
  created : Int
  model : Text
  delta : ChunkDelta
  finishReason : Option Text

def ChunkDelta.json (d : ChunkDelta) : Json :=
  .obj [(text "role", orNull d.role), (text "content", orNull d.content)]

def ChatCompletionChunk.json (c : ChatCompletionChunk) : Json :=
  .obj [(text "id", .str c.id), (text "object", .str (text "chat.completion.chunk")), (text "created", .int c.created),
    (text "model", .str c.model),
    (text "choices", .arr [.obj [(text "index", .int 0), (text "delta", c.delta.json),
      (text "finish_reason", orNull c.finishReason)]])]

/-- `f"data: {...}\n\n"` -/
def sseEvent (data : Text) : Text := text "data: " ++ data ++ text "\n\n"

/-- What a frame of the stream adds to the answer. `complaint` is what an exception of an error frame
says that is no `NodeDispatchError`. -/
def Frame.said (complaint : Text) : Frame → Text
  | .content t => t
  | .error (some detail) => text "\n[Error: " ++ detail ++ text "]"
  | .error none => text "\n[Stream Error: " ++ complaint ++ text "]"
  | .role | .stop | .done => []

section
variable (q : Assigned) (complaint : Text)

/-- The chunk a frame is sent as; the last frame is none. -/
def Frame.chunk (created : Int) : Frame → Option ChatCompletionChunk
  | .role => some ⟨q.taskId, created, q.model, ⟨some (text "assistant"), some []⟩, none⟩
  | .content t => some ⟨q.taskId, created, q.model, ⟨none, some t⟩, none⟩
  | .error detail =>
    some ⟨q.taskId, created, q.model, ⟨none, some (Frame.said complaint (.error detail))⟩, some (text "error")⟩
  | .stop => some ⟨q.taskId, created, q.model, ⟨none, none⟩, some (text "stop")⟩
  | .done => none

/-- A frame as it is sent at a second of the clock. -/
def Frame.event (created : Int) (f : Frame) : Text :=
  sseEvent (match f.chunk q complaint created with
    | some c => write .raw c.json
    | none => text "[DONE]")

/-- The body of a streamed answer: each frame with the second it is made at. -/
def sseBody (frames : List (Int × Frame)) : Text := frames.flatMap fun f => f.2.event q complaint f.1

end

section
variable {q : Assigned} {complaint : Text}

theorem scalar_orNull {t : Option Text} (h : ∀ s ∈ t, Scalar s) : scalar (orNull t) = true := by
  cases t with
  | none => rfl
  | some s => exact decide_eq_true (h s rfl)

theorem ChatCompletionChunk.scalar_json {c : ChatCompletionChunk} (hid : Scalar c.id) (hmodel : Scalar c.model)
    (hrole : ∀ s ∈ c.delta.role, Scalar s) (hcontent : ∀ s ∈ c.delta.content, Scalar s)
    (hreason : ∀ s ∈ c.finishReason, Scalar s) : scalar c.json = true := by
  simp only [ChatCompletionChunk.json, ChunkDelta.json, scalar, scalarFields, scalarItems, scalar_orNull hrole,
    scalar_orNull hcontent, scalar_orNull hreason, hid, hmodel, scalar_text, decide_true, Bool.and_self]

/-- The texts a frame is made of have an encoding. -/
def Frame.Encodable (complaint : Text) (f : Frame) : Prop := Scalar (f.said complaint)

theorem Frame.scalar_event (hid : Scalar q.taskId) (hmodel : Scalar q.model) {f : Frame}
    (hf : f.Encodable complaint) (created : Int) : Scalar (f.event q complaint created) := by
  have hsaid : ∀ (role content reason : Option Text), (∀ s ∈ role, Scalar s) → (∀ s ∈ content, Scalar s) →
      (∀ s ∈ reason, Scalar s) →
      Scalar (write .raw (ChatCompletionChunk.json ⟨q.taskId, created, q.model, ⟨role, content⟩, reason⟩)) :=
    fun _ _ _ hr hc hf => scalar_write .raw _ (.inr (ChatCompletionChunk.scalar_json hid hmodel hr hc hf))
  have hgiven : ∀ {t : Text}, Scalar t → ∀ s ∈ some t, Scalar s := fun ht s hs => Option.mem_some.mp hs ▸ ht
  have hnone : ∀ s ∈ (none : Option Text), Scalar s := fun s hs => absurd hs (Option.not_mem_none s)
  unfold Frame.event sseEvent
  refine scalar_append.mpr ⟨scalar_append.mpr ⟨scalar_text _, ?_⟩, scalar_text _⟩
  cases f with
  | role => exact hsaid _ _ _ (hgiven (scalar_text _)) (hgiven scalar_nil) hnone
  | content t => exact hsaid _ _ _ hnone (hgiven hf) hnone
  | error detail => exact hsaid _ _ _ hnone (hgiven hf) (hgiven (scalar_text _))
  | stop => exact hsaid _ _ _ hnone hnone (hgiven (scalar_text _))
  | done => exact scalar_text _

theorem scalar_sseBody (hid : Scalar q.taskId) (hmodel : Scalar q.model) {frames : List (Int × Frame)}
    (hf : ∀ f ∈ frames, f.2.Encodable complaint) : Scalar (sseBody q complaint frames) := by
  intro c hc
  obtain ⟨f, hmem, hc⟩ := List.mem_flatMap.mp hc
  exact f.2.scalar_event hid hmodel (hf f hmem) f.1 c hc

end
end PublicIntelligence.Scheduler
