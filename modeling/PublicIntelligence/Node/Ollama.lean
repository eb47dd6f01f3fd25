import PublicIntelligence.Mesh.Protocol
import PublicIntelligence.Node.Inference

namespace PublicIntelligence.Node

open Text Encoding Json Mesh

/-- How a call to the Ollama library raises: its own `ResponseError`, or anything else. -/
inductive OllamaFailure where
  | response (status : Nat) (error : Text)
  | other (message : Text)

/-- The text of the `OllamaError` a failed call is turned into. -/
def ollamaError (model : Text) : OllamaFailure → Text
  | .response status error =>
    if status = 404 then text "Model '" ++ model ++ text "' was not found on the Ollama server."
    else text "Ollama generation failed with status code " ++ natText status ++ text ": " ++ error
  | .other message => text "Ollama generation failed: " ++ message

/-- The model and text of Ollama's answer; either may be missing. -/
structure OllamaAnswer where
  model : Option Text
  response : Option Text

/-- Python's `value or default` on an optional string. -/
def orElse (v : Option Text) (default : Text) : Text :=
  match v with
  | none => default
  | some t => if t = [] then default else t

/-- `OllamaClient.generate`. `complaint` is what an exception of a library says. -/
def generate (complaint : String) (request : InferenceRequest) :
    Except OllamaFailure OllamaAnswer → Except Text InferenceResponse
  | .error failure => .error (ollamaError request.model failure)
  | .ok answer =>
    match validateNonEmpty (orElse answer.model request.model) with
    | none => .error (ollamaError request.model (.other (text complaint)))
    | some model => .ok ⟨model, answer.response.getD []⟩

/-- One chunk of a generation. The Ollama library yields response models; a plain
dictionary is accepted too and written by `json.dumps`. -/
structure Chunk where
  plainDict : Bool
  before : Fields
  response : Text
  after : Fields
  distinct : ((before ++ (text "response", .str response) :: after).map Prod.fst).Nodup

def Chunk.fields (c : Chunk) : Fields := c.before ++ (text "response", .str c.response) :: c.after

/-- The JSON of a chunk, unless it cannot be written. -/
def Chunk.data (c : Chunk) : Option Text :=
  if c.plainDict then dumps (.obj c.fields) else modelDumpJson (.obj c.fields)

def frame (data : Text) : Text := text "data: " ++ data ++ text "\n\n"

/-- The chunks Ollama streams, and what the stream says if it breaks off. -/
structure OllamaStream where
  chunks : List Chunk
  broken : Option Text

def streamError (message : Text) : Text := text "Ollama streaming generation failed: " ++ message

/-- The `async for` loop of `generate_stream`: the frames it yields, and the
`OllamaError` it ends with if it does. -/
def generateFrames (complaint : String) (broken : Option Text) : List Chunk → List Text × Option Text
  | [] => ([], broken.map streamError)
  | c :: cs =>
    match c.data with
    | none => ([], some (streamError (text complaint)))
    | some data =>
      let (frames, error) := generateFrames complaint broken cs
      (frame data :: frames, error)

/-- `OllamaClient.generate_stream`, opened or not. -/
def generateStream (complaint : String) (request : InferenceRequest) :
    Except OllamaFailure OllamaStream → List Text × Option Text
  | .error failure => ([], some (ollamaError request.model failure))
  | .ok s => generateFrames complaint s.broken s.chunks

/-- What `_serve` replies when the work raised an `OllamaError`. -/
def replyFailure (message : Text) : List Bytes := (encodeError message (statusOf message)).toList

/-- What `_serve` replies when anything else was raised. -/
def replyUnexpected (complaint : String) : List Bytes :=
  (encodeError (text "Node inference failed: " ++ text complaint) 500).toList

/-- `_serve_once`: the single reply. -/
def serveOnce (complaint : String) : Except Text InferenceResponse → List Bytes
  | .error message => replyFailure message
  | .ok r =>
    match encodeResult r.model r.response with
    | none => replyUnexpected complaint
    | some b => [b]

/-- `_serve_stream` from reply `index` on. -/
def serveFrames (complaint : String) (error : Option Text) (index : Nat) : List Text → List Bytes
  | [] =>
    match error with
    | none => encodeDone.toList
    | some message => replyFailure message
  | f :: fs =>
    match encodeChunk index f with
    | none => replyUnexpected complaint
    | some b => b :: serveFrames complaint error (index + 1) fs

def serveStream (complaint : String) (frames : List Text × Option Text) : List Bytes :=
  serveFrames complaint frames.2 0 frames.1

/-- A chunk's JSON has an encoding, and is longer than the text it carries. -/
theorem Chunk.data_spec {c : Chunk} (h : c.data = some d) :
    Scalar d ∧ c.response.length < d.length := by
  have hlong : ∀ style, c.response.length < (write style (.obj c.fields)).length := by
    intro style
    have hq := length_quote style.ascii c.response
    have hmem : (text "response", .str c.response) ∈ c.fields :=
      List.mem_append_right _ List.mem_cons_self
    have hle := length_field style hmem
    simp only [write] at hle
    omega
  unfold Chunk.data dumps modelDumpJson at h
  split at h
  · split at h
    · cases h
      exact ⟨scalar_write .dumps _ (.inl rfl), hlong .dumps⟩
    · cases h
  · split at h
    · rename_i hs
      cases h
      exact ⟨scalar_write .raw _ (.inr hs), hlong .raw⟩
    · cases h

/-- Every frame has an encoding. -/
theorem generateFrames_scalar (complaint : String) (broken : Option Text) (cs : List Chunk) :
    ∀ f ∈ (generateFrames complaint broken cs).1, Scalar f := by
  induction cs with
  | nil => exact fun f hf => absurd hf List.not_mem_nil
  | cons c cs ih =>
    unfold generateFrames
    split
    · exact fun f hf => absurd hf List.not_mem_nil
    · rename_i data hd
      intro f hf
      rcases List.mem_cons.mp hf with rfl | hf
      · exact scalar_append.mpr
          ⟨scalar_append.mpr ⟨scalar_text _, (c.data_spec hd).1⟩, scalar_text _⟩
      · exact ih f hf

/-- When the stream raises nothing, its frames together are longer than the texts
they carry, by more than a character for each chunk. -/
theorem generateFrames_length (complaint : String) (broken : Option Text) (cs : List Chunk)
    (h : (generateFrames complaint broken cs).2 = none) :
    (cs.map Chunk.response).flatten.length + cs.length ≤
      (generateFrames complaint broken cs).1.flatten.length := by
  induction cs with
  | nil => exact Nat.zero_le _
  | cons c cs ih =>
    unfold generateFrames at h ⊢
    split at h
    · cases h
    · rename_i data hd
      have hone := (c.data_spec hd).2
      have hrest := ih h
      simp only [List.map_cons, List.flatten_cons, List.length_append, List.length_cons, frame]
      omega

end PublicIntelligence.Node
