import PublicIntelligence.System.Recording
import PublicIntelligence.System.Streaming
import PublicIntelligence.System.Transcript

namespace PublicIntelligence.System

open Text Encoding Json Mesh Node Scheduler Website

/-- A chunk that the gateway reads as the node wrote it: it comes back as it was, and its JSON is one line. What
pydantic writes has the texts as they are, so that no text may hold a line break beyond ASCII. -/
def OneLine (c : Chunk) : Prop :=
  Lossless (.obj c.fields) ∧ (c.plainDict = true ∨ Texts (fun ch => isBreak ch = false) (.obj c.fields))

section
variable {py : Builtins} {complaint : String} {request : InferenceRequest}

theorem splitlinesFrom_append (h : ∀ c ∈ a, isBreak c = false) (line t : Text) :
    splitlinesFrom line (a ++ t) = splitlinesFrom (line ++ a) t := by
  induction a generalizing line with
  | nil => rw [List.nil_append, List.append_nil]
  | cons c a ih =>
    obtain ⟨hc, ha⟩ := List.forall_mem_cons.mp h
    have hreturn : ¬ (c = ofChar '\r' ∧ (a ++ t).head? = some (ofChar '\n')) := by
      rintro ⟨rfl, _⟩
      cases hc
    rw [List.cons_append, splitlinesFrom, if_neg hreturn, if_neg (by simp [hc]), ih ha, List.append_assoc]
    rfl

theorem splitlines_frame (h : ∀ c ∈ data, isBreak c = false) (t : Text) :
    splitlines (frame data ++ t) = (text "data: " ++ data) :: [] :: splitlines t := by
  have hlabel : (text "data: ").all (fun c => !isBreak c) = true := by decide
  have hends : text "\n\n" = [ofChar '\n', ofChar '\n'] := by decide
  have hline : ∀ c ∈ text "data: " ++ data, isBreak c = false := fun c hc =>
    (List.mem_append.mp hc).elim (fun hc => Bool.not_eq_true' _ ▸ List.all_eq_true.mp hlabel c hc) (h c)
  rw [frame, hends, List.append_assoc, splitlines, splitlinesFrom_append hline]
  rfl

theorem strip_enclosed (hc : isSpace c = false) (he : isSpace e = false) (t : Text) :
    strip (c :: t ++ [e]) = c :: t ++ [e] := by
  rw [strip, lstrip, rstrip, List.cons_append, List.dropWhile_cons_of_neg (by simp [hc]), ← List.cons_append,
    List.reverse_append, List.reverse_singleton, List.singleton_append, List.dropWhile_cons_of_neg (by simp [he]),
    List.reverse_cons, List.reverse_reverse]

theorem Chunk.find_response (c : Chunk) : get? c.fields "response" = some (.str c.response) :=
  (Dict.find_eq_some c.distinct).mpr (List.mem_append_right _ List.mem_cons_self)

/-- The style a chunk is written in. -/
theorem Chunk.data_write {c : Chunk} (h : c.data = some d) :
    ∃ style, d = write style (.obj c.fields) ∧ (c.plainDict = true → style.ascii = true) := by
  unfold Chunk.data dumps modelDumpJson at h
  split at h
  · split at h
    · cases h
      exact ⟨.dumps, rfl, fun _ => rfl⟩
    · cases h
  · rename_i hplain
    split at h
    · cases h
      exact ⟨.raw, rfl, fun hp => absurd hp hplain⟩
    · cases h

/-- The line of a chunk gives its text. -/
theorem httpLine_data (py : Builtins) {c : Chunk} (hc : OneLine c) (h : c.data = some d) :
    (∀ ch ∈ d, isBreak ch = false) ∧ httpLine py (text "data: " ++ d) = .ok (some c.response) := by
  obtain ⟨style, rfl, hstyle⟩ := Chunk.data_write h
  obtain ⟨t, ht⟩ := write_obj_enclosed style c.fields
  have hloads := loads_write style hc.1
  refine ⟨unbroken_write style (numerals_of_lossless _ hc.1) (hc.2.imp_left hstyle), ?_⟩
  rw [ht] at hloads ⊢
  have hline : strip (text "data: " ++ (ofChar '{' :: t ++ [ofChar '}'])) =
      text "data: " ++ (ofChar '{' :: t ++ [ofChar '}']) := by
    have hlabel : text "data: " = ofChar 'd' :: text "ata: " := by decide
    rw [hlabel, ← List.append_assoc]
    exact strip_enclosed (by decide) (by decide) (text "ata: " ++ ofChar '{' :: t)
  have hblank : strip (text "data: " ++ (ofChar '{' :: t ++ [ofChar '}'])) ≠ [] := by
    rw [hline]
    exact List.cons_ne_nil _ _
  have hstart : startswith (text "data: " ++ (ofChar '{' :: t ++ [ofChar '}'])) (text "data: ") = true :=
    List.isPrefixOf_iff_prefix.mpr (List.prefix_append _ _)
  have hclean : strip ((text "data: " ++ (ofChar '{' :: t ++ [ofChar '}'])).drop 6) = ofChar '{' :: t ++ [ofChar '}'] :=
    strip_enclosed (by decide) (by decide) t
  have hsession : ¬ startswith (ofChar '{' :: t ++ [ofChar '}']) (text "session_id:") = true := by
    intro h
    obtain ⟨rest, hrest⟩ := List.isPrefixOf_iff_prefix.mp h
    exact absurd (List.cons.inj hrest).1 (by decide)
  unfold httpLine
  rw [if_neg hblank, if_pos hstart, hclean]
  dsimp only
  rw [if_neg hsession, hloads]
  dsimp only
  rw [Chunk.find_response, Option.getD_some]
  rfl

/-- Over HTTP the requester is streamed the responses, one token for each chunk up to one that cannot be
written. -/
theorem overHttp_tokens {chunks : List Chunk} (h : ∀ c ∈ chunks, OneLine c) (broken : Option Text) :
    overHttp py complaint request ⟨chunks, broken⟩ =
      ⟨(chunks.takeWhile fun c => c.data.isSome).map Chunk.response,
        if (chunks.all fun c => c.data.isSome) && broken.isNone then .stopped else .broken⟩ := by
  change httpTokens py (generateFrames complaint broken chunks).2.isNone
    (splitlines (generateFrames complaint broken chunks).1.flatten) = _
  induction chunks with
  | nil => cases broken <;> rfl
  | cons c cs ih =>
    obtain ⟨hc, hcs⟩ := List.forall_mem_cons.mp h
    rw [generateFrames]
    cases hd : c.data with
    | none =>
      rw [List.takeWhile_cons_of_neg (by rw [hd]; decide), List.all_cons, hd]
      rfl
    | some d =>
      obtain ⟨hbreak, hline⟩ := httpLine_data py hc hd
      have hrest := ih hcs
      dsimp only
      rw [List.flatten_cons, splitlines_frame hbreak, httpTokens, hline]
      have hempty : httpLine py [] = .ok none := rfl
      dsimp only
      rw [httpTokens, hempty]
      dsimp only
      rw [hrest, List.takeWhile_cons_of_pos (p := fun c : Chunk => c.data.isSome) (by rw [hd]; rfl), List.all_cons, hd]
      rfl

end

/-- From Ollama to the page: what a node streams to a gateway that reaches it over HTTP, at once or because the mesh
brought no reply, is shown as the texts of its chunks, one after the other, up to a chunk that cannot be written or a
text that cannot be sent. -/
theorem page_shows_responses (py : Builtins) (q : Assigned) (r : Route) (b : Behaviour) (ollamaComplaint : String)
    (complaint : Text) (request : InferenceRequest) (stream : OllamaStream) (timed : List (Int × Frame))
    (pieces : List Bytes) (hid : Scalar q.taskId) (hmodel : Scalar q.model) (hcomplaint : Scalar complaint)
    (hstream : q.stream = true) (hstays : b.client = .stays) (hroute : Recording.meshReply r b.mesh.queue = none)
    (hnode : b.httpStream = .ok (generateStream ollamaComplaint request (.ok stream)).2.isNone
      (generateStream ollamaComplaint request (.ok stream)).1)
    (hline : ∀ c ∈ stream.chunks, OneLine c)
    (hreply : (createChatCompletion py q r b).reply = .stream (timed.map Prod.snd))
    (hpieces : pieces.flatten = (sseBody q complaint timed).flatMap encodePoint) :
    assistantText ((StreamDecoder.start.decodeAll pieces).map units) =
      units (transcript complaint ⟨(stream.chunks.takeWhile fun c => c.data.isSome).map Chunk.response,
        if (stream.chunks.all fun c => c.data.isSome) && stream.broken.isNone then .stopped else .broken⟩) := by
  have hopen : openInferenceStream py r b.mesh.queue b.httpStream =
      .ok (overHttp py ollamaComplaint request stream) := by
    rw [Recording.openInferenceStream_eq, hroute, hnode]
    rfl
  rw [overHttp_tokens hline] at hopen
  refine page_shows_stream _ hid hmodel hcomplaint ?_ hpieces
  rw [createChatCompletion, if_pos hstream, completeStream, hopen] at hreply
  dsimp only at hreply
  rw [hstays] at hreply
  exact (Reply.stream.inj hreply).symm

theorem oneLine_of_plain (t : String) (done : Bool) (hkeys : _) (h : (text t).all (fun ch => !isBreak ch) = true) :
    OneLine ⟨false, [], text t, [(text "done", .bool done)], hkeys⟩ := by
  have hunbroken : ∀ ch ∈ text t, isBreak ch = false := fun ch hc => Bool.not_eq_true' _ ▸ List.all_eq_true.mp h ch hc
  have hnames : ∀ name ∈ ["response", "done"], (text name).all (fun ch => !isBreak ch) = true := by decide +kernel
  have hname : ∀ name ∈ ["response", "done"], ∀ ch ∈ text name, isBreak ch = false := fun name hmem ch hc =>
    Bool.not_eq_true' _ ▸ List.all_eq_true.mp (hnames name hmem) ch hc
  refine ⟨⟨hkeys, ?_⟩, .inr ?_⟩
  · exact ⟨joined_of_scalar (scalar_text _), joined_of_scalar (scalar_text _), joined_of_scalar (scalar_text _), trivial,
      trivial⟩
  · exact ⟨hname _ List.mem_cons_self, hunbroken, hname _ (by simp), trivial, trivial⟩

/-- The node of the greeting, reached over HTTP. -/
def greetingBehaviour : Behaviour :=
  ⟨⟨[], false, 0⟩, .ok none, .ok (generateStream "" greetingRequest (.ok ⟨greeting, none⟩)).2.isNone
    (generateStream "" greetingRequest (.ok ⟨greeting, none⟩)).1, .stays⟩

def greetingFrames : List (Int × Frame) :=
  (sseGenerator (overHttp plainBuiltins "" greetingRequest ⟨greeting, none⟩)).frames.map fun f => (7, f.1)

theorem page_shows_greeting :
    assistantText ((StreamDecoder.start.decodeAll
      (bytewise (sseBody playgroundRequest [] greetingFrames))).map units) = text "Hi" := by
  have hline : ∀ c ∈ greeting, OneLine c := List.forall_mem_cons.mpr
    ⟨oneLine_of_plain "Hi" false _ (by decide), List.forall_mem_singleton.mpr (oneLine_of_plain "" true _ (by decide))⟩
  have hreply : (createChatCompletion plainBuiltins playgroundRequest playgroundRoute greetingBehaviour).reply =
      .stream (greetingFrames.map Prod.snd) := by
    have hroute : useMesh playgroundRoute = none := rfl
    have hstream : playgroundRequest.stream = true := rfl
    have hstays : greetingBehaviour.client = .stays := rfl
    have hhttp : httpStreamed plainBuiltins greetingBehaviour.httpStream =
        overHttp plainBuiltins "" greetingRequest ⟨greeting, none⟩ := rfl
    rw [createChatCompletion, if_pos hstream, completeStream, openInferenceStream, hroute]
    dsimp only
    rw [hstays, hhttp, greetingFrames, List.map_map]
    rfl
  have hsaid : units (transcript [] ⟨(greeting.takeWhile fun c => c.data.isSome).map Chunk.response,
      if (greeting.all fun c => c.data.isSome) && (none : Option Text).isNone then .stopped else .broken⟩) =
        text "Hi" := by decide +kernel
  exact (page_shows_responses plainBuiltins playgroundRequest playgroundRoute greetingBehaviour "" [] greetingRequest
    ⟨greeting, none⟩ greetingFrames _ (scalar_text _) (scalar_text _) scalar_nil rfl rfl rfl rfl hline hreply
    (bytewise_flatten _)).trans hsaid

end PublicIntelligence.System
