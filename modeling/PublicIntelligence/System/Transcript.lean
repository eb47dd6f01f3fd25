import PublicIntelligence.Lib.JsonLines
import PublicIntelligence.Lib.Utf8Stream
import PublicIntelligence.Scheduler.ChatStream
import PublicIntelligence.Website.JsonParse
import PublicIntelligence.Website.Playground
import PublicIntelligence.Website.Units

namespace PublicIntelligence.System

open Text Encoding Json Mesh Scheduler Website

/-- What the requester is told of the end of a stream. -/
def noteOf (complaint : Text) : StreamEnding → Text
  | .stopped => []
  | .dispatchError detail _ => if Scalar detail then Frame.said complaint (.error (some detail)) else []
  | .broken => Frame.said complaint (.error none)
  | .waiting => []

/-- What a stream says: its texts up to one that has no encoding, and how it ended. -/
def transcript (complaint : Text) (s : Streamed) : Text :=
  let sent := s.tokens.takeWhile fun token => decide (Scalar token)
  sent.flatten ++ noteOf complaint (if sent.length < s.tokens.length then .broken else s.ending)

/-- Nothing comes behind the last frame. -/
def DoneLast : List Frame → Prop
  | [] => True
  | f :: fs => (f = .done → fs = []) ∧ DoneLast fs

section
variable {q : Assigned} {complaint : Text}

theorem transcript_nil (ending : StreamEnding) : transcript complaint ⟨[], ending⟩ = noteOf complaint ending := rfl

theorem transcript_cons (h : Scalar token) (rest : List Text) (ending : StreamEnding) :
    transcript complaint ⟨token :: rest, ending⟩ = token ++ transcript complaint ⟨rest, ending⟩ := by
  simp only [transcript, List.takeWhile_cons, h, decide_true, if_true, List.flatten_cons, List.length_cons,
    Nat.add_lt_add_iff_right, List.append_assoc]

theorem transcript_refused (h : ¬ Scalar token) (rest : List Text) (ending : StreamEnding) :
    transcript complaint ⟨token :: rest, ending⟩ = noteOf complaint .broken := by
  simp [transcript, h]

theorem closing_said (o : StreamOutcome) (hf : f ≠ .done) :
    ((closing o f).frames.map Prod.fst).flatMap (Frame.said complaint) = f.said complaint ∧
      DoneLast ((closing o f).frames.map Prod.fst) :=
  ⟨List.append_nil _, fun h => absurd h hf, fun _ => rfl, trivial⟩

theorem relay_spec (complaint : Text) (o : StreamOutcome) (tokens : List Text) (ending : StreamEnding) :
    ((relay o tokens ending).frames.map Prod.fst).flatMap (Frame.said complaint) =
        transcript complaint ⟨tokens, ending⟩ ∧
      DoneLast ((relay o tokens ending).frames.map Prod.fst) := by
  induction tokens generalizing o with
  | nil =>
    rw [transcript_nil]
    cases ending with
    | stopped => exact closing_said o nofun
    | broken => exact closing_said _ nofun
    | waiting => exact ⟨rfl, trivial⟩
    | dispatchError detail status =>
      rw [relay, noteOf]
      split
      · exact closing_said _ nofun
      · exact ⟨rfl, trivial⟩
  | cons token rest ih =>
    unfold relay
    dsimp only
    split
    · rename_i htoken
      obtain ⟨hsaid, hlast⟩ := ih ⟨o.generatedChars + token.length, o.failed⟩
      rw [transcript_cons htoken]
      exact ⟨congrArg (token ++ ·) hsaid, nofun, hlast⟩
    · rename_i htoken
      rw [transcript_refused htoken]
      exact closing_said _ nofun

theorem sseGenerator_spec (complaint : Text) (s : Streamed) :
    ((sseGenerator s).frames.map Prod.fst).flatMap (Frame.said complaint) = transcript complaint s ∧
      DoneLast ((sseGenerator s).frames.map Prod.fst) := by
  obtain ⟨hsaid, hlast⟩ := relay_spec complaint ⟨0, false⟩ s.tokens s.ending
  exact ⟨hsaid, ⟨nofun, hlast⟩⟩

/-- Every frame of a relayed stream can be encoded. -/
theorem relay_encodable (hcomplaint : Scalar complaint) (o : StreamOutcome) (tokens : List Text)
    (ending : StreamEnding) : ∀ f ∈ (relay o tokens ending).frames, f.1.Encodable complaint := by
  have hbroken : Scalar (Frame.said complaint (.error none)) :=
    scalar_append.mpr ⟨scalar_append.mpr ⟨scalar_text _, hcomplaint⟩, scalar_text _⟩
  have hclosing : ∀ (o : StreamOutcome) f, Scalar (f.said complaint) →
      ∀ g ∈ (closing o f).frames, g.1.Encodable complaint := fun o f hf =>
    List.forall_mem_cons.mpr ⟨hf, List.forall_mem_singleton.mpr scalar_nil⟩
  induction tokens generalizing o with
  | nil =>
    cases ending with
    | stopped => exact hclosing _ _ scalar_nil
    | broken => exact hclosing _ _ hbroken
    | waiting => exact fun f hf => absurd hf List.not_mem_nil
    | dispatchError detail status =>
      rw [relay]
      split
      · rename_i hdetail
        exact hclosing _ _ (scalar_append.mpr ⟨scalar_append.mpr ⟨scalar_text _, hdetail⟩, scalar_text _⟩)
      · exact fun f hf => absurd hf List.not_mem_nil
  | cons token rest ih =>
    rw [relay]
    split
    · rename_i htoken
      exact List.forall_mem_cons.mpr ⟨htoken, ih _⟩
    · exact hclosing _ _ hbroken

end

section

theorem lines_event (h : Website.newline ∉ d) (t : Text) :
    lines (text "data: " ++ d ++ text "\n\n" ++ t) = (text "data: " ++ d) :: [] :: lines t := by
  have hlabel : Website.newline ∉ text "data: " := by decide
  have hends : text "\n\n" = [Website.newline, Website.newline] := by decide
  have hfirst : Website.newline ∉ text "data: " ++ d := fun hmem => (List.mem_append.mp hmem).elim hlabel h
  have hempty : split (Website.newline :: t) Website.newline = [] :: split t Website.newline :=
    split_append (a := []) List.not_mem_nil t
  unfold lines splitSseBuffer
  rw [hends, List.append_assoc, List.cons_append, List.cons_append, List.nil_append, split_append hfirst, hempty]
  have hne : split t Website.newline ≠ [] := splitFrom_ne_nil _ _ _
  dsimp only
  rw [List.dropLast_cons_of_ne_nil (List.cons_ne_nil _ _), List.dropLast_cons_of_ne_nil hne]

/-- A text with no white space around it is left as it is. -/
theorem trim_enclosed (hc : isWhiteSpace c = false) (he : isWhiteSpace e = false) (t : Text) :
    trim (c :: t ++ [e]) = c :: t ++ [e] := by
  rw [trim, List.cons_append, List.dropWhile_cons_of_neg (by simp [hc]), ← List.cons_append, List.reverse_append,
    List.reverse_singleton, List.singleton_append, List.dropWhile_cons_of_neg (by simp [he]), List.reverse_cons,
    List.reverse_reverse]

theorem trim_cons (hb : isWhiteSpace b = true) (t : Text) : trim (b :: t) = trim t := by
  rw [trim, List.dropWhile_cons_of_pos hb, trim]

/-- The line of an event is parsed as what the event holds. -/
theorem parseSseLine_event (hc : isWhiteSpace c = false) (he : isWhiteSpace e = false) (t : Text)
    (hdone : c :: t ++ [e] ≠ text "[DONE]") (hparse : jsonParse (c :: t ++ [e]) = some j) :
    parseSseLine (text "data: " ++ (c :: t ++ [e])) = ⟨extractDelta j, false⟩ := by
  have hd : isWhiteSpace (ofChar 'd') = false := by decide
  have hlabel : text "data: " = ofChar 'd' :: text "ata: " := by decide
  have hline : trim (text "data: " ++ (c :: t ++ [e])) = text "data: " ++ (c :: t ++ [e]) := by
    rw [hlabel, ← List.append_assoc]
    exact trim_enclosed hd he (text "ata: " ++ c :: t)
  have hstart : startswith (text "data: " ++ (c :: t ++ [e])) (text "data:") = true :=
    List.isPrefixOf_iff_prefix.mpr ⟨ofChar ' ' :: (c :: t ++ [e]), rfl⟩
  have hrest : trim ((text "data: " ++ (c :: t ++ [e])).drop 5) = c :: t ++ [e] := by
    have hspace : (text "data: " ++ (c :: t ++ [e])).drop 5 = ofChar ' ' :: (c :: t ++ [e]) := rfl
    rw [hspace, trim_cons (by decide), trim_enclosed hc he]
  have hsome : ¬ (text "data: " ++ (c :: t ++ [e]) = [] ∨
      startswith (text "data: " ++ (c :: t ++ [e])) (text "data:") = false) := by
    rw [hstart]
    rintro (h | h)
    · cases h
    · cases h
  unfold parseSseLine
  dsimp only
  rw [hline, if_neg hsome, hrest, if_neg hdone, hparse]

theorem inUnits_orNull (t : Option Text) : inUnits (orNull t) = orNull (t.map units) := by
  cases t with
  | none => rfl
  | some s => rfl

theorem legible_orNull (t : Option Text) : Legible (orNull t) := by
  cases t with
  | none => trivial
  | some s => trivial

theorem asNumbers_orNull (t : Option Text) : asNumbers (orNull t) = orNull t := by
  cases t with
  | none => rfl
  | some s => rfl

/-- A chunk as the page has it. -/
def ofUnits (c : ChatCompletionChunk) : Json :=
  .obj [(text "id", .str (units c.id)), (text "object", .str (text "chat.completion.chunk")),
    (text "created", .int c.created), (text "model", .str (units c.model)),
    (text "choices", .arr [.obj [(text "index", .int 0),
      (text "delta", .obj [(text "role", orNull (c.delta.role.map units)),
        (text "content", orNull (c.delta.content.map units))]),
      (text "finish_reason", orNull (c.finishReason.map units))]])]

theorem inUnits_chunk (c : ChatCompletionChunk) : inUnits c.json = ofUnits c := by
  have hkeys : ∀ k ∈ ["id", "object", "created", "model", "choices", "index", "delta", "role", "content",
      "finish_reason", "chat.completion.chunk"], units (text k) = text k := by decide +kernel
  simp only [List.forall_mem_cons] at hkeys
  simp only [ChatCompletionChunk.json, ChunkDelta.json, ofUnits, inUnits, inUnitsFields, inUnitsItems,
    inUnits_orNull, hkeys]

theorem singleFloats_chunk (c : ChatCompletionChunk) : SingleFloats c.json := by
  have hnull : ∀ t : Option Text, SingleFloats (orNull t) := fun t => by cases t <;> trivial
  simp only [ChatCompletionChunk.json, ChunkDelta.json, SingleFloats, SingleFloatsFields, SingleFloatsItems, hnull,
    and_self]

theorem legible_ofUnits (c : ChatCompletionChunk) : Legible (ofUnits c) := by
  have houter : ["id", "object", "created", "model", "choices"].map text |>.Nodup := by decide +kernel
  have hchoice : ["index", "delta", "finish_reason"].map text |>.Nodup := by decide +kernel
  have hdelta : ["role", "content"].map text |>.Nodup := by decide +kernel
  exact ⟨houter, trivial, trivial, trivial, trivial,
    ⟨⟨hchoice, trivial, ⟨hdelta, legible_orNull _, legible_orNull _, trivial⟩, legible_orNull _, trivial⟩, trivial⟩,
    trivial⟩

theorem extractDelta_ofUnits (c : ChatCompletionChunk) :
    extractDelta (asNumbers (ofUnits c)) = (c.delta.content.map units).getD [] := by
  simp only [ofUnits, asNumbers, asNumbersFields, asNumbersItems, asNumbers_orNull]
  cases hcontent : c.delta.content with
  | none => rfl
  | some t => rfl

theorem parse_chunk (c : ChatCompletionChunk) :
    parseSseLine (units (text "data: " ++ write .raw c.json)) = ⟨(c.delta.content.map units).getD [], false⟩ := by
  have hlabel : units (text "data: ") = text "data: " := units_single (by decide)
  rw [units_append, hlabel, units_write _ (singleFloats_chunk c), inUnits_chunk]
  have hparse := jsonParse_write (legible_ofUnits c)
  obtain ⟨t, ht⟩ : ∃ t, write .raw (ofUnits c) = ofChar '{' :: t ++ [ofChar '}'] := write_obj_enclosed .raw _
  rw [ht] at hparse ⊢
  rw [parseSseLine_event (by decide) (by decide) t (fun h => absurd (List.cons.inj h).1 (by decide)) hparse,
    extractDelta_ofUnits]

/-- A text that says nothing behind its end may come in any reads. -/
theorem quiet_of_silent {reads : List Text}
    (h : ∀ line ∈ (lines reads.flatten).dropWhile fun line => !(parseSseLine line).done,
      (parseSseLine line).delta = []) : Quiet reads := by
  rintro before value after rfl hfin line hline
  refine h line ?_
  have hall : (before ++ value :: after).flatten = before.flatten ++ value ++ after.flatten := by simp
  have hne : ((lines before.flatten).dropWhile fun line => !(parseSseLine line).done) ≠ [] := by
    intro hnone
    obtain ⟨l, hl, hdone⟩ := List.any_eq_true.mp hfin
    have hgo := List.dropWhile_eq_nil_iff.mp hnone l hl
    rw [hdone] at hgo
    cases hgo
  rw [hall, (lines_append _ after.flatten).1, (lines_append before.flatten value).1, List.append_assoc,
    List.dropWhile_append, if_neg (by simpa using hne)]
  exact List.mem_append_right _ (List.mem_append_left _ ((List.takeWhile_prefix _).subset hline))

section
variable {q : Assigned} {complaint : Text}

theorem numerals_ofUnits (c : ChatCompletionChunk) : Numerals (ofUnits c) := by
  have hnull : ∀ t : Option Text, Numerals (orNull t) := fun t => by cases t <;> trivial
  simp only [ofUnits, Numerals, NumeralsFields, NumeralsItems, hnull, and_self]

theorem event_chunk (c : ChatCompletionChunk) :
    ∃ d, units (sseEvent (write .raw c.json)) = text "data: " ++ d ++ text "\n\n" ∧ Website.newline ∉ d ∧
      parseSseLine (text "data: " ++ d) = ⟨(c.delta.content.map units).getD [], false⟩ := by
  have hlabel : units (text "data: ") = text "data: " := units_single (by decide)
  have hends : units (text "\n\n") = text "\n\n" := units_single (by decide)
  have hparse := parse_chunk c
  have hline := newline_write .raw (numerals_ofUnits c)
  rw [← inUnits_chunk, ← units_write _ (singleFloats_chunk c)] at hline
  rw [units_append, hlabel] at hparse
  exact ⟨_, by rw [sseEvent, units_append, units_append, hlabel, hends], hline, hparse⟩

/-- What the page makes of a frame. -/
theorem event_spec (q : Assigned) (complaint : Text) (created : Int) (f : Frame) :
    ∃ d, units (f.event q complaint created) = text "data: " ++ d ++ text "\n\n" ∧ Website.newline ∉ d ∧
      parseSseLine (text "data: " ++ d) = ⟨units (f.said complaint), decide (f = .done)⟩ := by
  cases f with
  | role => exact event_chunk _
  | content t => exact event_chunk _
  | error detail => exact event_chunk _
  | stop => exact event_chunk _
  | done =>
    have hdata : units (text "data: [DONE]\n\n") = text "data: " ++ text "[DONE]" ++ text "\n\n" := by decide +kernel
    have hparse : parseSseLine (text "data: " ++ text "[DONE]") = ⟨[], true⟩ := by decide +kernel
    exact ⟨text "[DONE]", hdata, by decide, hparse⟩

/-- The page is told what the frames say, and nothing behind the last of them. -/
theorem told_body (q : Assigned) (complaint : Text) (frames : List (Int × Frame)) (h : DoneLast (frames.map Prod.snd)) :
    told (units (sseBody q complaint frames)) = units ((frames.map Prod.snd).flatMap (Frame.said complaint)) ∧
      ∀ line ∈ (lines (units (sseBody q complaint frames))).dropWhile fun line => !(parseSseLine line).done,
        (parseSseLine line).delta = [] := by
  induction frames with
  | nil => exact ⟨rfl, fun line hline => absurd hline List.not_mem_nil⟩
  | cons f fs ih =>
    obtain ⟨created, f⟩ := f
    obtain ⟨d, hevent, hnewline, hparse⟩ := event_spec q complaint created f
    have hlines : lines (units (sseBody q complaint ((created, f) :: fs))) =
        (text "data: " ++ d) :: [] :: lines (units (sseBody q complaint fs)) := by
      rw [sseBody, List.flatMap_cons, units_append, hevent, lines_event hnewline]
      rfl
    obtain ⟨htold, hsilent⟩ := ih h.2
    unfold told at htold ⊢
    rw [hlines, List.map_cons, List.flatMap_cons, units_append, ← htold]
    by_cases hdone : f = .done
    · obtain rfl : fs = [] := List.map_eq_nil_iff.mp (h.1 hdone)
      subst hdone
      have hnone : lines (units (sseBody q complaint [])) = [] := rfl
      rw [hnone]
      have hstop : (!(parseSseLine (text "data: " ++ d)).done) = false := by rw [hparse]; rfl
      refine ⟨?_, ?_⟩
      · rw [beforeDone, List.takeWhile_cons_of_neg (p := fun line => !(parseSseLine line).done) (by rw [hstop]; decide)]
        rfl
      · rw [List.dropWhile_cons_of_neg (p := fun line => !(parseSseLine line).done) (by rw [hstop]; decide)]
        refine List.forall_mem_cons.mpr ⟨?_, List.forall_mem_singleton.mpr rfl⟩
        rw [hparse]
        rfl
    · have hgo : (!(parseSseLine (text "data: " ++ d)).done) = true := by
        rw [hparse]
        exact congrArg (!·) (decide_eq_false hdone)
      have hblank : (!(parseSseLine []).done) = true := rfl
      refine ⟨?_, ?_⟩
      · rw [beforeDone, List.takeWhile_cons_of_pos (p := fun line => !(parseSseLine line).done) hgo,
          List.takeWhile_cons_of_pos (p := fun line => !(parseSseLine line).done) hblank, content,
          List.flatMap_cons, List.flatMap_cons, hparse]
        rfl
      · rw [List.dropWhile_cons_of_pos (p := fun line => !(parseSseLine line).done) hgo,
          List.dropWhile_cons_of_pos (p := fun line => !(parseSseLine line).done) hblank]
        exact hsilent

/-- The page shows what the frames say, however their bytes come in. -/
theorem page_shows_frames (hid : Scalar q.taskId) (hmodel : Scalar q.model) {frames : List (Int × Frame)}
    (hf : ∀ f ∈ frames, f.2.Encodable complaint) (hlast : DoneLast (frames.map Prod.snd)) {chunks : List Bytes}
    (hchunks : chunks.flatten = (sseBody q complaint frames).flatMap encodePoint) :
    assistantText ((StreamDecoder.start.decodeAll chunks).map units) =
      units ((frames.map Prod.snd).flatMap (Frame.said complaint)) := by
  have hbom : (sseBody q complaint frames).head? ≠ some 0xfeff := by
    cases frames with
    | nil => exact nofun
    | cons f fs =>
      have hlabel : text "data: " = ofChar 'd' :: text "ata: " := by decide
      rw [sseBody, List.flatMap_cons, Frame.event, sseEvent, hlabel]
      exact fun h => absurd (Option.some.inj h) (by decide)
  have hread := decodeAll_encode (scalar_sseBody hid hmodel hf) hbom hchunks
  obtain ⟨htold, hsilent⟩ := told_body q complaint frames hlast
  have hflat : ((StreamDecoder.start.decodeAll chunks).map units).flatten = units (sseBody q complaint frames) := by
    rw [← units_flatten, hread]
  rw [← hflat] at hsilent
  rw [(assistantText_told_iff _).mpr (quiet_of_silent hsilent), hflat, htold]

/-- What the page shows of a stream that is relayed to its end. -/
theorem page_shows_stream (s : Streamed) (hid : Scalar q.taskId) (hmodel : Scalar q.model)
    (hcomplaint : Scalar complaint) {timed : List (Int × Frame)}
    (htimed : timed.map Prod.snd = (sseGenerator s).frames.map Prod.fst) {chunks : List Bytes}
    (hchunks : chunks.flatten = (sseBody q complaint timed).flatMap encodePoint) :
    assistantText ((StreamDecoder.start.decodeAll chunks).map units) = units (transcript complaint s) := by
  obtain ⟨hsaid, hlast⟩ := sseGenerator_spec complaint s
  have hf : ∀ f ∈ timed, f.2.Encodable complaint := by
    intro f hf
    have hmem : f.2 ∈ (sseGenerator s).frames.map Prod.fst := htimed ▸ List.mem_map_of_mem hf
    obtain ⟨g, hg, hgf⟩ := List.mem_map.mp hmem
    rcases List.mem_cons.mp hg with rfl | hg
    · rw [← hgf]
      exact scalar_nil
    · rw [← hgf]
      exact relay_encodable hcomplaint _ _ _ g hg
  rw [← htimed] at hsaid hlast
  rw [page_shows_frames hid hmodel hf hlast hchunks, hsaid]

end

/-- From the gateway to the page: where a streamed request is not left, the page shows what the stream said,
wherever the network cuts the bytes of the answer. -/
theorem page_shows_transcript (py : Builtins) (q : Assigned) (r : Route) (b : Behaviour) (complaint : Text)
    (s : Streamed) (timed : List (Int × Frame)) (chunks : List Bytes) (hid : Scalar q.taskId) (hmodel : Scalar q.model)
    (hcomplaint : Scalar complaint) (hstream : q.stream = true) (hstays : b.client = .stays)
    (hopen : openInferenceStream py r b.mesh.queue b.httpStream = .ok s)
    (hreply : (createChatCompletion py q r b).reply = .stream (timed.map Prod.snd))
    (hchunks : chunks.flatten = (sseBody q complaint timed).flatMap encodePoint) :
    assistantText ((StreamDecoder.start.decodeAll chunks).map units) = units (transcript complaint s) := by
  refine page_shows_stream s hid hmodel hcomplaint ?_ hchunks
  rw [createChatCompletion, if_pos hstream, completeStream, hopen] at hreply
  dsimp only at hreply
  rw [hstays] at hreply
  exact (Reply.stream.inj hreply).symm

/-- A request of the playground's for a node that is asked over HTTP. -/
def playgroundRequest : Assigned :=
  ⟨text "chatcmpl-7", .str (text "playground"), ⟨text "node-7", 24, 64⟩, text "10.0.0.7", text "llama3",
    text "User: hello", true, 0⟩

def playgroundRoute : Route := ⟨none, true, false, none, none, 8001⟩

/-- The node answers `Hi` and a line end. -/
def hiBehaviour : Behaviour := ⟨⟨[], false, 0⟩, .ok none, .ok true [text "Hi", text "\n"], .stays⟩

def hiFrames : List (Int × Frame) := [(7, .role), (7, .content (text "Hi")), (8, .stop), (8, .done)]

/-- The answer comes in one byte a read. -/
def bytewise (t : Text) : List Bytes := (t.flatMap encodePoint).map fun b => [b]

theorem bytewise_flatten (t : Text) : (bytewise t).flatten = t.flatMap encodePoint := by
  rw [bytewise, ← List.flatMap_def, List.flatMap_singleton']

theorem page_shows_hi :
    assistantText ((StreamDecoder.start.decodeAll (bytewise (sseBody playgroundRequest [] hiFrames))).map units) =
      units (transcript [] ⟨[text "Hi"], .stopped⟩) := by
  have hopen : openInferenceStream ⟨fun _ => [], fun _ => none⟩ playgroundRoute hiBehaviour.mesh.queue
      hiBehaviour.httpStream = .ok ⟨[text "Hi"], .stopped⟩ := by decide +kernel
  exact page_shows_transcript ⟨fun _ => [], fun _ => none⟩ playgroundRequest playgroundRoute hiBehaviour [] _ hiFrames _
    (scalar_text _) (scalar_text _) scalar_nil rfl rfl hopen rfl (bytewise_flatten _)

end
end PublicIntelligence.System
