import PublicIntelligence.System.Recording

namespace PublicIntelligence.System

open Text Json Mesh Scheduler MeshInferenceClient Recording

namespace Failures

/-- `infer_once` returned an answer, or raised `NodeDispatchError` with an error status. -/
def Clean : Except DispatchError (Text × Text) → Prop
  | .ok _ => True
  | .error (.dispatch _ status) => 400 ≤ status
  | .error .unexpected => False

section
variable (py : Builtins)

/-- A mesh reply that is no error, or one whose status is an error status. -/
def ErrorStatus (fields : Fields) : Prop :=
  isOk fields = true ∨ ∃ status, py.intOf ((get? fields "status").getD (.int 500)) = some status ∧ 400 ≤ status

/-- A POST that ends in a `RequestError`, in an error status, or in a JSON object. -/
def ErrorAnswer : HttpAnswer → Prop
  | .requestError _ => True
  | .raised => False
  | .failed status _ => 400 ≤ status
  | .ok body => ∃ data, body = some (.obj data)

/-- What the node answers: over the mesh if it does so in time, otherwise to the POST. -/
def AnswersClearly (r : Route) (queue : List (ℚ × Item)) (http : HttpAnswer) : Prop :=
  match meshReply r queue with
  | some (fields, _) => ErrorStatus py fields
  | none => ErrorAnswer http

/-- The streaming POST yields no token and does not end well. -/
def FailsOverHttp : HttpStreamAnswer → Prop
  | .raised => True
  | .failed _ _ => True
  | .ok clean frames => (httpStream py clean frames).tokens = [] ∧ (httpStream py clean frames).ending ≠ .stopped

/-- The node fails before its first token. -/
def FailsFirst (r : Route) (b : Behaviour) : Prop :=
  Refuses r b ∨ meshReply r b.mesh.queue = none ∧ FailsOverHttp py b.httpStream

/-- Opening the stream raises `NodeDispatchError`, and the requester is answered with its status. -/
def FailsEagerly (q : Assigned) (r : Route) (b : Behaviour) : Prop :=
  ∃ detail status, openInferenceStream py r b.mesh.queue b.httpStream = .error (.dispatch detail status) ∧
    400 ≤ status ∧ (createChatCompletion py q r b).reply = .httpException status detail

end

section
variable {py : Builtins} {q : Assigned} {r : Route} {b : Behaviour}

theorem clean_surfaced (model : Text) (fields : Fields) :
    Clean (surfaced (answerOf py model fields)) ↔ ErrorStatus py fields := by
  unfold answerOf ErrorStatus nodeError
  cases isOk fields with
  | true => exact iff_of_true trivial (.inl rfl)
  | false =>
    rw [if_neg Bool.false_ne_true, or_iff_right Bool.false_ne_true]
    cases py.intOf ((get? fields "status").getD (.int 500)) with
    | none => simp [surfaced, Clean]
    | some status => simp [surfaced, Clean]

theorem clean_httpInferOnce (model : Text) (http : HttpAnswer) :
    Clean (httpInferOnce py model http) ↔ ErrorAnswer http := by
  cases http with
  | requestError message => exact iff_of_true (by simp [httpInferOnce, Clean]) trivial
  | raised => exact Iff.rfl
  | failed status body => simp [httpInferOnce, Clean, ErrorAnswer]
  | ok body =>
    cases body with
    | none => simp [httpInferOnce, Clean, ErrorAnswer]
    | some json => cases json <;> simp [httpInferOnce, Clean, ErrorAnswer]

end

section
variable {py : Builtins} {q : Assigned} {r : Route} {b : Behaviour}

/-- What raises when the stream is opened reaches the requester as an error status. -/
theorem reply_of_openInferenceStream (hq : q.stream = true)
    (h : openInferenceStream py r b.mesh.queue b.httpStream = .error (.dispatch detail status)) :
    (createChatCompletion py q r b).reply = .httpException status detail := by
  rw [createChatCompletion, if_pos hq, completeStream, h]

theorem not_failsEagerly (h : openInferenceStream py r b.mesh.queue b.httpStream = .error .unexpected) :
    ¬ FailsEagerly py q r b := by
  rintro ⟨detail, status, h', _⟩
  cases h.symm.trans h'

theorem openWith_error (h : isOk fields = false) (queue : List Item) :
    openWith py fields queue = .error (nodeError py fields) := by
  rw [openWith, h, Bool.not_false, if_pos rfl]

theorem openWith_empty (hok : isOk fields = true) (hdone : isDone fields = false)
    (hchunk : (get? fields "chunk").getD .null = .null) (queue : List Item) :
    openWith py fields queue = .error (.node (text "Node sent a reply with no content.") 502) := by
  rw [openWith, hok, hdone, hchunk]
  rfl

end

theorem meshReply_of_firstReply {c : MeshInferenceClient} (hm : useMesh r = some c) (hs : c.session = .opened)
    (hf : c.firstReply queue = .ok reply) : meshReply r queue = some reply := by
  rw [meshReply, hm, Option.bind_some, if_pos hs, hf]

/-- A stream that cannot start fails before it starts exactly if the failure is a mesh reply: one with
no content, or an error with an error status. Over HTTP every failure waits for the first iteration. -/
theorem fails_eagerly_iff {py : Builtins} {q : Assigned} {r : Route} {b : Behaviour} (hq : q.stream = true)
    (hfails : FailsFirst py r b) :
    FailsEagerly py q r b ↔ ∃ fields rest, meshReply r b.mesh.queue = some (fields, rest) ∧ ErrorStatus py fields := by
  have hopen := @openInferenceStream_eq py r b.mesh.queue b.httpStream
  rcases hfails with ⟨fields, rest, hreply, hrefuses⟩ | ⟨hreply, _⟩
  · rw [hreply] at hopen ⊢
    have hanswer : (∃ fields' rest', some (fields, rest) = some (fields', rest') ∧ ErrorStatus py fields') ↔
        ErrorStatus py fields := by simp
    rw [hanswer]
    cases hok : isOk fields with
    | true =>
      obtain ⟨hdone, hchunk⟩ := hrefuses.resolve_left fun h => Bool.false_ne_true (h.symm.trans hok)
      have hraised := hopen.trans (congrArg (opened py) (openWith_empty hok hdone hchunk _))
      exact iff_of_true ⟨_, 502, hraised, by decide, reply_of_openInferenceStream hq hraised⟩ (.inl hok)
    | false =>
      have hraised := hopen.trans (congrArg (opened py) (openWith_error hok _))
      rw [ErrorStatus, hok, or_iff_right Bool.false_ne_true]
      unfold nodeError at hraised
      cases hint : py.intOf ((get? fields "status").getD (.int 500)) with
      | none =>
        rw [hint] at hraised
        exact iff_of_false (not_failsEagerly hraised) (by simp)
      | some status =>
        rw [hint] at hraised
        constructor
        · rintro ⟨detail, status', h, hle, _⟩
          cases hraised.symm.trans h
          exact ⟨status, rfl, hle⟩
        · rintro ⟨_, h, hle⟩
          cases h
          exact ⟨_, status, hraised, hle, reply_of_openInferenceStream hq hraised⟩
  · rw [hreply] at hopen ⊢
    refine iff_of_false ?_ (by simp)
    rintro ⟨detail, status, h, _⟩
    cases hopen.symm.trans h

def streamedGreeting : Assigned := { greetingRequest with stream := true }

/-- A node that replies over the mesh, after a second, that it has no such model. -/
def missingModel : Behaviour := { plainText with mesh := ⟨[(1, encodeError (text "not found") 404)], false, 2⟩ }

theorem missing_model_fails_eagerly : FailsFirst ⟨fun _ => [], fun _ => none⟩ meshRoute missingModel ∧
    (FailsEagerly ⟨fun _ => [], fun _ => none⟩ streamedGreeting meshRoute missingModel ↔
      ∃ fields rest, meshReply meshRoute missingModel.mesh.queue = some (fields, rest) ∧ ErrorStatus ⟨fun _ => [], fun _ => none⟩ fields) := by
  obtain ⟨b, hb⟩ : ∃ b, encodeError (text "not found") 404 = some b := pack_total (by decide +kernel)
  have hqueue : missingModel.mesh.queue = [(1, drained (some b)), (2, .finished)] := by
    rw [← hb]
    rfl
  have htime : (1 : ℚ) < defaultFirstReplyTimeout := by decide +kernel
  have hreply : meshReply meshRoute missingModel.mesh.queue = some (envelope [("ok", .bool false),
      ("status", .int 404), ("error", .str (joined (text "not found")))], [(2, .finished)]) := by
    refine meshReply_of_firstReply (c := defaultClient) rfl rfl ?_
    rw [hqueue, drained, decode_encodeError hb, firstReply]
    exact if_pos htime
  have hfails : FailsFirst ⟨fun _ => [], fun _ => none⟩ meshRoute missingModel :=
    .inl ⟨_, _, hreply, .inl rfl⟩
  exact ⟨hfails, fails_eagerly_iff rfl hfails⟩

/-- Over HTTP an unreachable node is a 200 whose body breaks off. -/
theorem unreachable_node_streams :
    ¬ ∀ (py : Builtins) (q : Assigned) (r : Route) (b : Behaviour), q.stream = true → FailsFirst py r b →
      FailsEagerly py q r b := by
  intro h
  obtain ⟨detail, status, hopen, _⟩ :=
    h ⟨fun _ => [], fun _ => none⟩ streamedGreeting ⟨none, true, false, none, none, 8001⟩ plainText rfl (.inr ⟨rfl, trivial⟩)
  cases hopen

end Failures
end PublicIntelligence.System
