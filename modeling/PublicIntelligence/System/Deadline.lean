import PublicIntelligence.Node.Ollama
import PublicIntelligence.Scheduler.NodeDispatch

namespace PublicIntelligence.System

open Text Json Mesh Node Scheduler MeshInferenceClient

/-- What `infer_once` owes its caller for the node's reply: the answer, or the
node's own error. -/
def surfaced : Except MeshError (Text × Text) → Except DispatchError (Text × Text)
  | .ok answer => .ok answer
  | .error (.node message status) => .error (.dispatch message status)
  | .error _ => .error .unexpected

section
variable (py : Builtins) (r : Route) (c : MeshInferenceClient) (t : Target) (http : HttpAnswer)

/-- A node that received the prompt over the mesh at second 0 and replies `b` at
second `delay`: the reply reaches the caller, and the prompt went out once. -/
def Served (delay : ℚ) (b : Bytes) (fields : Fields) : Prop :=
  c.infer py t.model (c.singleReply delay (some b)) = answerOf py t.model fields ∧
    (inferOnce py r t (c.singleReply delay (some b)) http).result =
      surfaced (answerOf py t.model fields) ∧
    (inferOnce py r t (c.singleReply delay (some b)) http).handed = [handMesh r t]

theorem infer_single (model : Text) (hs : c.session = .opened) (hd : delay ≤ c.timeout)
    (hb : decodeReply b = some fields) :
    c.infer py model (c.singleReply delay (some b)) =
      if delay < c.firstReplyTimeout then answerOf py model fields
      else .error (.unavailable .timedOut) := by
  have hreply : drained (some b) = .reply fields := by rw [drained, hb]
  simp only [infer, startQuery, hs, singleReply, if_pos hd, firstReply, hreply]
  split <;> rfl

variable {r c t}

/-- A reply is never taken for the node being unavailable. -/
theorem answerOf_available (model : Text) (fields : Fields) (why : Unavailable) :
    answerOf py model fields ≠ .error (.unavailable why) := by
  unfold answerOf nodeError
  repeat' split
  all_goals exact nofun

theorem inferOnce_answered (hm : useMesh r = some c) (hs : c.session = .opened)
    (hi : c.infer py t.model queue = answerOf py t.model fields) :
    inferOnce py r t queue http = ⟨[handMesh r t], surfaced (answerOf py t.model fields)⟩ := by
  have hne := answerOf_available py t.model fields
  unfold inferOnce
  rw [hm]
  simp only [hs, if_true, hi]
  cases ha : answerOf py t.model fields with
  | ok answer => rfl
  | error e =>
    cases e with
    | node message status => rfl
    | badStatus => rfl
    | unavailable why => exact absurd ha (hne why)

/-- After a timeout the same prompt goes out a second time, over HTTP. -/
theorem inferOnce_timedOut (hm : useMesh r = some c) (hs : c.session = .opened)
    (hi : c.infer py t.model queue = .error (.unavailable .timedOut)) :
    (inferOnce py r t queue http).handed = [handMesh r t, handHttp r t] := by
  unfold inferOnce
  rw [hm]
  simp only [hs, if_true, hi]
  rfl

end

/-- Within the query's own timeout, a reply is used exactly when it comes before
the timeout for the first reply: for a completion, its first reply is its only one. -/
theorem served_iff {py : Builtins} {r : Route} {c : MeshInferenceClient} {t : Target}
    {http : HttpAnswer} {delay : ℚ} {b : Bytes} {fields : Fields} (hm : useMesh r = some c)
    (hs : c.session = .opened) (hd : delay ≤ c.timeout) (hb : decodeReply b = some fields) :
    Served py r c t http delay b fields ↔ delay < c.firstReplyTimeout := by
  have hinfer := infer_single py c t.model hs hd hb
  constructor
  · rintro ⟨hi, _⟩
    by_contra hlate
    rw [if_neg hlate] at hinfer
    exact answerOf_available py t.model fields .timedOut (hi.symm.trans hinfer)
  · intro hearly
    rw [if_pos hearly] at hinfer
    have honce := inferOnce_answered py http hm hs hinfer
    exact ⟨hinfer, by rw [honce], by rw [honce]⟩

/-- The node's only reply to a completion can be read. -/
theorem serveOnce_decodes (complaint : String) (hm : Scalar model) (hr : Scalar response) :
    ∃ b fields, serveOnce complaint (.ok ⟨model, response⟩) = [b] ∧ decodeReply b = some fields := by
  obtain ⟨b, hb, hd⟩ := decode_encodeResult hm hr
  refine ⟨b, _, ?_, hd⟩
  unfold serveOnce
  simp only [hb]

def defaultClient : MeshInferenceClient := ⟨.opened, defaultTimeout, defaultFirstReplyTimeout⟩

def meshRoute : Route := ⟨some defaultClient, true, true, some (text "token"), none, 8001⟩

def greetingTarget : Target := ⟨text "n1", text "127.0.0.1", text "llama3", text "hello"⟩

theorem served_in_three_seconds : ∃ b fields,
    serveOnce "" (.ok ⟨text "llama3", text "Hi"⟩) = [b] ∧ decodeReply b = some fields ∧
    (Served ⟨fun _ => [], fun _ => none⟩ meshRoute defaultClient greetingTarget (.ok none) 3 b fields ↔
      (3 : ℚ) < defaultFirstReplyTimeout) := by
  obtain ⟨b, fields, hb, hd⟩ := serveOnce_decodes "" (scalar_text "llama3") (scalar_text "Hi")
  exact ⟨b, fields, hb, hd, served_iff rfl rfl (by decide +kernel) hd⟩

/-- A completion that takes ten seconds of the two minutes it has: the reply is
lost, and the node is handed the prompt a second time while it is still serving. -/
theorem served_twice_in_ten_seconds :
    ¬ ∀ (py : Builtins) (r : Route) (c : MeshInferenceClient) (t : Target) (http : HttpAnswer)
      (delay : ℚ) (b : Bytes) (fields : Fields), useMesh r = some c → c.session = .opened →
      delay ≤ c.timeout → decodeReply b = some fields →
      c.infer py t.model (c.singleReply delay (some b)) = answerOf py t.model fields ∧
      handHttp r t ∉ (inferOnce py r t (c.singleReply delay (some b)) http).handed := by
  intro h
  obtain ⟨b, fields, _, hd⟩ := serveOnce_decodes "" (scalar_text "llama3") (scalar_text "Hi")
  have hten : (10 : ℚ) ≤ defaultClient.timeout := by decide +kernel
  obtain ⟨_, hh⟩ := h ⟨fun _ => [], fun _ => none⟩ meshRoute defaultClient greetingTarget (.ok none)
    10 b fields rfl rfl hten hd
  have hinfer := infer_single ⟨fun _ => [], fun _ => none⟩ defaultClient greetingTarget.model rfl
    hten hd
  rw [if_neg (by decide +kernel)] at hinfer
  rw [inferOnce_timedOut _ _ rfl rfl hinfer] at hh
  exact hh (List.mem_cons_of_mem _ List.mem_cons_self)

end PublicIntelligence.System
