import PublicIntelligence.Scheduler.Gateway
import PublicIntelligence.System.Deadline

namespace PublicIntelligence.System

open Text Json Mesh Scheduler MeshInferenceClient

namespace Recording

/-- The first reply over the mesh, and what is left on the queue, if the mesh is used and there is
one in time. -/
def meshReply (r : Route) (queue : List (ℚ × Item)) : Option (Fields × List (ℚ × Item)) :=
  (useMesh r).bind fun c =>
    if c.session = .opened then
      match c.firstReply queue with
      | .ok reply => some reply
      | .error _ => none
    else none

/-- The requester was handed the last frame. -/
def TakesAll (s : Streamed) : Client → Prop
  | .stays => True
  | .leaves n => s.tokens.length + 3 ≤ n
  | .gone => False

section
variable (py : Builtins) (q : Assigned) (r : Route) (b : Behaviour)

/-- The completion finished: the requester gets one for a reply, and one that is streamed has come
to its end and has been taken to it. -/
def Complete : Prop :=
  if q.stream then
    ∃ s, openInferenceStream py r b.mesh.queue b.httpStream = .ok s ∧ s.ending = .stopped ∧ TakesAll s b.client
  else ∃ generatedText promptTokens completionTokens,
    (completeOnce py q r b).reply = .completion generatedText promptTokens completionTokens

/-- Exactly one usage record of the request is written, it says that the request succeeded only
if it is complete, and nothing is credited unless it is. -/
structure MeteredOnce (complete : Prop) (s t : Accounting γ) : Prop where
  once : ∃ row, t.store.working.usage = s.store.working.usage ++ [row] ∧
    row.1.requestId = q.taskId ∧ row.1.nodeId = q.node.nodeId ∧ (row.1.succeeded → complete)
  kept : t.store = .opened t.store.working
  uncredited : ¬ complete → t.ledger = s.ledger ∧ t.store.working.accounts = s.store.working.accounts

/-- A mesh reply that is a result, or an error whose status `int()` takes. -/
def ReadableStatus (fields : Fields) : Prop :=
  isOk fields = true ∨ (py.intOf ((get? fields "status").getD (.int 500))).isSome

/-- A POST that ends in a `RequestError`, in a status that is not 200, or in a JSON object. -/
def ReadableAnswer : HttpAnswer → Prop
  | .requestError _ => True
  | .raised => False
  | .failed _ _ => True
  | .ok body => ∃ data, body = some (.obj data)

/-- What the node's first answer must be for the dispatch to raise nothing but `NodeDispatchError`. -/
def Dispatches : Prop :=
  match meshReply r b.mesh.queue with
  | some (fields, _) => ReadableStatus py fields
  | none => q.stream ∨ ReadableAnswer b.http

/-- The first mesh reply to a streaming request holds no stream: an error, or nothing. -/
def Refuses : Prop :=
  ∃ fields rest, meshReply r b.mesh.queue = some (fields, rest) ∧
    (isOk fields = false ∨ isDone fields = false ∧ (get? fields "chunk").getD .null = .null)

/-- The text that an answer in one piece gives. -/
def responseText (fields : Fields) : Text := py.strOf ((get? fields "response").getD (.str []))

/-- The text of the node's first answer, where it is a result, has no lone surrogate. -/
def Utters : Prop :=
  match meshReply r b.mesh.queue with
  | some (fields, _) => isOk fields = true → Scalar (responseText py fields)
  | none => ∀ data, b.http = .ok (some (.obj data)) → Scalar (responseText py data)

/-- The texts of the usage record can be stored. -/
def Bookable : Prop :=
  (∃ tenant, q.tenantId = .str tenant ∧ Scalar tenant) ∧ Scalar q.taskId ∧ Scalar q.node.nodeId ∧ Scalar q.model

/-- The record can be stored and the query encoded, the dispatch raises nothing unforeseen, whoever
asked for a stream that opens asks for its first frame, and what is not streamed can be sent on. -/
structure Accountable : Prop where
  bookable : Bookable q
  encodable : unencodable q r = false
  dispatched : Dispatches py q r b ∧ (q.stream = true → b.client = .gone → Refuses r b)
  sendable : q.stream = false → Utters py r b

end

section
variable {py : Builtins} {q : Assigned} {r : Route} {b : Behaviour}

theorem firstReply_error {c : MeshInferenceClient} (h : c.firstReply queue = .error e) :
    ∃ why, e = .unavailable why := by
  unfold MeshInferenceClient.firstReply at h
  split at h
  · cases h
    exact ⟨_, rfl⟩
  · split at h
    · rename_i item _ _
      cases item with
      | finished =>
        cases h
        exact ⟨_, rfl⟩
      | failure why =>
        cases h
        exact ⟨_, rfl⟩
      | reply fields => cases h
    · cases h
      exact ⟨_, rfl⟩

theorem firstReply_ok {c : MeshInferenceClient} (h : c.firstReply queue = .ok (fields, rest)) :
    ∃ arrival, queue = (arrival, .reply fields) :: rest := by
  unfold MeshInferenceClient.firstReply at h
  split at h
  · cases h
  · split at h
    · rename_i arrival item _ _
      cases item with
      | finished => cases h
      | failure why => cases h
      | reply fields =>
        cases h
        exact ⟨arrival, rfl⟩
    · cases h

/-- `infer_once` answers what the first mesh reply says, and asks over HTTP where there is none. -/
theorem inferOnce_result (t : Target) (queue : List (ℚ × Item)) (http : HttpAnswer) :
    (inferOnce py r t queue http).result =
      match meshReply r queue with
      | some (fields, _) => surfaced (answerOf py t.model fields)
      | none => httpInferOnce py t.model http := by
  unfold meshReply
  cases hm : useMesh r with
  | none =>
    unfold inferOnce
    rw [hm]
    rfl
  | some c =>
    have hunavailable : ∀ why, c.infer py t.model queue = .error (.unavailable why) →
        (inferOnce py r t queue http).result = httpInferOnce py t.model http := by
      intro why hi
      unfold inferOnce
      rw [hm]
      simp only [hi]
    rw [Option.bind_some]
    cases hs : c.session with
    | absent => exact hunavailable .noSession (by rw [MeshInferenceClient.infer, startQuery, hs]; rfl)
    | refusing => exact hunavailable .notSent (by rw [MeshInferenceClient.infer, startQuery, hs]; rfl)
    | opened =>
      rw [if_pos rfl]
      cases hf : c.firstReply queue with
      | error e =>
        obtain ⟨why, rfl⟩ := firstReply_error hf
        exact hunavailable why (by rw [MeshInferenceClient.infer, startQuery, hs, hf]; rfl)
      | ok reply =>
        have hi : c.infer py t.model queue = answerOf py t.model reply.1 := by
          rw [MeshInferenceClient.infer, startQuery, hs, hf]
          rfl
        rw [inferOnce_answered py http hm hs hi]

/-- What `open_inference_stream` makes of how opening a mesh stream went. -/
def opened (py : Builtins) : Except MeshError MeshStream → Except DispatchError Streamed
  | .ok stream => .ok (iterateMeshStream (stream.iterate py))
  | .error (.node message status) => .error (.dispatch message status)
  | .error _ => .error .unexpected

theorem openWith_available (fields : Fields) (queue : List Item) (why : Unavailable) :
    openWith py fields queue ≠ .error (.unavailable why) := by
  unfold openWith nodeError
  repeat' split
  all_goals exact nofun

theorem openInferenceStream_eq (queue : List (ℚ × Item)) (http : HttpStreamAnswer) :
    openInferenceStream py r queue http =
      match meshReply r queue with
      | some (fields, rest) => opened py (openWith py fields (rest.map Prod.snd))
      | none => .ok (httpStreamed py http) := by
  unfold openInferenceStream meshReply
  cases hm : useMesh r with
  | none => rfl
  | some c =>
    rw [Option.bind_some]
    dsimp only
    cases hs : c.session with
    | absent =>
      have ho : c.openStream py queue = .error (.unavailable .noSession) := by
        rw [MeshInferenceClient.openStream, startQuery, hs]
        rfl
      rw [ho]
      rfl
    | refusing =>
      have ho : c.openStream py queue = .error (.unavailable .notSent) := by
        rw [MeshInferenceClient.openStream, startQuery, hs]
        rfl
      rw [ho]
      rfl
    | opened =>
      have ho : c.openStream py queue = (c.firstReply queue).bind fun reply =>
          openWith py reply.1 (reply.2.map Prod.snd) := by
        rw [MeshInferenceClient.openStream, startQuery, hs]
        rfl
      rw [if_pos rfl, ho]
      cases hf : c.firstReply queue with
      | error e =>
        obtain ⟨why, rfl⟩ := firstReply_error hf
        rfl
      | ok reply =>
        obtain ⟨fields, rest⟩ := reply
        change _ = opened py (openWith py fields (rest.map Prod.snd))
        rw [Except.bind]
        cases hopen : openWith py fields (rest.map Prod.snd) with
        | ok stream => rfl
        | error e =>
          cases e with
          | node message status => rfl
          | badStatus => rfl
          | unavailable why => exact absurd hopen (openWith_available _ _ why)

/-- A queue that is over at some point keeps nobody waiting. -/
theorem iterateQueue_not_waiting {queue : List Item} (h : .finished ∈ queue) :
    (iterateQueue py queue).ending ≠ .waiting := by
  induction queue with
  | nil => cases h
  | cons item rest ih =>
    cases item with
    | finished => exact nofun
    | failure why => exact nofun
    | reply fields =>
      have hrest := ih ((List.mem_cons.mp h).resolve_left nofun)
      unfold iterateQueue
      split
      · exact nofun
      split
      · exact nofun
      split
      · exact hrest
      · exact hrest

theorem httpTokens_not_waiting (clean : Bool) (lines : List Text) :
    (httpTokens py clean lines).ending ≠ .waiting := by
  induction lines with
  | nil => cases clean <;> exact nofun
  | cons line rest ih =>
    unfold httpTokens
    split
    · exact nofun
    · exact ih
    · exact ih

theorem iterate_not_waiting {stream : MeshStream} (h : stream.finished = false → .finished ∈ stream.queue) :
    (stream.iterate py).ending ≠ .waiting := by
  unfold MeshStream.iterate
  cases hf : stream.finished with
  | true => cases stream.firstChunk <;> exact nofun
  | false => cases stream.firstChunk <;> exact iterateQueue_not_waiting (h hf)

theorem iterateMeshStream_not_waiting (h : i.ending ≠ .waiting) : (iterateMeshStream i).ending ≠ .waiting := by
  obtain ⟨tokens, ending⟩ := i
  cases ending with
  | stopped => exact nofun
  | waiting => exact absurd rfl h
  | raised e => cases e <;> exact nofun

/-- A stream that opens comes to an end. -/
theorem openInferenceStream_ends (h : openInferenceStream py r b.mesh.queue http = .ok s) : s.ending ≠ .waiting := by
  rw [openInferenceStream_eq] at h
  cases hreply : meshReply r b.mesh.queue with
  | none =>
    rw [hreply] at h
    cases h
    cases http with
    | raised => exact nofun
    | failed status body => exact nofun
    | ok clean frames => exact httpTokens_not_waiting _ _
  | some reply =>
    obtain ⟨fields, rest⟩ := reply
    rw [hreply] at h
    obtain ⟨c, hc⟩ : ∃ c : MeshInferenceClient, c.firstReply b.mesh.queue = .ok (fields, rest) := by
      obtain ⟨c, _, hc⟩ := Option.bind_eq_some_iff.mp hreply
      refine ⟨c, ?_⟩
      split at hc
      · split at hc
        · rename_i hf
          rw [hf, Option.some.inj hc]
        · cases hc
      · cases hc
    obtain ⟨arrival, hq⟩ := firstReply_ok hc
    have hfin : Item.finished ∈ rest.map Prod.snd := by
      have hlast : Item.finished ∈ b.mesh.queue.map Prod.snd :=
        List.mem_map.mpr ⟨(b.mesh.ends, .finished), List.mem_append_right _ List.mem_cons_self, rfl⟩
      rw [hq, List.map_cons] at hlast
      exact (List.mem_cons.mp hlast).resolve_left nofun
    change opened py (openWith py fields (rest.map Prod.snd)) = .ok s at h
    cases ho : openWith py fields (rest.map Prod.snd) with
    | error e =>
      rw [ho] at h
      cases e <;> cases h
    | ok stream =>
      rw [ho] at h
      cases h
      refine iterateMeshStream_not_waiting (iterate_not_waiting fun hf => ?_)
      unfold openWith at ho
      split at ho
      · cases ho
      split at ho
      · cases ho
        cases hf
      split at ho
      · cases ho
      · cases ho
        exact hfin

/-- The generator does not wait for more than its stream does. -/
theorem relay_not_waiting (o : StreamOutcome) (tokens : List Text) (h : ending ≠ .waiting) :
    (relay o tokens ending).ending ≠ .waiting := by
  induction tokens generalizing o with
  | nil =>
    cases ending with
    | stopped => exact nofun
    | dispatchError detail status =>
      unfold relay
      split <;> exact nofun
    | broken => exact nofun
    | waiting => exact absurd rfl h
  | cons token rest ih =>
    unfold relay
    dsimp only
    split
    · exact ih _
    · exact nofun

/-- A generator that returns and has not noted a failure has relayed its stream to the end. -/
theorem relay_returned (o : StreamOutcome) (tokens : List Text)
    (hf : (relay o tokens ending).outcome.failed = false) (hr : (relay o tokens ending).ending = .returned) :
    ending = .stopped ∧ (relay o tokens ending).frames.length = tokens.length + 2 := by
  induction tokens generalizing o with
  | nil =>
    cases ending with
    | stopped => exact ⟨rfl, rfl⟩
    | dispatchError detail status =>
      unfold relay at hf
      split at hf <;> cases hf
    | broken => cases hf
    | waiting => cases hr
  | cons token rest ih =>
    unfold relay at hf hr ⊢
    dsimp only at hf hr ⊢
    split at hf
    · rename_i hs
      rw [if_pos hs] at hr ⊢
      obtain ⟨hstop, hlen⟩ := ih _ hf hr
      exact ⟨hstop, congrArg (· + 1) hlen⟩
    · cases hf

theorem surfaced_unexpected (model : Text) :
    surfaced (answerOf py model fields) = .error .unexpected ↔ ¬ ReadableStatus py fields := by
  unfold answerOf nodeError ReadableStatus
  cases isOk fields with
  | true => exact iff_of_false nofun fun h => h (.inl rfl)
  | false =>
    rw [if_neg Bool.false_ne_true]
    cases py.intOf ((get? fields "status").getD (.int 500)) with
    | none => exact iff_of_true rfl fun h => h.elim nofun nofun
    | some status => exact iff_of_false nofun fun h => h (.inr rfl)

theorem httpInferOnce_unexpected (model : Text) (http : HttpAnswer) :
    httpInferOnce py model http = .error .unexpected ↔ ¬ ReadableAnswer http := by
  cases http with
  | requestError message => exact iff_of_false nofun fun h => h trivial
  | raised => exact iff_of_true rfl id
  | failed status body => exact iff_of_false nofun fun h => h trivial
  | ok body =>
    cases body with
    | none => exact iff_of_true rfl fun ⟨_, h⟩ => nomatch h
    | some body =>
      cases body with
      | obj data => exact iff_of_false nofun fun h => h ⟨data, rfl⟩
      | _ => exact iff_of_true rfl fun ⟨_, h⟩ => nomatch h

/-- Opening raises something unforeseen exactly where the status of an error is unreadable. -/
theorem opened_unexpected (rest : List Item) :
    opened py (openWith py fields rest) = .error .unexpected ↔ ¬ ReadableStatus py fields := by
  unfold openWith nodeError ReadableStatus
  cases isOk fields with
  | true =>
    refine iff_of_false ?_ fun h => h (.inl rfl)
    rw [if_neg (by decide)]
    split
    · exact nofun
    split <;> exact nofun
  | false =>
    rw [if_pos (by decide)]
    cases py.intOf ((get? fields "status").getD (.int 500)) with
    | none => exact iff_of_true rfl fun h => h.elim nofun nofun
    | some status => exact iff_of_false nofun fun h => h (.inr rfl)

/-- A stream opens unless the first reply holds none. -/
theorem opened_ok (rest : List Item) : (∃ s, opened py (openWith py fields rest) = .ok s) ↔
    ¬ (isOk fields = false ∨ isDone fields = false ∧ (get? fields "chunk").getD .null = .null) := by
  unfold openWith
  cases isOk fields with
  | false =>
    rw [if_pos (by decide)]
    refine iff_of_false ?_ fun h => h (.inl rfl)
    rintro ⟨s, hs⟩
    unfold nodeError at hs
    split at hs <;> cases hs
  | true =>
    rw [if_neg (by decide)]
    cases isDone fields with
    | true => exact iff_of_true ⟨_, rfl⟩ fun h => h.elim nofun fun h => nomatch h.1
    | false =>
      rw [if_neg Bool.false_ne_true]
      split
      · rename_i hnull
        exact iff_of_false (fun ⟨_, h⟩ => nomatch h) fun h => h (.inr ⟨rfl, hnull⟩)
      · rename_i hchunk
        exact iff_of_true ⟨_, rfl⟩ fun h => h.elim nofun fun h => hchunk h.2

/-- Where `_meter` is not called, for a completion in one piece. -/
theorem completeOnce_unmetered (hs : q.stream = false) :
    (completeOnce py q r b).charge = none ↔ ¬ Dispatches py q r b := by
  have hcharge : (completeOnce py q r b).charge = none ↔
      (inferOnce py r q.target b.mesh.queue b.http).result = .error .unexpected := by
    unfold completeOnce
    cases (inferOnce py r q.target b.mesh.queue b.http).result with
    | ok answer => exact iff_of_false nofun nofun
    | error e => cases e <;> simp
  rw [hcharge, inferOnce_result, Dispatches]
  cases meshReply r b.mesh.queue with
  | some reply => exact surfaced_unexpected _
  | none =>
    simp only [hs, Bool.false_eq_true, false_or]
    exact httpInferOnce_unexpected _ _

theorem meteredSse_eq_none {g : Generated} (hg : g.ending ≠ .waiting) (client : Client) :
    meteredSse g client = none ↔ client = .gone := by
  have hover : g.over ≠ none := by
    unfold Generated.over
    cases he : g.ending with
    | returned => exact nofun
    | raised => exact nofun
    | waiting => exact absurd he hg
  cases client with
  | stays => exact iff_of_false hover nofun
  | leaves n =>
    refine iff_of_false ?_ nofun
    unfold meteredSse
    simp only [if_neg hg]
    split
    · exact nofun
    · exact hover
  | gone => exact iff_of_true rfl rfl

/-- A stream that has opened is metered unless nobody ever asks for its first frame. -/
theorem completeStream_charge : (completeStream py q r b).charge = none ↔
    openInferenceStream py r b.mesh.queue b.httpStream = .error .unexpected ∨
      (∃ s, openInferenceStream py r b.mesh.queue b.httpStream = .ok s) ∧ b.client = .gone := by
  unfold completeStream
  cases ho : openInferenceStream py r b.mesh.queue b.httpStream with
  | error e => cases e <;> simp
  | ok s =>
    have hends : (sseGenerator s).ending ≠ .waiting :=
      relay_not_waiting ⟨0, false⟩ s.tokens (openInferenceStream_ends ho)
    simp only [Option.map_eq_none_iff, reduceCtorEq, false_or, Except.ok.injEq, exists_eq', true_and]
    exact meteredSse_eq_none hends b.client

/-- Where `_meter` is not called, for a stream. -/
theorem completeStream_unmetered (hs : q.stream = true) :
    (completeStream py q r b).charge = none ↔
      ¬ (Dispatches py q r b ∧ (b.client = .gone → Refuses r b)) := by
  rw [completeStream_charge, openInferenceStream_eq, Dispatches]
  cases hreply : meshReply r b.mesh.queue with
  | none =>
    have hrefuses : ¬ Refuses r b := by
      rintro ⟨fields, rest, hr, _⟩
      rw [hreply] at hr
      cases hr
    simp [hs, hrefuses]
  | some reply =>
    obtain ⟨fields, rest⟩ := reply
    have hrefuses : Refuses r b ↔
        (isOk fields = false ∨ isDone fields = false ∧ (get? fields "chunk").getD .null = .null) := by
      constructor
      · rintro ⟨fields', rest', hr, h⟩
        cases hreply.symm.trans hr
        exact h
      · exact fun h => ⟨fields, rest, hreply, h⟩
    dsimp only
    rw [opened_unexpected, opened_ok, ← hrefuses]
    tauto

theorem over_eq_some {g : Generated} (h : g.over = some (outcome, false)) :
    g.outcome = outcome ∧ g.ending = .returned := by
  unfold Generated.over at h
  cases he : g.ending with
  | returned =>
    rw [he] at h
    cases h
    exact ⟨rfl, rfl⟩
  | raised =>
    rw [he] at h
    cases h
  | waiting =>
    rw [he] at h
    cases h

/-- Nothing passes through a stream's end only where the generator has come to its own, and the
requester has not left before. -/
theorem meteredSse_over {g : Generated} (h : meteredSse g client = some (outcome, false)) :
    g.over = some (outcome, false) ∧ ∀ n, client = .leaves n → g.frames.length ≤ n := by
  unfold meteredSse at h
  cases client with
  | stays => exact ⟨h, fun n hn => by cases hn⟩
  | leaves n =>
    dsimp only at h
    split at h
    · cases h
    rename_i hn
    split at h
    · cases h
    refine ⟨h, fun m hm => ?_⟩
    cases hm
    exact List.getElem?_eq_none_iff.mp hn
  | gone => cases h

/-- A stream is metered as succeeded only if it has ended well, and been taken to its end. -/
theorem meteredSse_succeeded (h : meteredSse (sseGenerator s) client = some (outcome, raised))
    (hok : (!raised && !outcome.failed) = true) : s.ending = .stopped ∧ TakesAll s client := by
  obtain ⟨rfl, hfailed⟩ : raised = false ∧ outcome.failed = false := by simpa using hok
  obtain ⟨hover, hleaves⟩ := meteredSse_over h
  obtain ⟨rfl, hreturned⟩ := over_eq_some hover
  obtain ⟨hstop, hlen⟩ := relay_returned ⟨0, false⟩ s.tokens hfailed hreturned
  refine ⟨hstop, ?_⟩
  have hframes : (sseGenerator s).frames.length = s.tokens.length + 3 := congrArg (· + 1) hlen
  cases client with
  | stays => trivial
  | leaves n =>
    have hpast := hleaves n rfl
    rwa [hframes] at hpast
  | gone => cases h

/-- What can be sent on is what `infer_once` answers. -/
theorem utters_iff (t : Target) : Utters py r b ↔
    ∀ model generatedText, (inferOnce py r t b.mesh.queue b.http).result = .ok (model, generatedText) →
      Scalar generatedText := by
  rw [inferOnce_result, Utters]
  cases meshReply r b.mesh.queue with
  | some reply =>
    obtain ⟨fields, rest⟩ := reply
    dsimp only
    unfold answerOf nodeError
    cases isOk fields with
    | true =>
      rw [if_pos rfl]
      refine ⟨fun h model generatedText he => ?_, fun h _ => h _ _ rfl⟩
      cases he
      exact h rfl
    | false =>
      refine iff_of_true nofun fun model generatedText he => ?_
      rw [if_neg Bool.false_ne_true] at he
      split at he <;> cases he
  | none =>
    dsimp only
    refine ⟨fun h model generatedText he => ?_, fun h data hdata => ?_⟩
    · unfold httpInferOnce at he
      split at he
      · cases he
      · cases he
      · cases he
      · rename_i data hdata
        cases he
        exact h data hdata
      · cases he
    · rw [hdata] at h
      exact h _ _ rfl

/-- A request that succeeded for the meter is complete exactly if what it says can be sent. -/
theorem completeOnce_succeeded (hs : q.stream = false) (h : (completeOnce py q r b).charge = some c) :
    ∃ tokens ok, c = q.charge tokens ok ∧ ((ok = true → Complete py q r b) ↔ Utters py r b) := by
  rw [Complete, if_neg (by rw [hs]; exact Bool.false_ne_true), utters_iff q.target]
  unfold completeOnce at h ⊢
  cases hr : (inferOnce py r q.target b.mesh.queue b.http).result with
  | error e =>
    rw [hr] at h
    cases e with
    | dispatch detail status =>
      cases h
      exact ⟨0, false, rfl, iff_of_true nofun nofun⟩
    | unexpected => cases h
  | ok answer =>
    obtain ⟨model, generatedText⟩ := answer
    rw [hr] at h
    cases h
    refine ⟨_, true, rfl, ?_⟩
    dsimp only
    constructor
    · rintro hcomplete _ _ ⟨⟩
      obtain ⟨_, _, _, hreply⟩ := hcomplete rfl
      split at hreply
      · assumption
      · cases hreply
    · intro hscalar _
      rw [if_pos (hscalar _ _ rfl)]
      exact ⟨_, _, _, rfl⟩

/-- A stream is metered as succeeded only if it is complete. -/
theorem completeStream_succeeded (hs : q.stream = true) (h : (completeStream py q r b).charge = some c) :
    ∃ tokens ok, c = q.charge tokens ok ∧ (ok = true → Complete py q r b) := by
  unfold completeStream at h
  cases ho : openInferenceStream py r b.mesh.queue b.httpStream with
  | error e =>
    rw [ho] at h
    cases e with
    | dispatch detail status =>
      cases h
      exact ⟨0, false, rfl, nofun⟩
    | unexpected => cases h
  | ok s =>
    rw [ho] at h
    obtain ⟨⟨outcome, raised⟩, hover, rfl⟩ := Option.map_eq_some_iff.mp h
    refine ⟨_, _, rfl, fun hok => ?_⟩
    obtain ⟨hstop, htakes⟩ := meteredSse_succeeded hover hok
    rw [Complete, if_pos hs]
    exact ⟨s, ho, hstop, htakes⟩

theorem charge_succeeded (h : (createChatCompletion py q r b).charge = some c) :
    ∃ tokens ok, c = q.charge tokens ok ∧
      ((ok = true → Complete py q r b) ↔ (q.stream = false → Utters py r b)) := by
  unfold createChatCompletion at h
  cases hs : q.stream with
  | false =>
    rw [if_neg (by rw [hs]; exact Bool.false_ne_true)] at h
    obtain ⟨tokens, ok, hc, hiff⟩ := completeOnce_succeeded hs h
    exact ⟨tokens, ok, hc, hiff.trans (imp_iff_right rfl).symm⟩
  | true =>
    rw [if_pos hs] at h
    obtain ⟨tokens, ok, hc, hcomplete⟩ := completeStream_succeeded hs h
    exact ⟨tokens, ok, hc, iff_of_true hcomplete nofun⟩

/-- With a store that does not fail, `_meter` writes the record it builds, and credits nothing
for a request that failed. -/
theorem meter_committed (s : Accounting γ) {c : Charge} (hu : c.usage clock = some usage) (hbind : usage.Bindable)
    (note : γ) :
    ∃ ledger accounts, s.meter c clock note .committed .committed =
        ⟨ledger, s.usageMeter.record usage, .opened ⟨accounts, s.store.working.usage ++ [(usage, note)]⟩⟩ ∧
      (c.succeeded = false → ledger = s.ledger ∧ accounts = s.store.working.accounts) := by
  have hlanding : usage.landing .committed = .committed := if_pos hbind
  unfold Accounting.meter
  rw [hu]
  dsimp only
  rw [hlanding, Accounting.record_committed]
  cases c.succeeded with
  | false => exact ⟨_, _, rfl, fun _ => ⟨rfl, rfl⟩⟩
  | true =>
    rw [if_pos ⟨rfl, rfl⟩, Accounting.recordHostContribution_committed]
    exact ⟨_, _, rfl, nofun⟩

/-- A record that cannot be stored is in no store. -/
theorem meter_unbound (s : Accounting γ) {c : Charge} (hbook : ¬ c.Bookable) (note : γ) :
    (s.meter c clock note .committed .committed).store = s.store := by
  unfold Accounting.meter
  split
  · rfl
  · rename_i usage hu
    have hlanding : usage.landing .committed = .refused := if_neg (mt (Charge.bindable_iff hu).mp hbook)
    have hstop : ¬ (Landing.refused = .committed ∧ c.succeeded) := fun h => nomatch h.1
    rw [hlanding, if_neg hstop, Accounting.record, Accounting.after_alive _ rfl]
    rfl

theorem createChatCompletion_unmetered : (createChatCompletion py q r b).charge = none ↔
    ¬ (Dispatches py q r b ∧ (q.stream = true → b.client = .gone → Refuses r b)) := by
  unfold createChatCompletion
  cases hs : q.stream with
  | false =>
    rw [if_neg Bool.false_ne_true, completeOnce_unmetered hs]
    exact not_congr (and_iff_left nofun).symm
  | true =>
    rw [if_pos rfl, completeStream_unmetered hs]
    exact not_congr (and_congr_right' (imp_iff_right rfl).symm)

/-- A record that was not written is missing. -/
theorem not_meteredOnce {complete : Prop} {s t : Accounting γ} (hstore : t.store = s.store) :
    ¬ MeteredOnce q complete s t := by
  rintro ⟨⟨row, hrow, _⟩, _⟩
  rw [hstore] at hrow
  have hlen := congrArg List.length hrow
  simp at hlen

/-- Where the record can be written, it tells the truth exactly if what it says can be sent. -/
theorem meteredOnce_meter (s : Accounting γ) {c : Charge} (hcharge : c = q.charge tokens ok) (hbook : c.Bookable)
    (note : γ) :
    MeteredOnce q (Complete py q r b) s (s.meter c clock note .committed .committed) ↔
      (ok = true → Complete py q r b) := by
  subst hcharge
  cases hu : (q.charge tokens ok).usage clock with
  | none => exact absurd hbook (Charge.usage_eq_none hu)
  | some usage =>
    obtain ⟨hrequest, hnode, _, hsucceeded⟩ := Charge.usage_eq_some hu
    obtain ⟨ledger, accounts, hmeter, huncredited⟩ :=
      meter_committed s hu ((Charge.bindable_iff hu).mpr hbook) note
    rw [hmeter]
    constructor
    · rintro ⟨⟨row, hrow, _, _, hrightly⟩, _, _⟩ hok
      have hsame : [(usage, note)] = [row] := List.append_cancel_left hrow
      obtain rfl := (List.cons.inj hsame).1
      exact hrightly (hsucceeded.trans hok)
    · intro hrightly
      refine ⟨⟨(usage, note), rfl, hrequest, hnode, fun h => hrightly (hsucceeded.symm.trans h)⟩, rfl,
        fun hn => huncredited ?_⟩
      cases ok with
      | false => rfl
      | true => exact absurd (hrightly rfl) hn

end

/-- With a store that does not fail, a request that has been assigned to a node is metered once
and rightly exactly if it is accountable, whatever the node and the requester do. -/
theorem metered_once_iff (py : Builtins) (q : Assigned) (r : Route) (b : Behaviour) (s : Accounting γ)
    (clock : Readings) (note : γ) :
    MeteredOnce q (Complete py q r b) s
        ((tryChatCompletion py q r b).metered s clock note .committed .committed) ↔
      Accountable py q r b := by
  unfold tryChatCompletion
  cases hencode : unencodable q r with
  | true => exact iff_of_false (not_meteredOnce rfl) fun h => Bool.false_ne_true (h.encodable.symm.trans hencode)
  | false =>
    rw [if_neg Bool.false_ne_true]
    unfold Ended.metered
    cases hc : (createChatCompletion py q r b).charge with
    | none =>
      exact iff_of_false (not_meteredOnce rfl) fun h => createChatCompletion_unmetered.mp hc h.dispatched
    | some c =>
      have hmetered := mt createChatCompletion_unmetered.mpr (by rw [hc]; exact nofun)
      obtain ⟨tokens, ok, hcharge, hcomplete⟩ := charge_succeeded hc
      have hsame : c.Bookable ↔ Bookable q := by
        subst hcharge
        exact Iff.rfl
      dsimp only
      by_cases hbook : c.Bookable
      · rw [meteredOnce_meter s hcharge hbook note, hcomplete]
        exact ⟨fun h => ⟨hsame.mp hbook, hencode, not_not.mp hmetered, h⟩, fun h => h.sendable⟩
      · exact iff_of_false (not_meteredOnce (meter_unbound s hbook note)) fun h => hbook (hsame.mpr h.bookable)

/-- A node without the mesh, whose HTTP answer is a 200 with a body that is not JSON. -/
def plainText : Behaviour := ⟨⟨[], false, 0⟩, .ok none, .raised, .stays⟩

def greetingRequest : Assigned :=
  ⟨text "chatcmpl-1", .str (text "tenant-a"), ⟨text "node-meter-1", 24, 64⟩, text "10.0.0.5", text "llama3",
    text "User: hello", false, 0⟩

/-- A request that such a node serves leaves no usage record. -/
theorem plain_text_unmetered :
    ¬ ∀ (py : Builtins) (q : Assigned) (r : Route) (b : Behaviour) (s : Accounting Unit) (clock : Readings),
      MeteredOnce q (Complete py q r b) s
        ((tryChatCompletion py q r b).metered s clock () .committed .committed) :=
  fun h => not_meteredOnce rfl
    (h ⟨fun _ => [], fun _ => none⟩ greetingRequest ⟨none, true, false, none, none, 8001⟩ plainText .fresh ⟨1, 0, 0⟩)

end Recording
end PublicIntelligence.System
