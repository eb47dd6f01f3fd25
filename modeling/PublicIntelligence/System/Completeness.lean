import Mathlib.Data.List.Perm.Basic
import PublicIntelligence.System.Streaming

namespace PublicIntelligence.System

open Text Json Mesh Node Scheduler

/-- The text a chunk reply carries. -/
def carried (reply : Bytes) : Option Text :=
  match decodeReply reply with
  | none => none
  | some fields =>
    match get? fields "chunk" with
    | some (.str chunk) => some chunk
    | _ => none

def doneReply : Bytes := encodeDone.getD []

section
variable (c : MeshInferenceClient) (py : Builtins)

/-- What the client's queue holds when the given replies come in at the given times and
the query ends after them. -/
def delivery (arrivals : List (ℚ × Bytes)) (ends : ℚ) : List (ℚ × Item) :=
  arrivals.map (fun a => (a.1, drained (some a.2))) ++ [(ends, .finished)]

/-- What the requester gets to iterate, and how that ends. -/
def received (arrivals : List (ℚ × Bytes)) (ends : ℚ) : Except MeshError Iterated :=
  (c.openStream py (delivery arrivals ends)).map (·.iterate py)

/-- A stream that ends normally has the answer's chunks, each as often as it was sent;
any other raises, and does not hang. -/
structure Complete (frames : List Text) (arrivals : List (ℚ × Bytes)) (ends : ℚ) : Prop where
  whole : ∀ tokens, received c py arrivals ends = .ok ⟨tokens, .stopped⟩ → tokens.Perm frames
  ended : ∀ tokens, received c py arrivals ends ≠ .ok ⟨tokens, .waiting⟩

/-- The query is on its way, and the first reply in time. -/
def InTime (arrivals : List (ℚ × Bytes)) : Prop :=
  c.session = .opened ∧ ∃ a rest, arrivals = a :: rest ∧ a.1 < c.firstReplyTimeout

/-- The replies ahead of the first `done`. -/
def untilDone (replies : List Bytes) : List Bytes := replies.takeWhile fun b => decide (b ≠ doneReply)

/-- A `done` comes in, and nothing but chunks before it. -/
def Finished (replies : List Bytes) : Prop :=
  doneReply ∈ replies ∧ ∀ b ∈ untilDone replies, (carried b).isSome = true

/-- If only chunks come in before the first `done`, they are the answer's chunks, none
missing and none twice. -/
def Intact (frames : List Text) (replies : List Bytes) : Prop :=
  Finished replies → ((untilDone replies).filterMap carried).Perm frames

end

/-- `open_stream` once its first item is there. -/
def openItem (py : Builtins) (item : Item) (rest : List Item) : Except MeshError MeshStream :=
  (firstItem item).bind fun fields => openWith py fields rest

/-- How the client reads a reply of the node's: as a chunk, as the end, or as a failure. -/
inductive Reads (py : Builtins) (b : Bytes) : Prop where
  | chunk (f : Text) (hc : carried b = some f) (hne : b ≠ doneReply)
      (hr : ∀ rest, iterateQueue py (drained (some b) :: rest) =
        ⟨f :: (iterateQueue py rest).tokens, (iterateQueue py rest).ending⟩)
      (ho : ∀ rest, openItem py (drained (some b)) rest = .ok ⟨some f, rest, false⟩)
  | done (he : b = doneReply)
  | failure (hc : carried b = none) (hne : b ≠ doneReply) (e : MeshError)
      (hr : ∀ rest, iterateQueue py (drained (some b) :: rest) = ⟨[], .raised e⟩)

section
variable {c : MeshInferenceClient} {py : Builtins} {complaint : String}

theorem decode_doneReply : encodeDone = some doneReply ∧
    decodeReply doneReply = some (envelope [("ok", .bool true), ("done", .bool true)]) := by
  obtain ⟨b, hb, hd⟩ := decode_encodeDone
  rw [doneReply, hb]
  exact ⟨rfl, hd⟩

/-- Only the last reply has no more than two fields. -/
theorem ne_doneReply (hd : decodeReply b = some fields) (hl : fields.length ≠ 2) : b ≠ doneReply := by
  rintro rfl
  rw [decode_doneReply.2] at hd
  cases hd
  exact hl rfl

theorem reads_chunk (hs : Scalar f) (hb : encodeChunk i f = some b) : Reads py b := by
  have hd := decode_encodeChunk hs hb
  refine .chunk f ?_ (ne_doneReply hd (Nat.succ_ne_self 2)) (fun rest => ?_) fun rest => ?_
  · rw [carried, hd]
    rfl
  · rw [drained, hd]
    rfl
  · rw [drained, hd]
    rfl

theorem reads_failure (py : Builtins) (hb : encodeError message status = some b) : Reads py b := by
  have hd := decode_encodeError hb
  refine .failure ?_ (ne_doneReply hd (Nat.succ_ne_self 2)) (nodeError py (envelope
    [("ok", .bool false), ("status", .int status), ("error", .str (joined message))])) fun rest => ?_
  · rw [carried, hd]
    rfl
  · rw [drained, hd]
    rfl

/-- Every reply of `_serve_stream` is one of the three. -/
theorem reads_of_sent {error : Option Text} (frames : List Text) : ∀ i, (∀ f ∈ frames, Scalar f) →
    ∀ b ∈ serveFrames complaint error i frames, Reads py b := by
  induction frames with
  | nil =>
    intro i _ b hb
    cases error with
    | none => exact .done (Option.some.inj ((Option.mem_toList.mp hb).symm.trans decode_doneReply.1))
    | some message => exact reads_failure py (Option.mem_toList.mp hb)
  | cons f fs ih =>
    intro i hs b hb
    obtain ⟨hf, hfs⟩ := List.forall_mem_cons.mp hs
    unfold serveFrames at hb
    split at hb
    · exact reads_failure py (Option.mem_toList.mp hb)
    · rename_i b' hb'
      obtain rfl | hb := List.mem_cons.mp hb
      · exact reads_chunk hf hb'
      · exact ih (i + 1) hfs b hb

theorem reads_of_answer (request : InferenceRequest) (started : Except OllamaFailure OllamaStream) :
    ∀ b ∈ serveStream complaint (generateStream complaint request started), Reads py b := by
  have hs : ∀ f ∈ (generateStream complaint request started).1, Scalar f := by
    cases started with
    | error failure => exact fun f hf => absurd hf List.not_mem_nil
    | ok stream => exact generateFrames_scalar complaint stream.broken stream.chunks
  exact reads_of_sent _ 0 hs

/-- The iteration over what was delivered stops where a `done` comes in after chunks
only, and raises otherwise. -/
theorem iterateQueue_reads {replies : List Bytes} (hr : ∀ b ∈ replies, Reads py b) :
    (Finished replies → iterateQueue py (drain (replies.map some)) =
      ⟨(untilDone replies).filterMap carried, .stopped⟩) ∧
    (¬ Finished replies → ∃ e, (iterateQueue py (drain (replies.map some))).ending = .raised e) := by
  induction replies with
  | nil =>
    refine ⟨fun h => absurd h.1 List.not_mem_nil, fun _ => ⟨_, rfl⟩⟩
  | cons b replies ih =>
    obtain ⟨hb, hrest⟩ := List.forall_mem_cons.mp hr
    have hqueue : drain ((b :: replies).map some) = drained (some b) :: drain (replies.map some) := rfl
    rw [hqueue]
    cases hb with
    | chunk f hc hne hread _ =>
      have huntil : untilDone (b :: replies) = b :: untilDone replies :=
        List.takeWhile_cons_of_pos (decide_eq_true hne)
      have hfin : Finished (b :: replies) ↔ Finished replies := by
        simp [Finished, huntil, hc, Ne.symm hne]
      rw [hread, hfin, huntil, List.filterMap_cons_some hc]
      obtain ⟨hstop, hraise⟩ := ih hrest
      exact ⟨fun h => by rw [hstop h], hraise⟩
    | done he =>
      subst he
      have huntil : untilDone (doneReply :: replies) = [] :=
        List.takeWhile_cons_of_neg (by simp)
      have hread : iterateQueue py (drained (some doneReply) :: drain (replies.map some)) =
          ⟨[], .stopped⟩ := by
        rw [drained, decode_doneReply.2]
        rfl
      rw [hread, huntil]
      refine ⟨fun _ => rfl, fun h => absurd ⟨List.mem_cons_self, ?_⟩ h⟩
      rw [huntil]
      exact fun _ hm => absurd hm List.not_mem_nil
    | failure hc hne e hread =>
      have huntil : untilDone (b :: replies) = b :: untilDone replies :=
        List.takeWhile_cons_of_pos (decide_eq_true hne)
      rw [hread]
      refine ⟨fun h => ?_, fun _ => ⟨e, rfl⟩⟩
      have hsome := h.2 b (huntil ▸ List.mem_cons_self)
      rw [hc] at hsome
      cases hsome

/-- What the requester gets is the iteration over the whole queue, if the stream opens. -/
theorem iterate_openItem (h : openItem py item rest = .ok stream) :
    stream.iterate py = iterateQueue py (item :: rest) := by
  cases item with
  | finished => cases h
  | failure why => cases h
  | reply fields =>
    change openWith py fields rest = .ok stream at h
    unfold openWith at h
    unfold iterateQueue
    split at h
    · cases h
    split at h
    · rename_i hok hdone
      cases h
      rw [if_neg hok, if_pos hdone]
      rfl
    · rename_i hok hdone
      rw [if_neg hok, if_neg hdone]
      split at h
      · cases h
      · cases h
        rfl

theorem received_inTime (py : Builtins) (ends : ℚ) (h : InTime c arrivals) : ∃ b bs, arrivals.map Prod.snd = b :: bs ∧
    received c py arrivals ends =
      (openItem py (drained (some b)) (drain (bs.map some))).map (·.iterate py) := by
  obtain ⟨hs, ⟨t, b⟩, rest, rfl, ht⟩ := h
  refine ⟨b, rest.map Prod.snd, rfl, ?_⟩
  have hqueue : (delivery rest ends).map Prod.snd = drain ((rest.map Prod.snd).map some) := by
    simp [delivery, drain, Function.comp_def]
  have hfirst : c.firstReply (delivery ((t, b) :: rest) ends) =
      (firstItem (drained (some b))).map fun fields => (fields, delivery rest ends) := if_pos ht
  rw [received, MeshInferenceClient.openStream, MeshInferenceClient.startQuery, hs, hfirst, openItem]
  cases firstItem (drained (some b)) with
  | error e => rfl
  | ok fields => exact congrArg (fun q => (openWith py fields q).map (·.iterate py)) hqueue

theorem received_late (py : Builtins) (ends : ℚ) (h : ¬ InTime c arrivals) :
    ∃ e, received c py arrivals ends = .error e := by
  unfold received MeshInferenceClient.openStream MeshInferenceClient.startQuery
  cases hs : c.session with
  | absent => exact ⟨_, rfl⟩
  | refusing => exact ⟨_, rfl⟩
  | opened =>
    have hfirst : ∃ e, c.firstReply (delivery arrivals ends) = .error e := by
      cases arrivals with
      | nil =>
        unfold delivery MeshInferenceClient.firstReply
        simp only [List.map_nil, List.nil_append]
        split <;> exact ⟨_, rfl⟩
      | cons a rest =>
        exact ⟨_, if_neg fun ht => h ⟨hs, a, rest, rfl, ht⟩⟩
    obtain ⟨e, he⟩ := hfirst
    exact ⟨e, by rw [he]; rfl⟩

/-- Among replies the node sent, what ends the iteration normally is a `done` that only
chunks precede. -/
theorem received_reads (ends : ℚ) (hr : ∀ b ∈ arrivals.map Prod.snd, Reads py b)
    (hin : InTime c arrivals) :
    (Finished (arrivals.map Prod.snd) → received c py arrivals ends =
      .ok ⟨(untilDone (arrivals.map Prod.snd)).filterMap carried, .stopped⟩) ∧
    (¬ Finished (arrivals.map Prod.snd) → ∀ i, received c py arrivals ends = .ok i →
      ∃ e, i.ending = .raised e) := by
  obtain ⟨b, bs, harr, hrec⟩ := received_inTime py ends hin
  rw [harr] at hr ⊢
  obtain ⟨hstop, hraise⟩ := iterateQueue_reads hr
  have hopen : ∀ stream, openItem py (drained (some b)) (drain (bs.map some)) = .ok stream →
      received c py arrivals ends = .ok (iterateQueue py (drain ((b :: bs).map some))) := by
    intro stream h
    rw [hrec, h]
    exact congrArg Except.ok (iterate_openItem h)
  constructor
  · intro hf
    have hb := hr b List.mem_cons_self
    cases hb with
    | chunk f _ _ _ ho => rw [hopen _ (ho _), hstop hf]
    | done he =>
      have ho : openItem py (drained (some b)) (drain (bs.map some)) =
          .ok ⟨none, drain (bs.map some), true⟩ := by
        rw [he, drained, decode_doneReply.2]
        rfl
      rw [hopen _ ho, hstop hf]
    | failure hc hne _ _ =>
      have huntil : untilDone (b :: bs) = b :: untilDone bs :=
        List.takeWhile_cons_of_pos (decide_eq_true hne)
      have hsome := hf.2 b (huntil ▸ List.mem_cons_self)
      rw [hc] at hsome
      cases hsome
  · intro hf i hi
    cases ho : openItem py (drained (some b)) (drain (bs.map some)) with
    | error e =>
      rw [hrec, ho] at hi
      cases hi
    | ok stream =>
      rw [hopen stream ho] at hi
      cases hi
      exact hraise hf

/-- A stream that ends normally is complete exactly if the chunks delivered ahead of the
first `done`, unless there is an error among them, are the answer's chunks, none missing
and none twice, or the stream does not open at all. -/
theorem complete_iff_intact (hr : ∀ b ∈ arrivals.map Prod.snd, Reads py b) :
    Complete c py frames arrivals ends ↔
      (InTime c arrivals → Intact frames (arrivals.map Prod.snd)) := by
  by_cases hin : InTime c arrivals
  · obtain ⟨hstop, hraise⟩ := received_reads ends hr hin
    rw [forall_prop_of_true hin]
    constructor
    · exact fun h hf => h.whole _ (hstop hf)
    · intro h
      constructor
      · intro tokens hrec
        by_cases hf : Finished (arrivals.map Prod.snd)
        · cases hrec.symm.trans (hstop hf)
          exact h hf
        · obtain ⟨e, he⟩ := hraise hf _ hrec
          cases he
      · intro tokens hrec
        by_cases hf : Finished (arrivals.map Prod.snd)
        · cases hrec.symm.trans (hstop hf)
        · obtain ⟨e, he⟩ := hraise hf _ hrec
          cases he
  · obtain ⟨e, he⟩ := received_late py ends hin
    refine iff_of_true ⟨fun tokens h => ?_, fun tokens h => ?_⟩ fun h => absurd h hin
    · rw [he] at h
      cases h
    · rw [he] at h
      cases h

end

/-- The node's replies to the greeting, of which the second chunk is lost. -/
def lossyArrivals : List (ℚ × Bytes) :=
  ((serveStream "" (generateStream "" greetingRequest (.ok ⟨greeting, none⟩))).eraseIdx 1).map
    fun b => (1, b)

theorem lossy_sent : ∀ a ∈ lossyArrivals,
    a.2 ∈ serveStream "" (generateStream "" greetingRequest (.ok ⟨greeting, none⟩)) := by
  intro a ha
  obtain ⟨b, hb, rfl⟩ := List.mem_map.mp ha
  exact (List.eraseIdx_sublist _ 1).subset hb

def promptClient : MeshInferenceClient := ⟨.opened, 120, 5⟩

theorem lossy_inTime : InTime promptClient lossyArrivals := by
  have hlen : lossyArrivals.length = 2 := by decide +kernel
  obtain ⟨a, rest, he⟩ := List.exists_cons_of_length_pos (l := lossyArrivals) (by omega)
  have hone : a ∈ lossyArrivals := he ▸ List.mem_cons_self
  obtain ⟨b, _, rfl⟩ := List.mem_map.mp hone
  have hearly : (1 : ℚ) < 5 := by decide +kernel
  exact ⟨rfl, _, rest, he, hearly⟩

theorem lossy_finished : doneReply ∈ lossyArrivals.map Prod.snd ∧
    (∀ b ∈ untilDone (lossyArrivals.map Prod.snd), (carried b).isSome = true) ∧
    ((untilDone (lossyArrivals.map Prod.snd)).filterMap carried).length = 1 := by
  decide +kernel

/-- For every answer the node streams, and whatever part of its replies is delivered in
whatever order and however often. -/
theorem complete_iff (c : MeshInferenceClient) (py : Builtins) (complaint : String)
    (request : InferenceRequest) (started : Except OllamaFailure OllamaStream)
    (arrivals : List (ℚ × Bytes)) (ends : ℚ)
    (hsent : ∀ a ∈ arrivals, a.2 ∈ serveStream complaint (generateStream complaint request started)) :
    Complete c py (generateStream complaint request started).1 arrivals ends ↔
      (InTime c arrivals →
        Intact (generateStream complaint request started).1 (arrivals.map Prod.snd)) := by
  refine complete_iff_intact fun b hb => ?_
  obtain ⟨a, ha, rfl⟩ := List.mem_map.mp hb
  exact reads_of_answer request started a.2 (hsent a ha)

theorem complete_iff_lossy :
    Complete promptClient plainBuiltins
        (generateStream "" greetingRequest (.ok ⟨greeting, none⟩)).1 lossyArrivals 2 ↔
      (InTime promptClient lossyArrivals →
        Intact (generateStream "" greetingRequest (.ok ⟨greeting, none⟩)).1
          (lossyArrivals.map Prod.snd)) :=
  complete_iff promptClient plainBuiltins "" greetingRequest (.ok ⟨greeting, none⟩) lossyArrivals 2
    lossy_sent

/-- The answer to the greeting ends normally without its second chunk. -/
theorem lost_chunk_unnoticed : ¬ ∀ (c : MeshInferenceClient) (py : Builtins) (complaint : String)
    (request : InferenceRequest) (started : Except OllamaFailure OllamaStream)
    (arrivals : List (ℚ × Bytes)) (ends : ℚ),
    (∀ a ∈ arrivals, a.2 ∈ serveStream complaint (generateStream complaint request started)) →
      Complete c py (generateStream complaint request started).1 arrivals ends := by
  intro h
  have hcomplete := h promptClient plainBuiltins "" greetingRequest (.ok ⟨greeting, none⟩)
    lossyArrivals 2 lossy_sent
  have hr : ∀ b ∈ lossyArrivals.map Prod.snd, Reads plainBuiltins b := by
    intro b hb
    obtain ⟨a, ha, rfl⟩ := List.mem_map.mp hb
    exact reads_of_answer greetingRequest (.ok ⟨greeting, none⟩) a.2 (lossy_sent a ha)
  obtain ⟨hdone, hchunks, hlen⟩ := lossy_finished
  have hperm := (complete_iff_intact hr).mp hcomplete lossy_inTime ⟨hdone, hchunks⟩
  have htwo : (generateStream "" greetingRequest (.ok ⟨greeting, none⟩)).1.length = 2 := by
    decide +kernel
  rw [← hperm.length_eq, hlen] at htwo
  cases htwo

end PublicIntelligence.System
