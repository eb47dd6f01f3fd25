import PublicIntelligence.System.Recording

namespace PublicIntelligence.System

open Text Json Mesh Scheduler Recording

namespace TokenCounts

/-- The usage record that a request leaves, whenever it is made. -/
def Leaves (e : Ended) (u : UsageRecord) : Prop := ∃ c clock, e.charge = some c ∧ c.usage clock = some u

theorem estimateTokens_quarter (t : Text) : t.length / 4 = estimateTokens t ↔ t = [] ∨ 4 ≤ t.length := by
  unfold estimateTokens
  split
  · rename_i hnil
    exact iff_of_true (by rw [hnil]; rfl) (.inl hnil)
  · rename_i hne
    have hpos := List.length_pos_iff.mpr hne
    rw [or_iff_right hne]
    omega

section
variable {py : Builtins} {q : Assigned} {r : Route} {b : Behaviour}

/-- A generator that has not failed has counted every character it was handed. -/
theorem relay_chars (o : StreamOutcome) (tokens : List Text) (hf : (relay o tokens ending).outcome.failed = false) :
    (relay o tokens ending).outcome.generatedChars = o.generatedChars + tokens.flatten.length := by
  induction tokens generalizing o with
  | nil =>
    cases ending with
    | stopped => rfl
    | dispatchError detail status =>
      unfold relay at hf
      split at hf <;> cases hf
    | broken => cases hf
    | waiting => rfl
  | cons token rest ih =>
    unfold relay at hf ⊢
    dsimp only at hf ⊢
    split at hf
    · rename_i hs
      rw [if_pos hs]
      refine (ih _ hf).trans ?_
      rw [List.flatten_cons, List.length_append, Nat.add_assoc]
    · cases hf

/-- A stream that ends normally is charged a quarter of its characters, however it was split. -/
theorem completeStream_charge (hopen : openInferenceStream py r b.mesh.queue b.httpStream = .ok s)
    (hc : (completeStream py q r b).charge = some c) (hdone : c.succeeded = true) :
    c = q.charge (s.tokens.flatten.length / 4) true := by
  unfold completeStream at hc
  rw [hopen] at hc
  obtain ⟨⟨outcome, raised⟩, hsse, rfl⟩ := Option.map_eq_some_iff.mp hc
  obtain ⟨rfl, hfailed⟩ : raised = false ∧ outcome.failed = false := by
    simpa [Assigned.charge] using hdone
  obtain ⟨rfl, _⟩ := over_eq_some (meteredSse_over hsse).1
  have hchars : (sseGenerator s).outcome.generatedChars = 0 + s.tokens.flatten.length :=
    relay_chars ⟨0, false⟩ s.tokens hfailed
  dsimp only
  rw [hchars, Nat.zero_add, hfailed]
  rfl

theorem completeOnce_charge (honce : (inferOnce py r q.target b.mesh.queue b.http).result = .ok (model, t))
    (hc : (completeOnce py q r b).charge = some c) : c = q.charge (estimateTokens t) true := by
  unfold completeOnce at hc
  rw [honce] at hc
  exact (Option.some.inj hc).symm

end

/-- A streamed completion that ends normally is recorded like the plain one that returns the same text,
however the text is split, exactly if it has no character or at least four. -/
theorem streamed_counts_iff {py : Builtins} {q : Assigned} {r r' : Route} {b b' : Behaviour} {s : Streamed}
    {u u' : UsageRecord} {model : Text}
    (hopen : openInferenceStream py r b.mesh.queue b.httpStream = .ok s)
    (hu : Leaves (createChatCompletion py { q with stream := true } r b) u) (hdone : u.succeeded = true)
    (honce : (inferOnce py r' q.target b'.mesh.queue b'.http).result = .ok (model, s.tokens.flatten))
    (hu' : Leaves (createChatCompletion py { q with stream := false } r' b') u') :
    (u.promptTokens = u'.promptTokens ∧ u.completionTokens = u'.completionTokens) ↔
      s.tokens.flatten = [] ∨ 4 ≤ s.tokens.flatten.length := by
  obtain ⟨c, clock, hc, husage⟩ := hu
  obtain ⟨c', clock', hc', husage'⟩ := hu'
  obtain ⟨_, _, _, hsucceeded⟩ := Charge.usage_eq_some husage
  rw [createChatCompletion, if_pos rfl] at hc
  rw [createChatCompletion, if_neg Bool.false_ne_true] at hc'
  obtain rfl := completeStream_charge hopen hc (hsucceeded.symm.trans hdone)
  obtain rfl := completeOnce_charge honce hc'
  obtain ⟨hprompt, hcompletion⟩ := Charge.usage_tokens husage
  obtain ⟨hprompt', hcompletion'⟩ := Charge.usage_tokens husage'
  rw [hprompt, hprompt', hcompletion, hcompletion']
  exact (and_iff_right rfl).trans (estimateTokens_quarter _)

/-- A node that is asked over HTTP and answers the same text either way, in one line. -/
def answering (t : String) : Behaviour :=
  ⟨⟨[], false, 0⟩, .ok (some (.obj [(text "response", .str (text t))])), .ok true [text t, text "\n"], .stays⟩

def httpRoute : Route := ⟨none, true, false, none, none, 8001⟩

/-- The record that a request which is answered so leaves. -/
def recordOf (stream : Bool) (t : String) : Option UsageRecord :=
  (createChatCompletion ⟨fun _ => [], fun _ => none⟩ { Recording.greetingRequest with stream } httpRoute
    (answering t)).charge.bind (·.usage ⟨1, 0, 0⟩)

theorem leaves_recordOf (h : recordOf stream t = some u) :
    Leaves (createChatCompletion ⟨fun _ => [], fun _ => none⟩ { Recording.greetingRequest with stream } httpRoute
      (answering t)) u := by
  obtain ⟨c, hc, hu⟩ := Option.bind_eq_some_iff.mp h
  exact ⟨c, _, hc, hu⟩

theorem hello_counts_alike : ∃ u u', recordOf true "Hello" = some u ∧ recordOf false "Hello" = some u' ∧
    ((u.promptTokens = u'.promptTokens ∧ u.completionTokens = u'.completionTokens) ↔
      text "Hello" = [] ∨ 4 ≤ (text "Hello").length) := by
  have hline : httpStream ⟨fun _ => [], fun _ => none⟩ true [text "Hello", text "\n"] =
      ⟨[text "Hello"], .stopped⟩ := by decide +kernel
  have hopen : openInferenceStream ⟨fun _ => [], fun _ => none⟩ httpRoute (answering "Hello").mesh.queue
      (answering "Hello").httpStream = .ok ⟨[text "Hello"], .stopped⟩ := congrArg Except.ok hline
  have hstreamed : (recordOf true "Hello").map UsageRecord.succeeded = some true := by decide +kernel
  have honce : (recordOf false "Hello").map UsageRecord.succeeded = some true := by decide +kernel
  obtain ⟨u, hu, hdone⟩ := Option.map_eq_some_iff.mp hstreamed
  obtain ⟨u', hu', _⟩ := Option.map_eq_some_iff.mp honce
  exact ⟨u, u', hu, hu', streamed_counts_iff hopen (leaves_recordOf hu) hdone rfl (leaves_recordOf hu')⟩

/-- A streamed `Hi` counts for nothing, a plain one for a token. -/
theorem short_text_counts_apart :
    ¬ ∀ (py : Builtins) (q : Assigned) (r r' : Route) (b b' : Behaviour) (s : Streamed) (u u' : UsageRecord)
      (model : Text), openInferenceStream py r b.mesh.queue b.httpStream = .ok s →
      Leaves (createChatCompletion py { q with stream := true } r b) u → u.succeeded = true →
      (inferOnce py r' q.target b'.mesh.queue b'.http).result = .ok (model, s.tokens.flatten) →
      Leaves (createChatCompletion py { q with stream := false } r' b') u' →
      u.promptTokens = u'.promptTokens ∧ u.completionTokens = u'.completionTokens := by
  intro h
  have hline : httpStream ⟨fun _ => [], fun _ => none⟩ true [text "Hi", text "\n"] = ⟨[text "Hi"], .stopped⟩ := by
    decide +kernel
  have hopen : openInferenceStream ⟨fun _ => [], fun _ => none⟩ httpRoute (answering "Hi").mesh.queue
      (answering "Hi").httpStream = .ok ⟨[text "Hi"], .stopped⟩ := congrArg Except.ok hline
  have hstreamed : (recordOf true "Hi").map (fun u => (u.succeeded, u.completionTokens)) = some (true, 0) := by
    decide +kernel
  have honce : (recordOf false "Hi").map UsageRecord.completionTokens = some 1 := by decide +kernel
  obtain ⟨u, hu, hcount⟩ := Option.map_eq_some_iff.mp hstreamed
  obtain ⟨u', hu', hcount'⟩ := Option.map_eq_some_iff.mp honce
  obtain ⟨hdone, hzero⟩ := Prod.mk.inj hcount
  obtain ⟨_, halike⟩ := h ⟨fun _ => [], fun _ => none⟩ Recording.greetingRequest httpRoute httpRoute (answering "Hi")
    (answering "Hi") _ u u' _ hopen (leaves_recordOf hu) hdone rfl (leaves_recordOf hu')
  rw [hzero, hcount'] at halike
  cases halike

end TokenCounts
end PublicIntelligence.System
