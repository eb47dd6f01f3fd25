import PublicIntelligence.Lib.Runs
import PublicIntelligence.Lib.Text
import PublicIntelligence.Node.RadixInsert

namespace PublicIntelligence.Node

open Text Words Runs RadixTrieNode

structure InferenceRequest where
  model : Text
  prompt : Text
  stream : Bool
  worktreeTargetBranch : Option Text
deriving DecidableEq

structure InferenceResponse where
  model : Text
  response : Text
deriving DecidableEq

def validateNonEmpty (v : Text) : Option Text := if strip v = [] then none else some (strip v)

def validateBranchName : Option Text → Option (Option Text)
  | none => some none
  | some v => if strip v = [] then none else some (some (strip v))

/-- `InferenceRequest(...)`, or `none` where a field validator refuses it. -/
def InferenceRequest.validate (model prompt : Text) (stream : Bool) (branch : Option Text) :
    Option InferenceRequest := do
  let model ← validateNonEmpty model
  let prompt ← validateNonEmpty prompt
  let branch ← validateBranchName branch
  return ⟨model, prompt, stream, branch⟩

/-- How a call to Ollama ends. `neverStarted` is a streaming response whose body
was never iterated. -/
inductive Ending where
  | answered (response : InferenceResponse)
  | failed (message : Text)
  | neverStarted

inductive InferReply where
  | answered (response : InferenceResponse)
  | streamed
  | error (status : Nat) (detail : Text)

/-- An unpulled model is a 404, any other Ollama failure a 500. -/
def statusOf (message : Text) : Nat :=
  if contains (lower message) (text "not found") then 404 else 500

/-- The route up to the call to Ollama: the cache after the lookup, and the
request that is handed over. Assigning `request.prompt` does not validate it again. -/
def inferBegin (cache : RadixTrieCache CodePoint) (request : InferenceRequest) :
    RadixTrieCache CodePoint × InferenceRequest :=
  let (cache, _, suffix) := cache.lookupPrefix request.prompt
  (cache, { request with prompt := suffix })

/-- The route after the call. A stream inserts its prompt in a `finally`, so also
when it fails; a plain completion inserts it only when it was answered. -/
def inferEnd (cache : RadixTrieCache CodePoint) (originalPrompt : Text) (stream : Bool) :
    Ending → RadixTrieCache CodePoint × Option InferReply
  | .answered response =>
    (cache.insertPrefix originalPrompt, some (if stream then .streamed else .answered response))
  | .failed message =>
    if stream then (cache.insertPrefix originalPrompt, some .streamed)
    else (cache, some (.error (statusOf message) message))
  | .neverStarted => (cache, none)

/-- The prefix cache and the `/infer` calls Ollama has not finished, by their
original prompt and whether they stream. -/
structure Serving where
  cache : RadixTrieCache CodePoint
  running : List (Text × Bool)

namespace Serving

def start (capacity : Int) : Serving := ⟨.new capacity, []⟩

/-- What the HTTP route hands to `OllamaClient` for a request that arrives now. -/
def inferHands (s : Serving) (model prompt : Text) (stream : Bool) : Option InferenceRequest :=
  (InferenceRequest.validate model prompt stream none).map fun r => (inferBegin s.cache r).2

/-- What `_serve_once` and `_serve_stream` hand over for the same request. -/
def serveHands (model prompt : Text) (stream : Bool) : Option InferenceRequest :=
  InferenceRequest.validate model prompt stream none

inductive Event where
  | infer (model prompt : Text) (stream : Bool) (branch : Option Text)
  | ended (i : Nat) (ending : Ending)
  | serve (model prompt : Text) (stream : Bool)

/-- One request reaching the node, or one `/infer` call finishing. The mesh route
never touches the cache. -/
def step : Step Serving Event
  | s, .infer model prompt stream branch =>
    match InferenceRequest.validate model prompt stream branch with
    | none => some s
    | some r => some ⟨(inferBegin s.cache r).1, s.running ++ [(r.prompt, stream)]⟩
  | s, .ended i ending =>
    match s.running[i]? with
    | none => none
    | some (prompt, stream) => some ⟨(inferEnd s.cache prompt stream ending).1, s.running.eraseIdx i⟩
  | s, .serve _ _ _ => some s

end Serving

section
variable [DecidableEq τ]

omit [DecidableEq τ] in
theorem Holds.congr {root : RadixTrieNode τ} (h : Holds root ps) (hq : ∀ x, x ∈ qs ↔ x ∈ ps) :
    Holds root qs :=
  ⟨h.path, h.siblings, fun x => (h.words x).trans (hq x).symm⟩

/-- A lookup only reorders the prompts. -/
theorem mem_prompts_lookup (c : RadixTrieCache τ) (q : List τ) :
    x ∈ (c.lookupPrefix q).1.prompts ↔ x ∈ c.prompts := by
  simp only [RadixTrieCache.lookupPrefix]
  split
  · rfl
  · exact (touched_perm fun t ht => (List.mem_filter.mp ht).1).mem_iff

theorem Holds.lookup {c : RadixTrieCache τ} (h : Holds c.root c.prompts) (q : List τ) :
    Holds (c.lookupPrefix q).1.root (c.lookupPrefix q).1.prompts :=
  h.congr fun _ => mem_prompts_lookup c q

theorem Holds.insertPrefix {c : RadixTrieCache τ} (h : Holds c.root c.prompts) (q : List τ) :
    Holds (c.insertPrefix q).root (c.insertPrefix q).prompts := by
  simp only [RadixTrieCache.insertPrefix]
  split
  · exact holds_rebuild _
  · exact h.insert q fun x => mem_moveToEnd

/-- No token at the front of `q` is shared with the cache in the way the trie
records: `q` starts with no cached prompt and with no place where two part. -/
def Unseen (prompts : List (List τ)) (q : List τ) : Prop :=
  ∀ p, p ≠ [] → p <+: q → ¬ Junction (· ∈ prompts) p

theorem lcp_ne_nil {u v : List τ} (h : lcp u v ≠ []) : u ≠ [] ∧ v ≠ [] := by
  refine ⟨fun hu => h ?_, fun hv => h ?_⟩
  · subst hu; rfl
  · subst hv; cases u <;> rfl

/-- Away from the empty prompt, the words below the root are the cached prompts. -/
theorem Holds.junction {root : RadixTrieNode τ} (h : Holds root ps) (hp : p ≠ []) :
    Junction (· ∈ wordsAmong root.children) p ↔ Junction (· ∈ ps) p := by
  have hmem : ∀ u, u ≠ [] → (u ∈ wordsAmong root.children ↔ u ∈ ps) := fun u hu => by
    rw [← h.words u, mem_wordsBelow]
    simp [hu]
  constructor
  · rintro ⟨u, v, hu, hv, rfl⟩
    exact ⟨u, v, (hmem u (lcp_ne_nil hp).1).mp hu, (hmem v (lcp_ne_nil hp).2).mp hv, rfl⟩
  · rintro ⟨u, v, hu, hv, rfl⟩
    exact ⟨u, v, (hmem u (lcp_ne_nil hp).1).mpr hu, (hmem v (lcp_ne_nil hp).2).mpr hv, rfl⟩

/-- The lookup leaves the whole prompt exactly when the cache has seen none of it. -/
theorem Holds.suffix_whole {c : RadixTrieCache τ} (h : Holds c.root c.prompts) (q : List τ) :
    (c.lookupPrefix q).2.2 = q ↔ Unseen c.prompts q := by
  change (searchFrom c.root q).2 = q ↔ _
  obtain ⟨hsplit, hfound⟩ := searchFrom_sound c.root q h.siblings
  have hnil : (searchFrom c.root q).2 = q ↔ (searchFrom c.root q).1 = [] := by
    conv_lhs => rhs; rw [← hsplit]
    exact List.self_eq_append_left
  rw [hnil]
  constructor
  · intro hempty p hp hpre hj
    have hlen := searchFrom_longest c.root q p h.siblings ((h.junction hp).mpr hj) hpre
    rw [hempty, List.length_nil, Nat.le_zero] at hlen
    exact hp (List.length_eq_zero_iff.mp hlen)
  · intro hun
    rcases hfound with hempty | hj
    · exact hempty
    · by_contra hne
      exact hun _ hne ⟨_, hsplit⟩ ((h.junction hne).mp hj)

end

namespace Serving

/-- The trie spells exactly the cached prompts. -/
def Spelled (s : Serving) : Prop := Holds s.cache.root s.cache.prompts

theorem step_spelled (s : Serving) (e : Event) (t : Serving) (h : Spelled s)
    (hs : step s e = some t) : Spelled t := by
  cases e with
  | infer model prompt stream branch =>
    simp only [step] at hs
    split at hs
    · cases hs; exact h
    · cases hs; exact h.lookup _
  | ended i ending =>
    simp only [step] at hs
    split at hs
    · cases hs
    · rename_i prompt stream _
      cases hs
      cases ending with
      | answered r => exact h.insertPrefix prompt
      | failed m =>
        cases stream
        · exact h
        · exact h.insertPrefix prompt
      | neverStarted => exact h
  | serve model prompt stream => cases hs; exact h

theorem run_spelled {capacity : Int} (hr : exec step (start capacity) es = some s) : Spelled s :=
  exec_invariant (I := Spelled) step_spelled (s := start capacity) holds_empty hr

/-- After any earlier requests, the two routes hand over the same prompt, the full
one, exactly when the cache has seen no part of its front. -/
theorem infer_hands_full_prompt {capacity : Int} (hr : exec step (start capacity) es = some s)
    (model prompt : Text) (stream : Bool) :
    (s.inferHands model prompt stream).map (·.prompt) =
        (serveHands model prompt stream).map (·.prompt) ↔
      ∀ r, serveHands model prompt stream = some r → Unseen s.cache.prompts r.prompt := by
  unfold inferHands serveHands
  cases InferenceRequest.validate model prompt stream none with
  | none => simp
  | some r =>
    simp only [Option.map_some, Option.some.injEq, forall_eq']
    exact (run_spelled hr).suffix_whole r.prompt

/-- A node that has answered the prompt `hello` once. -/
def warm : Serving :=
  ⟨⟨RadixTrieCache.defaultCapacity, .mk [] false [.mk (text "hello") true []], [text "hello"]⟩, []⟩

theorem warm_reached : exec step (start RadixTrieCache.defaultCapacity)
    [.infer (text "llama3") (text "hello") false none,
      .ended 0 (.answered ⟨text "llama3", text "hi"⟩)] = some warm := by
  rfl

theorem infer_hands_full_prompt_warm :
    (warm.inferHands (text "llama3") (text "good day") false).map (·.prompt) =
        (serveHands (text "llama3") (text "good day") false).map (·.prompt) ↔
      ∀ r, serveHands (text "llama3") (text "good day") false = some r →
        Unseen warm.cache.prompts r.prompt :=
  infer_hands_full_prompt warm_reached _ _ _

/-- Asked for `hello world` after `hello`, the model is asked for ` world`. -/
theorem infer_hands_only_the_rest :
    ¬ ∀ (capacity : Int) (es : List Event) (s : Serving), exec step (start capacity) es = some s →
      ∀ model prompt stream, (s.inferHands model prompt stream).map (·.prompt) =
        (serveHands model prompt stream).map (·.prompt) := by
  intro h
  have hw := h _ _ _ warm_reached (text "llama3") (text "hello world") false
  revert hw
  decide

end Serving
end PublicIntelligence.Node
