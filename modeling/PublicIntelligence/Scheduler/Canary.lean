import PublicIntelligence.Lib.Dict
import PublicIntelligence.Lib.Text

namespace PublicIntelligence.Scheduler

open Text

/-- A prompt whose answer a working model of any size will contain. -/
structure Canary where
  prompt : Text
  accept : List Text

/-- A character of `[a-z0-9]`. -/
def isWord (c : CodePoint) : Bool := (97 ≤ c.val && c.val ≤ 122) || (48 ≤ c.val && c.val ≤ 57)

/-- `_WORD.findall` with `word` already read. -/
def wordsFrom (word : Text) : Text → List Text
  | [] => if word = [] then [] else [word]
  | c :: cs =>
    if isWord c then wordsFrom (word ++ [c]) cs
    else if word = [] then wordsFrom [] cs
    else word :: wordsFrom [] cs

def words (t : Text) : List Text := wordsFrom [] t

section
variable (lower : Text → Text)

def score (canary : Canary) (response : Text) : Bool :=
  if strip response = [] then false
  else canary.accept.any fun term => words (lower response) |>.contains (lower term)

/-- More than four fifths of the response's words are words of the prompt. -/
def looksLikeAnEcho (prompt response : Text) : Bool :=
  let promptWords := words (lower prompt)
  let responseWords := words (lower response)
  if responseWords = [] then false
  else
    let overlap := responseWords.countP promptWords.contains
    4 * responseWords.length < 5 * overlap

end

/-- What canary checks have found about one node. -/
structure NodeCanaryState (τ : Type) where
  consecutiveFailures : Nat
  passes : Nat
  failures : Nat
  quarantined : Bool
  lastCheckedAt : Option τ
  lastDetail : Text
  history : List Bool

namespace NodeCanaryState

def fresh : NodeCanaryState τ := ⟨0, 0, 0, false, none, [], []⟩

def maxHistory : Nat := 50

/-- `del history[:-50]` once the result is appended. -/
def remember (history : List Bool) (passed : Bool) : List Bool :=
  let all := history ++ [passed]
  all.drop (all.length - maxHistory)

/-- The state after a check that found `passed`. -/
def after (threshold : Nat) (s : NodeCanaryState τ) (now : τ) (echoed passed : Bool) : NodeCanaryState τ :=
  if passed then
    { s with
      passes := s.passes + 1
      consecutiveFailures := 0
      quarantined := false
      lastCheckedAt := some now
      lastDetail := text "ok"
      history := remember s.history passed }
  else
    { s with
      failures := s.failures + 1
      consecutiveFailures := s.consecutiveFailures + 1
      quarantined := s.quarantined || decide (threshold ≤ s.consecutiveFailures + 1)
      lastCheckedAt := some now
      lastDetail := if echoed then text "echoed the prompt" else text "wrong or empty answer"
      history := remember s.history passed }

end NodeCanaryState

structure CanaryVerifier (τ : Type) where
  failuresBeforeQuarantine : Nat
  state : Dict Text (NodeCanaryState τ)

namespace CanaryVerifier

def defaultFailuresBeforeQuarantine : Nat := 3

/-- The constructor: zero and none mean the default. -/
def new (failuresBeforeQuarantine : Option Nat) : CanaryVerifier τ where
  failuresBeforeQuarantine :=
    match failuresBeforeQuarantine with
    | none | some 0 => defaultFailuresBeforeQuarantine
    | some (n + 1) => n + 1
  state := .empty

def isQuarantined (v : CanaryVerifier τ) (nodeId : Text) : Bool :=
  (v.state.get? nodeId).any NodeCanaryState.quarantined

/-- Whether a reply passes its canary. -/
def passes (lower : Text → Text) (canary : Canary) (response : Text) : Bool :=
  score lower canary response && !looksLikeAnEcho lower canary.prompt response

/-- `record`, and the verifier after it. -/
def record (lower : Text → Text) (v : CanaryVerifier τ) (now : τ) (nodeId : Text) (canary : Canary)
    (response : Text) : CanaryVerifier τ × Bool :=
  let echoed := looksLikeAnEcho lower canary.prompt response
  let passed := passes lower canary response
  let s := (v.state.get? nodeId).getD .fresh
  ({ v with state := v.state.set nodeId (s.after v.failuresBeforeQuarantine now echoed passed) }, passed)

/-- `forget`. Nothing in the Scheduler calls it. -/
def forget (v : CanaryVerifier τ) (nodeId : Text) : CanaryVerifier τ := { v with state := v.state.pop nodeId }

/-- How many of the latest results are failures in a row. The latest comes first. -/
def failuresInARow (results : List Bool) : Nat := (results.takeWhile (!·)).length

/-- The verifier's state of each node is what the results of its checks make of it. -/
structure Agrees (v : CanaryVerifier τ) (results : Text → List Bool) : Prop where
  positive : 0 < v.failuresBeforeQuarantine
  counted : ∀ n, ((v.state.get? n).getD .fresh).consecutiveFailures = failuresInARow (results n)
  verdict : ∀ n, v.isQuarantined n = true ↔ v.failuresBeforeQuarantine ≤ failuresInARow (results n)

/-- The results once another one of a node has come in. -/
def addResult (results : Text → List Bool) (nodeId : Text) (passed : Bool) : Text → List Bool :=
  fun n => if n = nodeId then passed :: results n else results n

section
variable {v : CanaryVerifier τ} {results : Text → List Bool}

theorem new_positive (given : Option Nat) :
    0 < (new given : CanaryVerifier τ).failuresBeforeQuarantine := by
  unfold new
  split
  · exact Nat.succ_pos 2
  · exact Nat.succ_pos 2
  · exact Nat.succ_pos _

theorem agrees_new (given : Option Nat) : Agrees (new given : CanaryVerifier τ) fun _ => [] where
  positive := new_positive given
  counted _ := rfl
  verdict _ := iff_of_false Bool.false_ne_true (Nat.not_le.mpr (new_positive given))

theorem isQuarantined_getD (v : CanaryVerifier τ) (n : Text) :
    v.isQuarantined n = ((v.state.get? n).getD .fresh).quarantined := by
  unfold isQuarantined
  cases v.state.get? n <;> rfl

/-- One more check keeps the agreement: a pass releases the node, a failure counts. -/
theorem Agrees.record (h : Agrees v results) (lower : Text → Text) (now : τ) (nodeId : Text)
    (canary : Canary) (response : Text) :
    Agrees (v.record lower now nodeId canary response).1
      (addResult results nodeId (v.record lower now nodeId canary response).2) := by
  have hcount := h.counted nodeId
  have hverdict := h.verdict nodeId
  rw [isQuarantined_getD] at hverdict
  have hafter : ∀ echoed passed,
      (((v.state.get? nodeId).getD .fresh).after v.failuresBeforeQuarantine now echoed
          passed).consecutiveFailures = failuresInARow (passed :: results nodeId) ∧
        ((((v.state.get? nodeId).getD .fresh).after v.failuresBeforeQuarantine now echoed
          passed).quarantined = true ↔
            v.failuresBeforeQuarantine ≤ failuresInARow (passed :: results nodeId)) := by
    intro echoed passed
    have hpos := h.positive
    cases passed with
    | true =>
      refine ⟨rfl, iff_of_false Bool.false_ne_true ?_⟩
      change ¬ v.failuresBeforeQuarantine ≤ 0
      omega
    | false =>
      have hrow : failuresInARow (false :: results nodeId) = failuresInARow (results nodeId) + 1 := rfl
      rw [hrow]
      simp only [NodeCanaryState.after, Bool.false_eq_true, if_false, hcount, Bool.or_eq_true,
        hverdict, decide_eq_true_eq, true_and]
      omega
  constructor
  · exact h.positive
  · intro n
    by_cases hn : n = nodeId
    · subst hn
      simp only [CanaryVerifier.record, addResult, if_true, Dict.get?_set_self, Option.getD_some]
      exact (hafter _ _).1
    · simp only [CanaryVerifier.record, addResult, if_neg hn, Dict.get?_set_ne _ _ (Ne.symm hn)]
      exact h.counted n
  · intro n
    rw [isQuarantined_getD]
    by_cases hn : n = nodeId
    · subst hn
      simp only [CanaryVerifier.record, addResult, if_true, Dict.get?_set_self, Option.getD_some]
      exact (hafter _ _).2
    · simp only [CanaryVerifier.record, addResult, if_neg hn, Dict.get?_set_ne _ _ (Ne.symm hn)]
      rw [← isQuarantined_getD]
      exact h.verdict n

end

end CanaryVerifier
end PublicIntelligence.Scheduler
