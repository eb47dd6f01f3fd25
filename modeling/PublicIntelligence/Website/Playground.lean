import Mathlib.Data.List.TakeWhile
import PublicIntelligence.Website.Sse

namespace PublicIntelligence.Website

open Text

/-- What the loop over the reads of a response keeps: the text that no line end has come for yet, the
assistant's text so far, and the count behind the metrics. -/
structure ReadLoop where
  buffer : Text
  accumulatedText : Text
  completionTokenCount : Nat

namespace ReadLoop

def start : ReadLoop := ⟨[], [], 0⟩

/-- `accumulatedText += deltaContent` -/
def append (s : ReadLoop) (deltaContent : Text) : ReadLoop :=
  { s with
    accumulatedText := s.accumulatedText ++ deltaContent
    completionTokenCount := s.completionTokenCount + estimateTokens deltaContent }

/-- The loop over the lines. Its `break` leaves the read that the end came in, and no more than that. -/
def consume (s : ReadLoop) : List Text → ReadLoop
  | [] => s
  | line :: lines =>
    let event := parseSseLine line
    if event.done then s
    else if event.delta = [] then s.consume lines
    else (s.append event.delta).consume lines

/-- One turn of the loop over the reads, with what the decoder makes of the read. -/
def read (s : ReadLoop) (value : Text) : ReadLoop :=
  let split := splitSseBuffer (s.buffer ++ value)
  { s with buffer := split.rest }.consume split.lines

def readAll (s : ReadLoop) (reads : List Text) : ReadLoop := reads.foldl read s

end ReadLoop

/-- The assistant's text at the end of a response. -/
def assistantText (reads : List Text) : Text := (ReadLoop.start.readAll reads).accumulatedText

/-- The lines of a text. What follows the last line end is none. -/
def lines (t : Text) : List Text := (splitSseBuffer t).lines

/-- The lines that a read completes. -/
def newLines (before value : Text) : List Text := (lines (before ++ value)).drop (lines before).length

def beforeDone (lines : List Text) : List Text := lines.takeWhile fun line => !(parseSseLine line).done

def content (lines : List Text) : Text := lines.flatMap fun line => (parseSseLine line).delta

/-- What stands before the `[DONE]` line of a text. -/
def told (t : Text) : Text := content (beforeDone (lines t))

/-- The text has a `[DONE]` line. -/
def finished (t : Text) : Bool := (lines t).any fun line => (parseSseLine line).done

/-- A read that comes in behind the `[DONE]` line completes no line with content, except behind another
`[DONE]` line. -/
def Quiet (reads : List Text) : Prop :=
  ∀ before value after, reads = before ++ value :: after → finished before.flatten = true →
    ∀ line ∈ beforeDone (newLines before.flatten value), (parseSseLine line).delta = []

section
variable {s : ReadLoop}

theorem lines_append (before value : Text) :
    lines (before ++ value) = lines before ++ newLines before value ∧
      newLines before value = lines ((splitSseBuffer before).rest ++ value) := by
  have hall : lines (before ++ value) = lines before ++ lines ((splitSseBuffer before).rest ++ value) :=
    (splitSseBuffer_append before value).1
  have hnew : newLines before value = lines ((splitSseBuffer before).rest ++ value) := by
    rw [newLines, hall, List.drop_left]
  exact ⟨hnew ▸ hall, hnew⟩

theorem consume_spec (s : ReadLoop) (ls : List Text) :
    (s.consume ls).buffer = s.buffer ∧
      (s.consume ls).accumulatedText = s.accumulatedText ++ content (beforeDone ls) := by
  induction ls generalizing s with
  | nil => exact ⟨rfl, (List.append_nil _).symm⟩
  | cons line ls ih =>
    rw [ReadLoop.consume]
    cases hdone : (parseSseLine line).done with
    | true => simp [beforeDone, content, hdone]
    | false =>
      have hmore : beforeDone (line :: ls) = line :: beforeDone ls := by simp [beforeDone, hdone]
      rw [if_neg Bool.false_ne_true, hmore, content, List.flatMap_cons]
      split
      · rename_i hempty
        rw [hempty, List.nil_append]
        exact ih s
      · obtain ⟨hbuffer, htext⟩ := ih (s.append (parseSseLine line).delta)
        refine ⟨hbuffer, htext.trans ?_⟩
        rw [ReadLoop.append, List.append_assoc]
        rfl

/-- A read adds what the lines it completes say before an end. -/
theorem read_spec (h : s.buffer = (splitSseBuffer before).rest) (value : Text) :
    (s.read value).buffer = (splitSseBuffer (before ++ value)).rest ∧
      (s.read value).accumulatedText = s.accumulatedText ++ content (beforeDone (newLines before value)) := by
  obtain ⟨hbuffer, htext⟩ := consume_spec { s with buffer := (splitSseBuffer (s.buffer ++ value)).rest }
    (splitSseBuffer (s.buffer ++ value)).lines
  rw [ReadLoop.read, (lines_append before value).2, (splitSseBuffer_append before value).2, ← h]
  exact ⟨hbuffer, htext⟩

/-- What reads append that come in behind the `[DONE]` line. -/
def late (before : Text) : List Text → Text
  | [] => []
  | value :: reads =>
    (if finished before then content (beforeDone (newLines before value)) else []) ++ late (before ++ value) reads

theorem beforeDone_append (ls ls' : List Text) :
    beforeDone (ls ++ ls') =
      if ls.any (fun line => (parseSseLine line).done) then beforeDone ls else ls ++ beforeDone ls' := by
  induction ls with
  | nil => rfl
  | cons l ls ih =>
    cases hdone : (parseSseLine l).done with
    | true => simp [beforeDone, hdone]
    | false =>
      have hmore : ∀ ls, beforeDone (l :: ls) = l :: beforeDone ls := fun ls => by simp [beforeDone, hdone]
      rw [List.cons_append, hmore, ih, hmore, List.any_cons, hdone, Bool.false_or]
      split <;> rfl

/-- A text that is finished says no more, and one that is not goes on. -/
theorem told_append (before value : Text) :
    told (before ++ value) =
      told before ++ if finished before then [] else content (beforeDone (newLines before value)) := by
  rw [told, (lines_append before value).1, beforeDone_append]
  change content (if finished before then _ else _) = _
  split
  · rw [List.append_nil, told]
  · rename_i hfin
    have hall : beforeDone (lines before) = lines before := by
      refine List.takeWhile_eq_self_iff.mpr fun line hline => ?_
      rw [Bool.not_eq_true', ← Bool.not_eq_true]
      exact fun hdone => hfin (List.any_eq_true.mpr ⟨line, hline, hdone⟩)
    rw [told, hall, content, List.flatMap_append]
    rfl

theorem finished_append (h : finished before = true) (value : Text) : finished (before ++ value) = true := by
  rw [finished, (lines_append before value).1, List.any_append]
  exact Bool.or_eq_true_iff.mpr (.inl h)

/-- The text is what stands before the `[DONE]` line, what was appended behind it, and what late reads append. -/
theorem readAll_spec (reads : List Text) {before : Text} (more : Text) (h : s.buffer = (splitSseBuffer before).rest)
    (htext : s.accumulatedText = told before ++ more) (hmore : finished before = false → more = []) :
    (s.readAll reads).accumulatedText = told (before ++ reads.flatten) ++ more ++ late before reads := by
  induction reads generalizing s before more with
  | nil => simpa [ReadLoop.readAll, late] using htext
  | cons value reads ih =>
    obtain ⟨hbuffer, hread⟩ := read_spec h value
    have hnext := told_append before value
    rw [ReadLoop.readAll, List.foldl_cons, ← ReadLoop.readAll, List.flatten_cons, ← List.append_assoc before, late]
    cases hfin : finished before with
    | true =>
      rw [hfin, if_pos rfl, List.append_nil] at hnext
      have hstill := finished_append hfin value
      have htext' : (s.read value).accumulatedText =
          told (before ++ value) ++ (more ++ content (beforeDone (newLines before value))) := by
        rw [hread, htext, hnext, List.append_assoc]
      have hnone : finished (before ++ value) = false → more ++ content (beforeDone (newLines before value)) = [] :=
        fun hno => absurd (hstill.symm.trans hno) Bool.noConfusion
      rw [ih _ hbuffer htext' hnone, if_pos rfl]
      simp only [List.append_assoc]
    | false =>
      obtain rfl := hmore hfin
      rw [hfin, if_neg Bool.false_ne_true] at hnext
      have htext' : (s.read value).accumulatedText = told (before ++ value) ++ [] := by
        rw [hread, htext, hnext, List.append_nil, List.append_nil]
      rw [ih [] hbuffer htext' fun _ => rfl, if_neg Bool.false_ne_true, List.nil_append]

theorem late_eq_nil (before : Text) (reads : List Text) :
    late before reads = [] ↔ ∀ earlier value after, reads = earlier ++ value :: after →
      finished (before ++ earlier.flatten) = true →
      ∀ line ∈ beforeDone (newLines (before ++ earlier.flatten) value), (parseSseLine line).delta = [] := by
  induction reads generalizing before with
  | nil => exact iff_of_true rfl fun earlier value after h => absurd h (by simp)
  | cons value reads ih =>
    have hfirst : (if finished before then content (beforeDone (newLines before value)) else []) = [] ↔
        (finished before = true → ∀ line ∈ beforeDone (newLines before value), (parseSseLine line).delta = []) := by
      cases finished before <;> simp [content]
    rw [late, List.append_eq_nil_iff, hfirst, ih]
    constructor
    · rintro ⟨hnow, hlater⟩ earlier v after heq
      cases earlier with
      | nil =>
        obtain ⟨rfl, rfl⟩ := List.cons.inj heq
        simpa using hnow
      | cons e earlier =>
        obtain ⟨rfl, hrest⟩ := List.cons.inj heq
        simpa using hlater earlier v after hrest
    · intro h
      refine ⟨by simpa using h [] value reads rfl, fun earlier v after heq => ?_⟩
      simpa using h (value :: earlier) v after (congrArg (value :: ·) heq)

theorem assistantText_eq (reads : List Text) : assistantText reads = told reads.flatten ++ late [] reads := by
  have hbuffer : ReadLoop.start.buffer = (splitSseBuffer []).rest := rfl
  have htext : ReadLoop.start.accumulatedText = told [] ++ [] := rfl
  rw [assistantText, readAll_spec reads [] hbuffer htext fun _ => rfl, List.nil_append, List.append_nil]

theorem assistantText_told_iff (reads : List Text) : assistantText reads = told reads.flatten ↔ Quiet reads := by
  rw [assistantText_eq, List.append_right_eq_self, late_eq_nil]
  exact Iff.rfl

end

/-- Two ways of splitting a text leave the same text behind, and nothing that comes after its `[DONE]` line,
exactly if both are quiet. -/
theorem chunking_irrelevant_iff (t : Text) (reads reads' : List Text) (h : reads.flatten = t)
    (h' : reads'.flatten = t) :
    (assistantText reads = assistantText reads' ∧ assistantText reads = told t ∧ assistantText reads' = told t) ↔
      Quiet reads ∧ Quiet reads' := by
  subst h
  rw [← assistantText_told_iff, ← assistantText_told_iff, h']
  exact ⟨fun hall => hall.2, fun hall => ⟨hall.1.trans hall.2.symm, hall⟩⟩

def doneLine : Text := text "data: [DONE]\n"

def afterDone : Text := text "data: \x7b\"choices\": [\x7b\"delta\": \x7b\"content\": \"X\"\x7d\x7d]\x7d\n"

/-- What comes after the end in a read of its own is appended, and in the read of the end it is not. -/
theorem late_content_is_appended :
    ¬ ∀ (t : Text) (reads reads' : List Text), reads.flatten = t → reads'.flatten = t →
      assistantText reads = assistantText reads' ∧ assistantText reads = told t ∧ assistantText reads' = told t := by
  intro h
  have hone : assistantText [doneLine ++ afterDone] = [] := by decide +kernel
  have htwo : assistantText [doneLine, afterDone] = text "X" := by decide +kernel
  have hsame := (h (doneLine ++ afterDone) [doneLine ++ afterDone] [doneLine, afterDone] (by simp) (by simp)).1
  rw [hone, htwo] at hsame
  cases hsame

/-- A text that has nothing behind its end may be split anywhere. -/
theorem split_inside_the_end :
    (assistantText [afterDone, doneLine] = assistantText [afterDone ++ text "data: [DO", text "NE]\n"] ∧
        assistantText [afterDone, doneLine] = told (afterDone ++ doneLine) ∧
        assistantText [afterDone ++ text "data: [DO", text "NE]\n"] = told (afterDone ++ doneLine)) ↔
      Quiet [afterDone, doneLine] ∧ Quiet [afterDone ++ text "data: [DO", text "NE]\n"] :=
  chunking_irrelevant_iff (afterDone ++ doneLine) _ _ (by decide +kernel) (by decide +kernel)

end PublicIntelligence.Website
