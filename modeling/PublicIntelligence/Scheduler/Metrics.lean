import Mathlib.Algebra.Order.BigOperators.Group.List
import Mathlib.Data.Nat.Digits.Lemmas
import PublicIntelligence.Lib.JsonRead
import PublicIntelligence.Scheduler.Matchmaker
import PublicIntelligence.Scheduler.UsageHistory

namespace PublicIntelligence.Scheduler

open Text Json Encoding

/-- How Python writes the quotient of two counts, and the number that `float()` makes of a value. -/
structure Floats where
  quotient : Nat → Nat → String
  float : Json → Option ℚ

/-- What `a / b` is, as a float. -/
def Floats.ratio (fl : Floats) (a b : Nat) : ℚ := (fl.float (.float (fl.quotient a b))).getD 0

/-- The quotient of a part by its whole is written as a number, which `float()` takes. -/
structure Floats.Lawful (fl : Floats) : Prop where
  written : ∀ a b, a ≤ b → 0 < b →
    scanNumber (text (fl.quotient a b)) = .ok (.float (fl.quotient a b), [])
  taken : ∀ a b, a ≤ b → 0 < b → (fl.float (.float (fl.quotient a b))).isSome = true
  zero : ∀ l, zeroLiteral l = true → fl.float (.float l) = some 0

/-- The integer that a counter holds. -/
def tally : Json → Int
  | .int n => n
  | _ => 0

/-- `by_node[record.node_id] = by_node.get(record.node_id, 0) + 1` -/
def countNode (byNode : Fields) (r : UsageRecord) : Fields :=
  Dict.put r.nodeId (.int (((Dict.find r.nodeId byNode).map tally).getD 0 + 1)) byNode

def requestsByNode (records : List UsageRecord) : Fields := records.foldl countNode []

def failedRequests (records : List UsageRecord) : Nat := records.countP fun r => !r.succeeded

section
variable (fl : Floats)

/-- `(failed / len(records)) if records else 0.0` -/
def ratioLiteral (records : List UsageRecord) : String :=
  if records = [] then "0.0" else fl.quotient (failedRequests records) records.length

/-- The counters over some records. -/
def counters (records : List UsageRecord) (registered : Nat) : Fields :=
  [(text "window", .str (text "recent")), (text "window_size", .int UsageMeter.maxRecent),
    (text "nodes_registered", .int registered), (text "requests_in_window", .int records.length),
    (text "requests_failed_in_window", .int (failedRequests records)),
    (text "failure_ratio_in_window", .float (ratioLiteral fl records)),
    (text "prompt_tokens_in_window", .int (records.map UsageRecord.promptTokens).sum),
    (text "completion_tokens_in_window", .int (records.map UsageRecord.completionTokens).sum),
    (text "requests_by_node_in_window", .obj (requestsByNode records)),
    (text "note", .str (text ("All counters are over the most recent window_size requests held " ++
      "in memory, not since process start. The store holds full history.")))]

/-- `GET /metrics` -/
def metrics (m : UsageMeter) (registered : Nat) : Fields :=
  counters fl (m.mostRecent none UsageMeter.maxRecent) registered

/-- The body of the response, unless it cannot be written. -/
def metricsBody (m : UsageMeter) (registered : Nat) : Option Bytes :=
  let body := .obj (metrics fl m registered)
  if printable body then encode (write .raw body) else none

end

namespace Watch

/-- What a poll of the watcher comes to: a body, an HTTP error, no answer at all, or one that
`http.client` gives up on: it breaks off before the length it announced, or starts with no
status line. -/
inductive Response where
  | body (bs : Bytes)
  | error (status : Nat)
  | lost
  | broken

inductive State where
  | ok
  | idle
  | alerting
  | unauthorised
  | unreachable
deriving DecidableEq

structure Thresholds where
  failureRatio : ℚ
  minSample : Int
  consecutive : Int

def Thresholds.default : Thresholds := ⟨1 / 4, 5, 2⟩

/-- What an answer said. -/
structure Detail where
  nodesRegistered : Int
  requestsInWindow : Int
  failureRatioInWindow : ℚ
deriving DecidableEq

structure Result where
  state : State
  firing : List Text
  breaches : Dict Text Int
  detail : Option Detail

def noNodes : Text := text "no_nodes"

def highFailureRatio : Text := text "high_failure_ratio"

def classifyHttpError (status : Nat) : State :=
  if status = 401 ∨ status = 403 then .unauthorised else .unreachable

/-- The payload, or the state of the error; `none` where it raises. No `except` names the
`HTTPException` of a broken answer. -/
def fetch : Response → Option (Except State Json)
  | .body bs =>
    match decode bs with
    | none => some (.error .unreachable)
    | some t =>
      match loads t with
      | .error _ => some (.error .unreachable)
      | .ok payload => some (.ok payload)
  | .error status => some (.error (classifyHttpError status))
  | .lost => some (.error .unreachable)
  | .broken => none

section
variable (fl : Floats) (py : Builtins) (thresholds : Thresholds)

def breached (d : Detail) : Bool :=
  decide (thresholds.minSample ≤ d.requestsInWindow) &&
    decide (thresholds.failureRatio ≤ d.failureRatioInWindow)

/-- The breaches in a row, this answer included. -/
def count (breaches : Dict Text Int) (d : Detail) : Int :=
  if breached thresholds d then (breaches.get? highFailureRatio).getD 0 + 1 else 0

/-- The rules, applied to the figures of one answer. -/
def judge (breaches : Dict Text Int) (d : Detail) : Result :=
  let firing := (if d.nodesRegistered = 0 then [noNodes] else []) ++
    (if thresholds.consecutive ≤ count thresholds breaches d then [highFailureRatio] else [])
  let state := if firing ≠ [] then .alerting else if d.requestsInWindow = 0 then .idle else .ok
  ⟨state, firing, breaches.set highFailureRatio (count thresholds breaches d), some d⟩

/-- `none` where a figure is no number. -/
def evaluate (metrics : Fields) (breaches : Dict Text Int) : Option Result := do
  let requests ← py.intOf (orElse (get? metrics "requests_in_window") (some (.int 0)))
  let nodes ← py.intOf (orElse (get? metrics "nodes_registered") (some (.int 0)))
  let ratio ← fl.float (orElse (get? metrics "failure_ratio_in_window") (some (.float "0.0")))
  return judge thresholds breaches ⟨nodes, requests, ratio⟩

/-- An outage leaves the counters as they are; a payload that is no object raises. -/
def poll (response : Response) (breaches : Dict Text Int) : Option Result :=
  match fetch response with
  | none => none
  | some (.error state) => some ⟨state, [], breaches, none⟩
  | some (.ok .null) => some ⟨.unreachable, [], breaches, none⟩
  | some (.ok (.obj metrics)) => evaluate fl py thresholds metrics breaches
  | some (.ok _) => none

end

/-- The exit code of a single poll. -/
def exitCode (r : Result) : Nat :=
  if r.state = .unreachable ∨ r.state = .unauthorised then 2 else if r.firing ≠ [] then 1 else 0

end Watch

section
variable {fl : Floats}

/-- The failed requests of a window, as the fraction that is reported. -/
def failureRatio (fl : Floats) (records : List UsageRecord) : ℚ :=
  if records = [] then 0 else fl.ratio (failedRequests records) records.length

theorem failureRatio_reverse (records : List UsageRecord) :
    failureRatio fl records.reverse = failureRatio fl records := by
  have hfailed : failedRequests records.reverse = failedRequests records := List.countP_reverse
  rw [failureRatio, failureRatio, hfailed, List.length_reverse]
  simp only [List.reverse_eq_nil_iff]

/-- An integer of at most thirty digits is short enough to be printed. -/
theorem natText_short (h : n < 10 ^ 30) : (natText n).length ≤ maxDigits := by
  unfold natText
  split
  · decide
  · rw [List.length_map, List.length_reverse]
    have hdigits : (Nat.digits 10 n).length ≤ 30 := (Nat.digits_length_le_iff (by omega) n).mpr h
    exact hdigits.trans (by decide)

theorem mem_put_fields {d : Fields} (h : e ∈ Dict.put k v d) : e = (k, v) ∨ e ∈ d := by
  induction d with
  | nil => exact .inl (List.mem_singleton.mp h)
  | cons f d ih =>
    unfold Dict.put at h
    split at h
    · rcases List.mem_cons.mp h with h | h
      · exact .inl h
      · exact .inr (List.mem_cons_of_mem _ h)
    · rcases List.mem_cons.mp h with h | h
      · exact .inr (h ▸ List.mem_cons_self)
      · exact (ih h).imp_right (List.mem_cons_of_mem _)

/-- A count under the id of a node, no greater than the number of records. -/
def NodeCount (bound : Nat) (e : Text × Json) : Prop :=
  Scalar e.1 ∧ ∃ n : Nat, n ≤ bound ∧ e.2 = .int n

/-- The counts of the nodes: each node once. -/
structure NodeCounts (bound : Nat) (d : Fields) : Prop where
  once : (d.map Prod.fst).Nodup
  counts : ∀ e ∈ d, NodeCount bound e

theorem NodeCounts.add (h : NodeCounts bound d) (r : UsageRecord) (hr : Scalar r.nodeId) :
    NodeCounts (bound + 1) (countNode d r) := by
  refine ⟨Dict.put_nodup h.once, fun e he => ?_⟩
  rcases mem_put_fields he with rfl | he
  · refine ⟨hr, ?_⟩
    cases hfind : Dict.find r.nodeId d with
    | none => exact ⟨1, by omega, by simp⟩
    | some j =>
      obtain ⟨_, n, hn, hj⟩ := h.counts _ (Dict.mem_of_find hfind)
      obtain rfl : j = .int n := hj
      exact ⟨n + 1, by omega, by simp [tally]⟩
  · obtain ⟨hscalar, n, hn, hj⟩ := h.counts e he
    exact ⟨hscalar, n, by omega, hj⟩

theorem NodeCounts.fold {rs : List UsageRecord} (h : NodeCounts bound d)
    (hrs : ∀ r ∈ rs, Scalar r.nodeId) :
    NodeCounts (bound + rs.length) (rs.foldl countNode d) := by
  induction rs generalizing bound d with
  | nil => exact h
  | cons r rs ih =>
    obtain ⟨hr, hrs⟩ := List.forall_mem_cons.mp hrs
    have hall := ih (h.add r hr) hrs
    rwa [Nat.add_assoc, Nat.add_comm 1] at hall

theorem counts_requestsByNode (h : ∀ r ∈ records, Scalar r.nodeId) :
    NodeCounts records.length (requestsByNode records) := by
  have hnone : NodeCounts 0 [] := ⟨List.nodup_nil, fun e he => absurd he List.not_mem_nil⟩
  have hall := hnone.fold h
  rwa [Nat.zero_add] at hall

theorem fields_counts {d : Fields} (h : ∀ e ∈ d, NodeCount bound e) (hb : bound < 10 ^ 30) :
    LosslessFields d ∧ scalarFields d = true := by
  induction d with
  | nil => exact ⟨trivial, rfl⟩
  | cons e d ih =>
    obtain ⟨⟨hscalar, n, hn, hj⟩, hd⟩ := List.forall_mem_cons.mp h
    obtain ⟨k, j⟩ := e
    obtain rfl : j = .int n := hj
    obtain ⟨hlossless, hscalars⟩ := ih hd
    have hk : Scalar k := hscalar
    refine ⟨⟨joined_of_scalar hk, natText_short (hn.trans_lt hb), hlossless⟩, ?_⟩
    simp [scalarFields, scalar, hk, hscalars]

theorem counters_keys (fl : Floats) (records : List UsageRecord) (registered : Nat) :
    ((counters fl records registered).map Prod.fst).Nodup := by
  simp only [counters, List.map_cons, List.map_nil]
  decide

/-- The records that `metrics` looks at are those of the tail. -/
theorem mem_window {m : UsageMeter} (h : r ∈ m.mostRecent none UsageMeter.maxRecent) :
    r ∈ m.recent := by
  rw [UsageMeter.mostRecent_eq m none (by decide), UsageMeter.ofNode, List.mem_reverse] at h
  exact List.mem_of_mem_drop h

theorem length_window (m : UsageMeter) :
    (m.mostRecent none UsageMeter.maxRecent).length ≤ UsageMeter.maxRecent := by
  rw [UsageMeter.mostRecent_eq m none (by decide), UsageMeter.ofNode, List.length_reverse,
    List.rtake, List.length_drop]
  omega

/-- What one window counts stays far below what can be printed. -/
theorem sum_short {records : List UsageRecord} (hlength : records.length ≤ UsageMeter.maxRecent)
    (h : ∀ r ∈ records, f r ≤ UsageTable.maxInteger) : (records.map f).sum < 10 ^ 30 := by
  have hsum : (records.map f).sum ≤ (records.map f).length * UsageTable.maxInteger := by
    apply List.sum_le_card_nsmul
    intro n hn
    obtain ⟨r, hr, rfl⟩ := List.mem_map.mp hn
    exact h r hr
  rw [List.length_map] at hsum
  have hall : records.length * UsageTable.maxInteger ≤
      UsageMeter.maxRecent * UsageTable.maxInteger := Nat.mul_le_mul_right _ hlength
  exact (hsum.trans hall).trans_lt (by decide)

theorem ratioLiteral_lossless (hfl : fl.Lawful) (records : List UsageRecord) :
    Lossless (.float (ratioLiteral fl records)) := by
  unfold ratioLiteral
  split
  · exact .inr rfl
  · exact .inr (hfl.written _ _ List.countP_le_length (List.length_pos_iff.mpr ‹_›))

theorem float_ratioLiteral (hfl : fl.Lawful) (records : List UsageRecord) :
    fl.float (.float (ratioLiteral fl records)) = some (failureRatio fl records) := by
  unfold ratioLiteral failureRatio
  split
  · exact hfl.zero _ (by decide)
  · obtain ⟨q, hq⟩ := Option.isSome_iff_exists.mp
      (hfl.taken _ _ List.countP_le_length (List.length_pos_iff.mpr ‹_›))
    have hratio : fl.float (.float (fl.quotient (failedRequests records) records.length)) = some q := hq
    rw [Floats.ratio, hratio, Option.getD_some]

/-- The counters of a window can be written, and are read back as they were. -/
theorem counters_legible {records : List UsageRecord} (hfl : fl.Lawful)
    (hlength : records.length ≤ UsageMeter.maxRecent)
    (hrecords : ∀ r ∈ records, UsageTable.Storable r) (hn : registered < 10 ^ 30) :
    Lossless (.obj (counters fl records registered)) ∧
      scalar (.obj (counters fl records registered)) = true := by
  have hwindow : records.length < 10 ^ 30 := hlength.trans_lt (by decide)
  have hfailed : failedRequests records < 10 ^ 30 := List.countP_le_length.trans_lt hwindow
  have hcounts := counts_requestsByNode fun r hr => (hrecords r hr).1.2.2.1
  obtain ⟨hnodes, hscalars⟩ := fields_counts hcounts.counts hwindow
  have hratio := ratioLiteral_lossless hfl records
  have htext : ∀ s, joined (text s) = text s := fun s => joined_of_scalar (scalar_text s)
  have hprompts := sum_short hlength fun r hr => (hrecords r hr).2.1
  have hcompletions := sum_short hlength fun r hr => (hrecords r hr).2.2
  constructor
  · exact ⟨counters_keys fl records registered, htext _, htext _, htext _,
      natText_short (by decide), htext _, natText_short hn, htext _, natText_short hwindow,
      htext _, natText_short hfailed, htext _, hratio, htext _, natText_short hprompts,
      htext _, natText_short hcompletions, htext _, ⟨hcounts.once, hnodes⟩, htext _, htext _,
      trivial⟩
  · simp [counters, scalar, scalarFields, scalar_text, hscalars]

/-- The reply is written, and the watcher reads what was written. -/
theorem metricsBody_read (hfl : fl.Lawful) (hrecent : ∀ r ∈ m.recent, UsageTable.Storable r)
    (hn : registered < 10 ^ 30) : ∃ bs, metricsBody fl m registered = some bs ∧
      Watch.fetch (.body bs) = some (.ok (.obj (metrics fl m registered))) := by
  obtain ⟨hlossless, hscalar⟩ :=
    counters_legible hfl (length_window m) (fun r hr => hrecent r (mem_window hr)) hn
  have hbody := encode_some.mpr ⟨scalar_write .raw _ (.inr hscalar), rfl⟩
  refine ⟨_, (if_pos (printable_of_lossless _ hlossless)).trans hbody, ?_⟩
  simp only [Watch.fetch, decode_encode hbody, loads_write .raw hlossless]
  rfl

/-- The figures of a window. -/
def detailOf (fl : Floats) (registered : Nat) (window : List UsageRecord) : Watch.Detail :=
  ⟨registered, window.length, failureRatio fl window⟩

theorem detailOf_reverse (registered : Nat) (window : List UsageRecord) :
    detailOf fl registered window.reverse = detailOf fl registered window := by
  rw [detailOf, detailOf, failureRatio_reverse, List.length_reverse]

theorem orElse_int (n : Int) : orElse (some (.int n)) (some (.int 0)) = .int n := by
  by_cases h : n = 0
  · rw [h]
    rfl
  · simp [orElse, truthy, h]

theorem float_orElse (hfl : fl.Lawful) (l : String) :
    fl.float (orElse (some (.float l)) (some (.float "0.0"))) = fl.float (.float l) := by
  cases h : zeroLiteral l with
  | true => simp [orElse, truthy, h, hfl.zero l h, hfl.zero "0.0" (by decide)]
  | false => simp [orElse, truthy, h]

theorem get?_counters (h : (text key, j) ∈ counters fl records registered) :
    get? (counters fl records registered) key = some j :=
  (Dict.find_eq_some (counters_keys fl records registered)).mpr h

/-- The watcher judges the figures of the window. -/
theorem evaluate_counters (hfl : fl.Lawful) (py : Builtins) (thresholds : Watch.Thresholds)
    (records : List UsageRecord) (registered : Nat) (breaches : Dict Text Int) :
    Watch.evaluate fl py thresholds (counters fl records registered) breaches =
      some (Watch.judge thresholds breaches (detailOf fl registered records)) := by
  have hrequests : get? (counters fl records registered) "requests_in_window" =
      some (.int records.length) := get?_counters (by simp [counters])
  have hnodes : get? (counters fl records registered) "nodes_registered" = some (.int registered) :=
    get?_counters (by simp [counters])
  have hratio : get? (counters fl records registered) "failure_ratio_in_window" =
      some (.float (ratioLiteral fl records)) := get?_counters (by simp [counters])
  rw [Watch.evaluate, hrequests, hnodes, hratio, orElse_int, orElse_int, float_orElse hfl,
    float_ratioLiteral hfl]
  rfl

end
end PublicIntelligence.Scheduler
