import PublicIntelligence.Lib.Runs
import PublicIntelligence.Scheduler.Metrics

namespace PublicIntelligence.System.Monitoring

open Runs Text Encoding Json Scheduler

/-- What `len()` can be. -/
abbrev Length := { n : Nat // n < 2 ^ 63 }

/-- The gateway's meter and the number of its nodes, and the watcher: its counters, whether it still
runs, and for each poll what it has put out, `none` for a traceback. -/
structure Station where
  usage : MeteredStore
  registered : Length
  breaches : Dict Text Int
  watching : Bool
  results : List (Option Watch.Result)

/-- Whether a poll gets through. -/
inductive Delivery where
  | answered
  | refused (status : Nat)
  | lost
  | broken

/-- Usage is recorded or the gateway started anew, nodes come and go, the watcher polls, and a new
watcher takes the place of the last one. -/
inductive Act where
  | usage (op : MeteredStore.Op)
  | nodes (registered : Length)
  | poll (delivery : Delivery)
  | watch

section
variable (fl : Floats) (py : Builtins) (thresholds : Watch.Thresholds)

namespace Station

/-- A reply that cannot be written is an error of the server. -/
def response (s : Station) : Delivery → Watch.Response
  | .answered =>
    match metricsBody fl s.usage.usageMeter s.registered with
    | some bs => .body bs
    | none => .error 500
  | .refused status => .error status
  | .lost => .lost
  | .broken => .broken

/-- What raises out of `poll` ends the loop, and the process with it. -/
def put (s : Station) : Option Watch.Result → Station
  | some r => { s with breaches := r.breaches, results := s.results ++ [some r] }
  | none => { s with watching := false, results := s.results ++ [none] }

end Station

def step : Step Station Act := fun s act =>
  match act with
  | .usage op => (MeteredStore.step s.usage op).map fun usage => { s with usage := usage }
  | .nodes registered => some { s with registered := registered }
  | .poll delivery =>
    if s.watching then
      some (s.put (Watch.poll fl py thresholds (s.response fl delivery) s.breaches))
    else none
  | .watch => some { s with breaches := .empty, watching := true }

def start : Station := ⟨.fresh, ⟨0, by decide⟩, .empty, true, []⟩

/-- What has happened: all records ever made, how many nodes there are, whether there is a watcher,
and for every poll it had an answer to whether the thresholds were reached. -/
structure History where
  records : List UsageRecord
  registered : Length
  watching : Bool
  verdicts : List Bool

namespace History

/-- The figures of the last records made. -/
def detail (h : History) : Watch.Detail :=
  detailOf fl h.registered (h.records.rtake UsageMeter.maxRecent)

/-- The verdicts, with the one that an answer would add now. -/
def verdictsNow (h : History) : List Bool := h.verdicts ++ [Watch.breached thresholds (h.detail fl)]

def after (h : History) : Act → History
  | .usage (.record usage) => { h with records := h.records ++ [usage.1] }
  | .usage .restart => h
  | .nodes registered => { h with registered := registered }
  | .poll .answered => { h with verdicts := h.verdictsNow fl thresholds }
  | .poll (.refused _) => h
  | .poll .lost => h
  | .poll .broken => { h with watching := false }
  | .watch => { h with watching := true, verdicts := [] }

end History

/-- The polls of a run, each with what had happened before it. -/
def polledFrom (h : History) : List Act → List (History × Delivery)
  | [] => []
  | .poll delivery :: acts =>
    (h, delivery) :: polledFrom (h.after fl thresholds (.poll delivery)) acts
  | .usage op :: acts => polledFrom (h.after fl thresholds (.usage op)) acts
  | .nodes registered :: acts => polledFrom (h.after fl thresholds (.nodes registered)) acts
  | .watch :: acts => polledFrom (h.after fl thresholds .watch) acts

def noHistory : History := ⟨[], ⟨0, by decide⟩, true, []⟩

def history (acts : List Act) : History := acts.foldl (History.after fl thresholds) noHistory

/-- What the result of an answer says of what has happened. An alert for failures takes as many answers
in a row as `consecutive` says, whatever polls were refused or lost between them. -/
structure Informs (h : History) (r : Watch.Result) : Prop where
  nodes : Watch.noNodes ∈ r.firing ↔ h.registered.1 = 0
  failures : Watch.highFailureRatio ∈ r.firing ↔
    List.replicate thresholds.consecutive.toNat true <:+ h.verdictsNow fl thresholds
  alerting : r.state = .alerting ↔ r.firing ≠ []
  idle : r.state = .idle ↔ r.firing = [] ∧ h.records = []
  detail : r.detail = some (h.detail fl)
  quiet : Watch.exitCode r = 0 ↔ r.firing = []
  reached : Watch.exitCode r ≠ 2

/-- What a poll puts out: a result, or a traceback where the answer is broken. -/
def Reports (h : History) (put : Option Watch.Result) : Delivery → Prop
  | .answered => ∃ r, put = some r ∧ Informs fl thresholds h r
  | .refused status => ∃ r, put = some r ∧
    r.state = Watch.classifyHttpError status ∧ r.firing = [] ∧ Watch.exitCode r = 2
  | .lost => ∃ r, put = some r ∧ r.state = .unreachable ∧ r.firing = [] ∧ Watch.exitCode r = 2
  | .broken => put = none

end

/-- How many verdicts at the end are breaches. -/
def streak (verdicts : List Bool) : Nat :=
  verdicts.foldl (fun n breached => if breached then n + 1 else 0) 0

section
variable {fl : Floats} {py : Builtins} {thresholds : Watch.Thresholds}

theorem streak_concat (verdicts : List Bool) (breached : Bool) :
    streak (verdicts ++ [breached]) = if breached then streak verdicts + 1 else 0 := by
  rw [streak, List.foldl_append, List.foldl_cons, List.foldl_nil, streak]

theorem streak_iff (n : Nat) (verdicts : List Bool) :
    List.replicate n true <:+ verdicts ↔ n ≤ streak verdicts := by
  induction verdicts using List.reverseRecOn generalizing n with
  | nil =>
    rw [List.suffix_nil, List.replicate_eq_nil_iff]
    exact Nat.le_zero.symm
  | append_singleton verdicts breached ih =>
    cases n with
    | zero => exact ⟨fun _ => Nat.zero_le _, fun _ => List.nil_suffix⟩
    | succ n =>
      rw [List.replicate_succ', streak_concat, List.suffix_concat_iff]
      constructor
      · rintro (hnil | ⟨before, hbefore, hsuffix⟩)
        · exact absurd hnil (List.append_ne_nil_of_right_ne_nil _ (List.cons_ne_nil _ _))
        · obtain ⟨rfl, hlast⟩ := List.append_inj' hbefore rfl
          obtain rfl := (List.cons.inj hlast).1
          exact Nat.succ_le_succ ((ih n).mp hsuffix)
      · intro h
        cases breached with
        | true => exact .inr ⟨_, rfl, (ih n).mpr (Nat.le_of_succ_le_succ h)⟩
        | false => exact absurd h (Nat.not_succ_le_zero n)

/-- The watcher's counter is the streak, and the meter holds the end of the records, all of which
were stored. -/
structure Agrees (h : History) (s : Station) : Prop where
  remembers : s.usage.Remembers h.records
  stored : ∀ r ∈ h.records, UsageTable.Storable r
  registered : s.registered = h.registered
  watching : s.watching = h.watching
  count : (s.breaches.get? Watch.highFailureRatio).getD 0 = streak h.verdicts

theorem agrees_start : Agrees noHistory start := by
  refine ⟨⟨rfl, rfl⟩, ?_, rfl, rfl, rfl⟩
  intro r hr
  cases hr

theorem storable_of_step {s t : MeteredStore} (hs : MeteredStore.step s (.record usage) = some t) :
    UsageTable.Storable usage.1 := by
  obtain ⟨store, hsave, _⟩ := Option.map_eq_some_iff.mp hs
  unfold UsageTable.saveUsage at hsave
  split at hsave
  · exact And.left ‹_›
  · cases hsave

/-- The watcher reads the figures of the last records. -/
theorem poll_answered (hfl : fl.Lawful) (ha : Agrees h s) :
    Watch.poll fl py thresholds (s.response fl .answered) s.breaches =
      some (Watch.judge thresholds s.breaches (h.detail fl)) := by
  have hrecent : ∀ r ∈ s.usage.usageMeter.recent, UsageTable.Storable r := by
    intro r hr
    rw [ha.remembers.tail] at hr
    exact ha.stored r (List.mem_of_mem_drop hr)
  have hregistered : s.registered.1 < 10 ^ 30 := s.registered.2.trans (by decide)
  obtain ⟨bs, hbody, hfetch⟩ := metricsBody_read hfl hrecent hregistered
  have hresponse : s.response fl .answered = .body bs := by rw [Station.response, hbody]
  have hdetail : detailOf fl s.registered.1
      (s.usage.usageMeter.mostRecent none UsageMeter.maxRecent) = h.detail fl := by
    rw [UsageMeter.mostRecent_eq _ none (by decide), UsageMeter.ofNode, ha.remembers.tail,
      detailOf_reverse, ha.registered]
    exact congrArg (detailOf fl h.registered.1) (rtake_rtake _ _)
  rw [hresponse, Watch.poll, hfetch]
  exact (evaluate_counters hfl py thresholds _ _ _).trans (by rw [hdetail])

theorem get?_judge (breaches : Dict Text Int) (d : Watch.Detail) :
    ((Watch.judge thresholds breaches d).breaches.get? Watch.highFailureRatio).getD 0 =
      Watch.count thresholds breaches d := by
  rw [Watch.judge, Dict.get?_set_self, Option.getD_some]

/-- The count that an answer leads to. -/
theorem count_streak (ha : Agrees h s) :
    Watch.count thresholds s.breaches (h.detail fl) = streak (h.verdictsNow fl thresholds) := by
  rw [Watch.count, History.verdictsNow, streak_concat, ha.count]
  split
  · rw [Nat.cast_succ]
  · rfl

/-- A poll is taken by a watcher that runs, and puts out one thing. -/
theorem step_poll (hs : step fl py thresholds s (.poll delivery) = some t) :
    s.put (Watch.poll fl py thresholds (s.response fl delivery) s.breaches) = t := by
  rw [step] at hs
  split at hs
  · exact Option.some.inj hs
  · cases hs

/-- What is recorded, what comes and goes and what the watcher counts stay in step with what
happened. -/
theorem step_agrees (hfl : fl.Lawful) (ha : Agrees h s)
    (hs : step fl py thresholds s act = some t) :
    Agrees (h.after fl thresholds act) t := by
  cases act with
  | usage op =>
    obtain ⟨usage, husage, rfl⟩ := Option.map_eq_some_iff.mp hs
    have hremembers := MeteredStore.step_remembers ha.remembers husage
    cases op with
    | record usage =>
      refine ⟨hremembers, ?_, ha.registered, ha.watching, ha.count⟩
      intro r hr
      rcases List.mem_append.mp hr with hr | hr
      · exact ha.stored r hr
      · rw [List.mem_singleton.mp hr]
        exact storable_of_step husage
    | restart =>
      rw [MeteredStore.made, MeteredStore.made, List.append_nil] at hremembers
      exact ⟨hremembers, ha.stored, ha.registered, ha.watching, ha.count⟩
  | nodes registered =>
    cases hs
    exact ⟨ha.remembers, ha.stored, rfl, ha.watching, ha.count⟩
  | poll delivery =>
    obtain rfl := step_poll hs
    cases delivery with
    | answered =>
      rw [poll_answered hfl ha]
      exact ⟨ha.remembers, ha.stored, ha.registered, ha.watching,
        (get?_judge _ _).trans (count_streak ha)⟩
    | refused status => exact ⟨ha.remembers, ha.stored, ha.registered, ha.watching, ha.count⟩
    | lost => exact ⟨ha.remembers, ha.stored, ha.registered, ha.watching, ha.count⟩
    | broken => exact ⟨ha.remembers, ha.stored, ha.registered, rfl, ha.count⟩
  | watch =>
    cases hs
    exact ⟨ha.remembers, ha.stored, ha.registered, rfl, rfl⟩

theorem run_agrees (hfl : fl.Lawful) (ha : Agrees h s)
    (hr : exec (step fl py thresholds) s acts = some t) :
    Agrees (acts.foldl (History.after fl thresholds) h) t := by
  induction acts generalizing s h with
  | nil =>
    cases hr
    exact ha
  | cons act acts ih =>
    obtain ⟨m, hm, ht⟩ := exec_cons.mp hr
    exact ih (step_agrees hfl ha hm) ht

theorem noNodes_firing :
    Watch.noNodes ∈ (Watch.judge thresholds breaches d).firing ↔ d.nodesRegistered = 0 := by
  have hne : Watch.noNodes ≠ Watch.highFailureRatio := by decide
  simp only [Watch.judge, List.mem_append, List.mem_ite_nil_right, List.mem_singleton, hne,
    and_false, or_false, and_true]

theorem highFailureRatio_firing :
    Watch.highFailureRatio ∈ (Watch.judge thresholds breaches d).firing ↔
      thresholds.consecutive ≤ Watch.count thresholds breaches d := by
  have hne : Watch.highFailureRatio ≠ Watch.noNodes := by decide
  simp only [Watch.judge, List.mem_append, List.mem_ite_nil_right, List.mem_singleton, hne,
    and_false, false_or, and_true]

/-- The state of an answer follows from what fires and whether anything was requested. -/
theorem judge_state (breaches : Dict Text Int) (d : Watch.Detail) :
    (Watch.judge thresholds breaches d).state =
      if (Watch.judge thresholds breaches d).firing ≠ [] then .alerting
      else if d.requestsInWindow = 0 then .idle else .ok := rfl

/-- Only an outage is reported as one. -/
theorem judge_reached (breaches : Dict Text Int) (d : Watch.Detail) :
    ¬ ((Watch.judge thresholds breaches d).state = .unreachable ∨
      (Watch.judge thresholds breaches d).state = .unauthorised) := by
  rw [judge_state]
  split
  · decide
  · split
    · decide
    · decide

theorem exitCode_judge (breaches : Dict Text Int) (d : Watch.Detail) :
    Watch.exitCode (Watch.judge thresholds breaches d) =
      if (Watch.judge thresholds breaches d).firing ≠ [] then 1 else 0 := by
  rw [Watch.exitCode, if_neg (judge_reached breaches d)]

theorem requests_eq_zero (fl : Floats) (h : History) :
    (h.detail fl).requestsInWindow = 0 ↔ h.records = [] := by
  have hlength : (h.detail fl).requestsInWindow =
      ((h.records.rtake UsageMeter.maxRecent).length : Int) := rfl
  rw [hlength, Int.natCast_eq_zero, List.length_eq_zero_iff, List.rtake, List.drop_eq_nil_iff]
  constructor
  · intro hle
    have hmax : UsageMeter.maxRecent = 500 := rfl
    exact List.length_eq_zero_iff.mp (by omega)
  · intro hnil
    rw [hnil]
    exact Nat.zero_le _

theorem judge_informs (ha : Agrees h s) :
    Informs fl thresholds h (Watch.judge thresholds s.breaches (h.detail fl)) where
  nodes := by
    rw [noNodes_firing]
    exact Int.natCast_eq_zero
  failures := by
    rw [highFailureRatio_firing, count_streak ha, streak_iff]
    exact Int.toNat_le.symm
  alerting := by
    rw [judge_state]
    split
    · exact iff_of_true rfl ‹_›
    · split
      · exact iff_of_false (by decide) ‹_›
      · exact iff_of_false (by decide) ‹_›
  idle := by
    rw [judge_state, ← requests_eq_zero fl]
    split
    · rename_i hfires
      exact iff_of_false (by decide) fun h => hfires h.1
    · rename_i hquiet
      split
      · exact iff_of_true rfl ⟨not_not.mp hquiet, ‹_›⟩
      · rename_i hsome
        exact iff_of_false (by decide) fun h => hsome h.2
  detail := rfl
  quiet := by
    rw [exitCode_judge]
    split
    · exact iff_of_false (by decide) ‹_›
    · exact iff_of_true rfl (not_not.mp ‹_›)
  reached := by
    rw [exitCode_judge]
    split
    · decide
    · decide

/-- What the next poll puts out says what has happened. -/
theorem poll_reports (py : Builtins) (hfl : fl.Lawful) (ha : Agrees h s) (delivery : Delivery) :
    Reports fl thresholds h
      (Watch.poll fl py thresholds (s.response fl delivery) s.breaches) delivery := by
  cases delivery with
  | answered => exact ⟨_, poll_answered hfl ha, judge_informs ha⟩
  | refused status =>
    refine ⟨⟨Watch.classifyHttpError status, [], s.breaches, none⟩, rfl, rfl, rfl, ?_⟩
    unfold Watch.exitCode Watch.classifyHttpError
    split
    · rfl
    · rfl
  | lost => exact ⟨⟨.unreachable, [], s.breaches, none⟩, rfl, rfl, rfl, rfl⟩
  | broken => rfl

theorem put_results (s : Station) (put : Option Watch.Result) :
    (s.put put).results = s.results ++ [put] := by
  cases put <;> rfl

theorem put_watching (s : Station) (put : Option Watch.Result) :
    (s.put put).watching = true ↔ s.watching = true ∧ put ≠ none := by
  cases put with
  | none => exact iff_of_false Bool.false_ne_true fun h => h.2 rfl
  | some r => exact (and_iff_left (Option.some_ne_none r)).symm

/-- There is a result unless the answer is broken. -/
theorem reports_some (h : Reports fl thresholds past put delivery) :
    put ≠ none ↔ delivery ≠ .broken := by
  cases delivery with
  | answered =>
    obtain ⟨r, rfl, _⟩ := h
    exact iff_of_true (Option.some_ne_none r) nofun
  | refused status =>
    obtain ⟨r, rfl, _⟩ := h
    exact iff_of_true (Option.some_ne_none r) nofun
  | lost =>
    obtain ⟨r, rfl, _⟩ := h
    exact iff_of_true (Option.some_ne_none r) nofun
  | broken => exact iff_of_false (fun hput => hput h) fun hbroken => hbroken rfl

/-- A run adds for each of its polls what it puts out. -/
theorem run_reports (hfl : fl.Lawful) (ha : Agrees h s)
    (hr : exec (step fl py thresholds) s acts = some t) :
    ∃ results, t.results = s.results ++ results ∧
      List.Forall₂ (fun polled put => Reports fl thresholds polled.1 put polled.2)
        (polledFrom fl thresholds h acts) results := by
  induction acts generalizing s h with
  | nil =>
    cases hr
    exact ⟨[], (List.append_nil _).symm, .nil⟩
  | cons act acts ih =>
    obtain ⟨m, hm, ht⟩ := exec_cons.mp hr
    obtain ⟨results, hresults, hall⟩ := ih (step_agrees hfl ha hm) ht
    cases act with
    | usage op =>
      obtain ⟨usage, _, rfl⟩ := Option.map_eq_some_iff.mp hm
      exact ⟨results, hresults, hall⟩
    | nodes registered =>
      cases hm
      exact ⟨results, hresults, hall⟩
    | poll delivery =>
      obtain rfl := step_poll hm
      refine ⟨_, ?_, .cons (poll_reports py hfl ha delivery) hall⟩
      rw [hresults, put_results, List.append_assoc, List.singleton_append]
    | watch =>
      cases hm
      exact ⟨results, hresults, hall⟩

end

/-- Floats that only tell whether none failed, all failed or some. -/
def coarse : Floats where
  quotient failed all := if failed = 0 then "0.0" else if failed = all then "1.0" else "0.5"
  float
    | .float l => some (if zeroLiteral l then 0 else if l = "1.0" then 1 else 1 / 2)
    | _ => none

theorem coarse_lawful : coarse.Lawful where
  written a b _ _ := by
    unfold coarse
    dsimp only
    split
    · rfl
    · split <;> rfl
  taken _ _ _ _ := rfl
  zero l h := by simp [coarse, h]

def failing : BuiltRecord :=
  ⟨{ (MeteredStore.sampleUsage "n1").1 with succeeded := false },
    (MeteredStore.sampleUsage "n1").2⟩

def noBuiltins : Builtins := ⟨fun _ => [], fun _ => none⟩

/-- Five requests fail on one node and the gateway is started anew. The second answer, which comes
after a poll that was lost, alerts; then an answer is broken, and a new watcher is started. -/
def failingActs : List Act :=
  .nodes ⟨1, by decide⟩ :: List.replicate 5 (.usage (.record failing)) ++
    [.usage .restart, .poll .answered, .poll .lost, .poll .answered, .poll .broken, .watch]

/-- The next answer finds the failures, but a new watcher counts from the start. -/
example : (history coarse .default failingActs).verdictsNow coarse .default = [true] := by
  decide +kernel

end PublicIntelligence.System.Monitoring
