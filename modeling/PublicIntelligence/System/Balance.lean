import Mathlib.Tactic.Linarith
import PublicIntelligence.Scheduler.Algorithm
import PublicIntelligence.System.LoadFeedback

namespace PublicIntelligence.System

open Text Json Scheduler

/-- Scores are exact rationals. -/
structure ExactScores (num : Numbers ℚ) : Prop where
  value : ∀ q, num.value q = some ((q : WithTop ℚ) : WithBot (WithTop ℚ))
  add : ∀ a b, num.add a b = a + b
  tenths : ∀ d, num.tenths d = d

namespace Balance

def Eligible (r : NodeRegistry) (modelName : Text) (n : Node) : Prop :=
  n ∈ r.nodes.values ∧ (consideredFor r modelName n).isSome = true

/-- The score that `select_node` compares a node by. -/
def scoreOf (num : Numbers ℚ) (r : NodeRegistry) (modelName : Text) (n : Node) : Option ℚ :=
  (consideredFor r modelName n).bind fun h => load num n h ((r.dampeners.get? n.nodeId).getD 0)

/-- `bound x y` holds of the node's score `x` and the score `y` of each eligible node in the list. -/
def Against (num : Numbers ℚ) (r : NodeRegistry) (modelName : Text) (bound : ℚ → Prop) (ns : List Node) : Prop :=
  ∀ m ∈ ns, Eligible r modelName m → ∃ y, scoreOf num r modelName m = some y ∧ bound y

/-- The node has the least score of the eligible ones, and is the first that has it. -/
def FirstLeast (num : Numbers ℚ) (r : NodeRegistry) (modelName : Text) (n : Node) : Prop :=
  ∃ before after x, r.nodes.values = before ++ n :: after ∧ Eligible r modelName n ∧
    scoreOf num r modelName n = some x ∧
      Against num r modelName (x < ·) before ∧ Against num r modelName (x ≤ ·) after

/-- The node's score is at most a tenth above that of every other eligible node. -/
def Close (num : Numbers ℚ) (r : NodeRegistry) (modelName : Text) (n : Node) : Prop :=
  ∃ x, scoreOf num r modelName n = some x ∧
    Against num r modelName (x ≤ · + 1 / 10) (r.nodes.values.filter fun m => m.nodeId ≠ n.nodeId)

/-- The registry after so many calls of `select_node` for one model. -/
def after (num : Numbers ℚ) (modelName : Text) (r : NodeRegistry) : Nat → NodeRegistry
  | 0 => r
  | k + 1 => (selectNode num modelName (after num modelName r k)).1

/-- What the call after so many others answers. -/
def answer (num : Numbers ℚ) (modelName : Text) (r : NodeRegistry) (k : Nat) : Except ScheduleError Node :=
  (selectNode num modelName (after num modelName r k)).2

section
variable {num : Numbers ℚ} {r r' : NodeRegistry}

theorem less_exact (exact : ExactScores num) (a b : ℚ) : num.less a b = decide (a < b) := by
  unfold Numbers.less
  rw [exact.value, exact.value]
  simp

/-- The dampener is what is added last. -/
theorem load_exact (exact : ExactScores num) (n : Node) (h : Heartbeat) (d : ℚ) :
    load num n h d = (load num n h 0).map (· + d) := by
  unfold load
  simp [exact.add, exact.tenths, Option.map_bind]

theorem weigh_cons (h : weigh num r modelName (n :: ns) = some list) :
    (consideredFor r modelName n = none ∧ weigh num r modelName ns = some list) ∨
      ∃ x rest, scoreOf num r modelName n = some x ∧ weigh num r modelName ns = some rest ∧
        list = (n, x) :: rest := by
  unfold weigh at h
  split at h
  · rename_i hc
    exact .inl ⟨hc, h⟩
  · rename_i beat hc
    simp only [bind, Option.bind_eq_some_iff, pure, Option.some.injEq] at h
    obtain ⟨x, hx, rest, hrest, rfl⟩ := h
    refine .inr ⟨x, rest, ?_, hrest, rfl⟩
    rw [scoreOf, hc]
    exact hx

theorem considered_of_scoreOf (h : scoreOf num r modelName n = some x) :
    (consideredFor r modelName n).isSome = true := by
  obtain ⟨beat, hb, _⟩ := Option.bind_eq_some_iff.mp h
  rw [hb]
  rfl

theorem against_cons (h : Against num r modelName bound ns)
    (hm : consideredFor r modelName m = none ∨ ∃ y, scoreOf num r modelName m = some y ∧ bound y) :
    Against num r modelName bound (m :: ns) := by
  refine List.forall_mem_cons.mpr ⟨fun he => ?_, h⟩
  rcases hm with hc | hscore
  · have hnone := he.2
    rw [hc] at hnone
    cases hnone
  · exact hscore

theorem weigh_against (h : weigh num r modelName ns = some list) (hb : ∀ e ∈ list, bound e.2) :
    Against num r modelName bound ns := by
  induction ns generalizing list with
  | nil => exact fun m hm => absurd hm List.not_mem_nil
  | cons m ns ih =>
    obtain ⟨hc, hrest⟩ | ⟨x, rest, hx, hrest, rfl⟩ := weigh_cons h
    · exact against_cons (ih hrest hb) (.inl hc)
    · obtain ⟨hbx, hbrest⟩ := List.forall_mem_cons.mp hb
      exact against_cons (ih hrest hbrest) (.inr ⟨x, hx, hbx⟩)

/-- Where a list of scores is cut at one, the nodes are cut at its node. -/
theorem weigh_split (h : weigh num r modelName ns = some (b ++ (n, x) :: a))
    (hb : ∀ e ∈ b, bound e.2) (ha : ∀ e ∈ a, bound' e.2) :
    ∃ before after, ns = before ++ n :: after ∧ scoreOf num r modelName n = some x ∧
      Against num r modelName bound before ∧ Against num r modelName bound' after := by
  induction ns generalizing b with
  | nil =>
    have hnil := Option.some.inj h
    exact absurd hnil.symm (List.append_ne_nil_of_right_ne_nil b (List.cons_ne_nil _ a))
  | cons m ns ih =>
    obtain ⟨hc, hrest⟩ | ⟨y, rest, hy, hrest, hlist⟩ := weigh_cons h
    · obtain ⟨before, after, rfl, hx, hbefore, hafter⟩ := ih hrest hb
      exact ⟨m :: before, after, rfl, hx, against_cons hbefore (.inl hc), hafter⟩
    · cases b with
      | nil =>
        obtain ⟨hhead, rfl⟩ := List.cons.inj hlist
        obtain ⟨rfl, rfl⟩ := Prod.mk.inj hhead
        exact ⟨[], ns, rfl, hy, fun _ hm => absurd hm List.not_mem_nil, weigh_against hrest ha⟩
      | cons e b =>
        obtain ⟨rfl, rfl⟩ := List.cons.inj hlist
        obtain ⟨hby, hb⟩ := List.forall_mem_cons.mp hb
        obtain ⟨before, after, rfl, hx, hbefore, hafter⟩ := ih hrest hb
        exact ⟨m :: before, after, rfl, hx, against_cons hbefore (.inr ⟨y, hy, hby⟩), hafter⟩

theorem leastLoaded_first (exact : ExactScores num) (h : leastLoaded num r modelName = .ok n) :
    FirstLeast num r modelName n := by
  obtain ⟨list, ⟨m, x⟩, hw, ⟨b, a, rfl, hlate, hearly⟩, rfl⟩ := leastLoaded_eq_ok.mp h
  have hb : ∀ e ∈ b, x < e.2 := by
    intro e he
    rcases hearly with rfl | ⟨_, hless⟩
    · cases he
    · have hlt := hless e he (by rw [exact.value]; exact Option.some_ne_none _)
      rw [less_exact exact] at hlt
      exact of_decide_eq_true hlt
  have ha : ∀ e ∈ a, x ≤ e.2 := by
    intro e he
    have hge := hlate e he
    rw [less_exact exact] at hge
    exact not_lt.mp (of_decide_eq_false hge)
  obtain ⟨before, after, hvalues, hx, hbefore, hafter⟩ := weigh_split hw hb ha
  exact ⟨before, after, x, hvalues, ⟨leastLoaded_mem h, considered_of_scoreOf hx⟩, hx, hbefore, hafter⟩

/-- What a call does: nothing, or it raises the selected node's dampener. -/
theorem selectNode_cases (num : Numbers ℚ) (modelName : Text) (r : NodeRegistry) :
    (∃ e, selectNode num modelName r = (r, .error e)) ∨
      ∃ n, leastLoaded num r modelName = .ok n ∧ selectNode num modelName r =
        ({ r with dampeners := r.dampeners.set n.nodeId ((r.dampeners.get? n.nodeId).getD 0 + 1 / 10) }, .ok n) := by
  unfold selectNode
  cases h : leastLoaded num r modelName with
  | error e => exact .inl ⟨e, rfl⟩
  | ok n =>
    have hn : n.nodeId ∈ r.nodes := Table.mem_of_value (leastLoaded_mem h)
    refine .inr ⟨n, rfl, ?_⟩
    simp only [NodeRegistry.incrementDampener, if_pos hn]

/-- Raising a dampener raises that node's score, and no other's. -/
theorem scoreOf_raised (exact : ExactScores num) (m : Node) :
    scoreOf num { r with dampeners := r.dampeners.set w ((r.dampeners.get? w).getD 0 + 1 / 10) } modelName m =
      if w = m.nodeId then (scoreOf num r modelName m).map (· + 1 / 10) else scoreOf num r modelName m := by
  unfold scoreOf
  split
  · rename_i hw
    subst hw
    rw [Option.map_bind]
    refine Option.bind_congr fun beat _ => ?_
    rw [Function.comp_apply, load_exact exact, load_exact exact (d := (r.dampeners.get? m.nodeId).getD 0),
      Option.map_map, Dict.get?_set_self, Option.getD_some]
    simp only [Function.comp_def, add_assoc]
  · rename_i hw
    rw [Dict.get?_set_ne _ _ hw]
    rfl

theorem scoreOf_isSome_after (exact : ExactScores num) (h : scoreOf num r modelName m = some y) :
    ∃ y', scoreOf num { r with dampeners := r.dampeners.set w ((r.dampeners.get? w).getD 0 + 1 / 10) } modelName m =
      some y' ∧ y ≤ y' ∧ y' ≤ y + 1 / 10 ∧ (w ≠ m.nodeId → y' = y) := by
  rw [scoreOf_raised exact, h]
  split
  · rename_i hw
    exact ⟨y + 1 / 10, rfl, by linarith, le_rfl, fun hne => absurd hw hne⟩
  · exact ⟨y, rfl, le_rfl, by linarith, fun _ => rfl⟩

/-- The selected node stays close to the others when its dampener goes up. -/
theorem FirstLeast.close (exact : ExactScores num) (h : FirstLeast num r modelName n) :
    Close num { r with dampeners := r.dampeners.set n.nodeId ((r.dampeners.get? n.nodeId).getD 0 + 1 / 10) }
      modelName n := by
  obtain ⟨before, after, x, hvalues, _, hx, hbefore, hafter⟩ := h
  obtain ⟨x', hx', _, hle, _⟩ := scoreOf_isSome_after (w := n.nodeId) exact hx
  refine ⟨x', hx', fun m hm he => ?_⟩
  obtain ⟨hm, hne⟩ := List.mem_filter.mp hm
  have hother : n.nodeId ≠ m.nodeId := Ne.symm (of_decide_eq_true hne)
  have hleast : ∃ y, scoreOf num r modelName m = some y ∧ x ≤ y := by
    change m ∈ r.nodes.values at hm
    rw [hvalues] at hm
    rcases List.mem_append.mp hm with hm | hm
    · obtain ⟨y, hy, hlt⟩ := hbefore m hm he
      exact ⟨y, hy, hlt.le⟩
    · rcases List.mem_cons.mp hm with rfl | hm
      · exact absurd rfl hother
      · exact hafter m hm he
  obtain ⟨y, hy, hxy⟩ := hleast
  obtain ⟨y', hy', hyy', _, _⟩ := scoreOf_isSome_after (w := n.nodeId) exact hy
  exact ⟨y', hy', by linarith⟩

/-- A node that was close stays so when another one is selected. -/
theorem Close.other (exact : ExactScores num) (h : Close num r modelName n) (hw : w ≠ n.nodeId) :
    Close num { r with dampeners := r.dampeners.set w ((r.dampeners.get? w).getD 0 + 1 / 10) } modelName n := by
  obtain ⟨x, hx, hclose⟩ := h
  obtain ⟨x', hx', _, _, hsame⟩ := scoreOf_isSome_after (w := w) exact hx
  refine ⟨x', hx', fun m hm he => ?_⟩
  obtain ⟨y, hy, hxy⟩ := hclose m hm he
  obtain ⟨y', hy', hyy', _, _⟩ := scoreOf_isSome_after (w := w) exact hy
  rw [hsame hw]
  exact ⟨y', hy', by linarith⟩

theorem after_nodes (num : Numbers ℚ) (modelName : Text) (r : NodeRegistry) (k : Nat) :
    (after num modelName r k).nodes = r.nodes := by
  induction k with
  | zero => rfl
  | succ k ih =>
    rw [after]
    obtain ⟨e, herror⟩ | ⟨m, _, hok⟩ := selectNode_cases num modelName (after num modelName r k)
    · rw [herror, ih]
    · rw [hok]
      exact ih

theorem answer_cases (h : answer num modelName r k = .ok n) :
    leastLoaded num (after num modelName r k) modelName = .ok n := by
  unfold answer at h
  obtain ⟨e, herror⟩ | ⟨m, hleast, hok⟩ := selectNode_cases num modelName (after num modelName r k)
  · rw [herror] at h
    cases h
  · rw [hok] at h
    cases h
    exact hleast

/-- Whoever has been selected is close to the others, in every state of the run. -/
theorem after_close (exact : ExactScores num) (hj : j < k) (h : answer num modelName r j = .ok n) :
    Close num (after num modelName r k) modelName n := by
  induction k with
  | zero => exact absurd hj (Nat.not_lt_zero j)
  | succ k ih =>
    rw [after]
    obtain ⟨e, herror⟩ | ⟨m, hleast, hok⟩ := selectNode_cases num modelName (after num modelName r k)
    · rw [herror]
      rcases Nat.lt_succ_iff_lt_or_eq.mp hj with hlt | rfl
      · exact ih hlt
      · rw [answer, herror] at h
        cases h
    · rw [hok]
      rcases Nat.lt_succ_iff_lt_or_eq.mp hj with hlt | rfl
      · by_cases hm : m.nodeId = n.nodeId
        · have hm' := leastLoaded_mem hleast
          have hn' := leastLoaded_mem (answer_cases h)
          rw [after_nodes] at hm' hn'
          rw [Table.mem_values, hm] at hm'
          obtain rfl := Option.some.inj (hm'.symm.trans (Table.mem_values.mp hn'))
          exact (leastLoaded_first exact hleast).close exact
        · exact (ih hlt).other exact hm
      · rw [answer, hok] at h
        cases h
        exact (leastLoaded_first exact hleast).close exact

/-- Every call selects the first of the least loaded nodes, and nothing changes when it raises;
whoever was selected keeps within a tenth of all the others. -/
theorem select_node_balances (exact : ExactScores num) (modelName : Text) (r : NodeRegistry) (k : Nat) :
    (∀ n, answer num modelName r k = .ok n → FirstLeast num (after num modelName r k) modelName n) ∧
      (∀ j < k, ∀ n, answer num modelName r j = .ok n → Close num (after num modelName r k) modelName n) ∧
        ∀ e, answer num modelName r k = .error e → after num modelName r (k + 1) = after num modelName r k := by
  refine ⟨fun n h => leastLoaded_first exact (answer_cases h), fun j hj n h => after_close exact hj h, ?_⟩
  intro e h
  rw [after]
  unfold answer at h
  obtain ⟨e', herror⟩ | ⟨m, _, hok⟩ := selectNode_cases num modelName (after num modelName r k)
  · rw [herror]
  · rw [hok] at h
    cases h

end

theorem exactScores_exactNumbers : ExactScores exactNumbers where
  value _ := rfl
  add _ _ := rfl
  tenths _ := rfl

/-- Two nodes with the model, of which the first has the longer queue. -/
def twoNodes : NodeRegistry :=
  let node := fun id : String => Node.mk (text id)
    [(text "available_models", .arr [.str (text "m")]), (text "gpu", .obj [(text "vram_total_gb", .int 16)])]
  let beat := fun (id : String) (queue : Int) => Heartbeat.mk (text id)
    [(text "status", .str (text "online")), (text "queue_length", .int queue), (text "cpu_utilization", .int 0),
      (text "gpu_utilization", .int 0), (text "vram_available_gb", .int 16)]
  { NodeRegistry.empty with
    nodes := (NodeRegistry.empty.nodes.put (node "n1")).put (node "n2")
    heartbeats := (Dict.empty.set (text "n1") (beat "n1" 1)).set (text "n2") (beat "n2" 0)
    dampeners := (Dict.empty.set (text "n1") 0).set (text "n2") 0 }

/-- The idle node is selected until its dampener outweighs the other's queue. -/
example : (List.range 6).map (fun k => (answer exactNumbers (text "m") twoNodes k).toOption.map Node.nodeId) =
    [some (text "n2"), some (text "n2"), some (text "n2"), some (text "n2"), some (text "n1"), some (text "n2")] := by
  decide +kernel

theorem select_node_balances_two :
    (∀ n, answer exactNumbers (text "m") twoNodes 6 = .ok n →
        FirstLeast exactNumbers (after exactNumbers (text "m") twoNodes 6) (text "m") n) ∧
      (∀ j < 6, ∀ n, answer exactNumbers (text "m") twoNodes j = .ok n →
        Close exactNumbers (after exactNumbers (text "m") twoNodes 6) (text "m") n) ∧
        ∀ e, answer exactNumbers (text "m") twoNodes 6 = .error e →
          after exactNumbers (text "m") twoNodes (6 + 1) = after exactNumbers (text "m") twoNodes 6 :=
  select_node_balances exactScores_exactNumbers (text "m") twoNodes 6

end Balance
end PublicIntelligence.System
