import PublicIntelligence.Scheduler.Engine

namespace PublicIntelligence.Scheduler

open Text Json

/-- A heartbeat's metric. -/
def metric (h : Heartbeat) (field : String) : Json := (get? h.metrics field).getD .null

section
variable (num : Numbers ν)

/-- `vram_ratio`, which is zero where the node has no VRAM. -/
def vramRatio (n : Node) (h : Heartbeat) : Option ν := do
  let total ← num.float (n.gpu "vram_total_gb")
  if num.less (num.literal "0.0") total then
    let available ← num.float (metric h "vram_available_gb")
    num.divide available total
  else return num.literal "0.0"

/-- What a node's load weighs in `select_node`:
`queue * 0.4 + gpu * 0.3 + cpu * 0.1 + (1.0 - vram_ratio) * 0.2 + dampener`. -/
def load (n : Node) (h : Heartbeat) (dampener : ℚ) : Option ν := do
  let gpu ← num.divide (← num.float (metric h "gpu_utilization")) (num.literal "100.0")
  let cpu ← num.divide (← num.float (metric h "cpu_utilization")) (num.literal "100.0")
  let ratio ← vramRatio num n h
  let queue ← num.float (metric h "queue_length")
  let weighed := num.add (num.add (num.mul queue (num.literal "0.4")) (num.mul gpu (num.literal "0.3")))
    (num.mul cpu (num.literal "0.1"))
  let free := num.mul (num.sub (num.literal "1.0") ratio) (num.literal "0.2")
  return num.add (num.add weighed free) (num.tenths dampener)

/-- The heartbeat of a node that `select_node` considers for a model. -/
def consideredFor (r : NodeRegistry) (modelName : Text) (n : Node) : Option Heartbeat :=
  if n.availableModels.contains modelName then
    (r.heartbeats.get? n.nodeId).filter fun h => asStr (get? h.metrics "status") ≠ some (text "offline")
  else none

/-- The nodes that are considered, with their loads. -/
def weigh (r : NodeRegistry) (modelName : Text) : List Node → Option (List (Node × ν))
  | [] => some []
  | n :: ns =>
    match consideredFor r modelName n with
    | none => weigh r modelName ns
    | some h => do
      let own ← load num n h ((r.dampeners.get? n.nodeId).getD 0)
      let rest ← weigh r modelName ns
      return (n, own) :: rest

/-- `min`: the first of the least. -/
def least : Node × ν → List (Node × ν) → Node × ν
  | best, [] => best
  | best, c :: cs => least (if num.less c.2 best.2 then c else best) cs

def leastLoaded (r : NodeRegistry) (modelName : Text) : Except ScheduleError Node :=
  match weigh num r modelName r.nodes.values with
  | none => .error .raised
  | some [] => .error (.value (text "No eligible nodes found for model: " ++ modelName))
  | some (c :: cs) => .ok (least num c cs).1

/-- `select_node`, and the registry after it. -/
def selectNode (modelName : Text) (r : NodeRegistry) : NodeRegistry × Except ScheduleError Node :=
  match leastLoaded num r modelName with
  | .error e => (r, .error e)
  | .ok n =>
    match r.incrementDampener n.nodeId with
    | none => (r, .error (.value (text "Node not found: " ++ n.nodeId)))
    | some raised => (raised, .ok n)

end

section
variable {num : Numbers ν} {r : NodeRegistry}

theorem weigh_mem (h : weigh num r modelName ns = some list) (hn : entry ∈ list) : entry.1 ∈ ns := by
  induction ns generalizing list with
  | nil =>
    cases h
    cases hn
  | cons m ns ih =>
    unfold weigh at h
    split at h
    · exact List.mem_cons_of_mem m (ih h hn)
    · simp only [bind, Option.bind_eq_some_iff, pure, Option.some.injEq] at h
      obtain ⟨own, _, rest, hrest, rfl⟩ := h
      rcases List.mem_cons.mp hn with rfl | hn
      · exact List.mem_cons_self
      · exact List.mem_cons_of_mem m (ih hrest hn)

/-- `min` takes this one: no later one is less; and it is the first, or the first is a number
and it is less than every number before it. -/
def IsLeast (num : Numbers ν) (list : List (Node × ν)) (c : Node × ν) : Prop :=
  ∃ before after, list = before ++ c :: after ∧ (∀ d ∈ after, num.less d.2 c.2 = false) ∧
    (before = [] ∨ ((∃ first ∈ before.head?, num.value first.2 ≠ none) ∧
      ∀ d ∈ before, num.value d.2 ≠ none → num.less c.2 d.2 = true))

/-- The first two count as the lesser of them. -/
theorem isLeast_merge (h : IsLeast num (best :: d :: cs) c) :
    IsLeast num ((if num.less d.2 best.2 then d else best) :: cs) c := by
  obtain ⟨before, after, heq, hafter, hbefore⟩ := h
  cases before with
  | nil =>
    obtain ⟨rfl, rfl⟩ := List.cons.inj heq
    rw [hafter d List.mem_cons_self]
    exact ⟨[], cs, rfl, fun e he => hafter e (List.mem_cons_of_mem _ he), .inl rfl⟩
  | cons b before =>
    obtain ⟨rfl, htail⟩ := List.cons.inj heq
    obtain ⟨⟨first, hfirst, hnumber⟩, hless⟩ := hbefore.resolve_left (List.cons_ne_nil _ _)
    obtain rfl := Option.some.inj hfirst
    have hbest := hless best List.mem_cons_self hnumber
    cases before with
    | nil =>
      obtain ⟨rfl, rfl⟩ := List.cons.inj htail
      rw [if_pos hbest]
      exact ⟨[], cs, rfl, hafter, .inl rfl⟩
    | cons e before =>
      obtain ⟨rfl, rfl⟩ := List.cons.inj htail
      refine ⟨_ :: before, after, rfl, hafter, .inr ⟨⟨_, rfl, ?_⟩, List.forall_mem_cons.mpr ⟨?_, ?_⟩⟩⟩
      · split
        · rename_i hd
          exact (Numbers.number_of_less hd).1
        · exact hnumber
      · split
        · exact hless d (List.mem_cons_of_mem _ List.mem_cons_self)
        · exact fun _ => hbest
      · exact fun x hx => hless x (List.mem_cons_of_mem _ (List.mem_cons_of_mem _ hx))

theorem isLeast_split (h : IsLeast num ((if num.less d.2 best.2 then d else best) :: cs) c) :
    IsLeast num (best :: d :: cs) c := by
  obtain ⟨before, after, heq, hafter, hbefore⟩ := h
  by_cases hd : num.less d.2 best.2 = true
  · rw [if_pos hd] at heq
    have hnumber := (Numbers.number_of_less hd).2
    cases before with
    | nil =>
      obtain ⟨rfl, rfl⟩ := List.cons.inj heq
      refine ⟨[best], cs, rfl, hafter, .inr ⟨⟨best, rfl, hnumber⟩, ?_⟩⟩
      exact fun x hx _ => List.mem_singleton.mp hx ▸ hd
    | cons b before =>
      obtain ⟨rfl, rfl⟩ := List.cons.inj heq
      obtain ⟨_, hless⟩ := hbefore.resolve_left (List.cons_ne_nil _ _)
      have hcd := hless d List.mem_cons_self (Numbers.number_of_less hd).1
      refine ⟨best :: d :: before, after, rfl, hafter, .inr ⟨⟨best, rfl, hnumber⟩, ?_⟩⟩
      exact List.forall_mem_cons.mpr ⟨fun _ => Numbers.less_trans hcd hd, hless⟩
  · rw [if_neg hd] at heq
    cases before with
    | nil =>
      obtain ⟨rfl, rfl⟩ := List.cons.inj heq
      exact ⟨[], d :: cs, rfl, List.forall_mem_cons.mpr ⟨Bool.eq_false_iff.mpr hd, hafter⟩, .inl rfl⟩
    | cons b before =>
      obtain ⟨rfl, rfl⟩ := List.cons.inj heq
      obtain ⟨⟨first, hfirst, hnumber⟩, hless⟩ := hbefore.resolve_left (List.cons_ne_nil _ _)
      obtain rfl := Option.some.inj hfirst
      obtain ⟨hbest, hrest⟩ := List.forall_mem_cons.mp hless
      refine ⟨best :: d :: before, after, rfl, hafter, .inr ⟨⟨best, rfl, hnumber⟩, ?_⟩⟩
      refine List.forall_mem_cons.mpr ⟨hbest, List.forall_mem_cons.mpr ⟨fun hnd => ?_, hrest⟩⟩
      exact Numbers.less_of_not_less (hbest hnumber) hnd (Bool.eq_false_iff.mpr hd)

theorem isLeast_iff (num : Numbers ν) (best : Node × ν) (cs : List (Node × ν)) (c : Node × ν) :
    IsLeast num (best :: cs) c ↔ least num best cs = c := by
  induction cs generalizing best with
  | nil =>
    constructor
    · rintro ⟨before, after, heq, _⟩
      cases before with
      | nil => exact (List.cons.inj heq).1
      | cons b before => exact absurd (List.cons.inj heq).2 (by simp)
    · rintro rfl
      exact ⟨[], [], rfl, fun e he => absurd he List.not_mem_nil, .inl rfl⟩
  | cons d cs ih => exact ⟨fun h => (ih _).mp (isLeast_merge h), fun h => isLeast_split ((ih _).mpr h)⟩

/-- What is selected for a model is a least loaded one of the nodes considered for it. -/
theorem leastLoaded_eq_ok : leastLoaded num r modelName = .ok n ↔
    ∃ list c, weigh num r modelName r.nodes.values = some list ∧ IsLeast num list c ∧ c.1 = n := by
  unfold leastLoaded
  cases hw : weigh num r modelName r.nodes.values with
  | none => exact iff_of_false nofun fun ⟨_, _, h, _⟩ => nomatch h
  | some list =>
    cases list with
    | nil =>
      refine iff_of_false nofun ?_
      rintro ⟨list, c, h, ⟨before, after, heq, _⟩, _⟩
      cases h
      exact List.append_ne_nil_of_right_ne_nil before (List.cons_ne_nil c after) heq.symm
    | cons b cs =>
      constructor
      · intro h
        cases h
        exact ⟨_, _, rfl, (isLeast_iff num b cs _).mpr rfl, rfl⟩
      · rintro ⟨list, c, h, hc, rfl⟩
        cases h
        rw [← (isLeast_iff num b cs c).mp hc]

theorem IsLeast.mem (h : IsLeast num list c) : c ∈ list := by
  obtain ⟨before, after, rfl, _⟩ := h
  exact List.mem_append_right _ List.mem_cons_self

theorem leastLoaded_mem (h : leastLoaded num r modelName = .ok n) : n ∈ r.nodes.values := by
  obtain ⟨list, c, hw, hc, rfl⟩ := leastLoaded_eq_ok.mp h
  exact weigh_mem hw hc.mem

/-- What is selected is the least loaded node, which is registered. -/
theorem selectNode_ok : (selectNode num modelName r).2 = .ok n ↔ leastLoaded num r modelName = .ok n := by
  unfold selectNode
  cases h : leastLoaded num r modelName with
  | error e => exact iff_of_false nofun nofun
  | ok m =>
    have hm : m.nodeId ∈ r.nodes := Table.mem_of_value (leastLoaded_mem h)
    simp only [NodeRegistry.incrementDampener, if_pos hm]

end

end PublicIntelligence.Scheduler
