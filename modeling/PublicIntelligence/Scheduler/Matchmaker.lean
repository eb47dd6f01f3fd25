import Mathlib.Algebra.Order.Ring.Rat
import Mathlib.Order.WithBot
import PublicIntelligence.Scheduler.Canary
import PublicIntelligence.Scheduler.Registry

namespace PublicIntelligence.Scheduler

open Text Json

/-- Python's floats as the scheduling code calculates with them, and what else it leaves to
Python. `none` is an exception: `float()` of what is no number, `value + 1`, a division.
`value` is where a float lies, unless it is not a number; `tenths` is the float that a
dampener is; `rank` sorts by descending score, and where a score is no number it is what the
sort makes of it. -/
structure Numbers (ν : Type) where
  py : Builtins
  lower : Text → Text
  dict : Json → Option Fields
  float : Json → Option ν
  literal : String → ν
  tenths : ℚ → ν
  plusOne : Json → Option Json
  value : ν → Option (WithBot (WithTop ℚ))
  add : ν → ν → ν
  sub : ν → ν → ν
  mul : ν → ν → ν
  divide : ν → ν → Option ν
  floorDivide : ν → ν → Option Int
  format : ν → Text
  rank : List (Node × ν) → List (Node × ν)
  rank_perm : ∀ scored, (rank scored).Perm scored

/-- `a < b`, which nothing is that is not a number. -/
def Numbers.less (num : Numbers ν) (a b : ν) : Bool :=
  match num.value a, num.value b with
  | some x, some y => decide (x < y)
  | _, _ => false

theorem Numbers.less_iff {num : Numbers ν} :
    num.less a b = true ↔ ∃ x y, num.value a = some x ∧ num.value b = some y ∧ x < y := by
  unfold less
  cases num.value a <;> cases num.value b <;> simp

theorem Numbers.less_trans {num : Numbers ν} (h : num.less a b = true) (h' : num.less b c = true) :
    num.less a c = true := by
  obtain ⟨x, y, hx, hy, hxy⟩ := less_iff.mp h
  obtain ⟨y', z, hy', hz, hyz⟩ := less_iff.mp h'
  obtain rfl := Option.some.inj (hy.symm.trans hy')
  exact less_iff.mpr ⟨x, z, hx, hz, hxy.trans hyz⟩

/-- What is less than `b` is less than any number that is not less than `b`. -/
theorem Numbers.less_of_not_less {num : Numbers ν} (h : num.less a b = true) (hd : num.value d ≠ none)
    (h' : num.less d b = false) : num.less a d = true := by
  obtain ⟨x, y, hx, hy, hxy⟩ := less_iff.mp h
  obtain ⟨z, hz⟩ := Option.ne_none_iff_exists'.mp hd
  refine less_iff.mpr ⟨x, z, hx, hz, hxy.trans_le (not_lt.mp fun hzy => ?_)⟩
  exact Bool.false_ne_true (h'.symm.trans (less_iff.mpr ⟨z, y, hz, hy, hzy⟩))

theorem Numbers.number_of_less {num : Numbers ν} (h : num.less a b = true) :
    num.value a ≠ none ∧ num.value b ≠ none := by
  obtain ⟨x, y, hx, hy, _⟩ := less_iff.mp h
  rw [hx, hy]
  exact ⟨Option.some_ne_none x, Option.some_ne_none y⟩

/-- `a or b` on two optional values. -/
def orElse (a b : Option Json) : Json :=
  if truthy (a.getD .null) then a.getD .null else b.getD .null

def isNull : Json → Bool
  | .null => true
  | _ => false

namespace Node

/-- The model names a node advertises. -/
def availableModels (n : Node) : List Text :=
  match get? n.body "available_models" with
  | some (.arr models) => models.filterMap fun m => asStr (some m)
  | _ => []

/-- A field of the node's `gpu`. -/
def gpu (n : Node) (field : String) : Json :=
  match get? n.body "gpu" with
  | some (.obj fields) => (get? fields field).getD .null
  | _ => .null

end Node

/-- `getattr(heartbeat, field, default)` -/
def getattr (heartbeat : Option Heartbeat) (field : String) (default : Json) : Json :=
  match heartbeat with
  | none => default
  | some h => (get? h.metrics field).getD default

namespace NodeRegistry

/-- `registry._telemetry.get(node_id, {})` -/
def telemetryOf (r : NodeRegistry) (nodeId : Text) : Fields := (r.telemetry.get? nodeId).getD []

def vramAvailable (r : NodeRegistry) (n : Node) : Json :=
  getattr (r.heartbeats.get? n.nodeId) "vram_available_gb" (n.gpu "vram_available_gb")

def queueReading (r : NodeRegistry) (nodeId : Text) : Json :=
  let telemetry := r.telemetryOf nodeId
  (get? telemetry "current_queue_depth").getD ((get? telemetry "queue_depth").getD
    (getattr (r.heartbeats.get? nodeId) "queue_length" (.int 0)))

def cpuReading (r : NodeRegistry) (nodeId : Text) : Json :=
  let telemetry := r.telemetryOf nodeId
  (get? telemetry "current_cpu_utilization_pct").getD ((get? telemetry "cpu_utilization").getD
    (getattr (r.heartbeats.get? nodeId) "cpu_utilization" (.float "0.0")))

def reliabilityReading (r : NodeRegistry) (nodeId : Text) : Json :=
  let telemetry := r.telemetryOf nodeId
  (get? telemetry "reliability_score").getD ((get? telemetry "reliability").getD (.float "1.0"))

end NodeRegistry

section
variable (num : Numbers ν)

/-- The model check of `filter_nodes`. -/
def suitsModel (requirements : Fields) (n : Node) : Bool :=
  match orElse (get? requirements "model_name") (get? requirements "model") with
  | .str model => model.isEmpty || n.availableModels.contains model
  | req => !truthy req

/-- The VRAM check; `none` where `float()` raises. -/
def suitsVram (r : NodeRegistry) (requirements : Fields) (n : Node) : Option Bool :=
  let req := orElse (get? requirements "min_vram_gb") (get? requirements "vram")
  if isNull req then some true
  else do
    let available ← num.float (r.vramAvailable n)
    let least ← num.float req
    return !num.less available least

/-- The backend check. -/
def suitsBackend (r : NodeRegistry) (requirements : Fields) (n : Node) : Bool :=
  let req := (get? requirements "backend_type").getD .null
  let backend := (get? (r.telemetryOf n.nodeId) "backend_type").getD .null
  !truthy req ||
    truthy backend && decide (num.lower (num.py.strOf backend) = num.lower (num.py.strOf req))

/-- One round of the loop of `filter_nodes`. -/
def eligible (canary : CanaryVerifier τ) (r : NodeRegistry) (requirements : Fields) (n : Node) : Option Bool :=
  if canary.isQuarantined n.nodeId then some false
  else if suitsModel requirements n then do
    let vram ← suitsVram num r requirements n
    return vram && suitsBackend num r requirements n
  else some false

/-- `filter_nodes` with the canary verifier that `create_app` supplies. -/
def filterNodes (canary : CanaryVerifier τ) (r : NodeRegistry) (requirements : Fields) :
    List Node → Option (List Node)
  | [] => some []
  | n :: ns => do
    let keep ← eligible num canary r requirements n
    let rest ← filterNodes canary r requirements ns
    return if keep then n :: rest else rest

/-- `(reliability * 100.0) - (queue_depth * 15.0) - (cpu * 0.5)` -/
def fitness (reliability queueDepth cpu : ν) : ν :=
  num.sub (num.sub (num.mul reliability (num.literal "100.0")) (num.mul queueDepth (num.literal "15.0")))
    (num.mul cpu (num.literal "0.5"))

/-- A node's fitness score, unless one of its readings is no number. -/
def fitnessOf (r : NodeRegistry) (n : Node) : Option ν := do
  let queueDepth ← num.float (r.queueReading n.nodeId)
  let cpu ← num.float (r.cpuReading n.nodeId)
  let reliability ← num.float (r.reliabilityReading n.nodeId)
  return fitness num reliability queueDepth cpu

def scored (r : NodeRegistry) : List Node → Option (List (Node × ν))
  | [] => some []
  | n :: ns => do
    let score ← fitnessOf num r n
    let rest ← scored r ns
    return (n, score) :: rest

def scoreNodes (r : NodeRegistry) (ns : List Node) : Option (List (Node × ν)) :=
  (scored num r ns).map num.rank

end

section
variable {num : Numbers ν} {canary : CanaryVerifier τ} {r : NodeRegistry}

/-- What `filter_nodes` lets through was live and is not quarantined. -/
theorem filterNodes_spec (h : filterNodes num canary r requirements ns = some kept) :
    ∀ n ∈ kept, n ∈ ns ∧ canary.isQuarantined n.nodeId = false := by
  induction ns generalizing kept with
  | nil =>
    cases h
    exact fun n hn => absurd hn List.not_mem_nil
  | cons m ns ih =>
    simp only [filterNodes, bind, Option.bind_eq_some_iff, pure, Option.some.injEq] at h
    obtain ⟨keep, hkeep, rest, hrest, rfl⟩ := h
    have hold : ∀ n ∈ rest, n ∈ m :: ns ∧ canary.isQuarantined n.nodeId = false := fun n hn =>
      (ih hrest n hn).imp_left (List.mem_cons_of_mem m)
    split
    · refine List.forall_mem_cons.mpr ⟨⟨List.mem_cons_self, ?_⟩, hold⟩
      rename_i hk
      subst hk
      unfold eligible at hkeep
      split at hkeep
      · cases hkeep
      · rename_i hq
        exact Bool.eq_false_iff.mpr hq
    · exact hold

/-- What `filter_nodes` lets through passed every check. -/
theorem filterNodes_eligible (h : filterNodes num canary r requirements ns = some kept) :
    ∀ n ∈ kept, eligible num canary r requirements n = some true := by
  induction ns generalizing kept with
  | nil =>
    cases h
    exact fun n hn => absurd hn List.not_mem_nil
  | cons m ns ih =>
    simp only [filterNodes, bind, Option.bind_eq_some_iff, pure, Option.some.injEq] at h
    obtain ⟨keep, hkeep, rest, hrest, rfl⟩ := h
    cases keep with
    | false => exact ih hrest
    | true => exact List.forall_mem_cons.mpr ⟨hkeep, ih hrest⟩

/-- A node that passes the checks for a named model offers it. -/
theorem eligible_named (hname : get? requirements "model_name" = some (.str model))
    (h : eligible num canary r requirements n = some true) : model = [] ∨ model ∈ n.availableModels := by
  unfold eligible at h
  split at h
  · cases h
  · split at h
    · rename_i hmodel
      by_cases hempty : model = []
      · exact .inl hempty
      · have hne : model.isEmpty = false := List.isEmpty_eq_false_iff.mpr hempty
        have hname : orElse (get? requirements "model_name") (get? requirements "model") = .str model := by
          rw [orElse, hname, Option.getD_some, if_pos (by rw [truthy, hne]; rfl)]
        rw [suitsModel, hname] at hmodel
        simp only [hne, Bool.false_or, List.contains_iff_mem] at hmodel
        exact .inr hmodel
    · cases h

/-- Where no check raises, every node that passes them is kept. -/
theorem filterNodes_total (h : ∀ n ∈ ns, (eligible num canary r requirements n).isSome = true) :
    ∃ kept, filterNodes num canary r requirements ns = some kept ∧
      ∀ n ∈ ns, eligible num canary r requirements n = some true → n ∈ kept := by
  induction ns with
  | nil => exact ⟨[], rfl, fun n hn => absurd hn List.not_mem_nil⟩
  | cons m ns ih =>
    obtain ⟨hm, hns⟩ := List.forall_mem_cons.mp h
    obtain ⟨keep, hkeep⟩ := Option.isSome_iff_exists.mp hm
    obtain ⟨rest, hrest, hall⟩ := ih hns
    have hkept : filterNodes num canary r requirements (m :: ns) =
        some (if keep then m :: rest else rest) := by
      simp only [filterNodes, hkeep, hrest, bind, Option.bind_some, pure]
    refine ⟨_, hkept, fun n hn he => ?_⟩
    rcases List.mem_cons.mp hn with rfl | hn
    · obtain rfl := Option.some.inj (hkeep.symm.trans he)
      exact List.mem_cons_self
    · have hmem := hall n hn he
      split
      · exact List.mem_cons_of_mem m hmem
      · exact hmem

/-- A node that passes the checks passes the one of its model, and the bound that its VRAM
is compared with is a number. -/
theorem eligible_true (h : eligible num canary r requirements n = some true) :
    isNull (orElse (get? requirements "min_vram_gb") (get? requirements "vram")) = true ∨
      (num.float (orElse (get? requirements "min_vram_gb") (get? requirements "vram"))).isSome = true := by
  unfold eligible at h
  split at h
  · cases h
  · split at h
    · obtain ⟨vram, hvram, _⟩ := Option.bind_eq_some_iff.mp h
      unfold suitsVram at hvram
      dsimp only at hvram
      split at hvram
      · rename_i hnull
        exact .inl hnull
      · simp only [bind, Option.bind_eq_some_iff] at hvram
        obtain ⟨_, _, least, hleast, _⟩ := hvram
        rw [hleast]
        exact .inr rfl
    · cases h

theorem eligible_isSome (hreq : isNull (orElse (get? requirements "min_vram_gb") (get? requirements "vram")) = true ∨
      (num.float (orElse (get? requirements "min_vram_gb") (get? requirements "vram"))).isSome = true)
    (hvram : (num.float (r.vramAvailable n)).isSome = true) :
    (eligible num canary r requirements n).isSome = true := by
  have hsuits : (suitsVram num r requirements n).isSome = true := by
    obtain ⟨available, ha⟩ := Option.isSome_iff_exists.mp hvram
    unfold suitsVram
    dsimp only
    split
    · rfl
    · rename_i hnull
      obtain ⟨least, hl⟩ := Option.isSome_iff_exists.mp (hreq.resolve_left hnull)
      rw [ha, hl]
      rfl
  obtain ⟨vram, hv⟩ := Option.isSome_iff_exists.mp hsuits
  unfold eligible
  split
  · rfl
  · split
    · rw [hv]
      rfl
    · rfl

theorem scored_nodes (h : scored num r ns = some list) : list.map Prod.fst = ns := by
  induction ns generalizing list with
  | nil =>
    cases h
    rfl
  | cons n ns ih =>
    simp only [scored, bind, Option.bind_eq_some_iff, pure, Option.some.injEq] at h
    obtain ⟨score, _, rest, hrest, rfl⟩ := h
    rw [List.map_cons, ih hrest]

/-- Scoring neither adds nodes nor loses any. -/
theorem scoreNodes_perm (h : scoreNodes num r ns = some list) : (list.map Prod.fst).Perm ns := by
  obtain ⟨unsorted, hu, rfl⟩ := Option.map_eq_some_iff.mp h
  exact ((num.rank_perm unsorted).map Prod.fst).trans (.of_eq (scored_nodes hu))

theorem scored_isSome : (scored num r ns).isSome = true ↔ ∀ n ∈ ns, (fitnessOf num r n).isSome = true := by
  induction ns with
  | nil => simp [scored]
  | cons n ns ih =>
    rw [List.forall_mem_cons, ← ih]
    cases hn : fitnessOf num r n with
    | none => simp [scored, hn]
    | some score => cases hs : scored num r ns <;> simp [scored, hn, hs]

/-- Scores exist exactly where every node's three readings are numbers. -/
theorem fitnessOf_isSome : (fitnessOf num r n).isSome = true ↔
    (num.float (r.queueReading n.nodeId)).isSome = true ∧
      (num.float (r.cpuReading n.nodeId)).isSome = true ∧
        (num.float (r.reliabilityReading n.nodeId)).isSome = true := by
  unfold fitnessOf
  cases num.float (r.queueReading n.nodeId) with
  | none => simp
  | some q =>
    cases num.float (r.cpuReading n.nodeId) with
    | none => simp
    | some c => cases num.float (r.reliabilityReading n.nodeId) <;> simp

end

end PublicIntelligence.Scheduler
