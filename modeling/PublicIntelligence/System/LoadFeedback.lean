import Mathlib.Data.List.Sort
import PublicIntelligence.Mesh.Auth
import PublicIntelligence.Scheduler.Engine

namespace PublicIntelligence.System

open Text Encoding Json Mesh Scheduler

/-- The value of a JSON number. -/
def valueOf : Json → Option ℚ
  | .int n => some n
  | .bool b => some (if b then 1 else 0)
  | .float l => if l ∈ nonFinite then none else some (literalValue l)
  | _ => none

/-- Calculating with numbers loses nothing. -/
structure Exact (num : Numbers ℚ) : Prop where
  float : ∀ j x, valueOf j = some x → num.float j = some x
  plusOne : ∀ j x, valueOf j = some x → ∃ k, num.plusOne j = some k ∧ valueOf k = some (x + 1)
  literal : ∀ l, num.literal l = literalValue l
  sub : ∀ a b, num.sub a b = a - b
  mul : ∀ a b, num.mul a b = a * b

def Numeric (j : Option Json) : Prop := ∀ v ∈ j, (valueOf v).isSome = true

/-- What scoring reads of telemetry and heartbeats is numeric, where it is there. -/
structure NumericLoad (r : NodeRegistry) : Prop where
  telemetry : ∀ n, ∀ field ∈ ["current_queue_depth", "queue_depth", "current_cpu_utilization_pct",
    "cpu_utilization", "reliability_score", "reliability"], Numeric (get? (r.telemetryOf n) field)
  heartbeat : ∀ n h, r.heartbeats.get? n = some h → ∀ field ∈ ["queue_length", "cpu_utilization"],
    Numeric (get? h.metrics field)

/-- A node's score falls by 15 when it is given work, and no other node's changes. -/
def FeedsBack (num : Numbers ℚ) (before after : NodeRegistry) (w : Text) : Prop :=
  ∀ n ∈ before.nodes.values, fitnessOf num after n =
    (fitnessOf num before n).map fun points => if n.nodeId = w then points - 15 else points

/-- The queue depth that scoring reads of a node is the one that `schedule_task` raises. -/
def Tracked (r : NodeRegistry) (w : Text) : Prop :=
  get? (r.telemetryOf w) "current_queue_depth" = none ∧
    ((get? (r.telemetryOf w) "queue_depth").isSome = true ∨
      valueOf (getattr (r.heartbeats.get? w) "queue_length" (.int 0)) = some 0)

section
variable {num : Numbers ℚ} {r after : NodeRegistry}

theorem numeric_getD (h : Numeric j) (hd : (valueOf d).isSome = true) : (valueOf (j.getD d)).isSome = true := by
  cases j with
  | none => exact hd
  | some v => exact h v rfl

theorem NumericLoad.getattr (h : NumericLoad r) {field : String}
    (hf : field ∈ ["queue_length", "cpu_utilization"]) (hd : (valueOf d).isSome = true) :
    (valueOf (getattr (r.heartbeats.get? n) field d)).isSome = true := by
  cases hb : r.heartbeats.get? n with
  | none => exact hd
  | some beat => exact numeric_getD (h.heartbeat n beat hb field hf) hd

theorem NumericLoad.queueReading (h : NumericLoad r) (n : Text) : (valueOf (r.queueReading n)).isSome = true :=
  numeric_getD (h.telemetry n _ (by simp))
    (numeric_getD (h.telemetry n _ (by simp)) (h.getattr (by simp) rfl))

theorem NumericLoad.cpuReading (h : NumericLoad r) (n : Text) : (valueOf (r.cpuReading n)).isSome = true :=
  numeric_getD (h.telemetry n _ (by simp))
    (numeric_getD (h.telemetry n _ (by simp)) (h.getattr (by simp) (by decide +kernel)))

theorem NumericLoad.reliabilityReading (h : NumericLoad r) (n : Text) :
    (valueOf (r.reliabilityReading n)).isSome = true :=
  numeric_getD (h.telemetry n _ (by simp)) (numeric_getD (h.telemetry n _ (by simp)) (by decide +kernel))

/-- The score as a number. -/
theorem fitnessOf_exact (exact : Exact num) (hq : valueOf (r.queueReading n.nodeId) = some q)
    (hc : valueOf (r.cpuReading n.nodeId) = some c) (hl : valueOf (r.reliabilityReading n.nodeId) = some l) :
    fitnessOf num r n = some (l * 100 - q * 15 - c * (1 / 2)) := by
  have h100 : literalValue "100.0" = 100 := by decide +kernel
  have h15 : literalValue "15.0" = 15 := by decide +kernel
  have hhalf : literalValue "0.5" = 1 / 2 := by decide +kernel
  simp only [fitnessOf, exact.float _ _ hq, exact.float _ _ hc, exact.float _ _ hl, bind, Option.bind_some,
    pure, fitness, exact.sub, exact.mul, exact.literal, h100, h15, hhalf]

/-- Scoring looks at nothing but the node's own telemetry and heartbeat. -/
theorem fitnessOf_congr (ht : after.telemetryOf n.nodeId = r.telemetryOf n.nodeId)
    (hb : after.heartbeats.get? n.nodeId = r.heartbeats.get? n.nodeId) :
    fitnessOf num after n = fitnessOf num r n := by
  simp only [fitnessOf, NodeRegistry.queueReading, NodeRegistry.cpuReading,
    NodeRegistry.reliabilityReading, ht, hb]

theorem get?_put (field other : String) (v : Json) (fs : Fields) :
    get? (Dict.put (text field) v fs) other = if text field = text other then some v else get? fs other :=
  Dict.find_put _ _ v fs

/-- Raising the queue depth of a node changes none of its other readings. -/
theorem readings_bumped (r : NodeRegistry) (w : Text) (depth : Json)
    (hafter : after = { r with
      telemetry := r.telemetry.set w (Dict.put (text "queue_depth") depth (r.telemetryOf w)) }) :
    after.queueReading w = (get? (r.telemetryOf w) "current_queue_depth").getD depth ∧
      after.cpuReading w = r.cpuReading w ∧ after.reliabilityReading w = r.reliabilityReading w := by
  have ht : after.telemetryOf w = Dict.put (text "queue_depth") depth (r.telemetryOf w) := by
    rw [hafter, NodeRegistry.telemetryOf, Dict.get?_set_self, Option.getD_some]
  have hb : after.heartbeats = r.heartbeats := by rw [hafter]
  have hne : ∀ field ∈ ["current_queue_depth", "current_cpu_utilization_pct", "cpu_utilization",
      "reliability_score", "reliability"], text "queue_depth" ≠ text field := by decide +kernel
  have hother : ∀ field ∈ ["current_queue_depth", "current_cpu_utilization_pct", "cpu_utilization",
      "reliability_score", "reliability"],
      get? (after.telemetryOf w) field = get? (r.telemetryOf w) field := by
    intro field hf
    rw [ht, get?_put, if_neg (hne field hf)]
  have hown : get? (after.telemetryOf w) "queue_depth" = some depth := by
    rw [ht, get?_put, if_pos rfl]
  refine ⟨?_, ?_, ?_⟩
  · simp only [NodeRegistry.queueReading, hother _ (List.mem_cons_self), hown, Option.getD_some]
  · simp only [NodeRegistry.cpuReading, hb, hother "current_cpu_utilization_pct" (by simp),
      hother "cpu_utilization" (by simp)]
  · simp only [NodeRegistry.reliabilityReading, hother "reliability_score" (by simp),
      hother "reliability" (by simp)]

/-- The reading that scoring takes of the queue goes up by one exactly if it is tracked. -/
theorem queue_rises_iff (exact : Exact num)
    (hd : num.plusOne ((get? (r.telemetryOf w) "queue_depth").getD (.int 0)) = some depth)
    (hq : valueOf (r.queueReading w) = some q) :
    valueOf ((get? (r.telemetryOf w) "current_queue_depth").getD depth) = some (q + 1) ↔ Tracked r w := by
  unfold Tracked
  unfold NodeRegistry.queueReading at hq
  dsimp only at hq
  cases hcurrent : get? (r.telemetryOf w) "current_queue_depth" with
  | some v =>
    rw [hcurrent] at hq
    rw [Option.getD_some] at hq ⊢
    rw [hq]
    refine iff_of_false (fun h => ?_) nofun
    have := Option.some.inj h
    linarith
  | none =>
    rw [hcurrent, Option.getD_none] at hq
    rw [Option.getD_none, eq_self, true_and]
    cases hown : get? (r.telemetryOf w) "queue_depth" with
    | some v =>
      rw [hown, Option.getD_some] at hq hd
      obtain ⟨k, hk, hvalue⟩ := exact.plusOne _ _ hq
      obtain rfl := Option.some.inj (hd.symm.trans hk)
      exact iff_of_true hvalue (.inl rfl)
    | none =>
      rw [hown, Option.getD_none] at hq hd
      obtain ⟨k, hk, hvalue⟩ := exact.plusOne (.int 0) 0 rfl
      obtain rfl := Option.some.inj (hd.symm.trans hk)
      rw [hvalue, hq]
      simp

theorem bumped_numeric (exact : Exact num) (hr : NumericLoad r)
    (hd : num.plusOne ((get? (r.telemetryOf w) "queue_depth").getD (.int 0)) = some depth) :
    (valueOf depth).isSome = true := by
  obtain ⟨x, hx⟩ := Option.isSome_iff_exists.mp (numeric_getD (hr.telemetry w "queue_depth" (by simp))
    (d := .int 0) rfl)
  obtain ⟨k, hk, hvalue⟩ := exact.plusOne _ x hx
  obtain rfl := Option.some.inj (hd.symm.trans hk)
  rw [hvalue, Option.isSome_some]

/-- Scores follow the reading of the queue. -/
theorem feedsBack_iff (exact : Exact num) (hr : NumericLoad r) (hw : n ∈ r.nodes.values) (hn : n.nodeId = w)
    (hcpu : after.cpuReading w = r.cpuReading w)
    (hreliability : after.reliabilityReading w = r.reliabilityReading w)
    (hother : ∀ m, m.nodeId ≠ w → fitnessOf num after m = fitnessOf num r m)
    (hq : valueOf (r.queueReading w) = some q) (hq' : valueOf (after.queueReading w) = some q') :
    FeedsBack num r after w ↔ q' = q + 1 := by
  subst hn
  obtain ⟨c, hc⟩ := Option.isSome_iff_exists.mp (hr.cpuReading n.nodeId)
  obtain ⟨l, hl⟩ := Option.isSome_iff_exists.mp (hr.reliabilityReading n.nodeId)
  have hbefore : ∀ m : Node, m.nodeId = n.nodeId →
      fitnessOf num r m = some (l * 100 - q * 15 - c * (1 / 2)) := by
    intro m hm
    exact fitnessOf_exact exact (hm ▸ hq) (hm ▸ hc) (hm ▸ hl)
  have hafter : ∀ m : Node, m.nodeId = n.nodeId →
      fitnessOf num after m = some (l * 100 - q' * 15 - c * (1 / 2)) := by
    intro m hm
    exact fitnessOf_exact exact (hm ▸ hq') (hm ▸ hcpu ▸ hc) (hm ▸ hreliability ▸ hl)
  constructor
  · intro h
    have hfall := h n hw
    rw [hbefore n rfl, hafter n rfl, Option.map_some, if_pos rfl] at hfall
    have heq := Option.some.inj hfall
    linarith
  · rintro rfl m hm
    by_cases hmn : m.nodeId = n.nodeId
    · rw [hbefore m hmn, hafter m hmn, Option.map_some, if_pos hmn]
      congr 1
      ring
    · rw [hother m hmn]
      simp only [if_neg hmn, Option.map_id']

end

/-- The score of the node that is given work falls by 15, and no other changes, exactly if
the queue depth that scoring reads of the node is the one that is raised. -/
theorem load_feedback_iff {num : Numbers ℚ} (exact : Exact num) {sha256 : Bytes → Bytes}
    {canary : CanaryVerifier τ} {task : Fields} {uuid txHash w : Text} {r after : NodeRegistry}
    (hr : NumericLoad r) (h : scheduleTask num sha256 canary task uuid r = (after, .ok (txHash, w))) :
    FeedsBack num r after w ↔ Tracked r w := by
  obtain ⟨chosen, _, hchosen, hid, hbump⟩ := scheduleTask_ok h
  obtain ⟨depth, hdepth, hafter⟩ := bumpQueue_ok hbump
  obtain ⟨hqueue, hcpu, hreliability⟩ := readings_bumped r w depth hafter
  obtain ⟨q, hq⟩ := Option.isSome_iff_exists.mp (hr.queueReading w)
  obtain ⟨q', hq'⟩ := Option.isSome_iff_exists.mp
    (numeric_getD (hr.telemetry w "current_queue_depth" (by simp)) (bumped_numeric exact hr hdepth))
  have hother : ∀ m : Node, m.nodeId ≠ w → fitnessOf num after m = fitnessOf num r m := by
    intro m hm
    refine fitnessOf_congr ?_ ?_
    · rw [hafter, NodeRegistry.telemetryOf, Dict.get?_set_ne _ _ (Ne.symm hm)]
      rfl
    · rw [hafter]
  rw [feedsBack_iff exact hr (selectForTask_spec hchosen).1 hid hcpu hreliability hother hq (hqueue ▸ hq'),
    ← queue_rises_iff exact hdepth hq, hq', Option.some.injEq]

/-- A literal of `m / 10 ^ k`. -/
def decimalLiteral (m : Int) (k : Nat) : String :=
  String.ofList ((if m < 0 then ['-'] else []) ++ Nat.toDigits 10 m.natAbs ++ 'e' :: '-' :: Nat.toDigits 10 k)

theorem decimal_toDigits (n : Nat) : decimal (Nat.toDigits 10 n) = n := by
  have h := Nat.ofDigitChars_ten_toDigits (n := n)
  rwa [Nat.ofDigitChars_eq_foldl] at h

theorem toDigits_ne (h : c ∈ Nat.toDigits 10 n) : c ≠ '-' ∧ c ≠ '.' ∧ c ≠ 'e' ∧ c ≠ 'E' := by
  have hd := Nat.isDigit_of_mem_toDigits (by decide) (by decide) h
  refine ⟨?_, ?_, ?_, ?_⟩
  all_goals
    rintro rfl
    exact absurd hd (by decide)

theorem literalValue_decimalLiteral (m : Int) (k : Nat) :
    literalValue (decimalLiteral m k) = m / 10 ^ k := by
  obtain ⟨d, ds, hds⟩ := List.exists_cons_of_ne_nil (Nat.toDigits_ne_nil (n := m.natAbs) (b := 10))
  have hmem : ∀ c ∈ d :: ds, c ≠ '-' ∧ c ≠ '.' ∧ c ≠ 'e' ∧ c ≠ 'E' := by
    intro c hc
    exact toDigits_ne (hds ▸ hc)
  have hd := beq_eq_false_iff_ne.mpr (hmem d List.mem_cons_self).1
  have hunsigned : ∀ rest, List.dropWhile (· == '-') ((if m < 0 then ['-'] else []) ++ (d :: ds) ++ rest) =
      d :: ds ++ rest := by
    intro rest
    split <;> simp [List.dropWhile, hd]
  have hmantissa : ∀ rest, List.takeWhile (fun c => c != 'e' && c != 'E') (d :: ds ++ 'e' :: rest) = d :: ds := by
    intro rest
    rw [List.takeWhile_append_of_pos]
    · simp
    · intro c hc
      simp [(hmem c hc).2.2]
  have hwhole : List.takeWhile (· != '.') (d :: ds) = d :: ds := by
    rw [List.takeWhile_eq_self_iff]
    intro c hc
    simp [(hmem c hc).2.1]
  have hfraction : List.dropWhile (· != '.') (d :: ds) = [] := by
    rw [List.dropWhile_eq_nil_iff]
    intro c hc
    simp [(hmem c hc).2.1]
  have hdigits := decimal_toDigits m.natAbs
  have habs : (m : ℚ) = (if m < 0 then -1 else 1) * (m.natAbs : ℚ) := by
    rw [Nat.cast_natAbs]
    split
    · rename_i hneg
      rw [abs_of_neg hneg]
      push_cast
      ring
    · rename_i hpos
      rw [abs_of_nonneg (not_lt.mp hpos), one_mul]
  rw [hds] at hdigits
  unfold literalValue decimalLiteral
  rw [String.toList_ofList, hds]
  dsimp only
  rw [hunsigned, hmantissa, hwhole, hfraction, List.drop_nil, List.append_nil, List.drop_left, hdigits, habs]
  have hminus : d ≠ '-' := (hmem d List.mem_cons_self).1
  split <;> simp [decimal_toDigits, hminus, div_eq_mul_inv]

theorem literalValue_decimal (l : String) : ∃ m z : Int, literalValue l = m * 10 ^ z := by
  unfold literalValue
  dsimp only
  split
  · exact ⟨-(decimal _ : Int), _, by push_cast; rw [neg_one_mul]⟩
  · exact ⟨(decimal _ : Int), _, by push_cast; rw [one_mul]⟩

theorem exists_scale (l : String) : ∃ k, (literalValue l * 10 ^ k).den = 1 := by
  obtain ⟨m, z, hl⟩ := literalValue_decimal l
  refine ⟨(-z).toNat, ?_⟩
  have hpow : (10 : ℚ) ^ z * 10 ^ (-z).toNat = 10 ^ z.toNat := by
    rw [← zpow_natCast, ← zpow_natCast, ← zpow_add₀ (by norm_num)]
    congr 1
    omega
  have hint : literalValue l * 10 ^ (-z).toNat = ((m * 10 ^ z.toNat : Int) : ℚ) := by
    rw [hl, mul_assoc, hpow]
    push_cast
    rfl
  rw [hint, Rat.den_intCast]

/-- A literal of the value one above a literal's. -/
def succLiteral (l : String) : String :=
  let k := Nat.find (exists_scale l)
  decimalLiteral ((literalValue l * 10 ^ k).num + 10 ^ k) k

theorem literalValue_succLiteral (l : String) : literalValue (succLiteral l) = literalValue l + 1 := by
  have hden := Nat.find_spec (exists_scale l)
  have hnum := Rat.coe_int_num_of_den_eq_one hden
  unfold succLiteral
  rw [literalValue_decimalLiteral, Int.cast_add, hnum]
  push_cast
  rw [← add_one_mul, mul_div_cancel_right₀]
  exact pow_ne_zero _ (by norm_num)

theorem decimalLiteral_finite (m : Int) (k : Nat) : decimalLiteral m k ∉ nonFinite := by
  intro h
  have he : 'e' ∈ (decimalLiteral m k).toList := by
    unfold decimalLiteral
    rw [String.toList_ofList]
    exact List.mem_append_right _ List.mem_cons_self
  have hnone : ∀ l ∈ nonFinite, 'e' ∉ l.toList := by decide +kernel
  exact hnone _ h he

def asciiLower (t : Text) : Text := t.map fun c => if 65 ≤ c.val ∧ c.val ≤ 90 then point (c.val + 32) else c

/-- Exact numbers. A whole score has a zero after its point, as the float has. -/
def exactNumbers : Numbers ℚ where
  py := ⟨fun _ => [], fun _ => none⟩
  lower := asciiLower
  dict
    | .obj fields => some fields
    | _ => none
  float := valueOf
  literal := literalValue
  tenths := id
  plusOne
    | .int n => some (.int (n + 1))
    | .bool b => some (.int (if b then 2 else 1))
    | .float l => if l ∈ nonFinite then some (.float l) else some (.float (succLiteral l))
    | _ => none
  value q := some ((q : WithTop ℚ) : WithBot (WithTop ℚ))
  add := (· + ·)
  sub := (· - ·)
  mul := (· * ·)
  divide a b := if b = 0 then none else some (a / b)
  floorDivide a b := if b = 0 then none else some (a / b).floor
  format q := intText q.num ++ text ".0"
  rank := List.insertionSort fun a b => b.2 ≤ a.2
  rank_perm := List.perm_insertionSort _

theorem exact_exactNumbers : Exact exactNumbers where
  float _ _ h := h
  plusOne j x h := by
    cases j with
    | null | str s | arr items | obj fields => cases h
    | int n =>
      cases h
      exact ⟨_, rfl, by simp [valueOf]⟩
    | bool b =>
      cases h
      refine ⟨_, rfl, ?_⟩
      cases b
      · simp [valueOf]
      · norm_num [valueOf]
    | float l =>
      change (if l ∈ nonFinite then none else some (literalValue l)) = some x at h
      split at h
      · cases h
      · rename_i hl
        cases h
        refine ⟨_, if_neg hl, ?_⟩
        rw [← literalValue_succLiteral]
        exact if_neg (decimalLiteral_finite _ _)
  literal _ := rfl
  sub _ _ := rfl
  mul _ _ := rfl

instance (j : Option Json) : Decidable (Numeric j) :=
  inferInstanceAs (Decidable (∀ v ∈ j, (valueOf v).isSome = true))

/-- Only what is stored has to be looked at. -/
theorem numericLoad_of_entries {r : NodeRegistry}
    (ht : ∀ e ∈ r.telemetry.entries, ∀ field ∈ ["current_queue_depth", "queue_depth",
      "current_cpu_utilization_pct", "cpu_utilization", "reliability_score", "reliability"],
      Numeric (get? e.2 field))
    (hb : ∀ e ∈ r.heartbeats.entries, ∀ field ∈ ["queue_length", "cpu_utilization"],
      Numeric (get? e.2.metrics field)) : NumericLoad r where
  telemetry n field hf := by
    unfold NodeRegistry.telemetryOf
    cases h : r.telemetry.get? n with
    | none => exact fun v hv => nomatch hv
    | some fields => exact ht _ (Dict.get?_eq_some.mp h) field hf
  heartbeat n h hn field hf := hb _ (Dict.get?_eq_some.mp hn) field hf

/-- A node whose last heartbeat reports a queue of five. -/
def sampleHeartbeat : Heartbeat where
  nodeId := text "n1"
  metrics := [(text "timestamp", .str (text "2026-01-01T00:00:00Z")), (text "status", .str (text "online")),
    (text "queue_length", .int 5), (text "cpu_utilization", .float "0.0"),
    (text "ram_available_gb", .float "8.0"), (text "gpu_utilization", .float "0.0"),
    (text "vram_available_gb", .float "16.0")]

/-- The registry of one node, with its telemetry. -/
def sampleRegistry (telemetry : Dict Text Fields) : NodeRegistry :=
  { NodeRegistry.empty with
    nodes := NodeRegistry.empty.nodes.put ⟨text "n1", []⟩
    heartbeats := Dict.empty.set (text "n1") sampleHeartbeat
    dampeners := Dict.empty.set (text "n1") 0
    telemetry }

/-- SHA-256 of the two transactions below. -/
def sampleHashes : List (Bytes × Bytes) :=
  [((encode (text "n1:t1:25.0")).getD [],
    [141, 109, 94, 164, 17, 13, 185, 146, 246, 136, 230, 127, 210, 43, 253, 135, 249, 131, 54, 221, 1, 82,
      117, 166, 123, 73, 160, 152, 24, 131, 147, 40]),
   ((encode (text "n1:t1:70.0")).getD [],
    [124, 191, 6, 136, 52, 178, 233, 17, 167, 68, 141, 103, 43, 119, 43, 140, 82, 168, 246, 125, 166, 97,
      255, 97, 72, 85, 171, 182, 123, 188, 137, 3])]

def sampleTask : Fields := [(text "task_id", .str (text "t1"))]

def scheduleSample (telemetry : Dict Text Fields) : NodeRegistry × Except ScheduleError (Text × Text) :=
  scheduleTask exactNumbers (known sampleHashes) (CanaryVerifier.new none : CanaryVerifier Unit) sampleTask []
    (sampleRegistry telemetry)

/-- With a queue depth in its telemetry the node is scored down. -/
theorem load_feedback_iff_tracked :
    FeedsBack exactNumbers (sampleRegistry (Dict.empty.set (text "n1") [(text "queue_depth", .int 2)]))
      (scheduleSample (Dict.empty.set (text "n1") [(text "queue_depth", .int 2)])).1 (text "n1") :=
  (load_feedback_iff exact_exactNumbers (numericLoad_of_entries (by decide +kernel) (by decide +kernel))
    (Prod.ext rfl (by decide +kernel : (scheduleSample
      (Dict.empty.set (text "n1") [(text "queue_depth", .int 2)])).2 = .ok (text
        "7cbf068834b2e911a7448d672b772b8c52a8f67da661ff614855abb67bbc8903", text "n1")))).mpr
    ⟨by decide +kernel, .inl (by decide +kernel)⟩

/-- A busy node without telemetry is given work, and its score rises by 60. -/
theorem assigned_work_raises_score :
    ¬ ∀ (num : Numbers ℚ) (sha256 : Bytes → Bytes) (canary : CanaryVerifier Unit) (task : Fields)
      (uuid txHash w : Text) (r after : NodeRegistry), Exact num → NumericLoad r →
        scheduleTask num sha256 canary task uuid r = (after, .ok (txHash, w)) → FeedsBack num r after w := by
  intro h
  have hfall := h exactNumbers (known sampleHashes) (.new none) sampleTask [] (text
    "8d6d5ea4110db992f688e67fd22bfd87f98336dd015275a67b49a09818839328") (text "n1") (sampleRegistry .empty) _
    exact_exactNumbers (numericLoad_of_entries (by decide +kernel) (by decide +kernel))
    (Prod.ext rfl (by decide +kernel)) ⟨text "n1", []⟩ List.mem_cons_self
  exact absurd hfall (by decide +kernel)

end PublicIntelligence.System
