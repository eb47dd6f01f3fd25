import PublicIntelligence.System.Ingress

namespace PublicIntelligence.System.Fleet

open Runs Text Encoding Mesh Scheduler ZenohRouter

/-- The node a step of the router checks for staleness. -/
def checked (s : Fleet) : Act → Option Text
  | .liveliness .delete keyExpr => (split keyExpr slash)[3]?
  | .sweepNext => s.sweeping.head?
  | _ => none

section
variable (env : RouterEnv)

/-- A node that the router removes was last registered, last loaded and last heard from
at least `node_stale_after_seconds` ago. -/
def NotEarly (s : Fleet) (a : Act) : Prop :=
  ∀ t n, step env s a = some t → n ∈ checked s a → n ∈ s.router.registry.nodes →
    n ∉ t.router.registry.nodes →
    ∀ x, s.arrived n = some x ∨ s.beat n = some x → env.nodeStaleAfter ≤ s.clock - x

/-- A registered node is checked while a recent heartbeat of it is on record, or
`node_stale_after_seconds` or more after it was registered or loaded. -/
def Due (s : Fleet) (a : Act) : Prop :=
  ∀ n ∈ checked s a, n ∈ s.router.registry.nodes →
    s.router.fresh env s.clock n = true ∨
      ∀ x ∈ s.arrived n, env.nodeStaleAfter ≤ s.clock - x

instance (s : Fleet) (a : Act) : Decidable (Due env s a) :=
  inferInstanceAs (Decidable (∀ n ∈ checked s a, _ → _ ∨ _))

end

/-- The router's map holds the last verified heartbeat of a node if it holds any, and
where it holds none a registered node came after its last heartbeat. -/
structure Timed (s : Fleet) : Prop where
  recorded : ∀ n b, s.router.lastVerified.get? n = some b → s.beat n = some b
  past : ∀ n b, s.beat n = some b → b ≤ s.clock
  since : ∀ n, n ∈ s.router.registry.nodes → ∃ x, s.arrived n = some x ∧
    (s.router.lastVerified.get? n = none → ∀ b, s.beat n = some b → b ≤ x)

section
variable {env : RouterEnv} {s t : Fleet}

/-- Losing nodes, or losing the record of one that is lost, keeps the rest in time. -/
theorem Timed.fewer (ht : Timed s) (hclock : t.clock = s.clock) (harrived : t.arrived = s.arrived)
    (hbeat : t.beat = s.beat)
    (hlast : ∀ n b, t.router.lastVerified.get? n = some b → s.router.lastVerified.get? n = some b)
    (hnodes : ∀ n, n ∈ t.router.registry.nodes → n ∈ s.router.registry.nodes ∧
      (t.router.lastVerified.get? n = none → s.router.lastVerified.get? n = none)) : Timed t := by
  constructor
  · intro n b h
    rw [hbeat]
    exact ht.recorded n b (hlast n b h)
  · rw [hbeat, hclock]
    exact ht.past
  · intro n hn
    obtain ⟨hn, hnone⟩ := hnodes n hn
    obtain ⟨x, hx, hb⟩ := ht.since n hn
    rw [harrived, hbeat]
    exact ⟨x, hx, fun h => hb (hnone h)⟩

theorem timed_check (ht : Timed s) (env : RouterEnv) (n : Text) (rest : List Text) :
    Timed { s with router := s.router.evictIfStale env s.clock n, sweeping := rest } := by
  obtain ⟨he, _⟩ | ⟨he, _⟩ := evictIfStale_cases env s.clock s.router n
  · rw [he]
    exact ⟨ht.recorded, ht.past, ht.since⟩
  · rw [he]
    refine ht.fewer rfl rfl rfl (fun m b h => Dict.of_get?_pop h) fun m hm => ?_
    obtain ⟨hne, hold⟩ := Table.mem_pop.mp hm
    exact ⟨hold, fun h => (Dict.get?_pop_ne _ (Ne.symm hne)).symm.trans h⟩

theorem timed_hear (ht : Timed s) (env : RouterEnv) (payload : Bytes) (keyExpr : Text) :
    Timed (s.hear env payload keyExpr) := by
  unfold hear
  split
  · exact ht
  · rename_i raw hraw
    simp only [processHeartbeat]
    cases hv : s.router.verifiedHeartbeat env (s.encryptions env) raw keyExpr with
    | none => exact ⟨ht.recorded, ht.past, ht.since⟩
    | some accepted =>
      obtain ⟨heartbeat, registry⟩ := accepted
      obtain ⟨_, hreg, _⟩ := verifiedHeartbeat_eq_some hv
      obtain ⟨_, rfl⟩ := NodeRegistry.updateHeartbeat_eq_some.mp hreg
      constructor
      · intro n b h
        simp only [Dict.get?_set] at h
        simp only [setAt]
        split at h
        · rename_i hn
          rw [if_pos hn.symm, h]
        · rename_i hn
          rw [if_neg (Ne.symm hn)]
          exact ht.recorded n b h
      · intro n b h
        simp only [setAt] at h
        split at h
        · cases h
          exact le_refl _
        · exact ht.past n b h
      · intro n hn
        obtain ⟨x, hx, hb⟩ := ht.since n hn
        refine ⟨x, hx, fun h b => ?_⟩
        simp only [Dict.get?_set] at h
        split at h
        · cases h
        · rename_i hne
          simp only [setAt, if_neg (Ne.symm hne)]
          exact hb h b

theorem registerNode_lastVerified (r : ZenohRouter) (node : Node) (token : Option Text) :
    (registerNode r node token).lastVerified = r.lastVerified := by
  unfold registerNode
  dsimp only
  split <;> rfl

theorem mem_registerNode {r : ZenohRouter} {node : Node} {token : Option Text}
    (h : n ∈ (registerNode r node token).registry.nodes) :
    n ∈ r.registry.nodes ∨ (n = node.nodeId ∧ node.nodeId ∉ r.registry.nodes) := by
  unfold registerNode at h
  dsimp only at h
  split at h
  · left
    rwa [NodeRegistry.setNodeToken_nodes] at h
  · rename_i registry hreg
    obtain ⟨hnew, rfl⟩ := NodeRegistry.localRegister_eq_some.mp hreg
    rw [NodeRegistry.setNodeToken_nodes] at hnew h
    rcases Table.mem_put.mp h with hk | hold
    · exact .inr ⟨hk, hnew⟩
    · exact .inl hold

theorem timed_register (ht : Timed s) (env : RouterEnv) (node : Node) (token : Option Text)
    (h : step env s (.register node token) = some t) : Timed t := by
  obtain rfl := Option.some.inj h
  have hlast := registerNode_lastVerified s.router node token
  constructor
  · simp only [hlast]
    exact ht.recorded
  · exact ht.past
  · intro n hn
    simp only [hlast]
    obtain hold | ⟨rfl, hnew⟩ := mem_registerNode hn
    · obtain ⟨x, hx, hb⟩ := ht.since n hold
      refine ⟨x, ?_, hb⟩
      split
      · exact hx
      · rename_i hnew
        rw [setAt, if_neg]
        · exact hx
        · rintro rfl
          exact hnew hold
    · exact ⟨s.clock, by rw [if_neg hnew, setAt, if_pos rfl], fun _ b hb => ht.past _ b hb⟩

theorem timed_unregister (ht : Timed s) (env : RouterEnv) (nodeId : Text)
    (h : step env s (.unregister nodeId) = some t) : Timed t := by
  obtain rfl := Option.some.inj h
  simp only [unregisterNode]
  split
  · exact ht.fewer rfl rfl rfl (fun _ _ h => h) fun m hm => ⟨(Table.mem_pop.mp hm).2, id⟩
  · exact ⟨ht.recorded, ht.past, ht.since⟩

theorem timed_restart (ht : Timed s) (env : RouterEnv) (h : step env s .restart = some t) :
    Timed t := by
  obtain rfl := Option.some.inj h
  constructor
  · intro n b hb
    exact absurd hb (by simp [reload])
  · exact ht.past
  · intro n hn
    have hstored : n ∈ s.router.store.nodes := hn
    exact ⟨s.clock, if_pos hstored, fun _ b hb => ht.past n b hb⟩

theorem timed_measure (ht : Timed s) (env : RouterEnv) (payload : Bytes) (keyExpr : Text) (wall : ℚ) :
    Timed (s.measure env payload keyExpr wall) := by
  unfold measure
  split
  · exact ht
  · simp only [processTelemetry]
    split
    · exact ⟨ht.recorded, ht.past, ht.since⟩
    · exact ⟨ht.recorded, ht.past, ht.since⟩

theorem timed_step (ht : Timed s) (h : step env s a = some t) : Timed t := by
  cases a with
  | tick seconds =>
    simp only [step] at h
    split at h
    · rename_i hpos
      obtain rfl := Option.some.inj h
      exact ⟨ht.recorded, fun n b hb => (ht.past n b hb).trans (le_add_of_nonneg_right hpos), ht.since⟩
    · cases h
  | register node token => exact timed_register ht env node token h
  | unregister nodeId => exact timed_unregister ht env nodeId h
  | restart => exact timed_restart ht env h
  | sealed sealing =>
    obtain rfl := Option.some.inj h
    exact ⟨ht.recorded, ht.past, ht.since⟩
  | heartbeat payload keyExpr =>
    obtain rfl := Option.some.inj h
    exact timed_hear ht env payload keyExpr
  | telemetry payload keyExpr wall =>
    obtain rfl := Option.some.inj h
    exact timed_measure ht env payload keyExpr wall
  | liveliness kind keyExpr =>
    obtain rfl := Option.some.inj h
    simp only [processLiveliness]
    split
    · exact timed_check ht env _ _
    · exact ⟨ht.recorded, ht.past, ht.since⟩
  | sweepStarts =>
    simp only [step] at h
    split at h
    · obtain rfl := Option.some.inj h
      exact ⟨ht.recorded, ht.past, ht.since⟩
    · cases h
  | sweepNext =>
    simp only [step] at h
    split at h
    · cases h
    · obtain rfl := Option.some.inj h
      exact timed_check ht env _ _

/-- A step that checks a node is the check of that node. -/
theorem checked_step (h : step env s a = some t) (hn : n ∈ checked s a) :
    t.router = s.router.evictIfStale env s.clock n := by
  unfold checked at hn
  split at hn
  · obtain rfl := Option.some.inj h
    simp only [processLiveliness]
    rw [hn]
  · simp only [step] at h
    split at h
    · cases h
    · rename_i hs
      obtain rfl := Option.some.inj h
      rw [hs] at hn
      rw [Option.some.inj hn]
  · cases hn

/-- The router removes the node it checks exactly if it is registered and not fresh. -/
theorem removed_iff (h : step env s a = some t) (hn : n ∈ checked s a)
    (hreg : n ∈ s.router.registry.nodes) :
    n ∉ t.router.registry.nodes ↔ s.router.fresh env s.clock n = false := by
  rw [checked_step h hn]
  obtain ⟨he, hf⟩ | ⟨he, hf, _⟩ := evictIfStale_cases env s.clock s.router n
  · rw [he]
    have hf := hf.resolve_right fun hnot => hnot hreg
    exact iff_of_false (fun hnot => hnot hreg) (by simp [hf])
  · rw [he]
    exact iff_of_true (fun hm => (Table.mem_pop.mp hm).1 rfl) hf

/-- A node that is not fresh was not heard from since it arrived, or long enough ago. -/
theorem Timed.quiet (ht : Timed s) (hreg : n ∈ s.router.registry.nodes)
    (hf : s.router.fresh env s.clock n = false)
    (hx : ∀ x ∈ s.arrived n, env.nodeStaleAfter ≤ s.clock - x) (hb : s.beat n = some b) :
    env.nodeStaleAfter ≤ s.clock - b := by
  cases hl : s.router.lastVerified.get? n with
  | none =>
    obtain ⟨x, hax, hle⟩ := ht.since n hreg
    have hxb := hle hl b hb
    have hxs := hx x hax
    linarith
  | some c =>
    obtain rfl := Option.some.inj ((ht.recorded n c hl).symm.trans hb)
    rw [fresh, hl] at hf
    simpa using hf

/-- A check is always enabled. -/
theorem step_of_checked (env : RouterEnv) (h : n ∈ checked s a) : ∃ t, step env s a = some t := by
  unfold checked at h
  split at h
  · exact ⟨_, rfl⟩
  · cases hs : s.sweeping with
    | nil =>
      rw [hs] at h
      cases h
    | cons m rest =>
      simp only [step, hs]
      exact ⟨_, rfl⟩
  · cases h

theorem notEarly_iff_due (ht : Timed s) : NotEarly env s a ↔ Due env s a := by
  constructor
  · intro h n hn hreg
    obtain ⟨t, hs⟩ := step_of_checked env hn
    by_cases hf : s.router.fresh env s.clock n = true
    · exact .inl hf
    · refine .inr fun x hx => h t n hs hn hreg ?_ x (.inl hx)
      exact (removed_iff hs hn hreg).mpr (Bool.eq_false_iff.mpr hf)
  · intro h u n hu hn hreg hgone x hx
    have hf := (removed_iff hu hn hreg).mp hgone
    have hdue := (h n hn hreg).resolve_left (by simp [hf])
    rcases hx with hx | hx
    · exact hdue x hx
    · exact ht.quiet hreg hf hdue hx

theorem timed_start (store : SQLiteStore) (clock : ℚ) : Timed (start store clock) := by
  constructor
  · exact fun n b hb => absurd hb (by simp [start])
  · exact fun n b hb => absurd hb (by simp [start])
  · exact fun n hn => ⟨clock, if_pos hn, fun _ b hb => absurd hb (by simp [start])⟩

end

/-- In every run, no node is removed early exactly if every check of a node is due. -/
theorem no_early_eviction_iff (env : RouterEnv) (store : SQLiteStore) (clock : ℚ) (run : List Act) :
    Along (step env) (NotEarly env) (start store clock) run ↔
      Along (step env) (Due env) (start store clock) run :=
  along_congr (fun _ _ _ ht hs => timed_step ht hs) (fun _ _ ht => notEarly_iff_due ht)
    (timed_start store clock)

/-- A node registers, and somebody drops a liveliness token of its name one second later. -/
def forgedRun : List Act :=
  [.register ⟨text "n1", []⟩ (some (text "secret")), .tick 1,
    .liveliness .delete (text "public-intelligence/net/liveliness/n1")]

/-- A forged deathrattle removes a node that has just registered. -/
theorem forged_deathrattle_evicts :
    ¬ ∀ (env : RouterEnv) (store : SQLiteStore) (clock : ℚ) (run : List Act),
      Along (step env) (NotEarly env) (start store clock) run := by
  intro h
  have hdue : Along (step sampleEnv) (Due sampleEnv) (start emptyStore 0) forgedRun :=
    (along_congr (fun _ _ _ ht hs => timed_step ht hs) (fun _ _ ht => notEarly_iff_due ht)
      (timed_start emptyStore 0)).mp (h sampleEnv emptyStore 0 forgedRun)
  exact absurd hdue (by decide +kernel)

end PublicIntelligence.System.Fleet
