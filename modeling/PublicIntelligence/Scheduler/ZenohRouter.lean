import PublicIntelligence.Mesh.Auth
import PublicIntelligence.Scheduler.Invites

namespace PublicIntelligence.Scheduler

open Text Json Mesh

/-- What the router relies on: the cryptography, the validation of a heartbeat's
fields, how timestamps are read (in seconds since the epoch, `none` where that fails),
and `node_stale_after_seconds`. -/
structure RouterEnv where
  crypto : Crypto
  validate : Fields → Option Heartbeat
  fromTimestamp : Json → Option ℚ
  fromIsoformat : Text → Option ℚ
  nodeStaleAfter : ℚ

/-- The router, the registry it writes and the registry's store. -/
structure ZenohRouter where
  registry : NodeRegistry
  store : SQLiteStore
  lastVerified : Dict Text ℚ

inductive SampleKind where
  | put
  | delete
deriving DecidableEq

namespace ZenohRouter

def slash : CodePoint := ofChar '/'

def nodeIdFromTopic (keyExpr : Text) (index : Nat) : Option Text :=
  ((split keyExpr slash)[index]?).filter fun part => !part.isEmpty

section
variable (env : RouterEnv) (made : List Encryption)

/-- `_open_from_node`. An exception it lets pass ends the handler just as well. -/
def openFromNode (r : ZenohRouter) (raw nodeId : Text) (purpose : Purpose) : Option Fields :=
  if r.registry.exists? nodeId then
    match given (r.registry.getNodeToken nodeId) with
    | none => none
    | some token => (openEnvelope env.crypto made raw nodeId token purpose).toOption
  else none

/-- `_open_from_node` with the exception that it lets pass. -/
def openOrRaise (r : ZenohRouter) (raw nodeId : Text) (purpose : Purpose) : Except OpenError (Option Fields) :=
  if r.registry.exists? nodeId then
    match given (r.registry.getNodeToken nodeId) with
    | none => .ok none
    | some token =>
      match openEnvelope env.crypto made raw nodeId token purpose with
      | .ok data => .ok (some data)
      | .error .auth => .ok none
      | .error .value => .error .value
  else .ok none

/-- The heartbeat a sample brings, if it verifies, is valid, names its topic's node and
finds the node registered; and the registry that holds it. -/
def verifiedHeartbeat (r : ZenohRouter) (payload keyExpr : Text) : Option (Heartbeat × NodeRegistry) := do
  let nodeId ← nodeIdFromTopic keyExpr 2
  let data ← r.openFromNode env made payload nodeId .heartbeat
  let heartbeat ← env.validate data
  if heartbeat.nodeId = nodeId then
    let registry ← r.registry.updateHeartbeat heartbeat
    return (heartbeat, registry)
  else none

def processHeartbeat (now : ℚ) (r : ZenohRouter) (payload keyExpr : Text) : ZenohRouter :=
  match r.verifiedHeartbeat env made payload keyExpr with
  | none => r
  | some (heartbeat, registry) =>
    { r with
      registry := registry.markMeshReachable heartbeat.nodeId
      lastVerified := r.lastVerified.set heartbeat.nodeId now }

/-- When the telemetry says it was made. -/
def timestampOf (data : Fields) : Option ℚ :=
  match get? data "timestamp" with
  | some (.int n) => env.fromTimestamp (.int n)
  | some (.float l) => env.fromTimestamp (.float l)
  | some (.bool b) => env.fromTimestamp (.bool b)
  | some (.str s) => env.fromIsoformat s
  | _ => none

/-- The telemetry a sample brings, if it verifies and was made recently. -/
def verifiedTelemetry (wall : ℚ) (r : ZenohRouter) (payload keyExpr : Text) : Option (Text × Fields) := do
  let nodeId ← nodeIdFromTopic keyExpr 3
  let data ← r.openFromNode env made payload nodeId .telemetry
  let sent ← timestampOf env data
  if 30 < wall - sent ∨ wall - sent < -10 then none else return (nodeId, data)

def processTelemetry (wall : ℚ) (r : ZenohRouter) (payload keyExpr : Text) : ZenohRouter :=
  match r.verifiedTelemetry env made wall payload keyExpr with
  | none => r
  | some (nodeId, data) =>
    { r with registry := (r.registry.setTelemetry nodeId data).markMeshReachable nodeId }

/-- A verified heartbeat of the node is recent enough. -/
def fresh (now : ℚ) (r : ZenohRouter) (nodeId : Text) : Bool :=
  (r.lastVerified.get? nodeId).any fun lastSeen => decide (now - lastSeen < env.nodeStaleAfter)

def evict (r : ZenohRouter) (nodeId : Text) : ZenohRouter where
  registry := r.registry.localUnregisterNode nodeId
  store := r.store.deleteNode nodeId
  lastVerified := r.lastVerified.pop nodeId

def evictIfStale (now : ℚ) (r : ZenohRouter) (nodeId : Text) : ZenohRouter :=
  if r.fresh env now nodeId then r
  else if r.registry.exists? nodeId then r.evict nodeId
  else r

/-- `_on_liveliness` and the handlers it schedules. -/
def processLiveliness (now : ℚ) (r : ZenohRouter) (kind : SampleKind) (keyExpr : Text) : ZenohRouter :=
  match (split keyExpr slash)[3]?, kind with
  | some nodeId, .delete => r.evictIfStale env now nodeId
  | _, _ => r

def sweep (now : ℚ) : ZenohRouter → List Text → ZenohRouter
  | r, [] => r
  | r, nodeId :: nodeIds => sweep now (r.evictIfStale env now nodeId) nodeIds

/-- `_sweep_stale_nodes`, all at one instant. -/
def sweepStaleNodes (now : ℚ) (r : ZenohRouter) : ZenohRouter := r.sweep env now r.registry.list

end

section
variable {env : RouterEnv} {made : List Encryption} {r : ZenohRouter}

theorem openFromNode_eq_some (h : r.openFromNode env made raw nodeId purpose = some data) :
    nodeId ∈ r.registry.nodes ∧ ∃ token, r.registry.getNodeToken nodeId = some token ∧
      openEnvelope env.crypto made raw nodeId token purpose = .ok data := by
  unfold openFromNode at h
  split at h
  · rename_i hn
    refine ⟨NodeRegistry.exists?_eq_true.mp hn, ?_⟩
    split at h
    · cases h
    · rename_i token ht
      refine ⟨token, (Option.filter_eq_some_iff.mp ht).1, ?_⟩
      cases ho : openEnvelope env.crypto made raw nodeId token purpose with
      | error e =>
        rw [ho] at h
        cases h
      | ok fields =>
        rw [ho] at h
        cases h
        rfl
  · cases h

theorem verifiedHeartbeat_eq_some
    (h : r.verifiedHeartbeat env made payload keyExpr = some (heartbeat, after)) :
    nodeIdFromTopic keyExpr 2 = some heartbeat.nodeId ∧
      r.registry.updateHeartbeat heartbeat = some after ∧
      ∃ data, r.openFromNode env made payload heartbeat.nodeId .heartbeat = some data := by
  simp only [verifiedHeartbeat, bind, Option.bind_eq_some_iff] at h
  obtain ⟨nodeId, htopic, data, hopen, heartbeat', _, h⟩ := h
  split at h
  · rename_i hid
    simp only [pure, Option.bind_eq_some_iff, Option.some.injEq, Prod.mk.injEq] at h
    obtain ⟨_, hreg, rfl, rfl⟩ := h
    subst hid
    exact ⟨htopic, hreg, data, hopen⟩
  · cases h

/-- A heartbeat that is accepted has been validated. -/
theorem verifiedHeartbeat_validated
    (h : r.verifiedHeartbeat env made payload keyExpr = some (heartbeat, after)) :
    ∃ data, env.validate data = some heartbeat := by
  simp only [verifiedHeartbeat, bind, Option.bind_eq_some_iff] at h
  obtain ⟨nodeId, _, data, _, heartbeat', hvalid, h⟩ := h
  split at h
  · simp only [pure, Option.bind_eq_some_iff, Option.some.injEq, Prod.mk.injEq] at h
    obtain ⟨_, _, rfl, _⟩ := h
    exact ⟨data, hvalid⟩
  · cases h

theorem verifiedTelemetry_eq_some
    (h : r.verifiedTelemetry env made wall payload keyExpr = some (nodeId, data)) :
    nodeIdFromTopic keyExpr 3 = some nodeId ∧
      r.openFromNode env made payload nodeId .telemetry = some data := by
  simp only [verifiedTelemetry, bind, Option.bind_eq_some_iff] at h
  obtain ⟨nodeId', htopic, data', hopen, sent, _, h⟩ := h
  split at h
  · cases h
  · obtain ⟨rfl, rfl⟩ := Prod.mk.inj (Option.some.inj h)
    exact ⟨htopic, hopen⟩

theorem evictIfStale_cases (env : RouterEnv) (now : ℚ) (r : ZenohRouter) (nodeId : Text) :
    (r.evictIfStale env now nodeId = r ∧
        (r.fresh env now nodeId = true ∨ nodeId ∉ r.registry.nodes)) ∨
      (r.evictIfStale env now nodeId = r.evict nodeId ∧ r.fresh env now nodeId = false ∧
        nodeId ∈ r.registry.nodes) := by
  unfold evictIfStale
  split
  · rename_i hf
    exact .inl ⟨rfl, .inl hf⟩
  · rename_i hf
    split
    · rename_i hn
      exact .inr ⟨rfl, Bool.eq_false_iff.mpr hf, NodeRegistry.exists?_eq_true.mp hn⟩
    · rename_i hn
      exact .inl ⟨rfl, .inr fun h => hn (NodeRegistry.exists?_eq_true.mpr h)⟩

/-- Evicting a node leaves every other node as it was. -/
theorem evictIfStale_other (env : RouterEnv) (now : ℚ) (r : ZenohRouter) (h : n ≠ m) :
    ((r.evictIfStale env now n).registry.nodes.get? m = r.registry.nodes.get? m) ∧
      (r.evictIfStale env now n).lastVerified.get? m = r.lastVerified.get? m := by
  obtain ⟨he, _⟩ | ⟨he, _⟩ := evictIfStale_cases env now r n
  · rw [he]
    exact ⟨rfl, rfl⟩
  · rw [he]
    exact ⟨(Table.get?_pop _ _ _).trans (if_neg h), Dict.get?_pop_ne _ h⟩

theorem sweep_not_mem (env : RouterEnv) (now : ℚ) (h : n ∉ r.registry.nodes) (ns : List Text) :
    n ∉ (r.sweep env now ns).registry.nodes := by
  induction ns generalizing r with
  | nil => exact h
  | cons m ns ih =>
    refine ih ?_
    rw [Table.not_mem_iff] at h ⊢
    obtain ⟨he, _⟩ | ⟨he, _⟩ := evictIfStale_cases env now r m
    · rw [he, h]
    · rw [he]
      refine (Table.get?_pop _ _ _).trans ?_
      split
      · rfl
      · exact h

/-- A sweep over a list that has a stale node in it evicts the node. -/
theorem sweep_stale (env : RouterEnv) (now : ℚ) (hstale : r.fresh env now n = false) {ns : List Text}
    (hn : n ∈ ns) : n ∉ (r.sweep env now ns).registry.nodes := by
  induction ns generalizing r with
  | nil => cases hn
  | cons m ns ih =>
    by_cases hm : m = n
    · subst hm
      refine sweep_not_mem env now ?_ ns
      obtain ⟨he, hf | hnot⟩ | ⟨he, _⟩ := evictIfStale_cases env now r m
      · rw [hstale] at hf
        cases hf
      · rwa [he]
      · rw [he, Table.not_mem_iff]
        exact (Table.get?_pop _ _ _).trans (if_pos rfl)
    · refine ih ?_ ((List.mem_cons.mp hn).resolve_left (Ne.symm hm))
      rw [fresh, (evictIfStale_other env now r hm).2]
      exact hstale

/-- What a check evicts, the sweep would have evicted at the same instant. -/
theorem sweepStaleNodes_evicts (env : RouterEnv) (now : ℚ) (hstale : r.fresh env now n = false)
    (hn : n ∈ r.registry.nodes) : n ∉ (r.sweepStaleNodes env now).registry.nodes :=
  sweep_stale env now hstale (NodeRegistry.mem_list.mpr hn)

end

end ZenohRouter
end PublicIntelligence.Scheduler
