import Mathlib.Data.Finset.Basic
import PublicIntelligence.Lib.Json
import PublicIntelligence.Lib.Table

namespace PublicIntelligence.Scheduler

open Text Json

/-- A registered node: its id, and the rest of the record. -/
structure Node where
  nodeId : Text
  body : Fields

/-- `model_copy(update={"available_models": models})` -/
def Node.withModels (n : Node) (models : List Text) : Node :=
  { n with body := Dict.put (text "available_models") (.arr (models.map .str)) n.body }

/-- A heartbeat that passed validation: the node it names, and its load figures. -/
structure Heartbeat where
  nodeId : Text
  metrics : Fields

/-- A header or credential that is present and not empty. -/
def given (header : Option Text) : Option Text := header.filter fun t => !t.isEmpty

abbrev Nodes := Table Text Node.nodeId

/-- What the Scheduler holds of its nodes in memory. -/
structure NodeRegistry where
  nodes : Nodes
  heartbeats : Dict Text Heartbeat
  dampeners : Dict Text ℚ
  telemetry : Dict Text Fields
  nodeTokens : Dict Text Text
  meshNodes : Finset Text

namespace NodeRegistry

def empty : NodeRegistry := ⟨.empty, .empty, .empty, .empty, .empty, ∅⟩

/-- `load`, once the store has been read: nodes and credentials come back, what was
observed of them does not. -/
def load (nodes : Nodes) (tokens : Dict Text Text) : NodeRegistry :=
  { empty with
    nodes
    dampeners := nodes.values.foldl (fun d n => d.set n.nodeId 0) .empty
    nodeTokens := tokens }

/-- `load` with the nodes as the store lists them. -/
def refill (nodes : List Node) (tokens : Dict Text Text) : NodeRegistry :=
  { empty with
    nodes := nodes.foldl Table.put .empty
    dampeners := nodes.foldl (fun d n => d.set n.nodeId 0) .empty
    nodeTokens := tokens }

/-- The memory half of `set_node_token`. -/
def setNodeToken (r : NodeRegistry) (nodeId : Text) (token : Option Text) : NodeRegistry :=
  match given token with
  | some t => { r with nodeTokens := r.nodeTokens.set nodeId t }
  | none => { r with nodeTokens := r.nodeTokens.pop nodeId, meshNodes := r.meshNodes.erase nodeId }

def getNodeToken (r : NodeRegistry) (nodeId : Text) : Option Text := r.nodeTokens.get? nodeId

def markMeshReachable (r : NodeRegistry) (nodeId : Text) : NodeRegistry :=
  { r with meshNodes := insert nodeId r.meshNodes }

def isMeshReachable (r : NodeRegistry) (nodeId : Text) : Bool := decide (nodeId ∈ r.meshNodes)

def exists? (r : NodeRegistry) (nodeId : Text) : Bool := decide (nodeId ∈ r.nodes)

/-- The memory half of `local_register`; `none` is the `ValueError` for a node that
is already there. -/
def localRegister (r : NodeRegistry) (node : Node) : Option NodeRegistry :=
  if node.nodeId ∈ r.nodes then none
  else some { r with nodes := r.nodes.put node, dampeners := r.dampeners.set node.nodeId 0 }

/-- The memory half of `local_unregister_node`, safe for an absent node. -/
def localUnregisterNode (r : NodeRegistry) (nodeId : Text) : NodeRegistry where
  nodes := r.nodes.pop nodeId
  heartbeats := r.heartbeats.pop nodeId
  dampeners := r.dampeners.pop nodeId
  telemetry := r.telemetry.pop nodeId
  nodeTokens := r.nodeTokens.pop nodeId
  meshNodes := r.meshNodes.erase nodeId

/-- The memory half of `local_unregister`; `none` is the `ValueError` for an absent node. -/
def localUnregister (r : NodeRegistry) (nodeId : Text) : Option NodeRegistry :=
  if nodeId ∈ r.nodes then some (r.localUnregisterNode nodeId) else none

/-- The memory half of `clear`. -/
def clear (_ : NodeRegistry) : NodeRegistry := empty

/-- The memory half of `update`; `none` is the `ValueError` for an absent node. -/
def update (r : NodeRegistry) (node : Node) : Option NodeRegistry :=
  if node.nodeId ∈ r.nodes then some { r with nodes := r.nodes.put node } else none

/-- The memory half of `set_available_models`; `none` is the `ValueError` for an absent node. -/
def setAvailableModels (r : NodeRegistry) (nodeId : Text) (models : List Text) : Option (Node × NodeRegistry) :=
  (r.nodes.get? nodeId).map fun node =>
    let updated := node.withModels models
    (updated, { r with nodes := r.nodes.put updated })

/-- `update_heartbeat`; `none` is the `ValueError` for an unknown node. -/
def updateHeartbeat (r : NodeRegistry) (heartbeat : Heartbeat) : Option NodeRegistry :=
  if heartbeat.nodeId ∈ r.nodes then
    some { r with
      heartbeats := r.heartbeats.set heartbeat.nodeId heartbeat
      dampeners := r.dampeners.set heartbeat.nodeId 0 }
  else none

/-- `increment_dampener`, in exact tenths; `none` is the `ValueError` for an unknown node. -/
def incrementDampener (r : NodeRegistry) (nodeId : Text) : Option NodeRegistry :=
  if nodeId ∈ r.nodes then
    some { r with dampeners := r.dampeners.set nodeId ((r.dampeners.get? nodeId).getD 0 + 1 / 10) }
  else none

/-- The router writes a node's telemetry in place. -/
def setTelemetry (r : NodeRegistry) (nodeId : Text) (data : Fields) : NodeRegistry :=
  { r with telemetry := r.telemetry.set nodeId data }

/-- `list`, by id. -/
def list (r : NodeRegistry) : List Text := r.nodes.values.map Node.nodeId

section
variable {r : NodeRegistry}

@[simp] theorem setNodeToken_nodes (r : NodeRegistry) (n : Text) (token : Option Text) :
    (r.setNodeToken n token).nodes = r.nodes := by
  unfold setNodeToken
  split <;> rfl

@[simp] theorem setNodeToken_heartbeats (r : NodeRegistry) (n : Text) (token : Option Text) :
    (r.setNodeToken n token).heartbeats = r.heartbeats := by
  unfold setNodeToken
  split <;> rfl

@[simp] theorem setNodeToken_telemetry (r : NodeRegistry) (n : Text) (token : Option Text) :
    (r.setNodeToken n token).telemetry = r.telemetry := by
  unfold setNodeToken
  split <;> rfl

theorem setNodeToken_meshNodes {token : Option Text} (h : m ∈ (r.setNodeToken n token).meshNodes) : m ∈ r.meshNodes := by
  unfold setNodeToken at h
  split at h
  · exact h
  · exact Finset.mem_of_mem_erase h

@[simp] theorem exists?_eq_true : r.exists? n = true ↔ n ∈ r.nodes := by simp [exists?]

/-- Refilling from the list of a table's values is loading the table. -/
theorem refill_values (nodes : Nodes) (tokens : Dict Text Text) : refill nodes.values tokens = load nodes tokens := by
  have hnodes : nodes.values.foldl Table.put .empty = nodes :=
    Table.ext_values (Table.values_foldl_put (t := .empty) nodes.values_nodup)
  rw [refill, load, hnodes]

theorem foldl_dampeners (nodes : List Node) (d : Dict Text ℚ) (n : Text) :
    (nodes.foldl (fun d m => d.set m.nodeId 0) d).get? n =
      if n ∈ nodes.map Node.nodeId then some 0 else d.get? n := by
  induction nodes generalizing d with
  | nil => rfl
  | cons m nodes ih =>
    rw [List.foldl_cons, ih, List.map_cons, Dict.get?_set]
    by_cases hm : m.nodeId = n
    · simp [hm]
    · simp [hm, Ne.symm hm]

/-- After loading every dampener is there and zero. -/
theorem load_dampeners (nodes : Nodes) (tokens : Dict Text Text) (n : Text) :
    (load nodes tokens).dampeners.get? n = if n ∈ nodes then some 0 else none := by
  rw [load]
  simp only [foldl_dampeners, Table.mem_keys, Dict.get?_empty]

theorem update_eq_some : r.update node = some r' ↔
    node.nodeId ∈ r.nodes ∧ r' = { r with nodes := r.nodes.put node } := by
  unfold update
  split <;> simp_all [eq_comm]

theorem localUnregister_eq_some : r.localUnregister n = some r' ↔
    n ∈ r.nodes ∧ r' = r.localUnregisterNode n := by
  unfold localUnregister
  split <;> simp_all [eq_comm]

theorem setAvailableModels_eq_some : r.setAvailableModels nodeId models = some (updated, r') ↔
    ∃ node, r.nodes.get? nodeId = some node ∧ updated = node.withModels models ∧
      r' = { r with nodes := r.nodes.put updated } := by
  unfold setAvailableModels
  cases r.nodes.get? nodeId with
  | none => simp
  | some node =>
    simp only [Option.map_some, Option.some.injEq, Prod.mk.injEq, exists_eq_left']
    constructor
    · rintro ⟨rfl, rfl⟩
      exact ⟨rfl, rfl⟩
    · rintro ⟨rfl, rfl⟩
      exact ⟨rfl, rfl⟩

theorem localRegister_eq_some : r.localRegister node = some r' ↔
    node.nodeId ∉ r.nodes ∧
      r' = { r with nodes := r.nodes.put node, dampeners := r.dampeners.set node.nodeId 0 } := by
  unfold localRegister
  split <;> simp_all [eq_comm]

theorem localRegister_eq_none : r.localRegister node = none ↔ node.nodeId ∈ r.nodes := by
  unfold localRegister
  split <;> simp_all

theorem updateHeartbeat_eq_some : r.updateHeartbeat heartbeat = some r' ↔
    heartbeat.nodeId ∈ r.nodes ∧ r' = { r with
      heartbeats := r.heartbeats.set heartbeat.nodeId heartbeat
      dampeners := r.dampeners.set heartbeat.nodeId 0 } := by
  unfold updateHeartbeat
  split <;> simp_all [eq_comm]

theorem incrementDampener_eq_some (h : r.incrementDampener nodeId = some r') :
    ∃ dampeners, r' = { r with dampeners } := by
  unfold incrementDampener at h
  split at h
  · exact ⟨_, (Option.some.inj h).symm⟩
  · cases h

theorem mem_list : n ∈ r.list ↔ n ∈ r.nodes := Table.mem_keys

end

end NodeRegistry
end PublicIntelligence.Scheduler
