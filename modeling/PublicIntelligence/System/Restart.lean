import PublicIntelligence.Lib.Runs
import PublicIntelligence.Scheduler.SqliteNodes

namespace PublicIntelligence.System

open Runs Text Json Scheduler NodeTable Database

/-- A registry and the database it writes through to. -/
structure Durable where
  registry : NodeRegistry
  db : Database

namespace Durable

/-- A call on the registry. The last four only observe nodes. -/
inductive Op where
  | register (node : Node)
  | update (node : Node)
  | setAvailableModels (nodeId : Text) (models : List Text)
  | unregister (nodeId : Text)
  | unregisterNode (nodeId : Text)
  | clear
  | setNodeToken (nodeId : Text) (token : Option Text)
  | updateHeartbeat (heartbeat : Heartbeat)
  | setTelemetry (nodeId : Text) (data : Fields)
  | markMeshReachable (nodeId : Text)
  | incrementDampener (nodeId : Text)

/-- The nodes that a call brings in have finite numbers. -/
def Op.Finite : Op → Prop
  | .register node => node.Finite
  | .update node => node.Finite
  | _ => True

/-- A call that raises `ValueError` changes nothing; there is no step where the store fails. -/
def step : Step Durable Op
  | s, .register node =>
    match s.registry.localRegister node with
    | none => some s
    | some registry => (s.db.saveNode node).map (Durable.mk registry)
  | s, .update node =>
    match s.registry.update node with
    | none => some s
    | some registry => (s.db.saveNode node).map (Durable.mk registry)
  | s, .setAvailableModels nodeId models =>
    match s.registry.setAvailableModels nodeId models with
    | none => some s
    | some (updated, registry) => (s.db.saveNode updated).map (Durable.mk registry)
  | s, .unregister nodeId =>
    match s.registry.localUnregister nodeId with
    | none => some s
    | some registry => (s.db.deleteNode nodeId).map (Durable.mk registry)
  | s, .unregisterNode nodeId =>
    (s.db.deleteNode nodeId).map (Durable.mk (s.registry.localUnregisterNode nodeId))
  | s, .clear => some ⟨.empty, s.db.clearNodes⟩
  | s, .setNodeToken nodeId token =>
    (s.db.saveNodeToken nodeId token).map (Durable.mk (s.registry.setNodeToken nodeId token))
  | s, .updateHeartbeat heartbeat =>
    some { s with registry := (s.registry.updateHeartbeat heartbeat).getD s.registry }
  | s, .setTelemetry nodeId data => some { s with registry := s.registry.setTelemetry nodeId data }
  | s, .markMeshReachable nodeId => some { s with registry := s.registry.markMeshReachable nodeId }
  | s, .incrementDampener nodeId =>
    some { s with registry := (s.registry.incrementDampener nodeId).getD s.registry }

/-- A fresh registry that runs `load` on the database. -/
def reload (c : Coercions) (db : Database) : NodeRegistry := .refill (db.loadNodes c) db.nodeTokens

/-- A process that has just started on the database. -/
def start (c : Coercions) (db : Database) : Durable := ⟨reload c db, db⟩

/-- Every row validates, to a node of its own id. -/
def Sound (c : Coercions) (db : Database) : Prop :=
  ∀ row ∈ db.nodes.rows, ∃ n, readRow c row = some n ∧ n.nodeId = row.nodeId ∧ n.Finite

/-- The fresh registry has the nodes and credentials of the live one, and no observation. -/
structure Restores (fresh live : NodeRegistry) : Prop where
  nodes : fresh.nodes.values = live.nodes.values
  tokens : ∀ n, fresh.getNodeToken n = live.getNodeToken n
  heartbeats : ∀ n, fresh.heartbeats.get? n = none
  telemetry : ∀ n, fresh.telemetry.get? n = none
  meshNodes : ∀ n, fresh.isMeshReachable n = false
  dampeners : ∀ n ∈ fresh.nodes, fresh.dampeners.get? n = some 0

/-- The rows read as the nodes, in the same order. -/
def Lists (c : Coercions) (rows : List NodeRow) (nodes : List Node) : Prop :=
  List.Forall₂ (fun row n => row.nodeId = n.nodeId ∧ readRow c row = some n) rows nodes

/-- What memory and database have in common between two calls. -/
structure Mirrors (c : Coercions) (s : Durable) : Prop where
  lists : Lists c s.db.nodes.rows s.registry.nodes.values
  finite : ∀ n ∈ s.registry.nodes.values, n.Finite
  tokens : s.db.nodeTokens = s.registry.nodeTokens

section
variable {c : Coercions} {rows : List NodeRow} {nodes : List Node}

theorem Lists.keys (h : Lists c rows nodes) : rows.map NodeRow.nodeId = nodes.map Node.nodeId := by
  induction h with
  | nil => rfl
  | cons hd _ ih => rw [List.map_cons, List.map_cons, hd.1, ih]

theorem Lists.load (h : Lists c rows nodes) : rows.filterMap (readRow c) = nodes := by
  induction h with
  | nil => rfl
  | cons hd _ ih => rw [List.filterMap_cons, hd.2, ih]

theorem Lists.delete (h : Lists c rows nodes) (nodeId : Text) :
    Lists c (rows.filter fun row => row.nodeId ≠ nodeId) (nodes.filter fun n => n.nodeId ≠ nodeId) := by
  refine List.rel_filter (fun row n hd => ?_) h
  change decide (row.nodeId ≠ nodeId) = true ↔ decide (n.nodeId ≠ nodeId) = true
  rw [hd.1]

/-- What `save_node` writes goes where `_nodes[node_id] = node` puts it. -/
theorem Lists.save {t : NodeTable} {table : Nodes} (h : Lists c t.rows table.values) (hn : n.Finite)
    (hp : modelDumpJson n.json = some payload) :
    Lists c (t.upsert n.nodeId payload).rows (table.put n).values := by
  have hmem : n.nodeId ∈ t.rows.map NodeRow.nodeId ↔ n.nodeId ∈ table := by
    rw [h.keys, Table.mem_keys]
  unfold upsert
  split
  · rename_i hold
    rw [Table.values_put_old (hmem.mp hold)]
    refine List.forall₂_map_left_iff.mpr (List.forall₂_map_right_iff.mpr (h.imp fun row m hd => ?_))
    unfold overwrite
    rw [hd.1]
    split
    · rename_i heq
      exact ⟨heq, readRow_saved c hn hp rfl⟩
    · exact hd
  · rename_i hnew
    rw [Table.values_put_new fun hm => hnew (hmem.mpr hm)]
    exact List.rel_append h (.cons ⟨rfl, readRow_saved c hn hp rfl⟩ .nil)

end

section
variable {c : Coercions} {s t : Durable}

/-- A step that writes one node through to its row keeps the two alike. -/
theorem Mirrors.save (h : Mirrors c s) (hn : n.Finite) {registry : NodeRegistry}
    (ht : (s.db.saveNode n).map (Durable.mk registry) = some t)
    (hnodes : registry.nodes = s.registry.nodes.put n)
    (htokens : registry.nodeTokens = s.registry.nodeTokens) : Mirrors c t := by
  obtain ⟨db, hdb, rfl⟩ := Option.map_eq_some_iff.mp ht
  simp only [saveNode, bind, Option.bind_eq_some_iff, pure, Option.some.injEq] at hdb
  obtain ⟨payload, hp, rfl⟩ := hdb
  constructor
  · rw [hnodes]
    exact h.lists.save hn hp
  · rw [hnodes]
    intro m hm
    have hget := Table.mem_values.mp hm
    rw [Table.get?_put] at hget
    split at hget
    · rwa [← Option.some.inj hget]
    · exact h.finite m (Table.mem_values.mpr hget)
  · exact h.tokens.trans htokens.symm

theorem Mirrors.delete (h : Mirrors c s) {nodeId : Text}
    (ht : (s.db.deleteNode nodeId).map (Durable.mk (s.registry.localUnregisterNode nodeId)) = some t) :
    Mirrors c t := by
  obtain ⟨db, hdb, rfl⟩ := Option.map_eq_some_iff.mp ht
  unfold deleteNode at hdb
  split at hdb
  · cases hdb
    constructor
    · exact (Table.values_pop s.registry.nodes nodeId).symm ▸ h.lists.delete nodeId
    · intro m hm
      exact h.finite m (Table.mem_values.mpr (Dict.of_get?_pop (Table.mem_values.mp hm)))
    · exact congrArg (Dict.pop · nodeId) h.tokens
  · cases hdb

theorem Mirrors.token (h : Mirrors c s) {nodeId : Text} {token : Option Text}
    (ht : (s.db.saveNodeToken nodeId token).map (Durable.mk (s.registry.setNodeToken nodeId token)) = some t) :
    Mirrors c t := by
  obtain ⟨db, hdb, rfl⟩ := Option.map_eq_some_iff.mp ht
  unfold saveNodeToken at hdb
  have hnodes := NodeRegistry.setNodeToken_nodes s.registry nodeId token
  cases hg : given token with
  | none =>
    rw [hg] at hdb
    dsimp only at hdb
    split at hdb
    · cases hdb
      refine ⟨hnodes ▸ h.lists, hnodes ▸ h.finite, ?_⟩
      simp only [NodeRegistry.setNodeToken, hg, h.tokens]
    · cases hdb
  | some tok =>
    rw [hg] at hdb
    dsimp only at hdb
    split at hdb
    · cases hdb
      refine ⟨hnodes ▸ h.lists, hnodes ▸ h.finite, ?_⟩
      simp only [NodeRegistry.setNodeToken, hg, h.tokens]
    · cases hdb

/-- What is only observed is not written, and enters neither side. -/
theorem Mirrors.observe (h : Mirrors c s) {registry : NodeRegistry}
    (hnodes : registry.nodes = s.registry.nodes) (htokens : registry.nodeTokens = s.registry.nodeTokens) :
    Mirrors c { s with registry } :=
  ⟨hnodes ▸ h.lists, hnodes ▸ h.finite, h.tokens.trans htokens.symm⟩

theorem mirrors_step (h : Mirrors c s) (hop : op.Finite) (ht : step s op = some t) : Mirrors c t := by
  cases op with
  | register node =>
    simp only [step] at ht
    split at ht
    · cases ht
      exact h
    · rename_i registry hreg
      obtain ⟨_, rfl⟩ := NodeRegistry.localRegister_eq_some.mp hreg
      exact h.save hop ht rfl rfl
  | update node =>
    simp only [step] at ht
    split at ht
    · cases ht
      exact h
    · rename_i registry hreg
      obtain ⟨_, rfl⟩ := NodeRegistry.update_eq_some.mp hreg
      exact h.save hop ht rfl rfl
  | setAvailableModels nodeId models =>
    simp only [step] at ht
    split at ht
    · cases ht
      exact h
    · rename_i updated registry hreg
      obtain ⟨node, hget, rfl, rfl⟩ := NodeRegistry.setAvailableModels_eq_some.mp hreg
      have hkey := Table.key_of_get? hget
      have hfinite := h.finite node (Table.mem_values.mpr (hkey ▸ hget))
      exact h.save (hfinite.withModels models) ht rfl rfl
  | unregister nodeId =>
    simp only [step] at ht
    split at ht
    · cases ht
      exact h
    · rename_i registry hreg
      obtain ⟨_, rfl⟩ := NodeRegistry.localUnregister_eq_some.mp hreg
      exact h.delete ht
  | unregisterNode nodeId => exact h.delete ht
  | clear =>
    cases ht
    exact ⟨.nil, fun n hn => absurd hn List.not_mem_nil, rfl⟩
  | setNodeToken nodeId token => exact h.token ht
  | updateHeartbeat heartbeat =>
    cases ht
    cases hb : s.registry.updateHeartbeat heartbeat with
    | none => exact h.observe rfl rfl
    | some registry =>
      obtain ⟨_, rfl⟩ := NodeRegistry.updateHeartbeat_eq_some.mp hb
      exact h.observe rfl rfl
  | setTelemetry nodeId data =>
    cases ht
    exact h.observe rfl rfl
  | markMeshReachable nodeId =>
    cases ht
    exact h.observe rfl rfl
  | incrementDampener nodeId =>
    cases ht
    cases hd : s.registry.incrementDampener nodeId with
    | none => exact h.observe rfl rfl
    | some registry =>
      obtain ⟨dampeners, rfl⟩ := NodeRegistry.incrementDampener_eq_some hd
      exact h.observe rfl rfl

theorem lists_of_rows {rows : List NodeRow}
    (h : ∀ row ∈ rows, ∃ n, readRow c row = some n ∧ n.nodeId = row.nodeId ∧ n.Finite) :
    ∃ nodes, Lists c rows nodes ∧ ∀ n ∈ nodes, n.Finite := by
  induction rows with
  | nil => exact ⟨[], .nil, fun n hn => absurd hn List.not_mem_nil⟩
  | cons row rows ih =>
    obtain ⟨⟨n, hread, hid, hfinite⟩, hrows⟩ := List.forall_mem_cons.mp h
    obtain ⟨nodes, hl, hf⟩ := ih hrows
    exact ⟨n :: nodes, .cons ⟨hid.symm, hread⟩ hl, List.forall_mem_cons.mpr ⟨hfinite, hf⟩⟩

theorem mirrors_start {db : Database} (h : Sound c db) : Mirrors c (start c db) := by
  obtain ⟨nodes, hl, hf⟩ := lists_of_rows h
  have hload : db.loadNodes c = nodes := hl.load
  have hvalues : (start c db).registry.nodes.values = nodes := by
    refine (Table.values_foldl_put (t := .empty) ?_).trans hload
    rw [hload]
    exact hl.keys ▸ db.nodes.keyed
  exact ⟨hvalues ▸ hl, hvalues ▸ hf, rfl⟩

/-- Where the two are alike, `load` brings the registry's nodes and credentials back. -/
theorem Mirrors.reload (h : Mirrors c s) :
    reload c s.db = .load s.registry.nodes s.registry.nodeTokens := by
  have hload : s.db.loadNodes c = s.registry.nodes.values := h.lists.load
  rw [Durable.reload, hload, NodeRegistry.refill_values, h.tokens]

theorem Mirrors.restores (h : Mirrors c s) : Restores (Durable.reload c s.db) s.registry := by
  rw [h.reload]
  constructor
  · rfl
  · exact fun _ => rfl
  · exact fun _ => rfl
  · exact fun _ => rfl
  · exact fun _ => rfl
  · intro n hn
    exact (NodeRegistry.load_dampeners _ _ n).trans (if_pos hn)

end

/-- After every sequence of calls, a registry that loads the database holds what the live
one holds of nodes and credentials, in the same order, and none of its observations. -/
theorem restart_refines {c : Coercions} {db : Database} (hdb : Sound c db) {run : List Op}
    (hrun : ∀ op ∈ run, op.Finite) {s : Durable} (hexec : exec step (start c db) run = some s) :
    Restores (reload c s.db) s.registry := by
  have hguard : Along step (fun _ op => op.Finite) (start c db) run := along_forall hrun
  exact (along_invariant (fun _ _ _ h hop ht => mirrors_step h hop ht) (mirrors_start hdb) hguard
    hexec).restores

/-- A host with one graphics card and one model. -/
def sampleNode (nodeId : Text) : Node where
  nodeId
  body := NodeRecord.body {
    hostname := text "host.local"
    ipAddress := text "127.0.0.1"
    region := text "eu-west"
    gpu := ⟨text "NVIDIA GeForce RTX 3090", "24.0", "22.5"⟩
    cpuCores := 8
    ramTotalGb := "32.0"
    availableModels := [text "llama3:8b"] }

theorem sampleNode_finite (nodeId : Text) : (sampleNode nodeId).Finite :=
  ⟨_, rfl, ⟨by decide, by decide +kernel, ⟨⟨by decide, rfl⟩, by decide +kernel⟩,
    ⟨⟨by decide, rfl⟩, by decide +kernel⟩, ⟨⟨by decide, rfl⟩, by decide +kernel⟩⟩⟩

/-- Integers and floats that need no coercion. -/
def strictCoercions : Coercions where
  int
    | .int n => some n
    | _ => none
  float
    | .float l => some l
    | _ => none
  int_int _ := rfl
  float_float _ := rfl

def emptyDatabase : Database := ⟨.empty, .empty⟩

/-- A node is registered twice, refreshed, removed and registered again behind another. -/
def sampleRun : List Op :=
  [.setNodeToken (text "n1") (some (text "tok-old")), .register (sampleNode (text "n1")),
    .setNodeToken (text "n1") (some (text "tok-new")), .register (sampleNode (text "n1")),
    .register (sampleNode (text "n2")), .setAvailableModels (text "n2") [text "mistral:7b", text "llama3:8b"],
    .unregister (text "n1"), .unregister (text "n1"), .markMeshReachable (text "n2"),
    .register (sampleNode (text "n1"))]

theorem restart_refines_sample : ∃ s, exec step (start strictCoercions emptyDatabase) sampleRun = some s ∧
    s.registry.list = [text "n2", text "n1"] ∧ Restores (reload strictCoercions s.db) s.registry := by
  have hsome : (exec step (start strictCoercions emptyDatabase) sampleRun).isSome = true := by decide +kernel
  have hlist : (exec step (start strictCoercions emptyDatabase) sampleRun).map (fun s => s.registry.list) =
    some [text "n2", text "n1"] := by decide +kernel
  obtain ⟨s, hs⟩ := Option.isSome_iff_exists.mp hsome
  have hfinite : ∀ op ∈ sampleRun, op.Finite := by
    simp [sampleRun, Op.Finite, sampleNode_finite]
  refine ⟨s, hs, ?_, restart_refines (fun row hrow => absurd hrow List.not_mem_nil) hfinite hs⟩
  rw [hs] at hlist
  exact Option.some.inj hlist

end Durable
end PublicIntelligence.System
