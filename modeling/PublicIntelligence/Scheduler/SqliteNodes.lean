import PublicIntelligence.Mesh.Auth
import PublicIntelligence.Scheduler.Registry

namespace PublicIntelligence.Scheduler

open Text Json Mesh

structure GPUInfo where
  name : Text
  vramTotalGb : String
  vramAvailableGb : String

/-- What a node is validated to have beside its id. A float is its literal. -/
structure NodeRecord where
  hostname : Text
  ipAddress : Text
  region : Text
  gpu : GPUInfo
  cpuCores : Int
  ramTotalGb : String
  availableModels : List Text

def GPUInfo.json (g : GPUInfo) : Json :=
  .obj [(text "name", .str g.name), (text "vram_total_gb", .float g.vramTotalGb),
    (text "vram_available_gb", .float g.vramAvailableGb)]

def NodeRecord.body (rec : NodeRecord) : Fields :=
  [(text "hostname", .str rec.hostname), (text "ip_address", .str rec.ipAddress),
    (text "region", .str rec.region), (text "gpu", rec.gpu.json), (text "cpu_cores", .int rec.cpuCores),
    (text "ram_total_gb", .float rec.ramTotalGb),
    (text "available_models", .arr (rec.availableModels.map .str))]

/-- `model_dump` -/
def Node.json (n : Node) : Json := .obj ((text "node_id", .str n.nodeId) :: n.body)

/-- How pydantic reads an integer and a float from other values than these. -/
structure Coercions where
  int : Json → Option Int
  float : Json → Option String
  int_int : ∀ n, int (.int n) = some n
  float_float : ∀ l, float (.float l) = some l

/-- A bound below on a float, which infinity meets. -/
def bounded (bound : ℚ → Bool) (l : String) : Bool :=
  if l ∈ nonFinite then l = "Infinity" else bound (literalValue l)

def atLeastZero (x : ℚ) : Bool := 0 ≤ x

def aboveZero (x : ℚ) : Bool := 0 < x

section
variable (c : Coercions)

def readFloat (bound : ℚ → Bool) (value : Option Json) : Option String := do
  let l ← c.float (← value)
  if bounded bound l then some l else none

def readCores (value : Option Json) : Option Int := do
  let n ← c.int (← value)
  if 0 < n then some n else none

def readModels : Option Json → Option (List Text)
  | none => some []
  | some (.arr models) => models.mapM fun m => asStr (some m)
  | some _ => none

def readGPU : Option Json → Option GPUInfo
  | some (.obj fs) => do
    let name ← asStr (get? fs "name")
    let total ← readFloat c atLeastZero (get? fs "vram_total_gb")
    let available ← readFloat c atLeastZero (get? fs "vram_available_gb")
    return ⟨name, total, available⟩
  | _ => none

/-- `Node.model_validate` -/
def validateNode : Json → Option Node
  | .obj fs => do
    let nodeId ← asStr (get? fs "node_id")
    let hostname ← asStr (get? fs "hostname")
    let ipAddress ← asStr (get? fs "ip_address")
    let region ← asStr (get? fs "region")
    let gpu ← readGPU c (get? fs "gpu")
    let cpuCores ← readCores c (get? fs "cpu_cores")
    let ramTotalGb ← readFloat c aboveZero (get? fs "ram_total_gb")
    let availableModels ← readModels (get? fs "available_models")
    return ⟨nodeId, (NodeRecord.mk hostname ipAddress region gpu cpuCores ramTotalGb availableModels).body⟩
  | _ => none

end

/-- A float that is a number, as it is written. -/
def FiniteFloat (l : String) : Prop := l ∉ nonFinite ∧ scanNumber (text l) = .ok (.float l, [])

/-- A validated record whose numbers are finite. -/
structure NodeRecord.Finite (rec : NodeRecord) : Prop where
  cores : 0 < rec.cpuCores
  readableCores : (natText rec.cpuCores.natAbs).length ≤ maxDigits
  total : FiniteFloat rec.gpu.vramTotalGb ∧ 0 ≤ literalValue rec.gpu.vramTotalGb
  available : FiniteFloat rec.gpu.vramAvailableGb ∧ 0 ≤ literalValue rec.gpu.vramAvailableGb
  ram : FiniteFloat rec.ramTotalGb ∧ 0 < literalValue rec.ramTotalGb

/-- A node that validation has let through, with finite numbers. -/
def Node.Finite (n : Node) : Prop := ∃ rec : NodeRecord, n.body = rec.body ∧ rec.Finite

/-- Another catalogue leaves the rest of the record as it is. -/
theorem Node.Finite.withModels (h : Node.Finite n) (models : List Text) : (n.withModels models).Finite := by
  obtain ⟨nodeId, body⟩ := n
  obtain ⟨rec, rfl, hrec⟩ := h
  refine ⟨{ rec with availableModels := models }, ?_, ⟨hrec.cores, hrec.readableCores, hrec.total,
    hrec.available, hrec.ram⟩⟩
  have hne : ∀ field ∈ ["hostname", "ip_address", "region", "gpu", "cpu_cores", "ram_total_gb"],
      text field ≠ text "available_models" := by decide +kernel
  simp only [Node.withModels, NodeRecord.body, Dict.put, hne "hostname" (by simp), hne "ip_address" (by simp),
    hne "region" (by simp), hne "gpu" (by simp), hne "cpu_cores" (by simp), hne "ram_total_gb" (by simp),
    if_false, if_true]

section
variable {c : Coercions} {rec : NodeRecord}

theorem body_keys (nodeId : Text) (rec : NodeRecord) :
    (((text "node_id", Json.str nodeId) :: rec.body).map Prod.fst).Nodup := by
  have hclosed : [text "node_id", text "hostname", text "ip_address", text "region", text "gpu",
      text "cpu_cores", text "ram_total_gb", text "available_models"].Nodup := by decide +kernel
  exact hclosed

theorem gpu_keys (g : GPUInfo) : ([(text "name", Json.str g.name),
    (text "vram_total_gb", .float g.vramTotalGb),
    (text "vram_available_gb", .float g.vramAvailableGb)].map Prod.fst).Nodup := by
  have hclosed : [text "name", text "vram_total_gb", text "vram_available_gb"].Nodup := by decide +kernel
  exact hclosed

theorem readFloat_finite (c : Coercions) (bound : ℚ → Bool) (hl : FiniteFloat l) (hb : bound (literalValue l) = true) :
    readFloat c bound (some (.float l)) = some l := by
  simp [readFloat, c.float_float, bounded, hl.1, hb]

theorem readModels_json (models : List Text) : readModels (some (.arr (models.map .str))) = some models := by
  induction models with
  | nil => rfl
  | cons m models ih =>
    simp only [readModels, List.map_cons, List.mapM_cons] at ih ⊢
    rw [ih]
    rfl

theorem readGPU_json (h : rec.Finite) : readGPU c (some rec.gpu.json) = some rec.gpu := by
  have hname : get? _ "name" = some (.str rec.gpu.name) :=
    (Dict.find_eq_some (gpu_keys rec.gpu)).mpr (by simp)
  have htotal : get? _ "vram_total_gb" = some (.float rec.gpu.vramTotalGb) :=
    (Dict.find_eq_some (gpu_keys rec.gpu)).mpr (by simp)
  have havailable : get? _ "vram_available_gb" = some (.float rec.gpu.vramAvailableGb) :=
    (Dict.find_eq_some (gpu_keys rec.gpu)).mpr (by simp)
  have hread := readFloat_finite c atLeastZero h.total.1 (decide_eq_true h.total.2)
  have hread' := readFloat_finite c atLeastZero h.available.1 (decide_eq_true h.available.2)
  simp only [readGPU, GPUInfo.json, hname, htotal, havailable, asStr, hread, hread', bind, Option.bind_some, pure]

/-- Validating what was dumped gives the node back. -/
theorem validateNode_json (c : Coercions) (nodeId : Text) (h : rec.Finite) :
    validateNode c (Node.mk nodeId rec.body).json = some ⟨nodeId, rec.body⟩ := by
  have hget : ∀ field j, (text field, j) ∈ (text "node_id", Json.str nodeId) :: rec.body →
      get? ((text "node_id", Json.str nodeId) :: rec.body) field = some j := fun field j hm =>
    (Dict.find_eq_some (body_keys nodeId rec)).mpr hm
  have hram := readFloat_finite c aboveZero h.ram.1 (decide_eq_true h.ram.2)
  have hcores : readCores c (some (.int rec.cpuCores)) = some rec.cpuCores := by
    simp [readCores, c.int_int, h.cores]
  have hmodels := readModels_json rec.availableModels
  simp only [validateNode, Node.json, hget "node_id" (.str nodeId) (by simp),
    hget "hostname" (.str rec.hostname) (by simp [NodeRecord.body]),
    hget "ip_address" (.str rec.ipAddress) (by simp [NodeRecord.body]),
    hget "region" (.str rec.region) (by simp [NodeRecord.body]),
    hget "gpu" rec.gpu.json (by simp [NodeRecord.body]),
    hget "cpu_cores" (.int rec.cpuCores) (by simp [NodeRecord.body]),
    hget "ram_total_gb" (.float rec.ramTotalGb) (by simp [NodeRecord.body]),
    hget "available_models" (.arr (rec.availableModels.map .str)) (by simp [NodeRecord.body]),
    asStr, readGPU_json h, hcores, hram, hmodels, bind, Option.bind_some, pure]

theorem readableItems_of_scalar {models : List Text} (h : scalarItems (models.map .str) = true) :
    ReadableItems (models.map .str) := by
  induction models with
  | nil => trivial
  | cons m models ih =>
    simp only [List.map_cons, scalarItems, scalar, Bool.and_eq_true, decide_eq_true_eq] at h
    exact ⟨joined_of_scalar h.1, ih h.2⟩

theorem readable_node (h : rec.Finite) (hs : scalar (Node.mk nodeId rec.body).json = true) :
    Readable (Node.mk nodeId rec.body).json := by
  simp only [Node.json, NodeRecord.body, GPUInfo.json, scalar, scalarFields, Bool.and_eq_true,
    decide_eq_true_eq, Bool.and_true] at hs
  obtain ⟨⟨_, hid⟩, ⟨_, hhost⟩, ⟨_, hip⟩, ⟨_, hregion⟩, ⟨_, ⟨_, hname⟩, _⟩, _, _, _, hmodels⟩ := hs
  refine ⟨body_keys nodeId rec, scalar_text _, joined_of_scalar hid, scalar_text _, joined_of_scalar hhost,
    scalar_text _, joined_of_scalar hip, scalar_text _, joined_of_scalar hregion, scalar_text _, ?_,
    scalar_text _, h.readableCores, scalar_text _, .inr h.ram.1.2, scalar_text _,
    readableItems_of_scalar hmodels, trivial⟩
  exact ⟨gpu_keys rec.gpu, scalar_text _, joined_of_scalar hname, scalar_text _, .inr h.total.1.2,
    scalar_text _, .inr h.available.1.2, trivial⟩

end

/-- A row of the table `nodes`. -/
structure NodeRow where
  rowid : Nat
  nodeId : Text
  payload : Text

/-- The table `nodes`, by rowid. -/
structure NodeTable where
  rows : List NodeRow
  ordered : rows.Pairwise fun a b => a.rowid < b.rowid
  keyed : (rows.map NodeRow.nodeId).Nodup

namespace NodeTable

def empty : NodeTable := ⟨[], List.Pairwise.nil, List.nodup_nil⟩

/-- The rowid of a new row: the largest there is, and one. -/
def nextRowid (rows : List NodeRow) : Nat := (rows.map NodeRow.rowid).foldr max 0 + 1

theorem lt_nextRowid {rows : List NodeRow} (h : row ∈ rows) : row.rowid < nextRowid rows := by
  induction rows with
  | nil => cases h
  | cons r rows ih =>
    have hnext : nextRowid (r :: rows) = max r.rowid (nextRowid rows - 1) + 1 := rfl
    have hpos : 0 < nextRowid rows := Nat.succ_pos _
    rcases List.mem_cons.mp h with rfl | h
    · omega
    · have hlt := ih h
      omega

/-- `ON CONFLICT(node_id) DO UPDATE SET payload` -/
def overwrite (nodeId payload : Text) (row : NodeRow) : NodeRow :=
  if row.nodeId = nodeId then { row with payload } else row

@[simp] theorem overwrite_rowid (nodeId payload : Text) (row : NodeRow) :
    (overwrite nodeId payload row).rowid = row.rowid := by
  unfold overwrite
  split <;> rfl

@[simp] theorem overwrite_nodeId (nodeId payload : Text) (row : NodeRow) :
    (overwrite nodeId payload row).nodeId = row.nodeId := by
  unfold overwrite
  split <;> rfl

theorem overwrite_keys (nodeId payload : Text) (rows : List NodeRow) :
    (rows.map (overwrite nodeId payload)).map NodeRow.nodeId = rows.map NodeRow.nodeId := by
  simp

def upsert (t : NodeTable) (nodeId payload : Text) : NodeTable :=
  if h : nodeId ∈ t.rows.map NodeRow.nodeId then
    { rows := t.rows.map (overwrite nodeId payload)
      ordered := List.pairwise_map.mpr (t.ordered.imp fun hlt => by simpa using hlt)
      keyed := overwrite_keys nodeId payload t.rows ▸ t.keyed }
  else
    { rows := t.rows ++ [⟨nextRowid t.rows, nodeId, payload⟩]
      ordered := List.pairwise_append.mpr ⟨t.ordered, List.pairwise_singleton _ _,
        fun _ ha _ hb => List.mem_singleton.mp hb ▸ lt_nextRowid ha⟩
      keyed := by
        rw [List.map_append]
        exact t.keyed.append (List.nodup_singleton _) (List.disjoint_singleton.mpr h) }

def delete (t : NodeTable) (nodeId : Text) : NodeTable where
  rows := t.rows.filter fun row => row.nodeId ≠ nodeId
  ordered := t.ordered.filter _
  keyed := t.keyed.sublist (List.filter_sublist.map _)

end NodeTable

/-- The tables of the file that the registry writes to. -/
structure Database where
  nodes : NodeTable
  nodeTokens : Dict Text Text

namespace Database

/-! `none` is a call that raises: SQLite and `model_dump_json` take no lone surrogate. -/

def saveNode (db : Database) (node : Node) : Option Database := do
  let payload ← modelDumpJson node.json
  return { db with nodes := db.nodes.upsert node.nodeId payload }

def deleteNode (db : Database) (nodeId : Text) : Option Database :=
  if Scalar nodeId then
    some { db with nodes := db.nodes.delete nodeId, nodeTokens := db.nodeTokens.pop nodeId }
  else none

def clearNodes (_ : Database) : Database := ⟨.empty, .empty⟩

def saveNodeToken (db : Database) (nodeId : Text) (token : Option Text) : Option Database :=
  match given token with
  | some t =>
    if Scalar nodeId ∧ Scalar t then some { db with nodeTokens := db.nodeTokens.set nodeId t } else none
  | none => if Scalar nodeId then some { db with nodeTokens := db.nodeTokens.pop nodeId } else none

/-- A row that no longer validates is skipped. -/
def readRow (c : Coercions) (row : NodeRow) : Option Node :=
  match loads row.payload with
  | .ok j => validateNode c j
  | .error _ => none

/-- A row as it was saved reads as the node. -/
theorem readRow_saved (c : Coercions) (hn : n.Finite) (hp : modelDumpJson n.json = some payload)
    (hrow : row.payload = payload) : readRow c row = some n := by
  obtain ⟨nodeId, body⟩ := n
  obtain ⟨rec, rfl, hrec⟩ := hn
  unfold modelDumpJson at hp
  split at hp
  · rename_i hs
    cases hp
    rw [readRow, hrow, loads_write .raw (lossless_of_readable _ (readable_node hrec hs))]
    exact validateNode_json c nodeId hrec
  · cases hp

def loadNodes (c : Coercions) (db : Database) : List Node := db.nodes.rows.filterMap (readRow c)

end Database

end PublicIntelligence.Scheduler
