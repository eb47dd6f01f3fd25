import PublicIntelligence.Lib.Framing
import PublicIntelligence.System.Restart

namespace PublicIntelligence.System

open Text Encoding Json Framing Scheduler

/-- The packages that have a `TensorPayload` of their own. -/
inductive Package where
  | node
  | scheduler
deriving DecidableEq

/-- A float is its literal. -/
inductive TensorData where
  | bytes (bs : Bytes)
  | floats (literals : List String)
  | dict (fields : Fields)

structure TensorPayload where
  taskId : Text
  stageIndex : Nat
  targetStageIndex : Nat
  isSplitInference : Bool
  tensorType : Text
  data : TensorData
  shape : List Int
  dtype : Text
  sequenceId : Int
  shmName : Option Text
  isQuantized : Bool
  quantizationType : Option Text
  scaleFactor : String
  isSpeculative : Bool
  speculativeBlockSize : Int

/-- How pydantic reads an integer, a float and a boolean from other values than these. -/
structure Reading extends Coercions where
  bool : Json → Option Bool
  bool_bool : ∀ b, bool (.bool b) = some b

/-- Data as the constructor is given it. -/
inductive RawData where
  | bytes (bs : Bytes)
  | json (j : Json)

/-- The keyword arguments of the constructor. -/
structure Arguments where
  taskId : Option Json
  stageIndex : Option Json
  targetStageIndex : Option Json
  isSplitInference : Option Json
  tensorType : Option Json
  data : Option RawData
  shape : Option Json
  dtype : Option Json
  sequenceId : Option Json
  shmName : Option Json
  isQuantized : Option Json
  quantizationType : Option Json
  scaleFactor : Option Json
  isSpeculative : Option Json
  speculativeBlockSize : Option Json

namespace TensorPayload

section
variable (c : Reading)

def readIndex (j : Json) : Option Nat := do
  let n ← c.int j
  if 0 ≤ n then some n.toNat else none

def readText : Json → Option Text
  | .str t => some t
  | _ => none

def readOptional : Json → Option (Option Text)
  | .null => some none
  | .str t => some (some t)
  | _ => none

def readShape : Json → Option (List Int)
  | .arr js => js.mapM c.int
  | _ => none

def readData : RawData → Option TensorData
  | .bytes bs => some (.bytes bs)
  | .json (.arr js) => (js.mapM c.float).map .floats
  | .json (.obj fields) => some (.dict fields)
  | .json (.str t) => (encode t).map .bytes
  | .json _ => none

/-- Only the Node asks for a sequence id that is not negative. -/
def readSequenceId : Package → Json → Option Int
  | .node, j => (readIndex c j).map Int.ofNat
  | .scheduler, j => c.int j

def orDefault (read : Json → Option α) (default : α) : Option Json → Option α
  | none => some default
  | some j => read j

/-- `TensorPayload(...)`, or `none` where the validation fails. -/
def construct (package : Package) (a : Arguments) : Option TensorPayload := do
  let taskId ← readText (← a.taskId)
  let stageIndex ← readIndex c (← a.stageIndex)
  let targetStageIndex ← orDefault (readIndex c) 0 a.targetStageIndex
  let isSplitInference ← orDefault c.bool false a.isSplitInference
  let tensorType ← orDefault readText (text "intermediate_activation") a.tensorType
  let data ← readData c (← a.data)
  let shape ← orDefault (readShape c) [] a.shape
  let dtype ← orDefault readText (text "float32") a.dtype
  let sequenceId ← orDefault (readSequenceId c package) 0 a.sequenceId
  let shmName ← orDefault readOptional none a.shmName
  let isQuantized ← orDefault c.bool false a.isQuantized
  let quantizationType ← orDefault readOptional none a.quantizationType
  let scaleFactor ← orDefault c.float "1.0" a.scaleFactor
  let isSpeculative ← orDefault c.bool false a.isSpeculative
  let speculativeBlockSize ← orDefault c.int 1 a.speculativeBlockSize
  return ⟨taskId, stageIndex, targetStageIndex, isSplitInference, tensorType, data, shape, dtype, sequenceId,
    shmName, isQuantized, quantizationType, scaleFactor, isSpeculative, speculativeBlockSize⟩

end

def magic : Bytes := [0x50, 0x49, 0x54, 0x50]

def isBytes (p : TensorPayload) : Bool :=
  match p.data with
  | .bytes _ => true
  | _ => false

def optional : Option Text → Json
  | none => .null
  | some t => .str t

/-- The metadata that both packages write. -/
def sharedMeta (p : TensorPayload) : Fields :=
  [(text "task_id", .str p.taskId), (text "stage_index", .int p.stageIndex),
    (text "target_stage_index", .int p.targetStageIndex), (text "is_split_inference", .bool p.isSplitInference),
    (text "tensor_type", .str p.tensorType), (text "shape", .arr (p.shape.map .int)), (text "dtype", .str p.dtype),
    (text "sequence_id", .int p.sequenceId), (text "shm_name", optional p.shmName),
    (text "is_bytes", .bool p.isBytes)]

/-- The metadata that only the Node writes. -/
def quantizedMeta (p : TensorPayload) : Fields :=
  [(text "is_quantized", .bool p.isQuantized), (text "quantization_type", optional p.quantizationType),
    (text "scale_factor", .float p.scaleFactor), (text "is_speculative", .bool p.isSpeculative),
    (text "speculative_block_size", .int p.speculativeBlockSize)]

def metadata : Package → TensorPayload → Fields
  | .node, p => p.sharedMeta ++ p.quantizedMeta
  | .scheduler, p => p.sharedMeta

def rawPayload (p : TensorPayload) : Option Bytes :=
  match p.data with
  | .bytes bs => some bs
  | .floats literals => (dumps (.arr (literals.map .float))).bind encode
  | .dict fields => (dumps (.obj fields)).bind encode

/-- `to_framed_bytes` of a package, or `none` where it raises. -/
def toFramedBytes (package : Package) (p : TensorPayload) : Option Bytes := do
  let metaBytes ← (dumps (.obj (metadata package p))).bind encode
  let raw ← p.rawPayload
  frame magic 4 metaBytes raw

/-- `meta.get(key, default)` -/
def getOr (fields : Fields) (key : String) (default : Json) : Json := (get? fields key).getD default

/-- What both packages take from the metadata. -/
def sharedArguments (fields : Fields) (data : RawData) : Arguments where
  taskId := get? fields "task_id"
  stageIndex := get? fields "stage_index"
  targetStageIndex := some (getOr fields "target_stage_index" (.int 0))
  isSplitInference := some (getOr fields "is_split_inference" (.bool false))
  tensorType := some (getOr fields "tensor_type" (.str (text "intermediate_activation")))
  data := some data
  shape := some (getOr fields "shape" (.arr []))
  dtype := some (getOr fields "dtype" (.str (text "float32")))
  sequenceId := some (getOr fields "sequence_id" (.int 0))
  shmName := some (getOr fields "shm_name" .null)
  isQuantized := none
  quantizationType := none
  scaleFactor := none
  isSpeculative := none
  speculativeBlockSize := none

/-- The Node takes the fields of its own as well. -/
def framedArguments (fields : Fields) (data : RawData) : Package → Arguments
  | .node =>
    { sharedArguments fields data with
      isQuantized := some (getOr fields "is_quantized" (.bool false))
      quantizationType := some (getOr fields "quantization_type" .null)
      scaleFactor := some (getOr fields "scale_factor" (.float "1.0"))
      isSpeculative := some (getOr fields "is_speculative" (.bool false))
      speculativeBlockSize := some (getOr fields "speculative_block_size" (.int 1)) }
  | .scheduler => sharedArguments fields data

/-- `cls(**meta)` -/
def plainArguments (fields : Fields) : Arguments where
  taskId := get? fields "task_id"
  stageIndex := get? fields "stage_index"
  targetStageIndex := get? fields "target_stage_index"
  isSplitInference := get? fields "is_split_inference"
  tensorType := get? fields "tensor_type"
  data := (get? fields "data").map .json
  shape := get? fields "shape"
  dtype := get? fields "dtype"
  sequenceId := get? fields "sequence_id"
  shmName := get? fields "shm_name"
  isQuantized := get? fields "is_quantized"
  quantizationType := get? fields "quantization_type"
  scaleFactor := get? fields "scale_factor"
  isSpeculative := get? fields "is_speculative"
  speculativeBlockSize := get? fields "speculative_block_size"

/-- `json.loads(raw.decode("utf-8"))`, or `none` where it raises. -/
def loadsText (raw : Bytes) : Option Json := (decode raw).bind fun t => (loads t).toOption

def loadsFields (raw : Bytes) : Option Fields :=
  match loadsText raw with
  | some (.obj fields) => some fields
  | _ => none

/-- The data behind the metadata. -/
def framedData (fields : Fields) (rawPayload : Bytes) : Option RawData :=
  if truthy (getOr fields "is_bytes" (.bool false)) then some (.bytes rawPayload)
  else (loadsText rawPayload).map .json

/-- `from_framed_bytes` of a package, or `none` where it raises. -/
def fromFramedBytes (c : Reading) (package : Package) (raw : Bytes) : Option TensorPayload :=
  match unframe magic 4 raw with
  | none => do
    let fields ← loadsFields raw
    construct c package (plainArguments fields)
  | some (metaBytes, rawPayload) => do
    let fields ← loadsFields metaBytes
    let data ← framedData fields rawPayload
    construct c package (framedArguments fields data package)

/-- What is valid for both packages: finite numbers, and dictionaries that JSON can carry. -/
structure Valid (p : TensorPayload) : Prop where
  sequenceId : 0 ≤ p.sequenceId
  scaleFactor : FiniteFloat p.scaleFactor
  floats : ∀ literals, p.data = .floats literals → ∀ l ∈ literals, FiniteFloat l
  dict : ∀ fields, p.data = .dict fields → Lossless (.obj fields)

/-- The fields that only the Node's frames carry have their defaults. -/
def plain (p : TensorPayload) : TensorPayload :=
  { p with
    isQuantized := false
    quantizationType := none
    scaleFactor := "1.0"
    isSpeculative := false
    speculativeBlockSize := 1 }

/-- What the second package reads in a frame of the first one. -/
def received (p : TensorPayload) : Package → Package → TensorPayload
  | .node, .node => p
  | _, _ => p.plain

def texts (p : TensorPayload) : List Text :=
  [p.taskId, p.tensorType, p.dtype] ++ p.shmName.toList ++ p.quantizationType.toList

/-- The payload as JSON carries its texts. -/
def joinTexts (p : TensorPayload) : TensorPayload :=
  { p with
    taskId := joined p.taskId
    tensorType := joined p.tensorType
    dtype := joined p.dtype
    shmName := p.shmName.map joined
    quantizationType := p.quantizationType.map joined }

def sharedIntegers (p : TensorPayload) : List Int :=
  [(p.stageIndex : Int), p.targetStageIndex] ++ p.shape ++ [p.sequenceId]

/-- The integers in the metadata that a package writes. -/
def integers : Package → TensorPayload → List Int
  | .node, p => p.sharedIntegers ++ [p.speculativeBlockSize]
  | .scheduler, p => p.sharedIntegers

/-- Python turns the integer into text. -/
def Short (n : Int) : Prop := (natText n.natAbs).length ≤ maxDigits

/-- What the Scheduler's frames leave out has its default. -/
structure Plain (p : TensorPayload) : Prop where
  isQuantized : p.isQuantized = false
  quantizationType : p.quantizationType = none
  scaleFactor : p.scaleFactor = "1.0"
  isSpeculative : p.isSpeculative = false
  speculativeBlockSize : p.speculativeBlockSize = 1

section
variable {c : Reading} {p : TensorPayload}

theorem readIndex_int (n : Nat) : readIndex c (.int n) = some n := by
  simp [readIndex, c.int_int]

theorem readOptional_optional (t : Option Text) : readOptional (optional t) = some t := by
  cases t <;> rfl

theorem mapM_map {read : β → Option α} {write : α → β} (h : ∀ a, read (write a) = some a) (as : List α) :
    (as.map write).mapM read = some as := by
  induction as with
  | nil => rfl
  | cons a as ih =>
    rw [List.map_cons, List.mapM_cons, h, ih]
    rfl

theorem readSequenceId_int (h : 0 ≤ n) (package : Package) : readSequenceId c package (.int n) = some n := by
  cases package with
  | node =>
    obtain ⟨m, rfl⟩ := Int.eq_ofNat_of_zero_le h
    rw [readSequenceId, readIndex_int]
    rfl
  | scheduler => exact c.int_int n

theorem loadsText_dumps (hj : Lossless j) (h : (dumps j).bind encode = some bs) : loadsText bs = some j := by
  obtain ⟨t, ht, hencode⟩ := Option.bind_eq_some_iff.mp h
  obtain ⟨_, _, _, hback⟩ := dumps_encodes ht
  rw [loadsText, decode_encode hencode, Option.bind_some, hback hj]
  rfl

theorem lossless_ints {ns : List Int} : LosslessItems (ns.map .int) ↔ ∀ n ∈ ns, Short n := by
  induction ns with
  | nil => simp [LosslessItems]
  | cons n ns ih => simp [LosslessItems, Lossless, Short, ih]

theorem printable_ints {ns : List Int} : printableItems (ns.map .int) = true ↔ ∀ n ∈ ns, Short n := by
  induction ns with
  | nil => simp [printableItems]
  | cons n ns ih => simp [printableItems, printable, Short, ih]

theorem lossless_floats {literals : List String} (h : ∀ l ∈ literals, FiniteFloat l) :
    LosslessItems (literals.map .float) := by
  induction literals with
  | nil => trivial
  | cons l literals ih =>
    obtain ⟨hl, hrest⟩ := List.forall_mem_cons.mp h
    exact ⟨.inr hl.2, ih hrest⟩

theorem lossless_optional {o : Option Text} (h : ∀ t ∈ o.toList, joined t = t) : Lossless (optional o) := by
  cases o with
  | none => trivial
  | some t => exact h t (List.mem_singleton_self t)

theorem printable_optional (o : Option Text) : printable (optional o) = true := by
  cases o <;> rfl

theorem metadata_keys (package : Package) (p : TensorPayload) : ((metadata package p).map Prod.fst).Nodup := by
  have hkeys : [text "task_id", text "stage_index", text "target_stage_index", text "is_split_inference",
      text "tensor_type", text "shape", text "dtype", text "sequence_id", text "shm_name", text "is_bytes",
      text "is_quantized", text "quantization_type", text "scale_factor", text "is_speculative",
      text "speculative_block_size"].Nodup := by decide +kernel
  have hnode : ((metadata .node p).map Prod.fst).Nodup := hkeys
  cases package with
  | node => exact hnode
  | scheduler =>
    rw [metadata, List.map_append] at hnode
    exact hnode.of_append_left

theorem forall_integers (package : Package) (p : TensorPayload) : (∀ n ∈ integers package p, Short n) ↔
    Short p.stageIndex ∧ Short p.targetStageIndex ∧ (∀ n ∈ p.shape, Short n) ∧ Short p.sequenceId ∧
      (package = .node → Short p.speculativeBlockSize) := by
  cases package <;>
    simp only [integers, sharedIntegers, List.forall_mem_append, List.forall_mem_cons, List.not_mem_nil,
      false_implies, implies_true, and_assoc, and_true, reduceCtorEq, forall_const]

theorem printable_metadata (package : Package) (p : TensorPayload) :
    printable (.obj (metadata package p)) = true ↔ ∀ n ∈ integers package p, Short n := by
  rw [forall_integers]
  cases package <;>
    simp [metadata, sharedMeta, quantizedMeta, printable, printableFields, printable_optional, printable_ints, Short]

theorem integers_short (h : (dumps (.obj (metadata package p))).bind encode = some bs) :
    ∀ n ∈ integers package p, Short n := by
  obtain ⟨t, ht, _⟩ := Option.bind_eq_some_iff.mp h
  unfold dumps at ht
  split at ht
  · rename_i hp
    exact (printable_metadata package p).mp hp
  · cases ht

/-- The metadata is read back as it was written if its texts and integers are. -/
theorem metadata_lossless (package : Package) (hv : p.Valid) (htexts : ∀ t ∈ p.texts, joined t = t)
    (hints : ∀ n ∈ integers package p, Short n) : Lossless (.obj (metadata package p)) := by
  obtain ⟨hstage, htarget, hshape, hsequence, hblock⟩ := (forall_integers package p).mp hints
  simp only [texts, List.forall_mem_append, List.forall_mem_cons, List.not_mem_nil] at htexts
  obtain ⟨⟨⟨htask, htype, hdtype, _⟩, hshm⟩, hscheme⟩ := htexts
  have hkeys := metadata_keys package p
  have hshared : ∀ fields, LosslessFields fields → LosslessFields (p.sharedMeta ++ fields) := fun fields h =>
    ⟨joined_of_scalar (scalar_text _), htask, joined_of_scalar (scalar_text _), hstage,
      joined_of_scalar (scalar_text _), htarget, joined_of_scalar (scalar_text _), trivial,
      joined_of_scalar (scalar_text _), htype, joined_of_scalar (scalar_text _), lossless_ints.mpr hshape,
      joined_of_scalar (scalar_text _), hdtype, joined_of_scalar (scalar_text _), hsequence,
      joined_of_scalar (scalar_text _), lossless_optional hshm, joined_of_scalar (scalar_text _), trivial, h⟩
  cases package with
  | node =>
    exact ⟨hkeys, hshared _ ⟨joined_of_scalar (scalar_text _), trivial, joined_of_scalar (scalar_text _),
      lossless_optional hscheme, joined_of_scalar (scalar_text _), .inr hv.scaleFactor.2,
      joined_of_scalar (scalar_text _), trivial, joined_of_scalar (scalar_text _), hblock rfl, trivial⟩⟩
  | scheduler =>
    have hall := hshared [] trivial
    rw [List.append_nil] at hall
    exact ⟨hkeys, hall⟩

theorem get?_metadata {package : Package} {p : TensorPayload} (h : (text key, j) ∈ metadata package p) :
    get? (metadata package p) key = some j := (Dict.find_eq_some (metadata_keys package p)).mpr h

theorem getOr_metadata (package : Package) {p : TensorPayload} (h : (text key, j) ∈ metadata package p)
    (default : Json) : getOr (metadata package p) key default = j := by
  rw [getOr, get?_metadata h, Option.getD_some]

theorem mem_metadata {p : TensorPayload} (h : f ∈ p.sharedMeta) (package : Package) : f ∈ metadata package p := by
  cases package with
  | node => exact List.mem_append_left _ h
  | scheduler => exact h

/-- The constructor takes what the metadata of a payload says, and defaults for the rest. -/
theorem construct_framed {data : RawData} (hv : p.Valid) (hdata : readData c data = some p.data)
    (first second : Package) :
    construct c second (framedArguments (metadata first p) data second) = some (p.received first second) := by
  have hget : ∀ key j, (text key, j) ∈ p.sharedMeta → get? (metadata first p) key = some j :=
    fun key j h => get?_metadata (mem_metadata h first)
  have hor : ∀ key j default, (text key, j) ∈ p.sharedMeta → getOr (metadata first p) key default = j :=
    fun key j default h => getOr_metadata first (mem_metadata h first) default
  have hshared : sharedArguments (metadata first p) data =
      { taskId := some (.str p.taskId)
        stageIndex := some (.int p.stageIndex)
        targetStageIndex := some (.int p.targetStageIndex)
        isSplitInference := some (.bool p.isSplitInference)
        tensorType := some (.str p.tensorType)
        data := some data
        shape := some (.arr (p.shape.map .int))
        dtype := some (.str p.dtype)
        sequenceId := some (.int p.sequenceId)
        shmName := some (optional p.shmName)
        isQuantized := none
        quantizationType := none
        scaleFactor := none
        isSpeculative := none
        speculativeBlockSize := none } := by
    simp only [sharedArguments, hget "task_id" (.str p.taskId) (by simp [sharedMeta]),
      hget "stage_index" (.int p.stageIndex) (by simp [sharedMeta]),
      hor "target_stage_index" (.int p.targetStageIndex) _ (by simp [sharedMeta]),
      hor "is_split_inference" (.bool p.isSplitInference) _ (by simp [sharedMeta]),
      hor "tensor_type" (.str p.tensorType) _ (by simp [sharedMeta]),
      hor "shape" (.arr (p.shape.map .int)) _ (by simp [sharedMeta]),
      hor "dtype" (.str p.dtype) _ (by simp [sharedMeta]),
      hor "sequence_id" (.int p.sequenceId) _ (by simp [sharedMeta]),
      hor "shm_name" (optional p.shmName) _ (by simp [sharedMeta])]
  cases second with
  | scheduler =>
    rw [framedArguments, hshared]
    simp only [construct, bind, Option.bind_some, pure, readText, readIndex_int, orDefault, c.bool_bool, hdata, readShape,
      mapM_map c.int_int, readSequenceId_int hv.sequenceId, readOptional_optional]
    cases first <;> rfl
  | node =>
    have hown : framedArguments (metadata first p) data .node =
        { sharedArguments (metadata first p) data with
          isQuantized := some (.bool (p.received first .node).isQuantized)
          quantizationType := some (optional (p.received first .node).quantizationType)
          scaleFactor := some (.float (p.received first .node).scaleFactor)
          isSpeculative := some (.bool (p.received first .node).isSpeculative)
          speculativeBlockSize := some (.int (p.received first .node).speculativeBlockSize) } := by
      cases first with
      | scheduler => rfl
      | node =>
        have hmem : ∀ key j default, (text key, j) ∈ p.quantizedMeta → getOr (metadata .node p) key default = j :=
          fun key j default h => getOr_metadata .node (List.mem_append_right _ h) default
        simp only [framedArguments, received, hmem "is_quantized" (.bool p.isQuantized) _ (by simp [quantizedMeta]),
          hmem "quantization_type" (optional p.quantizationType) _ (by simp [quantizedMeta]),
          hmem "scale_factor" (.float p.scaleFactor) _ (by simp [quantizedMeta]),
          hmem "is_speculative" (.bool p.isSpeculative) _ (by simp [quantizedMeta]),
          hmem "speculative_block_size" (.int p.speculativeBlockSize) _ (by simp [quantizedMeta])]
    rw [hown, hshared]
    simp only [construct, bind, Option.bind_some, pure, readText, readIndex_int, orDefault, c.bool_bool, hdata, readShape,
      mapM_map c.int_int, readSequenceId_int hv.sequenceId, readOptional_optional, c.float_float, c.int_int]
    cases first <;> rfl

/-- What can be printed is written as bytes. -/
theorem dumps_total (h : printable j = true) : ∃ bs, (dumps j).bind encode = some bs := by
  have hdumps : dumps j = some (write .dumps j) := if_pos h
  obtain ⟨bs, hbs, _⟩ := dumps_encodes hdumps
  exact ⟨bs, by rw [hdumps, Option.bind_some, hbs]⟩

theorem rawPayload_total (hv : p.Valid) : ∃ raw, p.rawPayload = some raw := by
  unfold rawPayload
  cases hdata : p.data with
  | bytes bs => exact ⟨bs, rfl⟩
  | floats literals => exact dumps_total (printable_of_lossless _ (lossless_floats (hv.floats literals hdata)))
  | dict fields => exact dumps_total (printable_of_lossless _ (hv.dict fields hdata))

/-- Data is read from behind the metadata as it was. -/
theorem readData_rawPayload (c : Reading) (package : Package) (hv : p.Valid) (h : p.rawPayload = some raw) :
    ∃ data, framedData (metadata package p) raw = some data ∧ readData c data = some p.data := by
  have hkind : getOr (metadata package p) "is_bytes" (.bool false) = .bool p.isBytes :=
    getOr_metadata package (mem_metadata (by simp [sharedMeta]) package) _
  rw [framedData, hkind]
  unfold rawPayload at h
  unfold isBytes
  cases hdata : p.data with
  | bytes bs =>
    rw [hdata] at h
    cases h
    exact ⟨.bytes raw, rfl, rfl⟩
  | floats literals =>
    rw [hdata] at h
    have hback := loadsText_dumps (j := .arr (literals.map .float)) (lossless_floats (hv.floats literals hdata)) h
    refine ⟨.json (.arr (literals.map .float)), by rw [hback]; rfl, ?_⟩
    rw [readData, mapM_map c.float_float]
    rfl
  | dict fields =>
    rw [hdata] at h
    have hback := loadsText_dumps (hv.dict fields hdata) h
    exact ⟨.json (.obj fields), by rw [hback]; rfl, rfl⟩

/-- What the second package reads of what the first one framed. -/
theorem from_to (hv : p.Valid) (htexts : ∀ t ∈ p.texts, joined t = t) (h : toFramedBytes first p = some raw)
    (second : Package) : fromFramedBytes c second raw = some (p.received first second) := by
  obtain ⟨metaBytes, hmeta, h⟩ := Option.bind_eq_some_iff.mp h
  obtain ⟨body, hbody, hframe⟩ := Option.bind_eq_some_iff.mp h
  have hints := integers_short hmeta
  have hfields : loadsFields metaBytes = some (metadata first p) := by
    rw [loadsFields, loadsText_dumps (metadata_lossless first hv htexts hints) hmeta]
  obtain ⟨data, hread, hdata⟩ := readData_rawPayload c first hv hbody
  simp only [fromFramedBytes, unframe_frame hframe, hfields, bind, Option.bind_some, hread]
  exact construct_framed hv hdata first second

theorem optional_joined (o : Option Text) :
    write .dumps (optional (o.map joined)) = write .dumps (optional o) := by
  cases o with
  | none => rfl
  | some t => simp only [Option.map_some, optional, write, quote, Style.ascii, escapes_joined]

/-- The frame of a payload is that of the payload as JSON carries it. -/
theorem to_joinTexts (package : Package) (p : TensorPayload) :
    toFramedBytes package p.joinTexts = toFramedBytes package p := by
  have hwrite : write .dumps (.obj (metadata package p.joinTexts)) = write .dumps (.obj (metadata package p)) := by
    cases package <;>
      simp only [metadata, sharedMeta, quantizedMeta, List.cons_append, List.nil_append, write, writeFields, quote,
        Style.ascii, isBytes, joinTexts, escapes_joined, optional_joined]
  have hintegers : integers package p.joinTexts = integers package p := by cases package <;> rfl
  have hprintable : printable (.obj (metadata package p.joinTexts)) = printable (.obj (metadata package p)) := by
    rw [Bool.eq_iff_iff, printable_metadata, printable_metadata, hintegers]
  have hsame : dumps (.obj (metadata package p.joinTexts)) = dumps (.obj (metadata package p)) := by
    rw [dumps, dumps, hwrite, hprintable]
  simp only [toFramedBytes, hsame]
  rfl

theorem to_total (hv : p.Valid) (hints : ∀ n ∈ integers package p, Short n)
    (hshort : ∀ bs, (dumps (.obj (metadata package p))).bind encode = some bs → bs.length < 2 ^ 32) :
    ∃ raw, toFramedBytes package p = some raw := by
  obtain ⟨metaBytes, hmeta⟩ := dumps_total ((printable_metadata package p).mpr hints)
  obtain ⟨body, hbody⟩ := rawPayload_total hv
  have hlength : metaBytes.length < 256 ^ 4 := hshort _ hmeta
  obtain ⟨raw, hraw⟩ := frame_total magic body hlength
  exact ⟨raw, by simp only [toFramedBytes, hmeta, hbody, bind, Option.bind_some, hraw]⟩

theorem joinTexts_valid (hv : p.Valid) : p.joinTexts.Valid := ⟨hv.sequenceId, hv.scaleFactor, hv.floats, hv.dict⟩

theorem joinTexts_stable (p : TensorPayload) : ∀ t ∈ p.joinTexts.texts, joined t = t := by
  simp only [texts, joinTexts, List.forall_mem_append, List.forall_mem_cons, joined_joined, true_and]
  refine ⟨⟨fun t ht => absurd ht List.not_mem_nil, ?_⟩, ?_⟩ <;>
    · intro t ht
      obtain ⟨u, _, rfl⟩ := Option.map_eq_some_iff.mp (Option.mem_toList.mp ht)
      exact joined_joined u

/-- A payload keeps its texts exactly if none of them spells a character as a surrogate pair. -/
theorem joinTexts_eq_iff : p.joinTexts = p ↔ ∀ t ∈ p.texts, joined t = t := by
  constructor
  · intro h
    rw [← h]
    exact joinTexts_stable p
  · intro h
    have hmap : ∀ o : Option Text, (∀ t ∈ o.toList, joined t = t) → o.map joined = o := by
      intro o ho
      cases o with
      | none => rfl
      | some t => exact congrArg some (ho t (List.mem_singleton_self t))
    simp only [texts, List.forall_mem_append, List.forall_mem_cons, List.not_mem_nil] at h
    obtain ⟨⟨⟨htask, htype, hdtype, _⟩, hshm⟩, hscheme⟩ := h
    rw [joinTexts, htask, htype, hdtype, hmap _ hshm, hmap _ hscheme]

theorem received_of_not (h : ¬ (first = .node ∧ second = .node)) : p.received first second = p.plain := by
  cases first <;> cases second
  · exact absurd ⟨rfl, rfl⟩ h
  · rfl
  · rfl
  · rfl

theorem plain_eq_iff : p.plain = p ↔ p.Plain := by
  constructor
  · intro h
    rw [← h]
    exact ⟨rfl, rfl, rfl, rfl, rfl⟩
  · rintro ⟨h1, h2, h3, h4, h5⟩
    cases p
    simp only [plain] at *
    subst_vars
    rfl

end

/-- Of a payload that is valid for both packages, with metadata of less than 2^32 bytes, the second package
reads what the first one framed as it was exactly if both are the Node's or the payload has nothing that
the Scheduler's frames leave out, no text spells a character as a surrogate pair, and every integer in the
metadata can be printed. -/
theorem round_trip_iff (c : Reading) (p : TensorPayload) (hv : p.Valid) (first second : Package)
    (hshort : ∀ bs, (dumps (.obj (metadata first p))).bind encode = some bs → bs.length < 2 ^ 32) :
    (toFramedBytes first p).bind (fromFramedBytes c second) = some p ↔
      (first = .node ∧ second = .node ∨ p.Plain) ∧ (∀ t ∈ p.texts, joined t = t) ∧
        ∀ n ∈ integers first p, Short n := by
  constructor
  · intro h
    obtain ⟨raw, hraw, hread⟩ := Option.bind_eq_some_iff.mp h
    -- The frame is that of the payload with its texts joined, which is read back up to the defaults.
    have hjoined := from_to (c := c) (joinTexts_valid hv) (joinTexts_stable p)
      ((to_joinTexts first p).trans hraw) second
    have hsame : p.joinTexts.received first second = p := Option.some.inj (hjoined.symm.trans hread)
    have hints : ∀ n ∈ integers first p, Short n := by
      obtain ⟨metaBytes, hmeta, _⟩ := Option.bind_eq_some_iff.mp hraw
      exact integers_short hmeta
    by_cases hboth : first = .node ∧ second = .node
    · obtain ⟨rfl, rfl⟩ := hboth
      exact ⟨.inl ⟨rfl, rfl⟩, joinTexts_eq_iff.mp hsame, hints⟩
    · rw [received_of_not hboth] at hsame
      have hplain : p.Plain := by
        rw [← hsame]
        exact ⟨rfl, rfl, rfl, rfl, rfl⟩
      have htexts : p.joinTexts = p := by
        have hswap : p.joinTexts.plain = p.plain.joinTexts := rfl
        rw [hswap, plain_eq_iff.mpr hplain] at hsame
        exact hsame
      exact ⟨.inr hplain, joinTexts_eq_iff.mp htexts, hints⟩
  · rintro ⟨hfields, htexts, hints⟩
    obtain ⟨raw, hraw⟩ := to_total hv hints hshort
    rw [hraw, Option.bind_some, from_to hv htexts hraw]
    by_cases hboth : first = .node ∧ second = .node
    · obtain ⟨rfl, rfl⟩ := hboth
      rfl
    · rw [received_of_not hboth, plain_eq_iff.mpr (hfields.resolve_left hboth)]

def sampleReading : Reading where
  toCoercions := Durable.strictCoercions
  bool
    | .bool b => some b
    | _ => none
  bool_bool _ := rfl

/-- Two values in eight bits each. -/
def quantized : TensorPayload where
  taskId := text "task-1"
  stageIndex := 0
  targetStageIndex := 1
  isSplitInference := true
  tensorType := text "intermediate_activation"
  data := .bytes [0x3f, 0x80]
  shape := [1, 2]
  dtype := text "float32"
  sequenceId := 42
  shmName := none
  isQuantized := true
  quantizationType := some (text "fp8_e4m3")
  scaleFactor := "0.5"
  isSpeculative := false
  speculativeBlockSize := 1

theorem quantized_valid : quantized.Valid where
  sequenceId := by decide
  scaleFactor := ⟨by decide, rfl⟩
  floats _ h := by cases h
  dict _ h := by cases h

theorem quantized_short (package : Package) (bs : Bytes)
    (h : (dumps (.obj (metadata package quantized))).bind encode = some bs) : bs.length < 2 ^ 32 := by
  have hall : ∀ package : Package,
      ((dumps (.obj (metadata package quantized))).bind encode).all (fun bs => decide (bs.length < 2 ^ 32)) = true := by
    intro package
    cases package <;> decide +kernel
  have hlt := hall package
  rw [h] at hlt
  exact of_decide_eq_true hlt

theorem quantized_round_trip :
    (toFramedBytes .node quantized).bind (fromFramedBytes sampleReading .node) = some quantized := by
  refine (round_trip_iff sampleReading quantized quantized_valid .node .node (quantized_short .node)).mpr
    ⟨.inl ⟨rfl, rfl⟩, ?_, ?_⟩
  · have htexts : ∀ t ∈ quantized.texts, Scalar t := by decide +kernel
    exact fun t ht => joined_of_scalar (htexts t ht)
  · have hints : ∀ n ∈ integers .node quantized, (natText n.natAbs).length ≤ maxDigits := by decide +kernel
    exact hints

/-- The Scheduler's frame of quantized data says nothing of the quantization. -/
theorem quantization_lost : quantized.Valid ∧ ((toFramedBytes .scheduler quantized).bind
    (fromFramedBytes sampleReading .scheduler)).map isQuantized = some false ∧ quantized.isQuantized = true :=
  ⟨quantized_valid, by decide +kernel, rfl⟩

end TensorPayload
end PublicIntelligence.System
