import PublicIntelligence.Lib.Runs
import PublicIntelligence.Scheduler.ZenohRouter

namespace PublicIntelligence.System

open Runs Text Encoding Mesh Scheduler ZenohRouter

/-- A Scheduler's router and what happens around it. `sealings` are the encryptions
anybody made so far under keys derived from node credentials. The last two fields are
history: when a node was last registered or loaded, and when a heartbeat of it last
verified. -/
structure Fleet where
  router : ZenohRouter
  clock : ℚ
  sweeping : List Text
  sealings : List Sealing
  arrived : Text → Option ℚ
  beat : Text → Option ℚ

namespace Fleet

inductive Act where
  | tick (seconds : ℚ)
  | register (node : Node) (token : Option Text)
  | unregister (nodeId : Text)
  | restart
  | sealed (s : Sealing)
  | heartbeat (payload : Bytes) (keyExpr : Text)
  | telemetry (payload : Bytes) (keyExpr : Text) (wall : ℚ)
  | liveliness (kind : SampleKind) (keyExpr : Text)
  | sweepStarts
  | sweepNext

/-- `register_node` once the invite is checked. -/
def registerNode (r : ZenohRouter) (node : Node) (token : Option Text) : ZenohRouter :=
  let refreshed := { r with
    registry := r.registry.setNodeToken node.nodeId token
    store := r.store.saveNodeToken node.nodeId token }
  match refreshed.registry.localRegister node with
  | none => refreshed
  | some registry => { refreshed with registry, store := refreshed.store.saveNode node }

/-- `local_unregister`; an absent node is a `ValueError`. -/
def unregisterNode (r : ZenohRouter) (nodeId : Text) : ZenohRouter :=
  if nodeId ∈ r.registry.nodes then
    { r with
      registry := r.registry.localUnregisterNode nodeId
      store := r.store.deleteNode nodeId }
  else r

/-- A new process, with what the store holds. -/
def reload (r : ZenohRouter) : ZenohRouter where
  registry := .load r.store.nodes r.store.nodeTokens
  store := r.store
  lastVerified := .empty

def setAt (f : Text → Option ℚ) (nodeId : Text) (t : ℚ) : Text → Option ℚ :=
  fun n => if n = nodeId then some t else f n

section
variable (env : RouterEnv)

def encryptions (s : Fleet) : List Encryption := s.sealings.filterMap (Sealing.encryption env.crypto)

/-- The callbacks decode the payload first; one that is no text ends there. -/
def hear (s : Fleet) (payload : Bytes) (keyExpr : Text) : Fleet :=
  match decode payload with
  | none => s
  | some raw =>
    { s with
      router := s.router.processHeartbeat env (s.encryptions env) s.clock raw keyExpr
      beat :=
        match s.router.verifiedHeartbeat env (s.encryptions env) raw keyExpr with
        | none => s.beat
        | some (heartbeat, _) => setAt s.beat heartbeat.nodeId s.clock }

def measure (s : Fleet) (payload : Bytes) (keyExpr : Text) (wall : ℚ) : Fleet :=
  match decode payload with
  | none => s
  | some raw =>
    { s with router := s.router.processTelemetry env (s.encryptions env) wall raw keyExpr }

/-- A sweep takes its list at its start and checks one node after the other. -/
def step : Step Fleet Act
  | s, .tick seconds => if 0 ≤ seconds then some { s with clock := s.clock + seconds } else none
  | s, .register node token =>
    some { s with
      router := registerNode s.router node token
      arrived :=
        if node.nodeId ∈ s.router.registry.nodes then s.arrived
        else setAt s.arrived node.nodeId s.clock }
  | s, .unregister nodeId => some { s with router := unregisterNode s.router nodeId }
  | s, .restart =>
    some { s with
      router := reload s.router
      sweeping := []
      arrived := fun n => if n ∈ s.router.store.nodes then some s.clock else s.arrived n }
  | s, .sealed sealing => some { s with sealings := sealing :: s.sealings }
  | s, .heartbeat payload keyExpr => some (s.hear env payload keyExpr)
  | s, .telemetry payload keyExpr wall => some (s.measure env payload keyExpr wall)
  | s, .liveliness kind keyExpr =>
    some { s with router := s.router.processLiveliness env s.clock kind keyExpr }
  | s, .sweepStarts =>
    if s.sweeping = [] then some { s with sweeping := s.router.registry.list } else none
  | s, .sweepNext =>
    match s.sweeping with
    | [] => none
    | nodeId :: rest =>
      some { s with router := s.router.evictIfStale env s.clock nodeId, sweeping := rest }

end

/-- A Scheduler that has just started on a store. -/
def start (store : SQLiteStore) (clock : ℚ) : Fleet where
  router := ⟨.load store.nodes store.nodeTokens, store, .empty⟩
  clock
  sweeping := []
  sealings := []
  arrived := fun n => if n ∈ store.nodes then some clock else none
  beat := fun _ => none

/-- The topic of a node's samples of one kind. -/
def topic (purpose : Purpose) (nodeId : Text) : Text :=
  match purpose with
  | .heartbeat => text "public-intelligence/net/" ++ nodeId ++ text "/heartbeat"
  | .telemetry => text "public-intelligence/net/nodes/" ++ nodeId ++ text "/telemetry"

theorem split_heartbeat (h : slash ∉ chunk) : split (topic .heartbeat chunk) slash =
    [text "public-intelligence", text "net", chunk, text "heartbeat"] := by
  have hroot : text "public-intelligence/net/" =
      text "public-intelligence" ++ slash :: (text "net" ++ slash :: []) := by decide +kernel
  have htail : text "/heartbeat" = slash :: text "heartbeat" := by decide +kernel
  rw [topic, hroot, htail]
  simp only [List.append_assoc, List.cons_append, List.nil_append]
  rw [split_append (by decide +kernel), split_append (by decide +kernel), split_append h,
    split_of_not_mem (by decide +kernel)]

theorem split_telemetry (h : slash ∉ chunk) : split (topic .telemetry chunk) slash =
    [text "public-intelligence", text "net", text "nodes", chunk, text "telemetry"] := by
  have hroot : text "public-intelligence/net/nodes/" =
      text "public-intelligence" ++ slash :: (text "net" ++ slash :: (text "nodes" ++ slash :: [])) := by
    decide +kernel
  have htail : text "/telemetry" = slash :: text "telemetry" := by decide +kernel
  rw [topic, hroot, htail]
  simp only [List.append_assoc, List.cons_append, List.nil_append]
  rw [split_append (by decide +kernel), split_append (by decide +kernel),
    split_append (by decide +kernel), split_append h, split_of_not_mem (by decide +kernel)]

/-- One telemetry message of the node `n1`, sealed with its token. -/
def sampleSealing : Sealing where
  token := text "secret"
  nodeId := text "n1"
  purpose := .telemetry
  iv := [1, 2, 3, 4, 5, 6, 7, 8, 9, 10, 11, 12]
  plaintext := (encode (text "\x7b\"timestamp\": 1767225600\x7d")).getD []

/-- SHA-256 on the input that gives the key of `sampleSealing`; longer than a digest elsewhere. -/
def sampleSha256 (input : Bytes) : Bytes :=
  if input = (encode (text "secret|public-intelligence|mesh|v1|telemetry")).getD [] then
    [162, 146, 8, 192, 237, 241, 122, 223, 53, 169, 84, 248, 106, 105, 199, 210, 50, 184, 63, 45, 156,
      212, 108, 20, 132, 138, 27, 170, 194, 72, 168, 53]
  else List.replicate 33 0 ++ input

/-- AES-256-GCM on what `sampleSealing` encrypts. -/
def sampleGcm (e : Encryption) : Bytes :=
  if some e = sampleSealing.encryption ⟨sampleSha256, .ideal fun _ => []⟩ then
    [161, 215, 35, 244, 18, 151, 98, 132, 42, 237, 229, 11, 117, 239, 34, 90, 66, 112, 98, 182, 59, 185,
      31, 167, 243, 190, 55, 236, 152, 85, 29, 109, 99, 26, 60, 30, 201, 48, 174, 107, 203]
  else e.plaintext

def sampleEnv : RouterEnv where
  crypto := ⟨sampleSha256, .ideal sampleGcm⟩
  validate := fun _ => none
  fromTimestamp
    | .int n => some n
    | _ => none
  fromIsoformat := fun _ => none
  nodeStaleAfter := 90

def emptyStore : SQLiteStore := ⟨.empty, .empty, .empty⟩

end Fleet
end PublicIntelligence.System
