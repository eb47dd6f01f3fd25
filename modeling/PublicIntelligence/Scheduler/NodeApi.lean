import PublicIntelligence.Scheduler.Invites

namespace PublicIntelligence.Scheduler

open Text

/-- The headers of a request that the node endpoints read. -/
structure Headers where
  networkAuthToken : Option Text
  nodeCredential : Option Text
  inviteCode : Option Text

/-- `x_node_credential or x_network_auth_token` -/
def Headers.credential (headers : Headers) : Option Text :=
  (given headers.nodeCredential).or headers.networkAuthToken

/-- An `HTTPException`. -/
structure HttpError where
  status : Nat
  detail : Text

inductive Reachability where
  | mesh
  | http
deriving DecidableEq

structure NodeView where
  node : Node
  reachability : Reachability

/-- What the node endpoints find in the application's state. -/
structure AppState where
  registry : NodeRegistry
  store : SQLiteStore
  invites : Invites

namespace NodeApi

def notFound (nodeId : Text) : HttpError := ⟨404, text "Node not found: " ++ nodeId⟩

/-- `NodeView.from_node`, with what the registry observed. -/
def view (registry : NodeRegistry) (node : Node) : NodeView :=
  ⟨node, if registry.isMeshReachable node.nodeId then .mesh else .http⟩

section
variable (configured : Option Text) (hash : Text → Text)

/-- `verify_auth_token`: a configured token must be presented. -/
def verifyAuthToken (headers : Headers) : Option HttpError :=
  match configured with
  | none => none
  | some token => if headers.networkAuthToken = some token then none else some ⟨401, text "Unauthorized"⟩

/-- An endpoint that depends on `verify_auth_token`. -/
def guarded (headers : Headers) (app : AppState) (endpoint : Except HttpError α × AppState) :
    Except HttpError α × AppState :=
  match verifyAuthToken configured headers with
  | some e => (.error e, app)
  | none => endpoint

/-- The invite is redeemed if invites are enforced and one was shown. -/
def redeem (app : AppState) (inviteCode : Option Text) : AppState :=
  match (if app.invites.enforcing then (given inviteCode).bind fun c => app.invites.redeem hash c else none) with
  | none => app
  | some (invite, invites) => { app with invites, store := app.store.saveInvite invite }

/-- `register_node` below its check of the invite. The credential is recorded first. -/
def record (app : AppState) (headers : Headers) (node : Node) : Except HttpError Node × AppState :=
  let token := headers.credential
  let app := { app with
    registry := app.registry.setNodeToken node.nodeId token
    store := app.store.saveNodeToken node.nodeId token }
  match app.registry.localRegister node with
  | none => (.error ⟨409, text "Node already registered: " ++ node.nodeId⟩, app)
  | some registry =>
    (.ok node, redeem hash { app with registry, store := app.store.saveNode node } headers.inviteCode)

def refusesInvite (app : AppState) (headers : Headers) : Bool :=
  app.invites.enforcing && (app.invites.verify hash headers.inviteCode).isNone

def registerNode (app : AppState) (headers : Headers) (node : Node) : Except HttpError Node × AppState :=
  guarded configured headers app <|
    if refusesInvite hash app headers then
      (.error ⟨403, text "A valid X-Invite-Code header is required to register a node. " ++
        text "Ask the operator to issue one with scripts/mint_invite.py."⟩, app)
    else record hash app headers node

def listNodes (app : AppState) (headers : Headers) : Except HttpError (List NodeView) × AppState :=
  guarded configured headers app (.ok (app.registry.nodes.values.map (view app.registry)), app)

def getNode (app : AppState) (headers : Headers) (nodeId : Text) : Except HttpError NodeView × AppState :=
  guarded configured headers app <|
    match app.registry.nodes.get? nodeId with
    | none => (.error (notFound nodeId), app)
    | some node => (.ok (view app.registry node), app)

def updateNodeModels (app : AppState) (headers : Headers) (nodeId : Text) (models : List Text) :
    Except HttpError NodeView × AppState :=
  guarded configured headers app <|
    match app.registry.setAvailableModels nodeId models with
    | none => (.error (notFound nodeId), app)
    | some (updated, registry) =>
      let app := { app with registry, store := app.store.saveNode updated }
      match registry.nodes.get? nodeId with
      | none => (.error (notFound nodeId), app)
      | some node => (.ok (view registry node), app)

def unregisterNode (app : AppState) (headers : Headers) (nodeId : Text) : Except HttpError Unit × AppState :=
  guarded configured headers app <|
    match app.registry.localUnregister nodeId with
    | none => (.error (notFound nodeId), app)
    | some registry => (.ok (), { app with registry, store := app.store.deleteNode nodeId })

def receiveHeartbeat (app : AppState) (headers : Headers) (heartbeat : Heartbeat) :
    Except HttpError Unit × AppState :=
  guarded configured headers app <|
    match app.registry.updateHeartbeat heartbeat with
    | none => (.error (notFound heartbeat.nodeId), app)
    | some registry => (.ok (), { app with registry })

/-- The request of a registration passes the checks in front of it. -/
def admits (app : AppState) (headers : Headers) : Bool :=
  (verifyAuthToken configured headers).isNone && !refusesInvite hash app headers

end

/-- The store has the nodes and the credentials that the registry has. -/
structure Backed (registry : NodeRegistry) (store : SQLiteStore) : Prop where
  nodes : store.nodes = registry.nodes
  tokens : store.nodeTokens = registry.nodeTokens

/-- If a node is registered after, it was before, with the credential it has now. -/
def Inherits (n : Text) (before after : NodeRegistry) : Prop :=
  n ∈ after.nodes → n ∈ before.nodes ∧ after.getNodeToken n = before.getNodeToken n

/-- Nothing is registered, no credential changes, and the store follows. -/
structure Steady (n : Text) (before after : AppState) : Prop where
  inherits : Inherits n before.registry after.registry
  backed : Backed before.registry before.store → Backed after.registry after.store

section
variable {registry registry' : NodeRegistry} {store : SQLiteStore} {n : Text}

theorem Backed.setNodeToken (h : Backed registry store) (nodeId : Text) (token : Option Text) :
    Backed (registry.setNodeToken nodeId token) (store.saveNodeToken nodeId token) := by
  unfold NodeRegistry.setNodeToken SQLiteStore.saveNodeToken
  cases given token with
  | none => exact ⟨h.nodes, congrArg (Dict.pop · nodeId) h.tokens⟩
  | some t => exact ⟨h.nodes, congrArg (Dict.set · nodeId t) h.tokens⟩

theorem Backed.put (h : Backed registry store) (hnodes : registry'.nodes = registry.nodes.put node)
    (htokens : registry'.nodeTokens = registry.nodeTokens) : Backed registry' (store.saveNode node) :=
  ⟨(congrArg (Table.put · node) h.nodes).trans hnodes.symm, h.tokens.trans htokens.symm⟩

theorem Backed.pop (h : Backed registry store) (nodeId : Text) :
    Backed (registry.localUnregisterNode nodeId) (store.deleteNode nodeId) :=
  ⟨congrArg (Table.pop · nodeId) h.nodes, congrArg (Dict.pop · nodeId) h.tokens⟩

theorem inherits_refl (n : Text) (registry : NodeRegistry) : Inherits n registry registry :=
  fun hn => ⟨hn, rfl⟩

theorem inherits_pop (n nodeId : Text) (registry : NodeRegistry) :
    Inherits n registry (registry.localUnregisterNode nodeId) := by
  intro hn
  obtain ⟨hne, hold⟩ := Table.mem_pop.mp hn
  exact ⟨hold, Dict.get?_pop_ne _ (Ne.symm hne)⟩

theorem getNodeToken_setNodeToken (registry : NodeRegistry) (nodeId : Text) (token : Option Text) (n : Text) :
    (registry.setNodeToken nodeId token).getNodeToken n =
      if nodeId = n then given token else registry.getNodeToken n := by
  unfold NodeRegistry.setNodeToken NodeRegistry.getNodeToken
  cases given token with
  | none => exact Dict.get?_pop ..
  | some t => exact Dict.get?_set ..

end

section
variable {configured : Option Text} {hash : Text → Text} {app : AppState} {headers : Headers} {n : Text}

/-- A request that is turned away changes nothing. -/
theorem guarded_state (endpoint : Except HttpError α × AppState) {P : AppState → Prop} (happ : P app)
    (hend : P endpoint.2) : P (guarded configured headers app endpoint).2 := by
  unfold guarded
  split
  · exact happ
  · exact hend

theorem steady_refl (n : Text) (app : AppState) : Steady n app app := ⟨inherits_refl n _, id⟩

theorem listNodes_steady (n : Text) (configured : Option Text) (app : AppState) (headers : Headers) :
    Steady n app (listNodes configured app headers).2 :=
  guarded_state _ (steady_refl n app) (steady_refl n app)

theorem getNode_steady (n : Text) (configured : Option Text) (app : AppState) (headers : Headers) (nodeId : Text) :
    Steady n app (getNode configured app headers nodeId).2 := by
  refine guarded_state _ (steady_refl n app) ?_
  split <;> exact steady_refl n app

theorem updateNodeModels_steady (n : Text) (configured : Option Text) (app : AppState) (headers : Headers)
    (nodeId : Text) (models : List Text) :
    Steady n app (updateNodeModels configured app headers nodeId models).2 := by
  refine guarded_state _ (steady_refl n app) ?_
  split
  · exact steady_refl n app
  · rename_i updated registry hset
    obtain ⟨node, hget, rfl, rfl⟩ := NodeRegistry.setAvailableModels_eq_some.mp hset
    have hkey : node.nodeId = nodeId := Table.key_of_get? hget
    have hsteady : Steady n app { app with
        registry := { app.registry with nodes := app.registry.nodes.put (node.withModels models) }
        store := app.store.saveNode (node.withModels models) } := by
      refine ⟨fun hn => ⟨?_, rfl⟩, fun hb => hb.put rfl rfl⟩
      obtain rfl | hold := Table.mem_put.mp hn
      · exact Table.mem_iff.mpr ⟨node, hkey ▸ hget⟩
      · exact hold
    dsimp only
    split <;> exact hsteady

theorem unregisterNode_steady (n : Text) (configured : Option Text) (app : AppState) (headers : Headers)
    (nodeId : Text) : Steady n app (unregisterNode configured app headers nodeId).2 := by
  refine guarded_state _ (steady_refl n app) ?_
  split
  · exact steady_refl n app
  · rename_i registry hreg
    obtain ⟨_, rfl⟩ := NodeRegistry.localUnregister_eq_some.mp hreg
    exact ⟨inherits_pop n nodeId _, fun hb => hb.pop nodeId⟩

theorem receiveHeartbeat_steady (n : Text) (configured : Option Text) (app : AppState) (headers : Headers)
    (heartbeat : Heartbeat) : Steady n app (receiveHeartbeat configured app headers heartbeat).2 := by
  refine guarded_state _ (steady_refl n app) ?_
  split
  · exact steady_refl n app
  · rename_i registry hbeat
    obtain ⟨_, rfl⟩ := NodeRegistry.updateHeartbeat_eq_some.mp hbeat
    exact ⟨inherits_refl n _, fun hb => ⟨hb.nodes, hb.tokens⟩⟩

theorem redeem_state (hash : Text → Text) (app : AppState) (inviteCode : Option Text) :
    (redeem hash app inviteCode).registry = app.registry ∧
      (redeem hash app inviteCode).store.nodes = app.store.nodes ∧
      (redeem hash app inviteCode).store.nodeTokens = app.store.nodeTokens := by
  unfold redeem
  split <;> exact ⟨rfl, rfl, rfl⟩

theorem registerNode_refused (h : admits configured hash app headers = false) (node : Node) :
    (registerNode configured hash app headers node).2 = app := by
  unfold registerNode guarded
  split
  · rfl
  · rename_i hauth
    rw [admits, hauth, Option.isNone_none, Bool.true_and, Bool.not_eq_false'] at h
    rw [if_pos h]

theorem registerNode_admitted (h : admits configured hash app headers = true) (node : Node) :
    registerNode configured hash app headers node = record hash app headers node := by
  rw [admits, Bool.and_eq_true, Option.isNone_iff_eq_none, Bool.not_eq_true'] at h
  rw [registerNode, guarded, h.1, h.2]
  rfl

/-- Whatever it is answered, the registration leaves the node registered and its
credential the one presented. -/
theorem record_registry (hash : Text → Text) (app : AppState) (headers : Headers) (node : Node) (n : Text) :
    (n ∈ (record hash app headers node).2.registry.nodes ↔ n = node.nodeId ∨ n ∈ app.registry.nodes) ∧
      (record hash app headers node).2.registry.getNodeToken n =
        if node.nodeId = n then given headers.credential else app.registry.getNodeToken n := by
  have htoken := getNodeToken_setNodeToken app.registry node.nodeId headers.credential n
  unfold record
  dsimp only
  split
  · rename_i hreg
    have hold := NodeRegistry.localRegister_eq_none.mp hreg
    rw [NodeRegistry.setNodeToken_nodes] at hold
    refine ⟨?_, htoken⟩
    rw [NodeRegistry.setNodeToken_nodes]
    exact ⟨.inr, fun h => h.elim (fun he => he ▸ hold) id⟩
  · rename_i registry hreg
    obtain ⟨_, rfl⟩ := NodeRegistry.localRegister_eq_some.mp hreg
    rw [(redeem_state hash _ headers.inviteCode).1]
    refine ⟨?_, htoken⟩
    rw [NodeRegistry.setNodeToken_nodes]
    exact Table.mem_put

theorem record_backed (h : Backed app.registry app.store) (hash : Text → Text) (headers : Headers) (node : Node) :
    Backed (record hash app headers node).2.registry (record hash app headers node).2.store := by
  have hset := h.setNodeToken node.nodeId headers.credential
  unfold record
  dsimp only
  split
  · exact hset
  · rename_i registry hreg
    obtain ⟨_, rfl⟩ := NodeRegistry.localRegister_eq_some.mp hreg
    obtain ⟨hregistry, hnodes, htokens⟩ := redeem_state hash _ headers.inviteCode
    rw [hregistry]
    exact ⟨hnodes.trans (congrArg (Table.put · node) hset.nodes), htokens.trans hset.tokens⟩

end

end NodeApi
end PublicIntelligence.Scheduler
