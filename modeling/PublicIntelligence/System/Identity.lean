import PublicIntelligence.Scheduler.NodeApi
import PublicIntelligence.System.Ingress

namespace PublicIntelligence.System

open Runs Text Encoding Json Mesh Scheduler NodeApi ZenohRouter

/-- What a node seals: a dictionary that its peer reads as it was written. -/
structure Message where
  payload : Fields
  purpose : Purpose
  iv : Bytes
  readable : Readable (.obj payload)

/-- The sealing of the message by the node `n` with its credential `t`, unless `dumps` raises. -/
def Message.sealing (n t : Text) (m : Message) : Option Sealing :=
  ((dumps (.obj m.payload)).bind encode).map fun plaintext => ⟨t, n, m.purpose, m.iv, plaintext⟩

/-- A Scheduler with its node endpoints. The last field is history: what the node under
consideration has sealed. -/
structure Network where
  fleet : Fleet
  invites : Invites
  own : List Message

namespace Network

/-- Requests by anybody, the node's own sealings, and what else happens to a fleet: samples
that anybody publishes, the sealings of others, the passing of time, the sweeps. -/
inductive Act where
  | registerNode (headers : Headers) (node : Node)
  | updateNodeModels (headers : Headers) (nodeId : Text) (models : List Text)
  | unregisterNode (headers : Headers) (nodeId : Text)
  | receiveHeartbeat (headers : Headers) (heartbeat : Heartbeat)
  | listNodes (headers : Headers)
  | getNode (headers : Headers) (nodeId : Text)
  | speak (m : Message)
  | restart
  | fleet (a : Fleet.Act)

/-- Nodes come and go by the endpoints, and a restart reloads the invites as well. -/
def beside : Fleet.Act → Bool
  | .register .. | .unregister _ | .restart => false
  | _ => true

def app (s : Network) : AppState := ⟨s.fleet.router.registry, s.fleet.router.store, s.invites⟩

def withApp (s : Network) (app : AppState) : Network :=
  { s with
    fleet := { s.fleet with router := { s.fleet.router with registry := app.registry, store := app.store } }
    invites := app.invites }

def start (store : SQLiteStore) (clock : ℚ) : Network := ⟨.start store clock, store.invites, []⟩

section
variable (env : RouterEnv) (configured : Option Text) (hash : Text → Text) (n t : Text)

def step : Step Network Act
  | s, .registerNode headers node =>
    some (s.withApp (NodeApi.registerNode configured hash s.app headers node).2)
  | s, .updateNodeModels headers nodeId models =>
    some (s.withApp (NodeApi.updateNodeModels configured s.app headers nodeId models).2)
  | s, .unregisterNode headers nodeId =>
    some (s.withApp (NodeApi.unregisterNode configured s.app headers nodeId).2)
  | s, .receiveHeartbeat headers heartbeat =>
    some (s.withApp (NodeApi.receiveHeartbeat configured s.app headers heartbeat).2)
  | s, .listNodes headers => some (s.withApp (NodeApi.listNodes configured s.app headers).2)
  | s, .getNode headers nodeId => some (s.withApp (NodeApi.getNode configured s.app headers nodeId).2)
  | s, .speak m =>
    match m.sealing n t with
    | none => none
    | some sealing =>
      (Fleet.step env s.fleet (.sealed sealing)).map fun fleet => { s with fleet, own := m :: s.own }
  | s, .restart =>
    (Fleet.step env s.fleet .restart).map fun fleet => { s with fleet, invites := fleet.router.store.invites }
  | s, .fleet a =>
    if beside a then (Fleet.step env s.fleet a).map fun fleet => { s with fleet } else none

/-- The others have not learnt `t`: what they seal, they seal with something else. -/
def Foreign : Act → Prop
  | .fleet (.sealed sealing) => sealing.token ≠ t
  | _ => True

/-- Somebody registers `n` with another credential than `t`, and passes the checks. -/
def Usurps (s : Network) : Act → Prop
  | .registerNode headers node =>
    node.nodeId = n ∧ admits configured hash s.app headers = true ∧ given headers.credential ≠ some t
  | _ => False

/-- Nobody else speaks for `n`: its credential is `t`, no envelope opens for it that it has
not sealed, and every envelope that it has sealed does. -/
structure OwnVoice (s : Network) : Prop where
  credential : s.fleet.router.registry.getNodeToken n = some t
  unforged : ∀ raw purpose data,
    s.fleet.router.openFromNode env (s.fleet.encryptions env) raw n purpose = some data →
      ∃ m ∈ s.own, m.purpose = purpose ∧ ∃ sealing, m.sealing n t = some sealing ∧
        Carries env.crypto raw sealing
  heard : ∀ m ∈ s.own, ∀ raw, sealEnvelope env.crypto m.payload n t m.purpose m.iv = some raw →
    s.fleet.router.openFromNode env (s.fleet.encryptions env) raw n m.purpose = some m.payload

/-- What every run keeps: the store follows the registry, and what was sealed with `t` is
what `n` has sealed. -/
structure Sound (s : Network) : Prop where
  backed : Backed s.fleet.router.registry s.fleet.router.store
  spoken : ∀ sealing ∈ s.fleet.sealings, sealing.token = t → ∃ m ∈ s.own, m.sealing n t = some sealing
  kept : ∀ m ∈ s.own, ∃ sealing ∈ s.fleet.sealings, m.sealing n t = some sealing

end

section
variable {env : RouterEnv} {configured : Option Text} {hash : Text → Text} {n t : Text} {s u : Network}

theorem processHeartbeat_steady (env : RouterEnv) (made : List Encryption) (now : ℚ) (r : ZenohRouter)
    (payload keyExpr n : Text) (invites : Invites) :
    Steady n ⟨r.registry, r.store, invites⟩
      ⟨(r.processHeartbeat env made now payload keyExpr).registry,
        (r.processHeartbeat env made now payload keyExpr).store, invites⟩ := by
  unfold processHeartbeat
  split
  · exact steady_refl n _
  · rename_i heartbeat registry hv
    obtain ⟨_, hreg, _⟩ := verifiedHeartbeat_eq_some hv
    obtain ⟨_, rfl⟩ := NodeRegistry.updateHeartbeat_eq_some.mp hreg
    exact ⟨fun hn => ⟨hn, rfl⟩, fun hb => ⟨hb.nodes, hb.tokens⟩⟩

theorem processTelemetry_steady (env : RouterEnv) (made : List Encryption) (wall : ℚ) (r : ZenohRouter)
    (payload keyExpr n : Text) (invites : Invites) :
    Steady n ⟨r.registry, r.store, invites⟩
      ⟨(r.processTelemetry env made wall payload keyExpr).registry,
        (r.processTelemetry env made wall payload keyExpr).store, invites⟩ := by
  unfold processTelemetry
  split
  · exact steady_refl n _
  · exact ⟨fun hn => ⟨hn, rfl⟩, fun hb => ⟨hb.nodes, hb.tokens⟩⟩

theorem evictIfStale_steady (env : RouterEnv) (now : ℚ) (r : ZenohRouter) (nodeId n : Text) (invites : Invites) :
    Steady n ⟨r.registry, r.store, invites⟩
      ⟨(r.evictIfStale env now nodeId).registry, (r.evictIfStale env now nodeId).store, invites⟩ := by
  obtain ⟨he, _⟩ | ⟨he, _⟩ := evictIfStale_cases env now r nodeId
  · rw [he]
    exact steady_refl n _
  · rw [he]
    exact ⟨inherits_pop n nodeId _, fun hb => hb.pop nodeId⟩

/-- What happens beside the endpoints registers nobody and changes no credential. -/
theorem fleet_steady (ha : beside a = true) {f g : Fleet} (h : Fleet.step env f a = some g) (n : Text)
    (invites : Invites) :
    Steady n ⟨f.router.registry, f.router.store, invites⟩ ⟨g.router.registry, g.router.store, invites⟩ := by
  cases a with
  | register node token => cases ha
  | unregister nodeId => cases ha
  | restart => cases ha
  | tick seconds =>
    simp only [Fleet.step, Option.ite_none_right_eq_some, Option.some.injEq] at h
    obtain ⟨_, rfl⟩ := h
    exact steady_refl n _
  | sealed sealing =>
    cases h
    exact steady_refl n _
  | heartbeat payload keyExpr =>
    cases h
    unfold Fleet.hear
    split
    · exact steady_refl n _
    · exact processHeartbeat_steady ..
  | telemetry payload keyExpr wall =>
    cases h
    unfold Fleet.measure
    split
    · exact steady_refl n _
    · exact processTelemetry_steady ..
  | liveliness kind keyExpr =>
    cases h
    simp only [processLiveliness]
    split
    · exact evictIfStale_steady ..
    · exact steady_refl n _
  | sweepStarts =>
    simp only [Fleet.step, Option.ite_none_right_eq_some, Option.some.injEq] at h
    obtain ⟨_, rfl⟩ := h
    exact steady_refl n _
  | sweepNext =>
    simp only [Fleet.step] at h
    split at h
    · cases h
    · cases h
      exact evictIfStale_steady ..

theorem sound_start (n t : Text) (store : SQLiteStore) (clock : ℚ) : Sound n t (start store clock) :=
  ⟨⟨rfl, rfl⟩, fun _ h => absurd h List.not_mem_nil, fun _ h => absurd h List.not_mem_nil⟩

/-- An endpoint seals nothing. -/
theorem Sound.withApp (h : Sound n t s) {app : AppState}
    (hb : Backed s.app.registry s.app.store → Backed app.registry app.store) : Sound n t (s.withApp app) :=
  ⟨hb h.backed, h.spoken, h.kept⟩

/-- Nor is anything sealed where the sealings stay as they are. -/
theorem Sound.besides (h : Sound n t s) {fleet : Fleet} {invites : Invites}
    (hb : Backed fleet.router.registry fleet.router.store) (hs : fleet.sealings = s.fleet.sealings) :
    Sound n t ⟨fleet, invites, s.own⟩ := by
  refine ⟨hb, ?_, ?_⟩
  · rw [hs]
    exact h.spoken
  · rw [hs]
    exact h.kept

theorem Sound.others (h : Sound n t s) {sealing : Sealing} (hne : sealing.token ≠ t) :
    Sound n t { s with fleet := { s.fleet with sealings := sealing :: s.fleet.sealings } } := by
  refine ⟨h.backed, fun x hx htoken => ?_, fun m hm => ?_⟩
  · obtain rfl | hx := List.mem_cons.mp hx
    · exact absurd htoken hne
    · exact h.spoken x hx htoken
  · obtain ⟨x, hx, hm⟩ := h.kept m hm
    exact ⟨x, List.mem_cons_of_mem _ hx, hm⟩

theorem Sound.speaks (h : Sound n t s) {m : Message} {sealing : Sealing} (hm : m.sealing n t = some sealing) :
    Sound n t { s with fleet := { s.fleet with sealings := sealing :: s.fleet.sealings }, own := m :: s.own } := by
  refine ⟨h.backed, fun x hx htoken => ?_, fun k hk => ?_⟩
  · obtain rfl | hx := List.mem_cons.mp hx
    · exact ⟨m, List.mem_cons_self, hm⟩
    · obtain ⟨k, hk, hx⟩ := h.spoken x hx htoken
      exact ⟨k, List.mem_cons_of_mem _ hk, hx⟩
  · obtain rfl | hk := List.mem_cons.mp hk
    · exact ⟨sealing, List.mem_cons_self, hm⟩
    · obtain ⟨x, hx, hk⟩ := h.kept k hk
      exact ⟨x, List.mem_cons_of_mem _ hx, hk⟩

/-- Only a sealing adds to the sealings. -/
theorem sealings_step {f g : Fleet} (h : Fleet.step env f a = some g) (ha : ∀ x, a ≠ .sealed x) :
    g.sealings = f.sealings := by
  cases a with
  | sealed x => exact absurd rfl (ha x)
  | tick seconds =>
    simp only [Fleet.step, Option.ite_none_right_eq_some, Option.some.injEq] at h
    obtain ⟨_, rfl⟩ := h
    rfl
  | register node token | unregister nodeId | restart | liveliness kind keyExpr =>
    cases h
    rfl
  | heartbeat payload keyExpr =>
    cases h
    unfold Fleet.hear
    split <;> rfl
  | telemetry payload keyExpr wall =>
    cases h
    unfold Fleet.measure
    split <;> rfl
  | sweepStarts =>
    simp only [Fleet.step, Option.ite_none_right_eq_some, Option.some.injEq] at h
    obtain ⟨_, rfl⟩ := h
    rfl
  | sweepNext =>
    simp only [Fleet.step] at h
    split at h
    · cases h
    · cases h
      rfl

theorem sound_step (h : Sound n t s) (hforeign : Foreign t a)
    (hu : step env configured hash n t s a = some u) : Sound n t u := by
  cases a with
  | registerNode headers node =>
    cases hu
    refine h.withApp fun hb => ?_
    cases had : admits configured hash s.app headers with
    | false => rwa [registerNode_refused had]
    | true =>
      rw [registerNode_admitted had]
      exact record_backed hb hash headers node
  | updateNodeModels headers nodeId models =>
    cases hu
    exact h.withApp (updateNodeModels_steady n configured s.app headers nodeId models).backed
  | unregisterNode headers nodeId =>
    cases hu
    exact h.withApp (unregisterNode_steady n configured s.app headers nodeId).backed
  | receiveHeartbeat headers heartbeat =>
    cases hu
    exact h.withApp (receiveHeartbeat_steady n configured s.app headers heartbeat).backed
  | listNodes headers =>
    cases hu
    exact h.withApp (listNodes_steady n configured s.app headers).backed
  | getNode headers nodeId =>
    cases hu
    exact h.withApp (getNode_steady n configured s.app headers nodeId).backed
  | speak m =>
    simp only [step] at hu
    split at hu
    · cases hu
    · rename_i sealing hm
      cases hu
      exact h.speaks hm
  | restart =>
    cases hu
    exact h.besides ⟨rfl, rfl⟩ rfl
  | fleet a =>
    simp only [step, Option.ite_none_right_eq_some, Option.map_eq_some_iff] at hu
    obtain ⟨ha, fleet, hf, rfl⟩ := hu
    by_cases hx : ∃ x, a = .sealed x
    · obtain ⟨x, rfl⟩ := hx
      cases hf
      exact h.others hforeign
    · exact h.besides ((fleet_steady ha hf n s.invites).backed h.backed)
        (sealings_step hf fun x hax => hx ⟨x, hax⟩)

/-- The credential is `t` wherever `n` is registered, from step to step, exactly if nobody
registers `n` with another. -/
theorem credential_step (h : Sound n t s)
    (hs : n ∈ s.fleet.router.registry.nodes → s.fleet.router.registry.getNodeToken n = some t)
    (hu : step env configured hash n t s a = some u) :
    (n ∈ u.fleet.router.registry.nodes → u.fleet.router.registry.getNodeToken n = some t) ↔
      ¬ Usurps configured hash n t s a := by
  have hkeep : Inherits n s.fleet.router.registry u.fleet.router.registry →
      n ∈ u.fleet.router.registry.nodes → u.fleet.router.registry.getNodeToken n = some t := by
    intro hi hn
    obtain ⟨hold, htoken⟩ := hi hn
    rw [htoken, hs hold]
  cases a with
  | registerNode headers node =>
    cases hu
    cases had : admits configured hash s.app headers with
    | false =>
      refine iff_of_true ?_ fun ⟨_, hyes, _⟩ => absurd hyes (by simp [had])
      rw [registerNode_refused had]
      exact hs
    | true =>
      obtain ⟨hmem, htoken⟩ := record_registry hash s.app headers node n
      simp only [withApp, Usurps, registerNode_admitted had, hmem, htoken, had, true_and, not_and, not_not]
      by_cases hid : node.nodeId = n
      · simp [hid]
      · simp only [hid, if_false, false_imp_iff, iff_true]
        rintro (rfl | hold)
        · exact absurd rfl hid
        · exact hs hold
  | updateNodeModels headers nodeId models =>
    cases hu
    exact iff_of_true (hkeep (updateNodeModels_steady n configured s.app headers nodeId models).inherits) id
  | unregisterNode headers nodeId =>
    cases hu
    exact iff_of_true (hkeep (unregisterNode_steady n configured s.app headers nodeId).inherits) id
  | receiveHeartbeat headers heartbeat =>
    cases hu
    exact iff_of_true (hkeep (receiveHeartbeat_steady n configured s.app headers heartbeat).inherits) id
  | listNodes headers =>
    cases hu
    exact iff_of_true (hkeep (listNodes_steady n configured s.app headers).inherits) id
  | getNode headers nodeId =>
    cases hu
    exact iff_of_true (hkeep (getNode_steady n configured s.app headers nodeId).inherits) id
  | speak m =>
    simp only [step] at hu
    split at hu
    · cases hu
    · cases hu
      exact iff_of_true hs id
  | restart =>
    cases hu
    refine iff_of_true (hkeep fun hn => ?_) id
    have hn' : n ∈ s.fleet.router.store.nodes := hn
    rw [h.backed.nodes] at hn'
    exact ⟨hn', congrArg (Dict.get? · n) h.backed.tokens⟩
  | fleet a =>
    simp only [step, Option.ite_none_right_eq_some, Option.map_eq_some_iff] at hu
    obtain ⟨ha, fleet, hf, rfl⟩ := hu
    exact iff_of_true (hkeep (fleet_steady ha hf n s.invites).inherits) id

/-- With the credential in place the cipher does the rest. -/
theorem ownVoice_iff (hauth : env.crypto.aead.Authentic) (hfaith : env.crypto.aead.Faithful)
    (hsha : Function.Injective env.crypto.sha256) (ht : t ≠ []) (h : Sound n t s)
    (hn : n ∈ s.fleet.router.registry.nodes) :
    OwnVoice env n t s ↔ s.fleet.router.registry.getNodeToken n = some t := by
  refine ⟨OwnVoice.credential, fun htoken => ⟨htoken, ?_, ?_⟩⟩
  · intro raw purpose data hopen
    obtain ⟨_, token, htok, hopen⟩ := openFromNode_eq_some hopen
    cases htoken.symm.trans htok
    obtain ⟨sealing, hs, hst, _, hpurpose, hc, _⟩ := opened_sealed hauth hsha hopen
    obtain ⟨m, hm, hms⟩ := h.spoken sealing hs hst
    obtain ⟨plaintext, _, rfl⟩ := Option.map_eq_some_iff.mp hms
    exact ⟨m, hm, hpurpose, _, hms, hc⟩
  · intro m hm raw hraw
    obtain ⟨sealing, hs, hms⟩ := h.kept m hm
    obtain ⟨plaintext, hplain, rfl⟩ := Option.map_eq_some_iff.mp hms
    have hmade : ∀ e, Sealing.encryption env.crypto ⟨t, n, m.purpose, m.iv, plaintext⟩ = some e →
        e ∈ s.fleet.encryptions env := fun e he => List.mem_filterMap.mpr ⟨_, hs, he⟩
    have hopen := open_seal hfaith (lossless_of_readable _ m.readable) hraw hplain hmade
    have hgiven : given (some t) = some t := by simp [given, ht]
    rw [openFromNode, if_pos (NodeRegistry.exists?_eq_true.mpr hn), htoken, hgiven]
    dsimp only
    rw [hopen]
    rfl

end
instance decidableUsurps (configured : Option Text) (hash : Text → Text) (n t : Text) (s : Network) :
    (a : Act) → Decidable (Usurps configured hash n t s a)
  | .registerNode .. => inferInstanceAs (Decidable (_ ∧ _ ∧ _))
  | .updateNodeModels .. | .unregisterNode .. | .receiveHeartbeat .. | .listNodes _ | .getNode ..
  | .speak _ | .restart | .fleet _ => inferInstanceAs (Decidable False)

/-- From every reachable state that holds `t` as the credential of `n`, while nobody else seals
with `t`: `n` keeps its own voice wherever it is registered exactly if no registration of
`n` with another credential passes the checks. -/
theorem own_voice_iff {env : RouterEnv} {configured : Option Text} {hash : Text → Text} {n t : Text}
    (hauth : env.crypto.aead.Authentic) (hfaith : env.crypto.aead.Faithful)
    (hsha : Function.Injective env.crypto.sha256) (ht : t ≠ []) {store : SQLiteStore} {clock : ℚ}
    {before run : List Act} (hforeign : ∀ a ∈ before ++ run, Foreign t a) {s₀ s : Network}
    (hreach : exec (step env configured hash n t) (start store clock) before = some s₀)
    (htoken : s₀.fleet.router.registry.getNodeToken n = some t)
    (hrun : exec (step env configured hash n t) s₀ run = some s) :
    Throughout (step env configured hash n t)
        (fun s => n ∈ s.fleet.router.registry.nodes → OwnVoice env n t s) s₀ run ↔
      Along (step env configured hash n t) (fun s a => ¬ Usurps configured hash n t s a) s₀ run := by
  obtain ⟨hbefore, hafter⟩ := List.forall_mem_append.mp hforeign
  have hstep : ∀ s a u, Sound n t s → Foreign t a → step env configured hash n t s a = some u → Sound n t u :=
    fun s a u h hf hu => sound_step h hf hu
  have hsound : Sound n t s₀ :=
    along_invariant hstep (sound_start n t store clock) (along_forall hbefore) hreach
  have hvoice : ∀ s, Sound n t s → ((n ∈ s.fleet.router.registry.nodes → OwnVoice env n t s) ↔
      (n ∈ s.fleet.router.registry.nodes → s.fleet.router.registry.getNodeToken n = some t)) :=
    fun s h => forall_congr' fun hn => ownVoice_iff hauth hfaith hsha ht h hn
  refine throughout_iff_along_under (G := fun _ a => Foreign t a) hstep (fun s a u h hf hq hu => ?_) hsound
    (along_forall hafter) ((hvoice s₀ hsound).mpr fun _ => htoken) hrun
  rw [hvoice u (sound_step h hf hu)]
  exact credential_step h ((hvoice s h).mp hq) hu

/-- One telemetry message of `n1`. -/
def sampleMessage : Message where
  payload := [(text "timestamp", .int 1767225600)]
  purpose := .telemetry
  iv := [1, 2, 3, 4, 5, 6, 7, 8, 9, 10, 11, 12]
  readable := ⟨List.nodup_singleton _, scalar_text _,
    show (natText 1767225600).length ≤ maxDigits by decide +kernel, trivial⟩

/-- The same message, sealed with a credential. -/
def sealedWith (token : Text) : Sealing :=
  ⟨token, text "n1", .telemetry, sampleMessage.iv, (encode (text "\x7b\"timestamp\": 1767225600\x7d")).getD []⟩

/-- SHA-256 where it is needed. -/
def sampleSha256 : Bytes → Bytes :=
  known [((encode (text "secret|public-intelligence|mesh|v1|telemetry")).getD [],
      [162, 146, 8, 192, 237, 241, 122, 223, 53, 169, 84, 248, 106, 105, 199, 210, 50, 184, 63, 45, 156,
        212, 108, 20, 132, 138, 27, 170, 194, 72, 168, 53]),
    ((encode (text "stolen|public-intelligence|mesh|v1|telemetry")).getD [],
      [208, 41, 50, 22, 8, 193, 180, 226, 227, 255, 139, 179, 186, 57, 251, 155, 236, 250, 29, 97, 249,
        216, 150, 132, 44, 6, 16, 14, 53, 219, 182, 157])]

theorem sampleSha256_injective : Function.Injective sampleSha256 :=
  known_injective (by decide +kernel) (by decide +kernel)

/-- AES-256-GCM on the message, sealed with either credential; longer than that elsewhere. -/
def sampleGcm (e : Encryption) : Bytes :=
  if some e = (sealedWith (text "secret")).encryption ⟨sampleSha256, .ideal fun _ => []⟩ then
    [161, 215, 35, 244, 18, 151, 98, 132, 42, 237, 229, 11, 117, 239, 34, 90, 66, 112, 98, 182, 59, 185,
      31, 167, 243, 190, 55, 236, 152, 85, 29, 109, 99, 26, 60, 30, 201, 48, 174, 107, 203]
  else if some e = (sealedWith (text "stolen")).encryption ⟨sampleSha256, .ideal fun _ => []⟩ then
    [44, 192, 139, 120, 41, 228, 104, 187, 129, 62, 141, 209, 177, 116, 120, 97, 239, 244, 220, 131, 161,
      87, 200, 69, 135, 192, 68, 125, 108, 252, 237, 177, 171, 191, 252, 204, 93, 195, 22, 222, 199]
  else List.replicate 60 0 ++ e.plaintext

/-- A message has one plaintext, whatever it is sealed with. -/
theorem sampleGcm_injective (e e' : Encryption) (h : sampleGcm e = sampleGcm e') : e.plaintext = e'.plaintext := by
  have hplain : ∀ token e, some e = (sealedWith token).encryption ⟨sampleSha256, .ideal fun _ => []⟩ →
      e.plaintext = (sealedWith token).plaintext := by
    intro token e he
    obtain ⟨key, associated, _, _, rfl⟩ := encryption_eq_some.mp he.symm
    rfl
  have hlong : ∀ (bs p : Bytes), bs.length = 41 → bs ≠ List.replicate 60 0 ++ p := by
    rintro bs p hl rfl
    rw [List.length_append, List.length_replicate] at hl
    omega
  unfold sampleGcm at h
  split at h
  · rename_i he
    split at h
    · rename_i he'
      rw [hplain _ e he, hplain _ e' he']
    · split at h
      · exact absurd h (by decide)
      · exact absurd h (hlong _ _ rfl)
  · split at h
    · rename_i he
      split at h
      · exact absurd h (by decide)
      · split at h
        · rename_i he'
          rw [hplain _ e he, hplain _ e' he']
        · exact absurd h (hlong _ _ rfl)
    · split at h
      · exact absurd h.symm (hlong _ _ rfl)
      · split at h
        · exact absurd h.symm (hlong _ _ rfl)
        · exact List.append_cancel_left h

def sampleEnv : RouterEnv where
  crypto := ⟨sampleSha256, .ideal sampleGcm⟩
  validate := fun _ => none
  fromTimestamp
    | .int n => some n
    | _ => none
  fromIsoformat := fun _ => none
  nodeStaleAfter := 90

/-- `hash_code` on the one code that was issued. -/
def sampleHash (code : Text) : Text :=
  if code = text "code-1" then
    text "51bd6639fed7c0b4826af6c06bfe4f4c" ++ text "ce3aa7a8db3653978cd4d88ad0a18a8a"
  else text "?" ++ code

/-- A store with a code for three hosts. -/
def sampleStore : SQLiteStore :=
  ⟨.empty, .empty, .put .empty ⟨sampleHash (text "code-1"), text "hosts", 3, 0, false, 0, by decide⟩⟩

/-- A registration with the fleet's token, the code and a credential. -/
def registers (nodeId credential : String) : Act :=
  .registerNode ⟨some (text "fleet"), some (text credential), some (text "code-1")⟩ ⟨text nodeId, []⟩

/-- Somebody publishes the message on the topic of `n1`, sealed with a credential. -/
def publishes (credential : String) : Act :=
  .fleet (.telemetry ((((sealedWith (text credential)).envelope sampleEnv.crypto).bind encode).getD [])
    (Fleet.topic .telemetry (text "n1")) 1767225610)

def sampleStep : Step Network Act :=
  step sampleEnv (some (text "fleet")) sampleHash (text "n1") (text "secret")

/-- Another host registers itself, seals and publishes in the name of `n1` and is not heard;
`n1` is. -/
def ownRun : List Act :=
  [registers "n2" "stolen", .fleet (.sealed (sealedWith (text "stolen"))), publishes "stolen",
    .speak sampleMessage, publishes "secret"]

/-- Another host registers `n1`, is answered 409 and speaks for it from then on. -/
def usurperRun : List Act :=
  [registers "n1" "stolen", .fleet (.sealed (sealedWith (text "stolen"))), publishes "stolen"]

theorem foreign_registers (nodeId credential : String) : Foreign (text "secret") (registers nodeId credential) :=
  trivial

theorem foreign_publishes (credential : String) : Foreign (text "secret") (publishes credential) := trivial

theorem foreign_stolen : Foreign (text "secret") (.fleet (.sealed (sealedWith (text "stolen")))) := by
  change text "stolen" ≠ text "secret"
  decide +kernel

theorem own_voice_iff_sample : ∃ s₀ s, exec sampleStep (start sampleStore 0) [registers "n1" "secret"] = some s₀ ∧
    exec sampleStep s₀ ownRun = some s ∧ s.fleet.router.registry.isMeshReachable (text "n1") = true ∧
      Throughout sampleStep (fun s => text "n1" ∈ s.fleet.router.registry.nodes →
        OwnVoice sampleEnv (text "n1") (text "secret") s) s₀ ownRun := by
  have hexec : ((exec sampleStep (start sampleStore 0) [registers "n1" "secret"]).bind fun s₀ =>
    (exec sampleStep s₀ ownRun).map fun s =>
      (s₀.fleet.router.registry.getNodeToken (text "n1"), s.fleet.router.registry.isMeshReachable (text "n1"),
        decide (Along sampleStep (fun s a => ¬ Usurps (some (text "fleet")) sampleHash (text "n1")
          (text "secret") s a) s₀ ownRun))) = some (some (text "secret"), true, true) := by decide +kernel
  obtain ⟨s₀, hreach, hexec⟩ := Option.bind_eq_some_iff.mp hexec
  obtain ⟨s, hrun, hend⟩ := Option.map_eq_some_iff.mp hexec
  simp only [Prod.mk.injEq, decide_eq_true_eq] at hend
  obtain ⟨htoken, hmark, halong⟩ := hend
  have hforeign : ∀ a ∈ [registers "n1" "secret"] ++ ownRun, Foreign (text "secret") a := by
    simp only [ownRun, List.cons_append, List.nil_append, List.forall_mem_cons]
    exact ⟨foreign_registers .., foreign_registers .., foreign_stolen, foreign_publishes _, trivial,
      foreign_publishes _, fun _ h => absurd h List.not_mem_nil⟩
  exact ⟨s₀, s, hreach, hrun, hmark, (own_voice_iff (Aead.authentic_ideal sampleGcm)
    (Aead.faithful_ideal sampleGcm_injective) sampleSha256_injective (by decide +kernel) hforeign hreach htoken
    hrun).mpr halong⟩

/-- `n1` has sealed nothing, and yet its telemetry is accepted. -/
theorem usurper_is_heard : ∃ s₀ s, exec sampleStep (start sampleStore 0) [registers "n1" "secret"] = some s₀ ∧
    s₀.fleet.router.registry.getNodeToken (text "n1") = some (text "secret") ∧
      (∀ a ∈ [registers "n1" "secret"] ++ usurperRun, Foreign (text "secret") a) ∧
      exec sampleStep s₀ usurperRun = some s ∧ text "n1" ∈ s.fleet.router.registry.nodes ∧ s.own.length = 0 ∧
        s.fleet.router.registry.isMeshReachable (text "n1") = true ∧
        ¬ OwnVoice sampleEnv (text "n1") (text "secret") s := by
  have hexec : ((exec sampleStep (start sampleStore 0) [registers "n1" "secret"]).bind fun s₀ =>
    (exec sampleStep s₀ usurperRun).map fun s =>
      (s₀.fleet.router.registry.getNodeToken (text "n1"), decide (text "n1" ∈ s.fleet.router.registry.nodes),
        s.own.length, s.fleet.router.registry.isMeshReachable (text "n1"),
        s.fleet.router.registry.getNodeToken (text "n1"))) =
      some (some (text "secret"), true, 0, true, some (text "stolen")) := by decide +kernel
  obtain ⟨s₀, hreach, hexec⟩ := Option.bind_eq_some_iff.mp hexec
  obtain ⟨s, hrun, hend⟩ := Option.map_eq_some_iff.mp hexec
  simp only [Prod.mk.injEq, decide_eq_true_eq] at hend
  obtain ⟨htoken, hreg, hown, hmark, hstolen⟩ := hend
  have hforeign : ∀ a ∈ [registers "n1" "secret"] ++ usurperRun, Foreign (text "secret") a := by
    simp only [usurperRun, List.cons_append, List.nil_append, List.forall_mem_cons]
    exact ⟨foreign_registers .., foreign_registers .., foreign_stolen, foreign_publishes _,
      fun _ h => absurd h List.not_mem_nil⟩
  refine ⟨s₀, s, hreach, htoken, hforeign, hrun, hreg, hown, hmark, fun hvoice => ?_⟩
  have hsame := hstolen.symm.trans hvoice.credential
  exact absurd hsame (by decide +kernel)

end Network
end PublicIntelligence.System
