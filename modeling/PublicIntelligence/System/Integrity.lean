import PublicIntelligence.System.Topics

namespace PublicIntelligence.System

open Runs Text Encoding Mesh Scheduler ZenohRouter

namespace Fleet

open Topics (Meets subscription keyExpr Wild)

/-- What the mesh may tell the Scheduler of a node. -/
def observed (r : ZenohRouter) (n : Text) : Option Heartbeat × Option Json.Fields × Bool × Option ℚ :=
  (r.registry.heartbeats.get? n, r.registry.telemetry.get? n, r.registry.isMeshReachable n,
    r.lastVerified.get? n)

/-- Where in a key expression the handler of a kind of samples reads the node's id. -/
def place : Purpose → Nat
  | .heartbeat => 2
  | .telemetry => 3

/-- The sample comes on the node's own topic. -/
def OnTopic (purpose : Purpose) (k n : Text) : Prop := k = topic purpose n

/-- The node's id stands where its own topic has it. A key expression without a wildcard is that
topic, and one without `**` matches it. -/
structure Names (purpose : Purpose) (k n : Text) : Prop where
  read : nodeIdFromTopic k (place purpose) = some n
  concrete : ofChar '*' ∉ k → OnTopic purpose k n
  matching : text "**" ∉ split k slash → Meets k (topic purpose n)

/-- The payload is an envelope that was sealed with the token stored for the node,
under its id and for the purpose. -/
def SealedBy (env : RouterEnv) (s : Fleet) (purpose : Purpose) (payload : Bytes) (n : Text) : Prop :=
  ∃ raw token, decode payload = some raw ∧ s.router.registry.getNodeToken n = some token ∧
    ∃ sealing ∈ s.sealings, sealing.token = token ∧ sealing.nodeId = n ∧
      sealing.purpose = purpose ∧ Carries env.crypto raw sealing

/-- What a sample may change: heartbeats and telemetry only what is known of the node that sealed
them and, if the Scheduler subscribes to their key expression, is its `Owner`; a liveliness sample
nothing but to evict a node that the sweep would evict as well. -/
def Integrity (Owner : Purpose → Text → Text → Prop) (env : RouterEnv) (s : Fleet) (a : Act) : Prop :=
  ∀ t, step env s a = some t →
    match a with
    | .heartbeat payload k => ∀ n, observed t.router n ≠ observed s.router n →
        (Meets k (subscription .heartbeat) → Owner .heartbeat k n) ∧ SealedBy env s .heartbeat payload n
    | .telemetry payload k _ => ∀ n, observed t.router n ≠ observed s.router n →
        (Meets k (subscription .telemetry) → Owner .telemetry k n) ∧ SealedBy env s .telemetry payload n
    | .liveliness _ _ => t = s ∨ ∃ n, n ∈ s.router.registry.nodes ∧
        t = { s with router := s.router.evict n } ∧
        n ∉ (s.router.sweepStaleNodes env s.clock).registry.nodes
    | _ => True

section
variable {env : RouterEnv} {s : Fleet}

/-- A key that the Scheduler subscribes to is a node's topic, for the id that stands in it. -/
theorem subscribed_set {purpose : Purpose}
    (h : KeyExpr.accepts (keyExpr (subscription purpose)) key = true) (hn : slash ∉ n) :
    key.set (place purpose) n = split (topic purpose n) slash := by
  have hplain := Topics.template_plain
  simp only [List.forall_mem_cons, List.not_mem_nil, false_imp_iff, implies_true, and_true] at hplain
  obtain ⟨hroot, hnet, hnodes, _, hheartbeat, htelemetry, _⟩ := hplain
  cases purpose with
  | heartbeat =>
    rw [Topics.keyExpr_heartbeats, Topics.segment_literal hroot, Topics.segment_literal hnet,
      Topics.segment_literal hheartbeat] at h
    simp only [KeyExpr.accepts_literal, KeyExpr.accepts_one, KeyExpr.accepts_nil] at h
    obtain ⟨_, rfl, _, rfl, x, _, rfl, _, rfl, rfl⟩ := h
    rw [split_heartbeat hn]
    rfl
  | telemetry =>
    rw [Topics.keyExpr_telemetries, Topics.segment_literal hroot, Topics.segment_literal hnet,
      Topics.segment_literal hnodes, Topics.segment_literal htelemetry] at h
    simp only [KeyExpr.accepts_literal, KeyExpr.accepts_one, KeyExpr.accepts_nil] at h
    obtain ⟨_, rfl, _, rfl, _, rfl, x, _, rfl, _, rfl, rfl⟩ := h
    rw [split_telemetry hn]
    rfl

/-- The handlers read the node id at the place where the topic has it. -/
theorem names_of_nodeId {purpose : Purpose} (hread : nodeIdFromTopic k (place purpose) = some n)
    (hmeets : Meets k (subscription purpose)) : Names purpose k n := by
  have hpart := (Topics.nodeIdFromTopic_eq_some.mp hread).1
  have hn : slash ∉ n := not_mem_of_mem_split (List.mem_of_getElem? hpart)
  obtain ⟨key, hk, hsubscribed⟩ := hmeets
  have hset := subscribed_set hsubscribed hn
  refine ⟨hread, fun hconcrete => ?_, fun hbroad => ?_⟩
  · have hplain : ∀ part ∈ split k slash, ¬ Wild part := by
      rintro part hmem hwild
      refine hconcrete (mem_of_mem_split hmem ?_)
      rcases hwild with rfl | rfl <;> decide +kernel
    rw [Topics.keyExpr_literal hplain, KeyExpr.accepts_literals] at hk
    subst hk
    obtain ⟨hlength, rfl⟩ := List.getElem?_eq_some_iff.mp hpart
    rw [List.set_getElem_self] at hset
    exact split_injective slash hset
  · have hmany : KeyExpr.Segment.many ∉ keyExpr k := by
      intro hmem
      obtain ⟨part, hin, hsegment⟩ := List.mem_map.mp hmem
      unfold Topics.segment at hsegment
      split at hsegment
      · cases hsegment
      · split at hsegment
        · rename_i hdouble
          exact hbroad (hdouble ▸ hin)
        · cases hsegment
    refine ⟨key.set (place purpose) n, ?_, hset ▸ Topics.accepts_segments _⟩
    refine KeyExpr.accepts_set hmany hk ?_ (Topics.accepts_segment n rfl)
    rw [keyExpr, List.getElem?_map, hpart]
    rfl

/-- With an ideal cipher and no hash collisions, what opens for a node was sealed for it. -/
theorem sealedBy_of_open (hauth : env.crypto.aead.Authentic)
    (hsha : Function.Injective env.crypto.sha256) (hraw : decode payload = some raw)
    (h : s.router.openFromNode env (s.encryptions env) raw n purpose = some data) :
    SealedBy env s purpose payload n := by
  obtain ⟨_, token, htoken, hopen⟩ := openFromNode_eq_some h
  obtain ⟨sealing, hs, ht, hn, hp, hc, _⟩ := opened_sealed hauth hsha hopen
  exact ⟨raw, token, hraw, htoken, sealing, hs, ht, hn, hp, hc⟩

theorem integrity_heartbeat (hauth : env.crypto.aead.Authentic)
    (hsha : Function.Injective env.crypto.sha256) (s : Fleet) (payload : Bytes) (k n : Text)
    (hne : observed (s.hear env payload k).router n ≠ observed s.router n) :
    (Meets k (subscription .heartbeat) → Names .heartbeat k n) ∧ SealedBy env s .heartbeat payload n := by
  unfold hear at hne
  cases hraw : decode payload with
  | none =>
    rw [hraw] at hne
    exact absurd rfl hne
  | some raw =>
    rw [hraw] at hne
    simp only [processHeartbeat] at hne
    cases hv : s.router.verifiedHeartbeat env (s.encryptions env) raw k with
    | none =>
      rw [hv] at hne
      exact absurd rfl hne
    | some accepted =>
      obtain ⟨heartbeat, registry⟩ := accepted
      obtain ⟨htopic, hreg, data, hopen⟩ := verifiedHeartbeat_eq_some hv
      by_cases hn : heartbeat.nodeId = n
      · subst hn
        exact ⟨names_of_nodeId htopic, sealedBy_of_open hauth hsha hraw hopen⟩
      · obtain ⟨_, rfl⟩ := NodeRegistry.updateHeartbeat_eq_some.mp hreg
        refine absurd ?_ hne
        rw [hv]
        simp [observed, NodeRegistry.markMeshReachable, NodeRegistry.isMeshReachable, hn, Ne.symm hn]

theorem integrity_telemetry (hauth : env.crypto.aead.Authentic)
    (hsha : Function.Injective env.crypto.sha256) (s : Fleet) (payload : Bytes) (k n : Text)
    (wall : ℚ) (hne : observed (s.measure env payload k wall).router n ≠ observed s.router n) :
    (Meets k (subscription .telemetry) → Names .telemetry k n) ∧ SealedBy env s .telemetry payload n := by
  unfold measure at hne
  cases hraw : decode payload with
  | none =>
    rw [hraw] at hne
    exact absurd rfl hne
  | some raw =>
    rw [hraw] at hne
    simp only [processTelemetry] at hne
    cases hv : s.router.verifiedTelemetry env (s.encryptions env) wall raw k with
    | none =>
      rw [hv] at hne
      exact absurd rfl hne
    | some accepted =>
      obtain ⟨nodeId, data⟩ := accepted
      obtain ⟨htopic, hopen⟩ := verifiedTelemetry_eq_some hv
      by_cases hn : nodeId = n
      · subst hn
        exact ⟨names_of_nodeId htopic, sealedBy_of_open hauth hsha hraw hopen⟩
      · refine absurd ?_ hne
        rw [hv]
        simp [observed, NodeRegistry.setTelemetry, NodeRegistry.markMeshReachable,
          NodeRegistry.isMeshReachable, hn, Ne.symm hn]

/-- A liveliness sample can at most bring the sweep's decision forward. -/
theorem integrity_liveliness (env : RouterEnv) (s : Fleet) (kind : SampleKind) (k : Text) :
    s.router.processLiveliness env s.clock kind k = s.router ∨
      ∃ n, n ∈ s.router.registry.nodes ∧
        s.router.processLiveliness env s.clock kind k = s.router.evict n ∧
        n ∉ (s.router.sweepStaleNodes env s.clock).registry.nodes := by
  unfold processLiveliness
  split
  · rename_i nodeId _
    obtain ⟨he, _⟩ | ⟨he, hstale, hn⟩ := evictIfStale_cases env s.clock s.router nodeId
    · exact .inl he
    · exact .inr ⟨nodeId, hn, he, sweepStaleNodes_evicts env s.clock hstale hn⟩
  · exact .inl rfl

theorem integrity_step (hauth : env.crypto.aead.Authentic)
    (hsha : Function.Injective env.crypto.sha256) (s : Fleet) (a : Act) : Integrity Names env s a := by
  intro t h
  cases a with
  | heartbeat payload k =>
    obtain rfl := Option.some.inj h
    exact integrity_heartbeat hauth hsha s payload k
  | telemetry payload k wall =>
    obtain rfl := Option.some.inj h
    exact fun n => integrity_telemetry hauth hsha s payload k n wall
  | liveliness kind k =>
    obtain rfl := Option.some.inj h
    obtain he | ⟨n, hn, he, hsweep⟩ := integrity_liveliness env s kind k
    · left
      rw [he]
    · right
      exact ⟨n, hn, by rw [he], hsweep⟩
  | tick _ | register _ _ | unregister _ | restart | sealed _ | sweepStarts | sweepNext => trivial

end

/-- Along every run, whatever the adversary publishes, each sample changes only what
its sealed sender may change, under a key expression that names it. -/
theorem ingress_integrity {env : RouterEnv} (hauth : env.crypto.aead.Authentic)
    (hsha : Function.Injective env.crypto.sha256) (s : Fleet) (run : List Act) :
    Along (step env) (Integrity Names env) s run :=
  along_mono (fun s a _ => integrity_step hauth hsha s a) along_true

theorem sampleSha256_injective : Function.Injective sampleSha256 := by
  intro a b h
  unfold sampleSha256 at h
  split at h <;> split at h
  · simp_all
  · have hl := congrArg List.length h
    simp at hl
  · have hl := congrArg List.length h
    simp at hl
  · exact List.append_cancel_left h

/-- The node registers, seals its telemetry and publishes the envelope. -/
def telemetryRun : List Act :=
  [.register ⟨text "n1", []⟩ (some (text "secret")), .sealed sampleSealing,
    .telemetry (((sampleSealing.envelope sampleEnv.crypto).bind encode).getD [])
      (text "public-intelligence/net/nodes/n1/telemetry") 1767225610]

theorem ingress_integrity_telemetry :
    ((exec (step sampleEnv) (start emptyStore 0) telemetryRun).map fun t =>
      t.router.registry.isMeshReachable (text "n1")) = some true ∧
      Along (step sampleEnv) (Integrity Names sampleEnv) (start emptyStore 0) telemetryRun :=
  ⟨by decide +kernel, ingress_integrity (Aead.authentic_ideal sampleGcm) sampleSha256_injective _ _⟩

/-- A telemetry message of a node whose id is `telemetry`. -/
def strangeSealing : Sealing :=
  { sampleSealing with
    nodeId := text "telemetry"
    iv := [13, 14, 15, 16, 17, 18, 19, 20, 21, 22, 23, 24] }

/-- AES-256-GCM on what `strangeSealing` encrypts. -/
def strangeGcm (e : Encryption) : Bytes :=
  if some e = strangeSealing.encryption ⟨sampleSha256, .ideal fun _ => []⟩ then
    [184, 80, 253, 15, 158, 47, 28, 105, 68, 53, 31, 58, 224, 116, 91, 201, 194, 228, 222, 228, 116, 217,
      174, 82, 117, 63, 177, 121, 22, 54, 16, 250, 31, 25, 181, 40, 82, 177, 216, 144, 191]
  else e.plaintext

def strangeEnv : RouterEnv := { sampleEnv with crypto := ⟨sampleSha256, .ideal strangeGcm⟩ }

/-- The node publishes the envelope for all topics that end in `nodes/n1/telemetry`. -/
def strangeRun : List Act :=
  [.register ⟨text "telemetry", []⟩ (some (text "secret")), .sealed strangeSealing,
    .telemetry (((strangeSealing.envelope strangeEnv.crypto).bind encode).getD [])
      (text "**/nodes/n1/telemetry") 1767225610]

/-- The Scheduler hears it and takes it for the node's, whose own topic is another one. -/
theorem off_topic_heard : strangeEnv.crypto.aead.Authentic ∧ Function.Injective strangeEnv.crypto.sha256 ∧
    ¬ Along (step strangeEnv) (Integrity OnTopic strangeEnv) (start emptyStore 0) strangeRun := by
  refine ⟨Aead.authentic_ideal strangeGcm, sampleSha256_injective, fun hall => ?_⟩
  obtain ⟨_, hall⟩ := hall
  obtain ⟨_, hall⟩ := hall _ rfl
  obtain ⟨hintegrity, _⟩ := hall _ rfl
  have hmeets : Meets (text "**/nodes/n1/telemetry") (subscription .telemetry) :=
    ⟨[text "public-intelligence", text "net", text "nodes", text "n1", text "telemetry"],
      by decide +kernel, by decide +kernel⟩
  obtain ⟨htopic, _⟩ := hintegrity _ rfl (text "telemetry") fun hsame => by
    have hreachable := congrArg (fun o => o.2.2.1) hsame
    exact absurd hreachable (by decide +kernel)
  have hother : text "**/nodes/n1/telemetry" ≠ topic .telemetry (text "telemetry") := by decide +kernel
  exact hother (htopic hmeets)

end Fleet
end PublicIntelligence.System
