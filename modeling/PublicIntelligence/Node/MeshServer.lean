import PublicIntelligence.Mesh.Replay
import PublicIntelligence.Node.Ollama

namespace PublicIntelligence.Node

open Text Encoding Json Mesh

/-- What a query carries: nothing, bytes (or something that turns into them), or another
object, which is read as `str` shows it. -/
inductive QueryPayload where
  | absent
  | bytes (bs : Bytes)
  | other (shown : Text)

/-- `NONCE_CACHE_SIZE` -/
def nonceCacheSize : Nat := 4096

/-- The Node's settings that the server reads, and the nonces it has accepted. -/
structure ZenohInferenceServer (τ : Type) where
  nodeId : Text
  networkAuthToken : Option Text
  nonceCache : NonceCache τ
  capacity : nonceCache.capacity = nonceCacheSize

/-- What the Ollama library answers to each kind of call, and what an exception of a library says. -/
structure OllamaClient where
  once : Except OllamaFailure OllamaAnswer
  stream : Except OllamaFailure OllamaStream
  complaint : String

theorem oldest_total (before : τ → τ → Bool) {es : List (Text × τ)} (h : es ≠ []) :
    ∃ o, oldest before es = some o := by
  obtain ⟨e, es, rfl⟩ := List.exists_cons_of_ne_nil h
  exact Option.ne_none_iff_exists'.mp (Verifier.oldest_cons_ne_none before e es)

/-- A cache with room for one nonce never raises, and a nonce that is not in it is new. -/
theorem claim_total (before : τ → τ → Bool) {c : NonceCache τ} (hpos : 0 < c.capacity) (nonce : Text) (t : τ) :
    (c.claim before nonce t).1 = some (decide (nonce ∉ c.seen)) := by
  unfold NonceCache.claim
  split
  · rename_i hseen
    simp only [hseen, not_true_eq_false, decide_false]
  · rename_i hnew
    simp only [hnew, not_false_eq_true, decide_true]
    split
    · rfl
    · rename_i hfull
      have hsome : c.seen.entries ≠ [] := fun he => by
        rw [he, List.length_nil] at hfull
        omega
      obtain ⟨o, ho⟩ := oldest_total before hsome
      rw [ho]

namespace ZenohInferenceServer

def noPayload : Refusal := .request (text "Mesh inference query carried no payload.") 400

/-- The bytes that `_verify` takes from a query. -/
def extract : QueryPayload → Except Refusal Bytes
  | .absent => .error noPayload
  | .bytes bs => .ok bs
  | .other shown =>
    match encode shown with
    | none => .error .raised
    | some bs => .ok bs

section
variable (env : Signing τ)

/-- `_verify`, and the server as it leaves it. -/
def verify (server : ZenohInferenceServer τ) (payload : QueryPayload) (now : τ) :
    Except Refusal MeshInferenceRequest × ZenohInferenceServer τ :=
  match extract payload with
  | .error e => (.error e, server)
  | .ok raw =>
    let (outcome, after) :=
      server.nonceCache.verifyRequest env (.bytes raw) server.nodeId server.networkAuthToken now
    (outcome, ⟨server.nodeId, server.networkAuthToken, after.1, after.2.trans server.capacity⟩)

/-- What `_serve` replies once a request is verified. Whatever its work raises is replied. -/
def answer (ollama : OllamaClient) (request : MeshInferenceRequest) : List Bytes :=
  match InferenceRequest.validate request.model request.prompt request.stream none with
  | none => replyUnexpected ollama.complaint
  | some r =>
    if request.stream then serveStream ollama.complaint (generateStream ollama.complaint r ollama.stream)
    else serveOnce ollama.complaint (generate ollama.complaint r ollama.once)

/-- `_serve`: the replies it sends, or `none` if it raises, which it can only do before its first
reply; and the server as it leaves it. -/
def serve (ollama : OllamaClient) (server : ZenohInferenceServer τ) (payload : QueryPayload) (now : τ) :
    Option (List Bytes) × ZenohInferenceServer τ :=
  match server.verify env payload now with
  | (.error (.request message status), after) => (some (encodeError message status).toList, after)
  | (.error .raised, after) => (none, after)
  | (.ok request, after) => (some (answer ollama request), after)

/-- The payload is a JSON object of the protocol's version whose fields say what is claimed. -/
def Says (raw : Bytes) (claimed : Claimed) : Prop :=
  ∃ t fields, decode raw = some t ∧ loads t = .ok (.obj fields) ∧ (get? fields "v").any equalsOne = true ∧
    claimedOf fields = some claimed

/-- What has to be encoded to check a signature has an encoding. -/
structure Encodable (token nodeId : Text) (claimed : Claimed) : Prop where
  token : Scalar token
  nodeId : Scalar nodeId
  model : Scalar claimed.model
  prompt : Scalar claimed.prompt
  nonce : Scalar claimed.nonce

/-- A request for this node, on whose timestamp `float` raises, or which is fresh and on whose signature
the check raises. -/
def Unchecked (nodeId token : Text) (now : τ) (claimed : Claimed) : Prop :=
  claimed.nodeId = nodeId ∧ (env.times.ofJson claimed.timestamp = none ∨
    ∃ t, env.times.ofJson claimed.timestamp = some t ∧ env.times.stale now t = false ∧
      (¬ Encodable token nodeId claimed ∨ ∃ c ∈ claimed.signature, 0x80 ≤ c.val))

/-- A configured node gets a payload with an integer that is too long, or a request that is unchecked; or
any node gets an object that shows no text. -/
def Escapes (server : ZenohInferenceServer τ) (payload : QueryPayload) (now : τ) : Prop :=
  (∃ shown, payload = .other shown ∧ ¬ Scalar shown) ∨
    ∃ raw token, extract payload = .ok raw ∧ server.networkAuthToken = some token ∧ token ≠ [] ∧
      ((∃ t e, decode raw = some t ∧ loads t = .error e ∧ e ≠ .decode) ∨
        ∃ claimed, Says raw claimed ∧ Unchecked env server.nodeId token now claimed)

end

section
variable {env : Signing τ}

variable {repr : Json → Text} {nodeId token : Text}

/-- A refusal that the peer is told of has a status for its request or its credential. -/
def Told : Refusal → Prop
  | .request _ status => status = 400 ∨ status = 401
  | .raised => True

theorem told_requestFields (h : requestFields repr payload = .error e) : Told e := by
  unfold requestFields at h
  split at h
  · cases h
    exact .inl rfl
  · split at h
    · split at h
      · cases h
      · cases h
        exact .inl rfl
    · cases h
      exact .inl rfl
    · cases h
      exact .inl rfl
    · cases h
      trivial

theorem told_readRequest (h : readRequest repr payload = .error e) : Told e := by
  unfold readRequest at h
  cases hf : requestFields repr payload with
  | error e' =>
    rw [hf] at h
    cases h
    exact told_requestFields hf
  | ok fields =>
    rw [hf] at h
    simp only [bind, Except.bind] at h
    split at h
    · cases h
      exact .inl rfl
    · cases h

theorem told_checkRequest (h : checkRequest env claimed nodeId token now = .error e) : Told e := by
  unfold checkRequest at h
  split at h
  · cases h
    exact .inr rfl
  · split at h
    · cases h
      trivial
    · split at h
      · cases h
        exact .inr rfl
      · split at h
        · cases h
          trivial
        · split at h
          · cases h
            trivial
          · split at h
            · cases h
            · cases h
              exact .inr rfl

theorem told_claimNonce (h : claimNonce env cache nonce t = (.error e, after)) : Told e := by
  unfold claimNonce at h
  split at h
  · cases h
  · split at h
    · cases h
      trivial
    · cases h
      exact .inr rfl
    · cases h

theorem told_verifyRequest {token : Option Text}
    (h : verifyRequest env payload nodeId token cache now = (.error e, after)) : Told e := by
  unfold verifyRequest at h
  split at h
  · cases h
    exact .inr rfl
  · cases h
    exact .inr rfl
  · split at h
    · rename_i hread
      cases h
      exact told_readRequest hread
    · split at h
      · rename_i hcheck
        cases h
        exact told_checkRequest hcheck
      · split at h
        · rename_i hclaim
          cases h
          exact told_claimNonce hclaim
        · cases h

theorem requestFields_raised (repr : Json → Text) : requestFields repr (.bytes raw) = .error .raised ↔
    ∃ t e, decode raw = some t ∧ loads t = .error e ∧ e ≠ .decode := by
  have htext : (Payload.bytes raw).text = decode raw := rfl
  unfold requestFields
  rw [htext]
  cases hdecode : decode raw with
  | none => simp [Refusal.malformed]
  | some t =>
    dsimp only
    cases hloads : loads t with
    | error e => cases e <;> simp [Refusal.malformed, hloads]
    | ok j =>
      refine iff_of_false (fun h => ?_) ?_
      · cases j with
        | obj fields =>
          dsimp only at h
          split at h <;> cases h
        | _ => cases h
      · rintro ⟨_, e, ht, he, _⟩
        cases ht
        rw [hloads] at he
        cases he

theorem requestFields_ok : requestFields repr (.bytes raw) = .ok fields ↔
    ∃ t, decode raw = some t ∧ loads t = .ok (.obj fields) ∧ (get? fields "v").any equalsOne = true := by
  have htext : (Payload.bytes raw).text = decode raw := rfl
  unfold requestFields
  rw [htext]
  cases hdecode : decode raw with
  | none => simp
  | some t =>
    dsimp only
    cases hloads : loads t with
    | error e => cases e <;> simp [hloads]
    | ok j =>
      cases j with
      | obj found =>
        dsimp only
        split
        · rename_i hv
          constructor
          · rintro ⟨⟩
            exact ⟨t, rfl, hloads, hv⟩
          · rintro ⟨_, ht, hl, _⟩
            cases ht
            rw [hloads] at hl
            cases hl
            rfl
        · rename_i hv
          refine iff_of_false (fun h => by cases h) ?_
          rintro ⟨_, ht, hl, hv'⟩
          cases ht
          rw [hloads] at hl
          cases hl
          exact hv hv'
      | _ => simp [hloads]

theorem readRequest_ok (repr : Json → Text) : readRequest repr (.bytes raw) = .ok claimed ↔ Says raw claimed := by
  unfold readRequest Says
  constructor
  · intro h
    cases hf : requestFields repr (.bytes raw) with
    | error e =>
      rw [hf] at h
      cases h
    | ok fields =>
      simp only [hf, bind, Except.bind] at h
      split at h
      · cases h
      · rename_i found hc
        cases h
        obtain ⟨t, ht, hl, hv⟩ := requestFields_ok.mp hf
        exact ⟨t, fields, ht, hl, hv, hc⟩
  · rintro ⟨t, fields, ht, hl, hv, hc⟩
    have hf : requestFields repr (.bytes raw) = .ok fields := requestFields_ok.mpr ⟨t, ht, hl, hv⟩
    simp only [hf, bind, Except.bind, hc]

theorem readRequest_raised (repr : Json → Text) : readRequest repr (.bytes raw) = .error .raised ↔
    ∃ t e, decode raw = some t ∧ loads t = .error e ∧ e ≠ .decode := by
  rw [← requestFields_raised repr]
  unfold readRequest
  cases hf : requestFields repr (.bytes raw) with
  | error e => exact ⟨fun h => congrArg _ (Except.error.inj h), fun h => congrArg _ (Except.error.inj h)⟩
  | ok fields =>
    simp only [bind, Except.bind]
    split <;> simp [Refusal.malformed]

/-- A signature can be computed for what can be encoded, and for nothing else. -/
theorem signed_iff (hcanon : ∀ t, Scalar (env.times.canonical t)) (nodeId token : Text) (claimed : Claimed) (t : τ) :
    (∃ sig, (bodyDigest env claimed.model claimed.prompt claimed.stream).bind
      (signature env token nodeId claimed.nonce t) = some sig) ↔ Encodable token nodeId claimed := by
  constructor
  · rintro ⟨sig, h⟩
    obtain ⟨digest, hdigest, hsig⟩ := Option.bind_eq_some_iff.mp h
    obtain ⟨key, m, hkey, _, _⟩ := signature_eq_some.mp hsig
    obtain ⟨hnode, hnonce, hmodel, hprompt⟩ := scalar_of_signature hdigest hsig
    exact ⟨(encode_some.mp hkey).1, hnode, hmodel, hprompt, hnonce⟩
  · intro h
    have hflag : Scalar [nul, ofChar (if claimed.stream then '1' else '0')] := by
      cases claimed.stream <;> decide +kernel
    have hnul : isSurrogate nul = false := by decide
    have hline : isSurrogate newline = false := by decide
    have hbody : Scalar (bodyMaterial claimed.model claimed.prompt claimed.stream) :=
      scalar_append.mpr ⟨scalar_append.mpr ⟨h.model, scalar_cons.mpr ⟨hnul, h.prompt⟩⟩, hflag⟩
    have hdigest : bodyDigest env claimed.model claimed.prompt claimed.stream = some (hexText (env.sha256 _)) :=
      congrArg (Option.map fun bs => hexText (env.sha256 bs)) (encode_some.mpr ⟨hbody, rfl⟩)
    have htext : ∀ bs, Scalar (signedText nodeId claimed.nonce (env.times.canonical t) (hexText bs)) := fun bs =>
      scalar_append.mpr ⟨scalar_append.mpr ⟨scalar_append.mpr ⟨h.nodeId, scalar_cons.mpr ⟨hline, h.nonce⟩⟩,
        scalar_cons.mpr ⟨hline, hcanon t⟩⟩, scalar_cons.mpr ⟨hline, hexText_scalar bs⟩⟩
    rw [hdigest, Option.bind_some]
    exact ⟨_, signature_eq_some.mpr ⟨_, _, encode_some.mpr ⟨h.token, rfl⟩, encode_some.mpr ⟨htext _, rfl⟩, rfl⟩⟩

theorem checkRequest_raised (hcanon : ∀ t, Scalar (env.times.canonical t)) (nodeId token : Text) (now : τ)
    (claimed : Claimed) :
    checkRequest env claimed nodeId token now = .error .raised ↔ Unchecked env nodeId token now claimed := by
  unfold checkRequest Unchecked
  split
  · rename_i hid
    exact iff_of_false (fun h => by cases h) fun h => hid h.1
  · rename_i hid
    rw [not_not] at hid
    cases hof : env.times.ofJson claimed.timestamp with
    | none => simp [hid]
    | some t =>
      cases hstale : env.times.stale now t with
      | true => simp [hstale, Refusal.outdated]
      | false =>
        have hsigned := signed_iff hcanon nodeId token claimed t
        cases hbind : (bodyDigest env claimed.model claimed.prompt claimed.stream).bind
            (signature env token nodeId claimed.nonce t) with
        | none =>
          rw [hbind] at hsigned
          have hbad : ¬ Encodable token nodeId claimed := fun h => by
            obtain ⟨sig, hsig⟩ := hsigned.mpr h
            cases hsig
          simp [hid, hstale, hbind, hbad]
        | some expected =>
          have hgood : Encodable token nodeId claimed := hsigned.mp ⟨expected, hbind⟩
          by_cases hascii : ∃ c ∈ claimed.signature, 0x80 ≤ c.val
          · have hany : (claimed.signature.any fun c => decide (0x80 ≤ c.val)) = true := by simpa using hascii
            simp [hid, hstale, hbind, hany, hascii]
          · have hany : (claimed.signature.any fun c => decide (0x80 ≤ c.val)) = false := by simpa using hascii
            simp only [hstale, Bool.false_eq_true, if_false, hbind, hany]
            split <;> simp [Refusal.badSignature, hgood, hascii]

theorem claimNonce_raises (env : Signing τ) {c : NonceCache τ} (hpos : 0 < c.capacity) (nonce : Text) (t : τ) :
    (claimNonce env (some c) nonce t).1 ≠ .error .raised := by
  have hclaim := claim_total env.times.before hpos nonce t
  unfold claimNonce
  dsimp only
  split
  · rename_i he
    rw [he] at hclaim
    cases hclaim
  · simp [Refusal.usedNonce]
  · simp

theorem verifyRequest_raised (hcanon : ∀ t, Scalar (env.times.canonical t)) {c : NonceCache τ}
    (hpos : 0 < c.capacity) {token : Option Text} :
    (verifyRequest env (.bytes raw) nodeId token (some c) now).1 = .error .raised ↔
      ∃ t, token = some t ∧ t ≠ [] ∧ ((∃ u e, decode raw = some u ∧ loads u = .error e ∧ e ≠ .decode) ∨
        ∃ claimed, Says raw claimed ∧ Unchecked env nodeId t now claimed) := by
  rw [← readRequest_raised env.repr]
  unfold verifyRequest
  split
  · simp [Refusal.unconfigured]
  · simp [Refusal.unconfigured]
  · rename_i d ds
    cases hread : readRequest env.repr (.bytes raw) with
    | error e =>
      have hsaid : ∀ claimed, ¬ Says raw claimed := fun claimed h => by
        rw [(readRequest_ok env.repr).mpr h] at hread
        cases hread
      simp [hsaid]
    | ok claimed =>
      have hsaid : ∀ other, Says raw other ↔ other = claimed := fun other => by
        rw [← readRequest_ok env.repr, hread, Except.ok.injEq, eq_comm]
      have hunchecked := checkRequest_raised hcanon nodeId (d :: ds) now claimed
      cases hcheck : checkRequest env claimed nodeId (d :: ds) now with
      | error e =>
        rw [hcheck] at hunchecked
        simpa [hcheck, hsaid] using hunchecked
      | ok t =>
        rw [hcheck] at hunchecked
        have hno : ¬ Unchecked env nodeId (d :: ds) now claimed := fun h => by
          cases hunchecked.mpr h
        have hclaim := claimNonce_raises env hpos claimed.nonce t
        rcases hc : claimNonce env (some c) claimed.nonce t with ⟨e | _, after⟩
        · rw [hc] at hclaim
          simpa [hcheck, hc, hsaid, hno] using hclaim
        · simp [hcheck, hc, hsaid, hno]

/-- What is wrong with a query is wrong with its payload or with the request in it. -/
theorem verify_error {server : ZenohInferenceServer τ} :
    (server.verify env payload now).1 = .error e ↔ extract payload = .error e ∨
      ∃ raw, extract payload = .ok raw ∧
        (verifyRequest env (.bytes raw) server.nodeId server.networkAuthToken
          (some server.nonceCache) now).1 = .error e := by
  unfold verify
  cases extract payload with
  | error e' => simp
  | ok raw => simp [server.nonceCache.verifyRequest_eq]

theorem told_verify {server : ZenohInferenceServer τ}
    (h : (server.verify env payload now).1 = .error e) : Told e := by
  rcases verify_error.mp h with hraw | ⟨raw, _, hv⟩
  · cases payload with
    | absent =>
      cases hraw
      exact .inl rfl
    | bytes bs => cases hraw
    | other shown =>
      simp only [extract] at hraw
      split at hraw
      · cases hraw
        trivial
      · cases hraw
  · exact told_verifyRequest (Prod.ext hv rfl)

theorem extract_raised : extract payload = .error .raised ↔ ∃ shown, payload = .other shown ∧ ¬ Scalar shown := by
  cases payload with
  | absent => simp [extract, noPayload]
  | bytes bs => simp [extract]
  | other shown =>
    simp only [extract, QueryPayload.other.injEq, exists_eq_left']
    cases hencode : encode shown with
    | none =>
      refine iff_of_true rfl fun hs => ?_
      rw [encode_some.mpr ⟨hs, rfl⟩] at hencode
      cases hencode
    | some bs => simpa using (encode_some.mp hencode).1

theorem verify_raised (hcanon : ∀ t, Scalar (env.times.canonical t)) {server : ZenohInferenceServer τ} :
    (server.verify env payload now).1 = .error .raised ↔ Escapes env server payload now := by
  have hraised : ∀ raw, (verifyRequest env (.bytes raw) server.nodeId server.networkAuthToken
      (some server.nonceCache) now).1 = .error .raised ↔ _ :=
    fun raw => verifyRequest_raised hcanon (server.capacity ▸ by decide)
  rw [verify_error, extract_raised, Escapes]
  refine or_congr_right ?_
  constructor
  · rintro ⟨raw, hraw, hv⟩
    obtain ⟨t, ht, hne, hbad⟩ := (hraised raw).mp hv
    exact ⟨raw, t, hraw, ht, hne, hbad⟩
  · rintro ⟨raw, t, hraw, ht, hne, hbad⟩
    exact ⟨raw, hraw, (hraised raw).mpr ⟨t, ht, hne, hbad⟩⟩

/-- An error whose status has a text is always sent. -/
theorem encodeError_ne_nil (message : Text) (h : (natText status).length ≤ maxDigits) :
    (encodeError message status).toList ≠ [] := by
  obtain ⟨b, hb⟩ : ∃ b, encodeError message status = some b :=
    pack_total (by simpa [envelope, printable, printableFields] using h)
  rw [hb]
  exact List.cons_ne_nil _ _

theorem replyUnexpected_ne_nil (complaint : String) : replyUnexpected complaint ≠ [] :=
  encodeError_ne_nil _ (by decide +kernel)

theorem replyFailure_ne_nil (message : Text) : replyFailure message ≠ [] := by
  refine encodeError_ne_nil _ ?_
  unfold statusOf
  split <;> decide +kernel

theorem serveOnce_ne_nil (complaint : String) (answer : Except Text InferenceResponse) :
    serveOnce complaint answer ≠ [] := by
  unfold serveOnce
  split
  · exact replyFailure_ne_nil _
  · split
    · exact replyUnexpected_ne_nil complaint
    · exact List.cons_ne_nil _ _

theorem serveStream_ne_nil (complaint : String) (frames : List Text × Option Text) :
    serveStream complaint frames ≠ [] := by
  obtain ⟨frames, error⟩ := frames
  unfold serveStream
  cases frames with
  | nil =>
    unfold serveFrames
    cases error with
    | none =>
      obtain ⟨b, hb, _⟩ := decode_encodeDone
      rw [hb]
      exact List.cons_ne_nil _ _
    | some message => exact replyFailure_ne_nil message
  | cons f fs =>
    unfold serveFrames
    split
    · exact replyUnexpected_ne_nil complaint
    · exact List.cons_ne_nil _ _

/-- A verified request is always answered. -/
theorem answer_ne_nil (ollama : OllamaClient) (request : MeshInferenceRequest) : answer ollama request ≠ [] := by
  unfold answer
  split
  · exact replyUnexpected_ne_nil _
  · split
    · exact serveStream_ne_nil _ _
    · exact serveOnce_ne_nil _ _

end

/-- Whatever a query carries, verifying it gives a request or a `MeshRequestError`, and the query is
answered, exactly if the payload does not escape the checks. -/
theorem answered_iff {env : Signing τ} (hcanon : ∀ t, Scalar (env.times.canonical t)) (ollama : OllamaClient)
    (server : ZenohInferenceServer τ) (payload : QueryPayload) (now : τ) :
    (((∃ request, (server.verify env payload now).1 = .ok request) ∨
        ∃ message status, (server.verify env payload now).1 = .error (.request message status)) ↔
      ¬ Escapes env server payload now) ∧
    ((∃ replies, (server.serve env ollama payload now).1 = some replies ∧ replies ≠ []) ↔
      ¬ Escapes env server payload now) := by
  rw [← verify_raised hcanon]
  unfold serve
  rcases hv : server.verify env payload now with ⟨e | request, after⟩
  · cases e with
    | raised => simp
    | request message status =>
      have hstatus : (natText status).length ≤ maxDigits := by
        rcases told_verify (congrArg Prod.fst hv) with rfl | rfl <;> decide +kernel
      have hsent := encodeError_ne_nil message hstatus
      simpa using hsent
  · simpa using answer_ne_nil ollama request

theorem microText_scalar (t : ℤ) : Scalar (microText t) := by
  have hpoint : isSurrogate (ofChar '.') = false := by decide
  have hsix : Scalar (sixDigits (t.natAbs % 1000000)) := by
    intro c hc
    have hdigit := sixDigits_digits _ c hc
    simp only [isDigit, Bool.and_eq_true, decide_eq_true_eq] at hdigit
    simp only [isSurrogate, Bool.and_eq_false_iff, decide_eq_false_iff_not]
    omega
  have hminus : Scalar (if t < 0 then [ofChar '-'] else []) := by split <;> decide
  exact scalar_append.mpr ⟨hminus, scalar_append.mpr ⟨scalar_natText _, scalar_cons.mpr ⟨hpoint, hsix⟩⟩⟩

def sampleServer : ZenohInferenceServer ℤ where
  nodeId := text "node"
  networkAuthToken := some (text "secret")
  nonceCache := ⟨nonceCacheSize, .empty⟩
  capacity := rfl

def sampleClient : OllamaClient where
  once := .ok ⟨some (text "llama3"), some (text "Hi")⟩
  stream := .ok ⟨[], none⟩
  complaint := ""

def helloPayload : QueryPayload :=
  .bytes ((encodeRequest Verifier.helloSigning (text "node") (text "llama3") (text "hello") false (text "secret")
    1767225600000000 (text "n1")).getD [])

theorem hello_answered : ∃ replies, (sampleServer.serve Verifier.helloSigning sampleClient helloPayload
    1767225600000000).1 = some replies ∧ replies ≠ [] := by
  refine (answered_iff microText_scalar sampleClient sampleServer helloPayload 1767225600000000).2.mpr fun h => ?_
  have hok : (sampleServer.verify Verifier.helloSigning helloPayload 1767225600000000).1.isOk = true := by
    decide +kernel
  rw [(verify_raised microText_scalar).mpr h] at hok
  cases hok

/-- A request with an accented letter for a signature. -/
def accented : QueryPayload :=
  .bytes ((encode (text "\x7b\"v\": 1, \"node_id\": \"node\", \"model\": \"llama3\", \"prompt\": \"hello\", \"stream\": false, \"nonce\": \"n1\", \"timestamp\": 1767225600, \"signature\": \"é\"\x7d")).getD [])

theorem accented_signature_unanswered :
    (sampleServer.serve Verifier.helloSigning sampleClient accented 1767225600000000).1 = none := by
  decide +kernel

end ZenohInferenceServer
end PublicIntelligence.Node
