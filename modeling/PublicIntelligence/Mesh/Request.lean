import PublicIntelligence.Lib.Words
import PublicIntelligence.Mesh.Auth

namespace PublicIntelligence.Mesh

open Text Encoding Json

/-- A missing `stream` is false. -/
def asStream : Option Json → Option Bool
  | none => some false
  | some (.bool b) => some b
  | _ => none

/-- Python's arithmetic on timestamps: `float()` of a number (`none` is the
`OverflowError`), the JSON number a timestamp is sent as, how it prints with six decimals,
whether it is more than `MAX_CLOCK_SKEW_SECONDS` from the clock, and `<`. -/
structure Times (τ : Type) where
  ofJson : Json → Option τ
  toJson : τ → Json
  canonical : τ → Text
  stale : (now timestamp : τ) → Bool
  before : τ → τ → Bool

/-- A timestamp is sent as a JSON number, which is read back as it was. -/
structure Times.Sent (times : Times τ) : Prop where
  number : ∀ t, asNumber (some (times.toJson t)) = some (times.toJson t)
  readable : ∀ t, Readable (times.toJson t)
  back : ∀ t, times.ofJson (times.toJson t) = some t

/-- What a signature and its verification rest on. -/
structure Signing (τ : Type) where
  sha256 : Bytes → Bytes
  hmacSha256 : (key message : Bytes) → Bytes
  times : Times τ
  repr : Json → Text

/-- A `MeshRequestError`, or any other exception. -/
inductive Refusal where
  | request (message : Text) (status : Nat)
  | raised
deriving DecidableEq

structure MeshInferenceRequest where
  nodeId : Text
  model : Text
  prompt : Text
  stream : Bool
deriving DecidableEq

def nul : CodePoint := 0

def newline : CodePoint := ofChar '\n'

def bodyMaterial (model prompt : Text) (stream : Bool) : Text :=
  (model ++ nul :: prompt) ++ [nul, ofChar (if stream then '1' else '0')]

def signedText (nodeId nonce stamp digest : Text) : Text :=
  ((nodeId ++ newline :: nonce) ++ newline :: stamp) ++ newline :: digest

section
variable (env : Signing τ)

/-- `none` where a text cannot be encoded. -/
def bodyDigest (model prompt : Text) (stream : Bool) : Option Text :=
  (encode (bodyMaterial model prompt stream)).map fun bs => hexText (env.sha256 bs)

/-- What is signed for a request. -/
def signedMessage (nodeId nonce : Text) (timestamp : τ) (digest : Text) : Option Bytes :=
  encode (signedText nodeId nonce (env.times.canonical timestamp) digest)

def signature (token nodeId nonce : Text) (timestamp : τ) (digest : Text) : Option Text := do
  let key ← encode token
  let message ← signedMessage env nodeId nonce timestamp digest
  return hexText (env.hmacSha256 key message)

end

/-- The nonces accepted, oldest claim first, and the timestamps they came with. -/
structure NonceCache (τ : Type) where
  capacity : Nat
  seen : Dict Text τ

/-- `min` by timestamp: the first of the smallest. -/
def oldest (before : τ → τ → Bool) : List (Text × τ) → Option (Text × τ)
  | [] => none
  | e :: es =>
    match oldest before es with
    | none => some e
    | some o => if before o.2 e.2 then some o else some e

/-- `claim`: whether the nonce is new, and the cache as it leaves it. `none` is the
`ValueError` of `min`, which takes a capacity of zero. -/
def NonceCache.claim (before : τ → τ → Bool) (c : NonceCache τ) (nonce : Text) (timestamp : τ) :
    Option Bool × NonceCache τ :=
  if nonce ∈ c.seen then (some false, c)
  else if c.seen.entries.length < c.capacity then
    (some true, { c with seen := c.seen.set nonce timestamp })
  else
    match oldest before c.seen.entries with
    | none => (none, c)
    | some o => (some true, { c with seen := (c.seen.pop o.1).set nonce timestamp })

/-- The dictionary `build_request` returns. -/
def requestEnvelope (nodeId model prompt : Text) (stream : Bool) (nonce : Text) (timestamp : Json)
    (signature : Text) : Fields :=
  [(text "v", .int 1), (text "node_id", .str nodeId), (text "model", .str model),
    (text "prompt", .str prompt), (text "stream", .bool stream), (text "nonce", .str nonce),
    (text "timestamp", timestamp), (text "signature", .str signature)]

/-- `build_request` with the time and the nonce it takes. -/
def buildRequest (env : Signing τ) (nodeId model prompt : Text) (stream : Bool) (token : Text)
    (timestamp : τ) (nonce : Text) : Option Fields := do
  let digest ← bodyDigest env model prompt stream
  let signature ← signature env token nodeId nonce timestamp digest
  return requestEnvelope nodeId model prompt stream nonce (env.times.toJson timestamp) signature

/-- `encode_request` -/
def encodeRequest (env : Signing τ) (nodeId model prompt : Text) (stream : Bool) (token : Text)
    (timestamp : τ) (nonce : Text) : Option Bytes := do
  let fields ← buildRequest env nodeId model prompt stream token timestamp nonce
  let t ← dumps (.obj fields)
  encode t

/-- A request and the token it is signed with. -/
structure SignedRequest (τ : Type) where
  token : Text
  nodeId : Text
  model : Text
  prompt : Text
  stream : Bool
  nonce : Text
  timestamp : τ

namespace SignedRequest

def message (env : Signing τ) (r : SignedRequest τ) : Option Bytes :=
  (bodyDigest env r.model r.prompt r.stream).bind (signedMessage env r.nodeId r.nonce r.timestamp)

def proof (env : Signing τ) (r : SignedRequest τ) : Option Text :=
  (bodyDigest env r.model r.prompt r.stream).bind (signature env r.token r.nodeId r.nonce r.timestamp)

end SignedRequest

inductive Payload where
  | bytes (bs : Bytes)
  | str (t : Text)

/-- What a well-formed request says, before anything is checked. -/
structure Claimed where
  nodeId : Text
  model : Text
  prompt : Text
  stream : Bool
  nonce : Text
  timestamp : Json
  signature : Text

namespace Refusal

def unconfigured : Refusal :=
  .request (text "Node is not configured for network auth. Set NODE_NETWORK_AUTH_TOKEN in Node/.env (the installer generates one) and restart the node.") 401

def malformed : Refusal := .request (text "Malformed mesh request payload.") 400

def version (repr : Text) : Refusal :=
  .request (text "Unsupported mesh protocol version: " ++ repr ++ text ".") 400

def misaddressed : Refusal := .request (text "Mesh request addressed to a different node.") 401

def outdated : Refusal :=
  .request (text "Mesh request is outside the 30s freshness window.") 401

def badSignature : Refusal := .request (text "Mesh request signature is not valid.") 401

def usedNonce : Refusal := .request (text "Mesh request nonce has already been used.") 401

end Refusal

def claimedOf (fields : Fields) : Option Claimed := do
  let nodeId ← asStr (get? fields "node_id")
  let model ← asStr (get? fields "model")
  let prompt ← asStr (get? fields "prompt")
  let stream ← asStream (get? fields "stream")
  let nonce ← asStr (get? fields "nonce")
  let timestamp ← asNumber (get? fields "timestamp")
  let signature ← asStr (get? fields "signature")
  return ⟨nodeId, model, prompt, stream, nonce, timestamp, signature⟩

def Payload.text : Payload → Option Text
  | .bytes bs => decode bs
  | .str t => some t

/-- The envelope in a payload, as far as its version. -/
def requestFields (repr : Json → Text) (payload : Payload) : Except Refusal Fields :=
  match payload.text with
  | none => .error .malformed
  | some t =>
    match loads t with
    | .ok (.obj fields) =>
      if (get? fields "v").any equalsOne then .ok fields
      else .error (.version (repr ((get? fields "v").getD .null)))
    | .ok _ | .error .decode => .error .malformed
    | .error _ => .error .raised

def readRequest (repr : Json → Text) (payload : Payload) : Except Refusal Claimed := do
  let fields ← requestFields repr payload
  match claimedOf fields with
  | none => .error .malformed
  | some claimed => .ok claimed

section
variable (env : Signing τ)

/-- The checks up to the signature, and the timestamp they leave. `compare_digest`
raises on a text beyond ASCII. -/
def checkRequest (claimed : Claimed) (nodeId token : Text) (now : τ) : Except Refusal τ :=
  if claimed.nodeId ≠ nodeId then .error .misaddressed
  else
    match env.times.ofJson claimed.timestamp with
    | none => .error .raised
    | some timestamp =>
      if env.times.stale now timestamp then .error .outdated
      else
        match (bodyDigest env claimed.model claimed.prompt claimed.stream).bind
            (signature env token nodeId claimed.nonce timestamp) with
        | none => .error .raised
        | some expected =>
          if claimed.signature.any fun c => 0x80 ≤ c.val then .error .raised
          else if claimed.signature = expected then .ok timestamp
          else .error .badSignature

/-- Whether the nonce may be used, and the cache after that. -/
def claimNonce (cache : Option (NonceCache τ)) (nonce : Text) (timestamp : τ) :
    Except Refusal Unit × Option (NonceCache τ) :=
  match cache with
  | none => (.ok (), none)
  | some c =>
    match c.claim env.times.before nonce timestamp with
    | (none, c) => (.error .raised, some c)
    | (some false, c) => (.error .usedNonce, some c)
    | (some true, c) => (.ok (), some c)

/-- `verify_request`, and the cache as it leaves it, whether it returns or raises. The nonce is
claimed only once the signature has verified. -/
def verifyRequest (payload : Payload) (nodeId : Text) (token : Option Text)
    (cache : Option (NonceCache τ)) (now : τ) :
    Except Refusal MeshInferenceRequest × Option (NonceCache τ) :=
  match token with
  | none | some [] => (.error .unconfigured, cache)
  | some (c :: cs) =>
    match readRequest env.repr payload with
    | .error e => (.error e, cache)
    | .ok claimed =>
      match checkRequest env claimed nodeId (c :: cs) now with
      | .error e => (.error e, cache)
      | .ok timestamp =>
        match claimNonce env cache claimed.nonce timestamp with
        | (.error e, cache) => (.error e, cache)
        | (.ok (), cache) => (.ok ⟨nodeId, claimed.model, claimed.prompt, claimed.stream⟩, cache)

end

section
variable {env : Signing τ}

/-- Hexadecimal text is ASCII and has no line break in it. -/
theorem hexText_plain (bs : Bytes) : ∀ c ∈ hexText bs, c.val < 0x80 ∧ c ≠ newline :=
  forall_mem_hexText (by decide) bs

theorem hexText_injective : Function.Injective hexText := by
  have hdigit : ∀ m < 16, ∀ n < 16, hexDigit m = hexDigit n → m = n := by decide
  intro as
  induction as with
  | nil =>
    intro bs h
    cases bs with
    | nil => rfl
    | cons b bs => cases h
  | cons a as ih =>
    intro bs h
    cases bs with
    | nil => cases h
    | cons b bs =>
      have ha := a.toNat_lt
      have hb := b.toNat_lt
      simp only [hexText, List.flatMap_cons, List.cons_append, List.nil_append,
        List.cons.injEq] at h
      obtain ⟨hhigh, hlow, hrest⟩ := h
      have h1 := hdigit _ (by omega) _ (by omega) hhigh
      have h2 := hdigit _ (by omega) _ (by omega) hlow
      have hbyte : a = b := UInt8.toNat_inj.mp (by omega)
      rw [hbyte, ih hrest]

/-- The stream flag is the last character of the material, whatever stands before it. -/
theorem bodyMaterial_inj (h : bodyMaterial m p s = bodyMaterial m' p' s') :
    m ++ nul :: p = m' ++ nul :: p' ∧ s = s' := by
  obtain ⟨hbody, hflag⟩ := List.append_inj' h rfl
  refine ⟨hbody, ?_⟩
  have hne : ofChar '1' ≠ ofChar '0' := by decide
  cases s <;> cases s'
  · rfl
  · exact absurd (List.cons.inj (List.cons.inj hflag).2).1.symm hne
  · exact absurd (List.cons.inj (List.cons.inj hflag).2).1 hne
  · rfl

/-- A digest tells its material: no collisions, and one text for each digest. -/
theorem bodyDigest_inj (hsha : Function.Injective env.sha256)
    (h : bodyDigest env m p s = some d) (h' : bodyDigest env m' p' s' = some d) :
    bodyMaterial m p s = bodyMaterial m' p' s' := by
  obtain ⟨bs, hbs, rfl⟩ := Option.map_eq_some_iff.mp h
  obtain ⟨bs', hbs', heq⟩ := Option.map_eq_some_iff.mp h'
  obtain rfl := hsha (hexText_injective heq)
  exact encode_injective hbs hbs'

theorem bodyDigest_plain (h : bodyDigest env m p s = some d) : newline ∉ d := by
  obtain ⟨bs, _, rfl⟩ := Option.map_eq_some_iff.mp h
  exact fun hm => (hexText_plain _ _ hm).2 rfl

/-- Neither the stamp nor the digest has a line break in it, so what is signed for one
node tells them and the nonce. -/
theorem signedText_inj (h : signedText n nonce stamp d = signedText n nonce' stamp' d')
    (hs : newline ∉ stamp) (hs' : newline ∉ stamp') (hd : newline ∉ d) (hd' : newline ∉ d') :
    nonce = nonce' ∧ stamp = stamp' ∧ d = d' := by
  obtain ⟨hhead, rfl⟩ := Words.cut_last h hd hd'
  obtain ⟨hnode, rfl⟩ := Words.cut_last hhead hs hs'
  exact ⟨(List.cons.inj (List.append_cancel_left hnode)).2, rfl, rfl⟩

theorem signature_eq_some : signature env token nodeId nonce timestamp digest = some sig ↔
    ∃ key m, encode token = some key ∧ signedMessage env nodeId nonce timestamp digest = some m ∧
      hexText (env.hmacSha256 key m) = sig := by
  simp [signature, Option.bind_eq_some_iff]

/-- What was packed as an envelope is read as one. -/
theorem readRequest_envelope (htime : env.times.Sent) (hnode : Scalar nodeId) (hmodel : Scalar model)
    (hprompt : Scalar prompt) (hnonce : Scalar nonce) (hsig : Scalar sig)
    (hbs : encode (write .dumps (.obj (requestEnvelope nodeId model prompt stream nonce
      (env.times.toJson timestamp) sig))) = some bs) :
    readRequest env.repr (.bytes bs) =
      .ok ⟨nodeId, model, prompt, stream, nonce, env.times.toJson timestamp, sig⟩ := by
  have hkeys : [text "v", text "node_id", text "model", text "prompt", text "stream", text "nonce",
      text "timestamp", text "signature"].Nodup := by decide +kernel
  have hint : (natText (1 : Int).natAbs).length ≤ maxDigits := by decide +kernel
  have hread : Readable (.obj (requestEnvelope nodeId model prompt stream nonce
      (env.times.toJson timestamp) sig)) :=
    ⟨hkeys, scalar_text _, hint, scalar_text _, joined_of_scalar hnode, scalar_text _,
      joined_of_scalar hmodel, scalar_text _, joined_of_scalar hprompt, scalar_text _, trivial,
      scalar_text _, joined_of_scalar hnonce, scalar_text _, htime.readable _, scalar_text _,
      joined_of_scalar hsig, trivial⟩
  have hloads := loads_write .dumps (lossless_of_readable _ hread)
  have hclaimed : claimedOf (requestEnvelope nodeId model prompt stream nonce
      (env.times.toJson timestamp) sig) =
      (asNumber (some (env.times.toJson timestamp))).bind fun n =>
        some ⟨nodeId, model, prompt, stream, nonce, n, sig⟩ := rfl
  have hversion : ((get? (requestEnvelope nodeId model prompt stream nonce
      (env.times.toJson timestamp) sig) "v").any equalsOne) = true := rfl
  simp only [readRequest, requestFields, Payload.text, decode_encode hbs, hloads, hversion, if_true, bind,
    Except.bind, hclaimed, htime.number, Option.bind_some]

/-- An envelope with the right signature passes, whoever made it. -/
theorem verifyRequest_envelope (htime : env.times.Sent) (htoken : token ≠ [])
    (hnode : Scalar nodeId) (hmodel : Scalar model) (hprompt : Scalar prompt) (hnonce : Scalar nonce)
    (hdigest : bodyDigest env model prompt stream = some digest)
    (hsig : signature env token nodeId nonce timestamp digest = some sig)
    (hfresh : env.times.stale now timestamp = false)
    (hbs : encode (write .dumps (.obj (requestEnvelope nodeId model prompt stream nonce
      (env.times.toJson timestamp) sig))) = some bs) :
    readRequest env.repr (.bytes bs) =
        .ok ⟨nodeId, model, prompt, stream, nonce, env.times.toJson timestamp, sig⟩ ∧
      verifyRequest env (.bytes bs) nodeId (some token) none now =
        (.ok ⟨nodeId, model, prompt, stream⟩, none) := by
  obtain ⟨key, m, hkey, hm, rfl⟩ := signature_eq_some.mp hsig
  have hread := readRequest_envelope htime hnode hmodel hprompt hnonce
    (hexText_scalar (env.hmacSha256 key m)) hbs
  have hascii : ((hexText (env.hmacSha256 key m)).any fun c => decide (0x80 ≤ c.val)) = false := by
    rw [List.any_eq_false]
    intro c hc
    have hlt := (hexText_plain _ c hc).1
    simp only [decide_eq_true_eq]
    omega
  have hcheck : checkRequest env ⟨nodeId, model, prompt, stream, nonce, env.times.toJson timestamp,
      hexText (env.hmacSha256 key m)⟩ nodeId token now = .ok timestamp := by
    rw [checkRequest, if_neg (not_not.mpr rfl)]
    simp only [htime.back, hfresh, hdigest, Option.bind_some, hsig, hascii]
    rfl
  refine ⟨hread, ?_⟩
  obtain ⟨c, cs, rfl⟩ := List.exists_cons_of_ne_nil htoken
  rw [verifyRequest, hread]
  simp only [hcheck, claimNonce]

/-- What can be signed can be encoded. -/
theorem scalar_of_signature (hdigest : bodyDigest env model prompt stream = some digest)
    (hsig : signature env token nodeId nonce timestamp digest = some sig) :
    Scalar nodeId ∧ Scalar nonce ∧ Scalar model ∧ Scalar prompt := by
  obtain ⟨bs, hbs, _⟩ := Option.map_eq_some_iff.mp hdigest
  obtain ⟨key, m, _, hm, _⟩ := signature_eq_some.mp hsig
  obtain ⟨hmodel, hprompt⟩ := scalar_append.mp (scalar_append.mp (encode_some.mp hbs).1).1
  have hhead := (scalar_append.mp (scalar_append.mp (encode_some.mp hm).1).1).1
  obtain ⟨hnode, hnonce⟩ := scalar_append.mp hhead
  exact ⟨hnode, (scalar_cons.mp hnonce).2, hmodel, (scalar_cons.mp hprompt).2⟩

/-- A node accepts what `encode_request` makes for it while it is fresh. -/
theorem verify_encodeRequest (htime : env.times.Sent) (htoken : token ≠ [])
    (h : encodeRequest env nodeId model prompt stream token timestamp nonce = some bs)
    (hfresh : env.times.stale now timestamp = false) :
    verifyRequest env (.bytes bs) nodeId (some token) none now =
      (.ok ⟨nodeId, model, prompt, stream⟩, none) := by
  simp only [encodeRequest, buildRequest, bind, Option.bind_eq_some_iff, pure,
    Option.some.injEq] at h
  obtain ⟨_, ⟨digest, hdigest, sig, hsig, rfl⟩, t, ht, hbs⟩ := h
  obtain ⟨hnode, hnonce, hmodel, hprompt⟩ := scalar_of_signature hdigest hsig
  unfold dumps at ht
  split at ht
  · cases ht
    exact (verifyRequest_envelope htime htoken hnode hmodel hprompt hnonce hdigest hsig hfresh hbs).2
  · cases ht

theorem checkRequest_ok (h : checkRequest env claimed nodeId token now = .ok timestamp) :
    claimed.nodeId = nodeId ∧ env.times.ofJson claimed.timestamp = some timestamp ∧
      env.times.stale now timestamp = false ∧
      ∃ digest, bodyDigest env claimed.model claimed.prompt claimed.stream = some digest ∧
        signature env token nodeId claimed.nonce timestamp digest = some claimed.signature := by
  unfold checkRequest at h
  split at h
  · cases h
  · rename_i hid
    split at h
    · cases h
    · rename_i sent hsent
      split at h
      · cases h
      · rename_i hfresh
        split at h
        · cases h
        · rename_i expected hsig
          split at h
          · cases h
          · split at h
            · rename_i heq
              cases h
              obtain ⟨digest, hd, hs⟩ := Option.bind_eq_some_iff.mp hsig
              exact ⟨not_not.mp hid, hsent, Bool.eq_false_iff.mpr hfresh, digest, hd, heq ▸ hs⟩
            · cases h

/-- The ways through `verify_request`. No check touches the cache, and the claim comes after
them all. -/
theorem verifyRequest_cases (env : Signing τ) (payload : Payload) (nodeId : Text)
    (token : Option Text) (cache : Option (NonceCache τ)) (now : τ) :
    (∃ e, verifyRequest env payload nodeId token cache now = (.error e, cache)) ∨
      ∃ t claimed timestamp, token = some t ∧ t ≠ [] ∧ readRequest env.repr payload = .ok claimed ∧
        checkRequest env claimed nodeId t now = .ok timestamp ∧
        verifyRequest env payload nodeId token cache now =
          ((claimNonce env cache claimed.nonce timestamp).1.map fun _ =>
            ⟨nodeId, claimed.model, claimed.prompt, claimed.stream⟩,
          (claimNonce env cache claimed.nonce timestamp).2) := by
  unfold verifyRequest
  split
  · exact .inl ⟨_, rfl⟩
  · exact .inl ⟨_, rfl⟩
  · rename_i c cs
    cases hread : readRequest env.repr payload with
    | error e => exact .inl ⟨e, rfl⟩
    | ok claimed =>
      cases hcheck : checkRequest env claimed nodeId (c :: cs) now with
      | error e =>
        simp only [hcheck]
        exact .inl ⟨e, rfl⟩
      | ok timestamp =>
        refine .inr ⟨c :: cs, claimed, timestamp, rfl, List.cons_ne_nil _ _, rfl, hcheck, ?_⟩
        simp only [hcheck]
        rcases claimNonce env cache claimed.nonce timestamp with ⟨_ | _, after⟩ <;> rfl

theorem verifyRequest_ok
    (h : verifyRequest env payload nodeId token cache now = (.ok request, after)) :
    ∃ t claimed timestamp, token = some t ∧ t ≠ [] ∧ readRequest env.repr payload = .ok claimed ∧
      checkRequest env claimed nodeId t now = .ok timestamp ∧
      claimNonce env cache claimed.nonce timestamp = (.ok (), after) ∧
      request = ⟨nodeId, claimed.model, claimed.prompt, claimed.stream⟩ := by
  obtain ⟨e, he⟩ | ⟨t, claimed, timestamp, htoken, hne, hread, hcheck, hclaim⟩ :=
    verifyRequest_cases env payload nodeId token cache now
  · cases he.symm.trans h
  · refine ⟨t, claimed, timestamp, htoken, hne, hread, hcheck, ?_⟩
    rw [hclaim] at h
    generalize claimNonce env cache claimed.nonce timestamp = result at h
    obtain ⟨_ | _, left⟩ := result
    · cases h
    · cases h
      exact ⟨rfl, rfl⟩

/-- A claim that fails leaves the cache as it was. -/
theorem claim_failed {c : NonceCache τ} (h : c.claim before nonce t = (new, after))
    (hnew : new ≠ some true) : after = c := by
  unfold NonceCache.claim at h
  split at h
  · cases h
    rfl
  · split at h
    · cases h
      exact absurd rfl hnew
    · split at h
      · cases h
        rfl
      · cases h
        exact absurd rfl hnew

theorem claimNonce_refused (h : claimNonce env cache nonce t = (.error e, after)) :
    after = cache := by
  unfold claimNonce at h
  split at h
  · cases h
  · split at h
    · rename_i hclaim
      cases h
      exact congrArg some (claim_failed hclaim nofun)
    · rename_i hclaim
      cases h
      exact congrArg some (claim_failed hclaim (by decide))
    · cases h

/-- Nothing that is refused has changed the cache. -/
theorem verifyRequest_refused
    (h : verifyRequest env payload nodeId token cache now = (.error e, after)) : after = cache := by
  obtain ⟨e', he⟩ | ⟨_, claimed, timestamp, _, _, _, _, hclaim⟩ :=
    verifyRequest_cases env payload nodeId token cache now
  · cases he.symm.trans h
    rfl
  · rw [hclaim] at h
    cases hresult : claimNonce env cache claimed.nonce timestamp with
    | mk outcome left =>
      rw [hresult] at h
      cases outcome with
      | error e =>
        cases h
        exact claimNonce_refused hresult
      | ok _ => cases h

/-- A cache that is passed in is there afterwards, with the capacity it had. -/
theorem claim_capacity (before : τ → τ → Bool) (c : NonceCache τ) (nonce : Text) (t : τ) :
    (c.claim before nonce t).2.capacity = c.capacity := by
  unfold NonceCache.claim
  split
  · rfl
  · split
    · rfl
    · split <;> rfl

theorem claimNonce_some (env : Signing τ) (c : NonceCache τ) (nonce : Text) (t : τ) :
    (claimNonce env (some c) nonce t).2 = some (c.claim env.times.before nonce t).2 := by
  unfold claimNonce
  dsimp only
  rcases c.claim env.times.before nonce t with ⟨_ | _ | _, after⟩ <;> rfl

theorem verifyRequest_cache (env : Signing τ) (payload : Payload) (nodeId : Text)
    (token : Option Text) (c : NonceCache τ) (now : τ) :
    ∃ after, (verifyRequest env payload nodeId token (some c) now).2 = some after ∧
      after.capacity = c.capacity := by
  obtain ⟨_, he⟩ | ⟨_, claimed, timestamp, _, _, _, _, hclaim⟩ :=
    verifyRequest_cases env payload nodeId token (some c) now
  · exact ⟨c, congrArg Prod.snd he, rfl⟩
  · rw [hclaim]
    exact ⟨_, claimNonce_some env c claimed.nonce timestamp, claim_capacity _ _ _ _⟩

theorem verifyRequest_isSome (env : Signing τ) (payload : Payload) (nodeId : Text)
    (token : Option Text) (c : NonceCache τ) (now : τ) :
    (verifyRequest env payload nodeId token (some c) now).2.isSome = true := by
  obtain ⟨after, hafter, _⟩ := verifyRequest_cache env payload nodeId token c now
  rw [hafter]
  rfl

theorem verifyRequest_capacity (env : Signing τ) (payload : Payload) (nodeId : Text)
    (token : Option Text) (c : NonceCache τ) (now : τ) :
    ((verifyRequest env payload nodeId token (some c) now).2.get
      (verifyRequest_isSome env payload nodeId token c now)).capacity = c.capacity := by
  obtain ⟨after, hafter, hcapacity⟩ := verifyRequest_cache env payload nodeId token c now
  simp only [hafter, Option.get_some, hcapacity]

end

/-- `verify_request` with the cache `c`. -/
def NonceCache.verifyRequest (env : Signing τ) (c : NonceCache τ) (payload : Payload)
    (nodeId : Text) (token : Option Text) (now : τ) :
    Except Refusal MeshInferenceRequest × { after : NonceCache τ // after.capacity = c.capacity } :=
  ((Mesh.verifyRequest env payload nodeId token (some c) now).1,
    ⟨(Mesh.verifyRequest env payload nodeId token (some c) now).2.get
      (verifyRequest_isSome env payload nodeId token c now),
    verifyRequest_capacity env payload nodeId token c now⟩)

theorem NonceCache.verifyRequest_eq (env : Signing τ) (c : NonceCache τ) (payload : Payload)
    (nodeId : Text) (token : Option Text) (now : τ) :
    Mesh.verifyRequest env payload nodeId token (some c) now =
      ((c.verifyRequest env payload nodeId token now).1,
        some (c.verifyRequest env payload nodeId token now).2.1) :=
  Prod.ext rfl (Option.some_get _).symm

end PublicIntelligence.Mesh
