import Mathlib.Algebra.Order.Archimedean.Basic
import Mathlib.Data.Rat.Floor
import PublicIntelligence.Lib.JsonRead
import PublicIntelligence.Scheduler.NodeApi

namespace PublicIntelligence.Scheduler

open Text Json

/-- A token as it is signed: the key, the `kid` of its header, and its claims. -/
structure Signature (κ : Type) where
  key : κ
  kid : Text
  subject : Text
  tenantId : Text
  issuedAt : ℤ
  expiresAt : ℤ

def Signature.claims (s : Signature κ) : Fields :=
  [(text "sub", .str s.subject), (text "tenant_id", .str s.tenantId), (text "iat", .int s.issuedAt),
    (text "exp", .int s.expiresAt)]

/-- PyJWT with RS256 on the private keys `κ`: the PEM of a key's public half, `jwt.encode`, the `kid` that
`jwt.get_unverified_header` finds, and `jwt.decode`, which may depend on the signatures that were made. `none` is
a `PyJWTError`. -/
structure Jwt (κ : Type) where
  publicPem : κ → Text
  encode : Signature κ → Text
  unverifiedKid : Text → Option (Option Text)
  decode : (made : List (Signature κ)) → (now : ℚ) → (token key : Text) → Option Fields

/-- A signature is good from when it was made until it expires. -/
def Signature.Live (s : Signature κ) (now : ℚ) : Prop := s.issuedAt ≤ now ∧ now < s.expiresAt

instance (s : Signature κ) (now : ℚ) : Decidable (s.Live now) := inferInstanceAs (Decidable (_ ∧ _))

/-- What PyJWT promises: it takes the tokens that were signed while they are good, and nothing else; a token is one
word and shows its claims. -/
structure Jwt.Ideal (jwt : Jwt κ) : Prop where
  authentic : ∀ made now token key claims, jwt.decode made now token key = some claims →
    ∃ s ∈ made, jwt.encode s = token ∧ jwt.publicPem s.key = key ∧ s.claims = claims ∧ s.Live now
  accepts : ∀ made now, ∀ s ∈ made, s.Live now →
    jwt.decode made now (jwt.encode s) (jwt.publicPem s.key) = some s.claims
  oneWord : ∀ s, ofChar ' ' ∉ jwt.encode s
  shows : ∀ s s', jwt.encode s = jwt.encode s' → s.claims = s'.claims

def kidPrimary : Text := text "primary"

def kidSecondary : Text := text "secondary"

/-- The settings that the gateway and `POST /v1/credentials` read, and the private keys on the operator's disk. -/
structure Deployment (κ : Type) where
  jwtPublicKey : Option Text
  jwtPublicKeySecondary : Option Text
  jwtPrivateKeyPath : Option Text
  jwtPrivateKeyPathSecondary : Option Text
  credentialMaxTtlHours : ℤ
  load : Text → Option κ

namespace Deployment

/-- `_verification_keys`. An empty key counts as none. -/
def verificationKeys (d : Deployment κ) : List (Text × Text) :=
  ((given d.jwtPublicKey).toList.map fun key => (kidPrimary, key)) ++
    (given d.jwtPublicKeySecondary).toList.map fun key => (kidSecondary, key)

def unconfigured (kid : Text) : HttpError :=
  ⟨503, text "No signing key configured for kid '" ++ kid ++
    text "'. Set SCHEDULER_JWT_PRIVATE_KEY_PATH (and _SECONDARY for rotation). Generate one with: scripts/mint_token.py --generate-keypair"⟩

/-- `_signing_key` -/
def signingKey (d : Deployment κ) (kid : Text) : Except HttpError κ :=
  match given (if kid = kidPrimary then d.jwtPrivateKeyPath else d.jwtPrivateKeyPathSecondary) with
  | none => .error (unconfigured kid)
  | some path =>
    match d.load path with
    | none => .error ⟨503, text "Signing key for kid '" ++ kid ++ text "' could not be loaded."⟩
    | some key => .ok key

end Deployment

section
variable (jwt : Jwt κ) (made : List (Signature κ)) (now : ℚ)

/-- The candidates in the order they are tried: `sort` is stable, so that the named one comes first and the
others stay as they are. -/
def orderedKeys (named : Option Text) (candidates : List (Text × Text)) : List (Text × Text) :=
  match named with
  | none => candidates
  | some kid =>
    if kid ∈ candidates.map Prod.fst then
      candidates.filter (fun e => e.1 = kid) ++ candidates.filter fun e => e.1 ≠ kid
    else candidates

/-- `_decode_with_any` -/
def decodeWithAny (token : Text) (candidates : List (Text × Text)) : Option Fields :=
  (orderedKeys (jwt.unverifiedKid token).join candidates).findSome? fun e => jwt.decode made now token e.2

def unauthorized (detail : String) : HttpError := ⟨401, text detail⟩

/-- `verify_jwt` -/
def verifyJwt (d : Deployment κ) (authorization : Option Text) : Except HttpError Fields :=
  match authorization with
  | none => .error (unauthorized "Missing Authorization header. Must be Bearer <JWT>.")
  | some header =>
    if startswith header (text "Bearer ") then
      let token := ((split header (ofChar ' '))[1]?).getD []
      if d.verificationKeys = [] then
        .error (unauthorized "Gateway has no JWT verification key configured; refusing all requests.")
      else
        match decodeWithAny jwt made now token d.verificationKeys with
        | none => .error (unauthorized "JWT signature verification failed.")
        | some payload =>
          if (get? payload "tenant_id").isSome then .ok payload
          else .error (unauthorized "Invalid claims: Missing 'tenant_id' in token payload.")
    else .error (unauthorized "Invalid Authorization header format. Must be Bearer <JWT>.")

end

/-- `CredentialRequest`, as far as pydantic lets it through. -/
structure CredentialRequest where
  tenantId : Text
  subject : Text
  ttlHours : ℤ
  kid : Text
  tenantLength : 1 ≤ tenantId.length ∧ tenantId.length ≤ 128
  subjectLength : 1 ≤ subject.length ∧ subject.length ≤ 128
  positive : 1 ≤ ttlHours

/-- What is signed at a time for some hours. PyJWT writes times as whole seconds. -/
def signatureFor (key : κ) (kid subject tenantId : Text) (now : ℚ) (hours : ℤ) : Signature κ :=
  ⟨key, kid, subject, tenantId, ⌊now⌋, ⌊now + 3600 * hours⌋⟩

/-- `issue_credential`, as far as what it signs. -/
def issueCredential (d : Deployment κ) (now : ℚ) (payload : CredentialRequest) : Except HttpError (Signature κ) :=
  if payload.kid ≠ kidPrimary ∧ payload.kid ≠ kidSecondary then
    .error ⟨422, text "Unknown kid '" ++ payload.kid ++ text "'."⟩
  else do
    let key ← d.signingKey payload.kid
    return signatureFor key payload.kid payload.subject payload.tenantId now
      (min payload.ttlHours d.credentialMaxTtlHours)

section
variable {jwt : Jwt κ} {made : List (Signature κ)} {now : ℚ}

theorem mem_orderedKeys (named : Option Text) (candidates : List (Text × Text)) :
    e ∈ orderedKeys named candidates ↔ e ∈ candidates := by
  unfold orderedKeys
  split
  · exact Iff.rfl
  · split
    · simp only [List.mem_append, List.mem_filter, decide_eq_true_eq]
      constructor
      · rintro (⟨he, _⟩ | ⟨he, _⟩) <;> exact he
      · intro he
        rcases eq_or_ne e.1 _ with h | h
        · exact .inl ⟨he, h⟩
        · exact .inr ⟨he, h⟩
    · exact Iff.rfl

/-- The hint decides nothing: a token is good under some key or it is refused. -/
theorem decodeWithAny_eq_some (hideal : jwt.Ideal) {candidates : List (Text × Text)} :
    decodeWithAny jwt made now token candidates = some claims ↔
      ∃ s ∈ made, jwt.encode s = token ∧ jwt.publicPem s.key ∈ candidates.map Prod.snd ∧ s.claims = claims ∧
        s.Live now := by
  unfold decodeWithAny
  constructor
  · intro h
    obtain ⟨e, he, hdecode⟩ := List.exists_of_findSome?_eq_some h
    obtain ⟨s, hs, htoken, hkey, hclaims, hlive⟩ := hideal.authentic _ _ _ _ _ hdecode
    exact ⟨s, hs, htoken, hkey ▸ List.mem_map_of_mem ((mem_orderedKeys _ _).mp he), hclaims, hlive⟩
  · rintro ⟨s, hs, rfl, hkey, rfl, hlive⟩
    obtain ⟨e, he, hpem⟩ := List.mem_map.mp hkey
    have hgood : jwt.decode made now (jwt.encode s) e.2 = some s.claims := hpem ▸ hideal.accepts _ _ s hs hlive
    have hsome : ((orderedKeys (jwt.unverifiedKid (jwt.encode s)).join candidates).findSome? fun e =>
        jwt.decode made now (jwt.encode s) e.2).isSome = true :=
      List.findSome?_isSome_iff.mpr ⟨e, (mem_orderedKeys _ _).mpr he, by rw [hgood]; rfl⟩
    obtain ⟨claims, hfound⟩ := Option.isSome_iff_exists.mp hsome
    obtain ⟨e', _, hdecode⟩ := List.exists_of_findSome?_eq_some hfound
    obtain ⟨s', _, htoken, _, hclaims, _⟩ := hideal.authentic _ _ _ _ _ hdecode
    rw [hfound, ← hclaims, hideal.shows s' s htoken]

theorem claims_tenant (s : Signature κ) : get? s.claims "tenant_id" = some (.str s.tenantId) := rfl

/-- The token of a bearer header. -/
theorem split_bearer (h : ofChar ' ' ∉ token) :
    startswith (text "Bearer " ++ token) (text "Bearer ") = true ∧
      ((split (text "Bearer " ++ token) (ofChar ' '))[1]?).getD [] = token := by
  have hlabel : text "Bearer " ++ token = text "Bearer" ++ ofChar ' ' :: token := by
    have hspace : text "Bearer " = text "Bearer" ++ [ofChar ' '] := by decide
    rw [hspace, List.append_assoc, List.singleton_append]
  refine ⟨List.isPrefixOf_iff_prefix.mpr (List.prefix_append _ _), ?_⟩
  rw [hlabel, split_append (by decide), split_of_not_mem h]
  rfl

/-- The gateway takes exactly the tokens that were signed with a key whose public half it has, while they are good. -/
theorem verifyJwt_eq_ok (hideal : jwt.Ideal) {d : Deployment κ} :
    verifyJwt jwt made now d authorization = .ok payload ↔
      ∃ header s, authorization = some header ∧ startswith header (text "Bearer ") = true ∧ s ∈ made ∧
        jwt.encode s = ((split header (ofChar ' '))[1]?).getD [] ∧
        jwt.publicPem s.key ∈ d.verificationKeys.map Prod.snd ∧ s.claims = payload ∧ s.Live now := by
  cases authorization with
  | none => exact iff_of_false nofun (by rintro ⟨header, s, h, _⟩; cases h)
  | some header =>
    unfold verifyJwt
    dsimp only
    split
    · rename_i hstart
      constructor
      · intro h
        split at h
        · cases h
        · split at h
          · cases h
          · rename_i claims hdecode
            split at h
            · cases h
              obtain ⟨s, hs, htoken, hkey, hclaims, hlive⟩ := (decodeWithAny_eq_some hideal).mp hdecode
              exact ⟨header, s, rfl, hstart, hs, htoken, hkey, hclaims, hlive⟩
            · cases h
      · rintro ⟨header', s, hheader, _, hs, htoken, hkey, rfl, hlive⟩
        cases hheader
        have hne : d.verificationKeys ≠ [] := by
          intro hnone
          rw [hnone] at hkey
          exact List.not_mem_nil hkey
        rw [if_neg hne, (decodeWithAny_eq_some hideal).mpr ⟨s, hs, htoken, hkey, rfl, hlive⟩]
        dsimp only
        rw [claims_tenant]
        rfl
    · rename_i hstart
      refine iff_of_false nofun ?_
      rintro ⟨header', s, hheader, hstart', _⟩
      cases hheader
      exact hstart hstart'

/-- A credential is issued with a key of the deployment's, for as long as was asked at most. -/
theorem issueCredential_ok {d : Deployment κ} (h : issueCredential d now payload = .ok s) :
    d.signingKey payload.kid = .ok s.key ∧ s.tenantId = payload.tenantId ∧ s.issuedAt = ⌊now⌋ ∧
      s.expiresAt ≤ ⌊now + 3600 * d.credentialMaxTtlHours⌋ := by
  unfold issueCredential at h
  split at h
  · cases h
  · cases hkey : d.signingKey payload.kid with
    | error e =>
      rw [hkey] at h
      cases h
    | ok key =>
      rw [hkey] at h
      cases h
      have hmin : ((min payload.ttlHours d.credentialMaxTtlHours : ℤ) : ℚ) ≤ d.credentialMaxTtlHours :=
        Int.cast_le.mpr (min_le_right _ _)
      exact ⟨rfl, rfl, rfl, Int.floor_le_floor (by linarith)⟩

end
end PublicIntelligence.Scheduler
