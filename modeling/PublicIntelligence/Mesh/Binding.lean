import PublicIntelligence.Mesh.Request

namespace PublicIntelligence.Mesh.SignedRequest

open Text Encoding Json

section
variable (env : Signing τ) (r : SignedRequest τ)

/-- A signature made with the token was made for this request: nothing else was signed. -/
def Unforged (sig : Text) : Prop :=
  ∀ key m, encode r.token = some key → sig = hexText (env.hmacSha256 key m) → r.message env = some m

/-- Whatever the node accepts under the token is the request that was signed. -/
def Binds : Prop :=
  ∀ payload claimed cache now request after, readRequest env.repr payload = .ok claimed →
    r.Unforged env claimed.signature →
    verifyRequest env payload r.nodeId (some r.token) cache now = (.ok request, after) →
      request.model = r.model ∧ request.prompt = r.prompt ∧ request.stream = r.stream ∧
        claimed.nonce = r.nonce

/-- No NUL in the two fields that a NUL separates. -/
def Separable : Prop := nul ∉ r.model ∧ nul ∉ r.prompt

instance : Decidable r.Separable := inferInstanceAs (Decidable (nul ∉ r.model ∧ nul ∉ r.prompt))

/-- No verifier would take the request at any time: its token counts as missing, or every
timestamp that prints as its own is outside the window. -/
def Unanswerable : Prop :=
  r.token = [] ∨ ∀ now t, env.times.canonical t = env.times.canonical r.timestamp →
    env.times.stale now t = true

end

section
variable {env : Signing τ} {r : SignedRequest τ}

/-- What the signature does bind: the nonce, the flag, and model and prompt as one text. -/
theorem accepted_agrees (hsha : Function.Injective env.sha256)
    (hline : ∀ t, newline ∉ env.times.canonical t)
    (hread : readRequest env.repr payload = .ok claimed) (hun : r.Unforged env claimed.signature)
    (h : verifyRequest env payload r.nodeId (some r.token) cache now = (.ok request, after)) :
    request = ⟨r.nodeId, claimed.model, claimed.prompt, claimed.stream⟩ ∧
      r.model ++ nul :: r.prompt = claimed.model ++ nul :: claimed.prompt ∧
      r.stream = claimed.stream ∧ r.nonce = claimed.nonce ∧ r.token ≠ [] ∧
      ∃ t, env.times.canonical t = env.times.canonical r.timestamp ∧ env.times.stale now t = false := by
  obtain ⟨token, claimed', t, htoken, hne, hread', hcheck, _, hreq⟩ := verifyRequest_ok h
  cases htoken
  cases hread.symm.trans hread'
  obtain ⟨_, _, hfresh, digest, hdigest, hsig⟩ := checkRequest_ok hcheck
  simp only [signature, bind, Option.bind_eq_some_iff, pure, Option.some.injEq] at hsig
  obtain ⟨key, hkey, m, hm, hsig⟩ := hsig
  obtain ⟨digest', hdigest', hm'⟩ := Option.bind_eq_some_iff.mp (hun key m hkey hsig.symm)
  obtain ⟨hnonce, hstamp, rfl⟩ := signedText_inj (encode_injective hm' hm) (hline _) (hline _)
    (bodyDigest_plain hdigest') (bodyDigest_plain hdigest)
  obtain ⟨hbody, hstream⟩ := bodyMaterial_inj (bodyDigest_inj hsha hdigest' hdigest)
  exact ⟨hreq, hbody, hstream, hnonce, hne, t, hstamp.symm, hfresh⟩

theorem binds_of_separable (hsha : Function.Injective env.sha256)
    (hline : ∀ t, newline ∉ env.times.canonical t) (hr : r.Separable) : r.Binds env := by
  intro payload claimed cache now request after hread hun h
  obtain ⟨rfl, hbody, hstream, hnonce, _⟩ := accepted_agrees hsha hline hread hun h
  obtain ⟨hmodel, hprompt⟩ := Words.cut_only hbody hr.1 hr.2
  exact ⟨hmodel.symm, hprompt.symm, hstream.symm, hnonce.symm⟩

theorem binds_of_unanswerable (hsha : Function.Injective env.sha256)
    (hline : ∀ t, newline ∉ env.times.canonical t) (hr : r.Unanswerable env) : r.Binds env := by
  intro payload claimed cache now request after hread hun h
  obtain ⟨_, _, _, _, hne, t, ht, hfresh⟩ := accepted_agrees hsha hline hread hun h
  obtain hempty | hstale := hr
  · exact absurd hempty hne
  · rw [hstale now t ht] at hfresh
    cases hfresh

/-- The signature of a request serves every model and prompt that join to the same text. -/
theorem resplit_accepted (htime : env.times.Sent) (htoken : r.token ≠ [])
    (hsig : r.proof env = some sig)
    (hstamp : env.times.canonical t = env.times.canonical r.timestamp)
    (hfresh : env.times.stale now t = false)
    (hbody : m ++ nul :: p = r.model ++ nul :: r.prompt) :
    ∃ payload claimed, readRequest env.repr payload = .ok claimed ∧ claimed.signature = sig ∧
      verifyRequest env payload r.nodeId (some r.token) none now =
        (.ok ⟨r.nodeId, m, p, r.stream⟩, none) := by
  obtain ⟨digest, hdigest, hsigned⟩ := Option.bind_eq_some_iff.mp hsig
  have hdigest' : bodyDigest env m p r.stream = some digest := by
    rw [bodyDigest, bodyMaterial, hbody]
    exact hdigest
  have hsigned' : signature env r.token r.nodeId r.nonce t digest = some sig := by
    rw [signature, signedMessage, hstamp]
    exact hsigned
  obtain ⟨hnode, hnonce, hmodel, hprompt⟩ := scalar_of_signature hdigest' hsigned'
  obtain ⟨hread, hverify⟩ := verifyRequest_envelope htime htoken hnode hmodel hprompt hnonce hdigest'
    hsigned' hfresh (encode_some.mpr ⟨scalar_write .dumps _ (.inl rfl), rfl⟩)
  exact ⟨_, _, hread, rfl, hverify⟩

theorem not_binds (htime : env.times.Sent) (hsig : r.proof env = some sig) (hun : r.Unforged env sig)
    (hr : ¬ r.Separable) (ha : ¬ r.Unanswerable env) : ¬ r.Binds env := by
  intro hbinds
  simp only [Unanswerable, not_or, not_forall, Bool.not_eq_true] at ha
  obtain ⟨htoken, now, t, hstamp, hfresh⟩ := ha
  have hnul : nul ∈ r.model ∨ nul ∈ r.prompt := by
    by_contra h
    exact hr (not_or.mp h)
  obtain ⟨m, p, hbody, hne⟩ := Words.cut_elsewhere hnul
  obtain ⟨payload, claimed, hread, rfl, hverify⟩ :=
    resplit_accepted htime htoken hsig hstamp hfresh hbody
  obtain ⟨hmodel, hprompt, _⟩ := hbinds payload claimed none now _ none hread hun hverify
  exact hne ⟨hmodel, hprompt⟩

end

/-- Timestamps in whole seconds of 32 bits. -/
def wholeSeconds : Times (Fin 4294967296) where
  ofJson
    | .int n => if h : 0 ≤ n ∧ n < 4294967296 then some ⟨n.toNat, by omega⟩ else none
    | _ => none
  toJson t := .int t.val
  canonical t := natText t.val ++ text ".000000"
  stale now t := t.val + 30 < now.val || now.val + 30 < t.val
  before s t := s < t

theorem wholeSeconds_line (t : Fin 4294967296) : newline ∉ wholeSeconds.canonical t := by
  intro h
  obtain h | h := List.mem_append.mp h
  · exact absurd (natText_digits _ _ h) (by decide)
  · exact absurd h (by decide +kernel)

theorem wholeSeconds_sent : wholeSeconds.Sent where
  number _ := rfl
  readable t := by
    have hlen : (Nat.digits 10 t.val).length ≤ 10 :=
      (Nat.digits_length_le_iff (by omega) _).mpr (t.isLt.trans (by omega))
    change (natText t.val).length ≤ maxDigits
    unfold natText maxDigits
    split
    · exact Nat.succ_le_succ (Nat.zero_le _)
    · rw [List.length_map, List.length_reverse]
      omega
  back t := by
    have ht := t.isLt
    simp [wholeSeconds, ht]

/-- A prompt with a NUL in it, as a JSON string may have. -/
def nulRequest : SignedRequest (Fin 4294967296) where
  token := text "secret"
  nodeId := text "n1"
  model := text "a"
  prompt := text "b\x00c"
  stream := false
  nonce := text "00112233445566778899aabbccddeeff"
  timestamp := 1767225600

def nulDigest : Bytes :=
  [74, 66, 217, 224, 98, 238, 179, 128, 0, 113, 91, 47, 13, 84, 111, 180, 22, 66, 93, 163, 198,
    248, 95, 83, 79, 211, 176, 158, 195, 21, 158, 200]

def nulMac : Bytes :=
  [210, 74, 82, 156, 145, 46, 4, 167, 153, 10, 119, 155, 217, 144, 180, 128, 108, 122, 155, 22,
    63, 177, 147, 166, 145, 190, 227, 153, 231, 143, 163, 34]

def nulMaterial : Bytes := (encode (text "a\x00b\x00c\x000")).getD []

def nulMessage : Bytes :=
  (encode (text "n1\n00112233445566778899aabbccddeeff\n1767225600.000000\n" ++
    text "4a42d9e062eeb38000715b2f0d546fb416425da3c6f85f534fd3b09ec3159ec8")).getD []

/-- SHA-256 and HMAC-SHA-256 on what `nulRequest` digests and signs. -/
def nulSigning : Signing (Fin 4294967296) where
  sha256 := known [(nulMaterial, nulDigest)]
  hmacSha256 _ := known [(nulMessage, nulMac)]
  times := wholeSeconds
  repr _ := []

theorem nulSigning_sha256_injective : Function.Injective nulSigning.sha256 :=
  known_injective (List.nodup_singleton _) (List.forall_mem_singleton.mpr rfl)

theorem nulRequest_message : nulRequest.message nulSigning = some nulMessage := by
  decide +kernel

theorem nulRequest_proof : nulRequest.proof nulSigning = some (hexText nulMac) := by
  decide +kernel

/-- Nothing but the request has its signature. -/
theorem nulRequest_unforged : nulRequest.Unforged nulSigning (hexText nulMac) := by
  intro key m _ h
  have hmac : known [(nulMessage, nulMac)] nulMessage = nulMac := by decide +kernel
  have hinj : Function.Injective (known [(nulMessage, nulMac)]) :=
    known_injective (List.nodup_singleton _) (List.forall_mem_singleton.mpr rfl)
  dsimp only [nulSigning] at h
  rw [nulRequest_message, hinj (hmac.trans (hexText_injective h))]

theorem nulRequest_not_separable : ¬ nulRequest.Separable := by
  decide +kernel

theorem nulRequest_answerable : ¬ nulRequest.Unanswerable nulSigning := by
  rintro (htoken | hstale)
  · exact absurd htoken (by decide)
  · exact absurd (hstale nulRequest.timestamp nulRequest.timestamp rfl) (by decide +kernel)

/-- The signature binds the request exactly if no NUL stands in the fields that a NUL
separates, or the request could not be accepted in any case. -/
theorem binds_iff {env : Signing τ} {r : SignedRequest τ} (hsha : Function.Injective env.sha256)
    (hline : ∀ t, newline ∉ env.times.canonical t) (htime : env.times.Sent)
    (hsig : r.proof env = some sig) (hun : r.Unforged env sig) :
    r.Binds env ↔ r.Separable ∨ r.Unanswerable env := by
  constructor
  · intro hbinds
    by_contra h
    obtain ⟨hr, ha⟩ := not_or.mp h
    exact not_binds htime hsig hun hr ha hbinds
  · rintro (hr | ha)
    · exact binds_of_separable hsha hline hr
    · exact binds_of_unanswerable hsha hline ha

theorem binds_iff_nul : nulRequest.Binds nulSigning ↔
    nulRequest.Separable ∨ nulRequest.Unanswerable nulSigning :=
  binds_iff nulSigning_sha256_injective wholeSeconds_line wholeSeconds_sent nulRequest_proof
    nulRequest_unforged

/-- A prompt with a NUL in it is re-split into another model and prompt under the same
signature. -/
theorem nul_resplit : ¬ ∀ (env : Signing (Fin 4294967296)) (r : SignedRequest (Fin 4294967296)) (sig : Text),
    Function.Injective env.sha256 → (∀ t, newline ∉ env.times.canonical t) → env.times.Sent →
      r.proof env = some sig → r.Unforged env sig → r.Binds env := by
  intro h
  exact not_binds wholeSeconds_sent nulRequest_proof nulRequest_unforged nulRequest_not_separable
    nulRequest_answerable (h nulSigning nulRequest _ nulSigning_sha256_injective wholeSeconds_line
      wholeSeconds_sent nulRequest_proof nulRequest_unforged)

end PublicIntelligence.Mesh.SignedRequest
