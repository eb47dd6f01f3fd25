import PublicIntelligence.Scheduler.ZenohRouter

namespace PublicIntelligence.System

open Text Encoding Json Mesh Scheduler ZenohRouter

namespace Envelopes

section
variable {crypto : Crypto}

theorem encode_scalar (h : Scalar t) : ∃ bs, encode t = some bs := ⟨_, encode_some.mpr ⟨h, rfl⟩⟩

/-- A key is derived from every token that can be encoded. -/
theorem deriveKey_scalar (crypto : Crypto) (h : Scalar token) (purpose : Purpose) :
    ∃ key, deriveKey crypto token purpose = some key := by
  have hcontext : ∀ p, (encode (context p)).isSome = true := by
    intro p
    cases p <;> decide +kernel
  obtain ⟨t, ht⟩ := encode_scalar h
  obtain ⟨b, hb⟩ := encode_scalar (scalar_text "|")
  obtain ⟨c, hc⟩ := Option.isSome_iff_exists.mp (hcontext purpose)
  exact ⟨_, deriveKey_eq_some.mpr ⟨t, b, c, ht, hb, hc, rfl⟩⟩

theorem associatedData_scalar (h : Scalar nodeId) (purpose : Purpose) :
    ∃ associated, associatedData nodeId purpose = some associated := by
  refine encode_scalar fun c hc => ?_
  have hcontext : Scalar (context purpose ++ text "|") := by cases purpose <;> decide +kernel
  rcases List.mem_append.mp hc with hc | hc
  · exact hcontext c hc
  · exact h c hc

/-- Every lossless payload is sealed for every id and token that can be encoded. -/
theorem seal_total (crypto : Crypto) (hnode : Scalar nodeId) (htoken : Scalar token) (hpayload : Lossless (.obj payload))
    (purpose : Purpose) (iv : Bytes) :
    ∃ raw plaintext, sealEnvelope crypto payload nodeId token purpose iv = some raw ∧
      (dumps (.obj payload)).bind encode = some plaintext ∧
      loadsBytes plaintext = .ok (.obj payload) := by
  have hdumps : dumps (.obj payload) = some (write .dumps (.obj payload)) :=
    if_pos (printable_of_lossless _ hpayload)
  obtain ⟨plaintext, hplain, _⟩ := dumps_encodes hdumps
  obtain ⟨key, hkey⟩ := deriveKey_scalar crypto htoken purpose
  obtain ⟨associated, had⟩ := associatedData_scalar hnode purpose
  have hbind : (dumps (.obj payload)).bind encode = some plaintext := by rw [hdumps, Option.bind_some, hplain]
  have hone : (natText 1).length ≤ maxDigits := by decide
  obtain ⟨raw, hraw⟩ : ∃ raw, sealEnvelope crypto payload nodeId token purpose iv = some raw := by
    simp only [sealEnvelope, Sealing.envelope, Sealing.encryption, hbind, hkey, had, bind, pure,
      Option.bind_some]
    exact ⟨_, if_pos (by simpa [printable, printableFields] using hone)⟩
  exact ⟨raw, plaintext, hraw, hbind, loadsBytes_dumps hpayload hdumps hplain⟩

/-- The text, or what was sealed in it, makes `json.loads` raise a `ValueError` that is no
`JSONDecodeError`. -/
def Undecodable (crypto : Crypto) (sealings : List Sealing) (raw nodeId token : Text) (purpose : Purpose) : Prop :=
  (∃ e, loads raw = .error e ∧ e ≠ .decode) ∨
    ∃ s ∈ sealings, s.token = token ∧ s.nodeId = nodeId ∧ s.purpose = purpose ∧ Carries crypto raw s ∧
      ∃ e, loadsBytes s.plaintext = .error e ∧ e ≠ .decode

theorem ofLoads_eq_value {e : LoadsError} : OpenError.ofLoads e = .value ↔ e ≠ .decode := by
  cases e <;> decide

theorem readEnvelope_eq_value : readEnvelope raw = .error .value ↔ ∃ e, loads raw = .error e ∧ e ≠ .decode := by
  unfold readEnvelope
  cases loads raw with
  | error e =>
    simp only [Except.error.injEq, ofLoads_eq_value]
    exact ⟨fun h => ⟨e, rfl, h⟩, fun ⟨_, he, h⟩ => he ▸ h⟩
  | ok j =>
    constructor
    · intro h
      cases j with
      | obj fields =>
        dsimp only at h
        split at h
        · split at h <;> cases h
        · cases h
      | _ => cases h
    · rintro ⟨e, he, _⟩
      cases he

/-- A `ValueError` passes from the text itself, or from a plaintext that has been verified. -/
theorem openEnvelope_raises : openEnvelope crypto made raw nodeId token purpose = .error .value ↔
    readEnvelope raw = .error .value ∨ ∃ envelope plaintext e, readEnvelope raw = .ok envelope ∧
      envelope.nodeId = some (.str nodeId) ∧
      decryptEnvelope crypto made envelope nodeId token purpose = some plaintext ∧
      loadsBytes plaintext = .error e ∧ e ≠ .decode := by
  unfold openEnvelope
  cases hread : readEnvelope raw with
  | error e =>
    simp only [bind, Except.bind]
    constructor
    · rintro ⟨⟩
      exact .inl rfl
    · rintro (⟨⟨⟩⟩ | ⟨_, _, _, h, _⟩)
      · rfl
      · cases h
  | ok envelope =>
    simp only [bind, Except.bind]
    constructor
    · intro h
      split at h
      · rename_i hid
        split at h
        · cases h
        · rename_i plaintext hdec
          split at h
          · rename_i e hload
            exact .inr ⟨envelope, plaintext, e, rfl, isStr_eq_true.mp hid, hdec, hload,
              ofLoads_eq_value.mp (Except.error.inj h)⟩
          · cases h
          · cases h
      · cases h
    · rintro (h | ⟨_, plaintext, e, hread', hid, hdec, hload, he⟩)
      · cases h
      · cases hread'
        rw [if_pos (isStr_eq_true.mpr hid), hdec]
        dsimp only
        rw [hload]
        exact congrArg Except.error (ofLoads_eq_value.mpr he)

theorem raises_iff_undecodable (hauth : crypto.aead.Authentic) (hfaith : crypto.aead.Faithful)
    (hsha : Function.Injective crypto.sha256) (sealings : List Sealing) (raw nodeId token : Text)
    (purpose : Purpose) :
    openEnvelope crypto (sealings.filterMap (Sealing.encryption crypto)) raw nodeId token purpose =
      .error .value ↔ Undecodable crypto sealings raw nodeId token purpose := by
  rw [openEnvelope_raises, readEnvelope_eq_value]
  constructor
  · rintro (h | ⟨envelope, plaintext, e, hread, hid, hdec, hload, he⟩)
    · exact .inl h
    · obtain ⟨s, hs, ht, hn, hp, hc, rfl⟩ := decrypted_sealed hauth hsha hread hid hdec
      exact .inr ⟨s, hs, ht, hn, hp, hc, e, hload, he⟩
  · rintro (h | ⟨s, hs, rfl, rfl, rfl, hc, e, hload, he⟩)
    · exact .inl h
    · obtain ⟨envelope, hread, hid, hdec⟩ := decrypt_carried hfaith hc fun e he =>
        List.mem_filterMap.mpr ⟨s, hs, he⟩
      exact .inr ⟨envelope, s.plaintext, e, hread, hid, hdec, hload, he⟩

/-- The router has an answer unless `open_envelope` raises for a node that it has a token of. -/
theorem openOrRaise_answers {env : RouterEnv} {r : ZenohRouter} :
    (∃ answer, r.openOrRaise env made raw nodeId purpose = .ok answer) ↔
      ∀ token, nodeId ∈ r.registry.nodes → given (r.registry.getNodeToken nodeId) = some token →
        openEnvelope env.crypto made raw nodeId token purpose ≠ .error .value := by
  unfold openOrRaise
  split
  · rename_i hn
    have hmem := NodeRegistry.exists?_eq_true.mp hn
    cases given (r.registry.getNodeToken nodeId) with
    | none => exact iff_of_true ⟨none, rfl⟩ fun _ _ h => by cases h
    | some token =>
      dsimp only
      cases hopen : openEnvelope env.crypto made raw nodeId token purpose with
      | ok data => exact iff_of_true ⟨some data, rfl⟩ fun _ _ h => by cases h; simp [hopen]
      | error e =>
        cases e with
        | auth => exact iff_of_true ⟨none, rfl⟩ fun _ _ h => by cases h; simp [hopen]
        | value =>
          refine iff_of_false ?_ fun h => h token hmem rfl hopen
          rintro ⟨_, h⟩
          cases h
  · rename_i hn
    exact iff_of_true ⟨none, rfl⟩ fun _ hmem => absurd (NodeRegistry.exists?_eq_true.mpr hmem) hn

/-- Sealing and opening are inverse on one id, token and purpose: the payload comes back, and under any
other id, token or purpose nothing is opened. -/
theorem opens_for_its_triple (hauth : crypto.aead.Authentic) (hfaith : crypto.aead.Faithful)
    (hsha : Function.Injective crypto.sha256) (hnode : Scalar nodeId) (htoken : Scalar token)
    (hpayload : Lossless (.obj payload)) (purpose : Purpose) (iv : Bytes) :
    ∃ raw plaintext, sealEnvelope crypto payload nodeId token purpose iv = some raw ∧
      (dumps (.obj payload)).bind encode = some plaintext ∧
      ∀ sealings : List Sealing, ⟨token, nodeId, purpose, iv, plaintext⟩ ∈ sealings →
        crypto.aead.Distinct (sealings.filterMap (Sealing.encryption crypto)) →
        ∀ n t p, openEnvelope crypto (sealings.filterMap (Sealing.encryption crypto)) raw n t p =
          if n = nodeId ∧ t = token ∧ p = purpose then .ok payload else .error .auth := by
  obtain ⟨raw, plaintext, hseal, hplain, hload⟩ := seal_total crypto hnode htoken hpayload purpose iv
  refine ⟨raw, plaintext, hseal, hplain, fun sealings hmem hdistinct n t p => ?_⟩
  have hmade : ∀ s ∈ sealings, ∀ e, s.encryption crypto = some e →
      e ∈ sealings.filterMap (Sealing.encryption crypto) :=
    fun s hs e he => List.mem_filterMap.mpr ⟨s, hs, he⟩
  simp only [sealEnvelope, hplain, bind, Option.bind_some] at hseal
  have hc := carries_envelope hseal
  split
  · rename_i htriple
    obtain ⟨rfl, rfl, rfl⟩ := htriple
    exact open_carried hfaith hc (hmade _ hmem) hload
  · rename_i hother
    obtain ⟨envelope, e, hread, hid, he, hiv, hct⟩ := hc
    simp only [openEnvelope, hread, bind, Except.bind]
    split
    · rename_i hsame
      -- What verifies was sealed under this triple, and the ciphertext tells that it is the other one.
      cases hdec : decryptEnvelope crypto (sealings.filterMap (Sealing.encryption crypto)) envelope n t p with
      | none => rfl
      | some found =>
        obtain ⟨s, hs, ht, hn, hp, ⟨envelope', e', hread', _, he', _, hct'⟩, _⟩ :=
          decrypted_sealed hauth hsha hread (isStr_eq_true.mp hsame) hdec
        obtain rfl := Except.ok.inj (hread.symm.trans hread')
        obtain rfl := hdistinct e (hmade _ hmem e he) e' (hmade s hs e' he')
          (Option.some.inj (hct.symm.trans hct'))
        obtain ⟨key, associated, hkey, had, rfl⟩ := encryption_eq_some.mp he
        obtain ⟨key', associated', hkey', had', heq⟩ := encryption_eq_some.mp he'
        obtain ⟨rfl, _, _, rfl⟩ := Encryption.mk.inj heq
        obtain ⟨rfl, rfl⟩ := deriveKey_injective hsha hkey hkey'
        obtain rfl := associatedData_injective had had'
        exact absurd ⟨hn.symm, ht.symm, hp.symm⟩ hother
    · rfl

/-- Opening an envelope returns a payload or raises `MeshAuthError`, and the router gets an answer, exactly
if neither the text nor what a token holder sealed in it is undecodable. -/
theorem one_failure_iff (hauth : crypto.aead.Authentic) (hfaith : crypto.aead.Faithful)
    (hsha : Function.Injective crypto.sha256) (sealings : List Sealing) (raw nodeId : Text)
    (purpose : Purpose) :
    (∀ token, ((∃ payload, openEnvelope crypto (sealings.filterMap (Sealing.encryption crypto)) raw nodeId
        token purpose = .ok payload) ∨
      openEnvelope crypto (sealings.filterMap (Sealing.encryption crypto)) raw nodeId token purpose =
        .error .auth) ↔ ¬ Undecodable crypto sealings raw nodeId token purpose) ∧
    ∀ (env : RouterEnv) (r : ZenohRouter), env.crypto = crypto →
      ((∃ answer, r.openOrRaise env (sealings.filterMap (Sealing.encryption crypto)) raw nodeId purpose =
        .ok answer) ↔
      ∀ token, nodeId ∈ r.registry.nodes → given (r.registry.getNodeToken nodeId) = some token →
        ¬ Undecodable crypto sealings raw nodeId token purpose) := by
  have hraises := raises_iff_undecodable hauth hfaith hsha sealings raw nodeId
  constructor
  · intro token
    rw [← hraises]
    cases openEnvelope crypto (sealings.filterMap (Sealing.encryption crypto)) raw nodeId token purpose with
    | ok payload => simp
    | error e => cases e <;> simp
  · rintro env r rfl
    simp only [openOrRaise_answers, ne_eq, hraises]

end

def emoji : Fields := [(text "k", .str [0x1f600])]

/-- The same text with its character as a surrogate pair. -/
def spelled : Fields := [(text "k", .str [0xd83d, 0xde00])]

/-- A telemetry message of `n1` with the given plaintext. -/
def sealedText (plaintext : Bytes) : Sealing :=
  ⟨text "secret", text "n1", .telemetry, [1, 2, 3, 4, 5, 6, 7, 8, 9, 10, 11, 12], plaintext⟩

/-- What `emoji` and `spelled` are sealed as. -/
def emojiSealing : Sealing :=
  sealedText ((encode (text "\x7b\"k\": \"\\ud83d\\ude00\"\x7d")).getD [])

def garbage : Sealing := sealedText [0xff]

/-- SHA-256 where it is needed. -/
def sampleSha256 : Bytes → Bytes :=
  known [((encode (text "secret|public-intelligence|mesh|v1|telemetry")).getD [],
    [162, 146, 8, 192, 237, 241, 122, 223, 53, 169, 84, 248, 106, 105, 199, 210, 50, 184, 63, 45, 156,
      212, 108, 20, 132, 138, 27, 170, 194, 72, 168, 53])]

/-- AES-256-GCM on the two messages. -/
def sampleGcm : Encryption → Bytes :=
  knownCipher [(emojiSealing.encryption ⟨sampleSha256, .ideal fun _ => []⟩,
      [161, 215, 60, 191, 69, 210, 51, 172, 62, 228, 173, 26, 43, 147, 102, 9, 17, 119, 96, 166, 115, 66,
        254, 191, 133, 64, 7, 25, 111, 70, 218, 65, 255, 197, 48, 48, 104]),
    (garbage.encryption ⟨sampleSha256, .ideal fun _ => []⟩,
      [37, 43, 139, 3, 9, 205, 226, 59, 86, 36, 14, 14, 213, 69, 61, 118, 194])]

def sampleCrypto : Crypto := ⟨sampleSha256, .ideal sampleGcm⟩

theorem sample_injective : Function.Injective sampleCrypto.sha256 :=
  known_injective (by decide +kernel) (by decide +kernel)

theorem sample_authentic : sampleCrypto.aead.Authentic := Aead.authentic_ideal sampleGcm

theorem sample_faithful : sampleCrypto.aead.Faithful :=
  Aead.faithful_ideal (knownCipher_injective (by decide +kernel) (by decide +kernel))

theorem emoji_lossless : Lossless (.obj emoji) :=
  ⟨by decide +kernel, joined_of_scalar (scalar_text _), joined_of_scalar (by decide +kernel), trivial⟩

theorem emoji_opens_for_its_triple : ∃ raw,
    sealEnvelope sampleCrypto emoji (text "n1") (text "secret") .telemetry garbage.iv = some raw ∧
      ∀ n t p, openEnvelope sampleCrypto ([emojiSealing].filterMap (Sealing.encryption sampleCrypto)) raw n t p =
        if n = text "n1" ∧ t = text "secret" ∧ p = .telemetry then .ok emoji else .error .auth := by
  obtain ⟨raw, plaintext, hseal, hplain, h⟩ := opens_for_its_triple sample_authentic sample_faithful
    sample_injective (scalar_text "n1") (scalar_text "secret") emoji_lossless .telemetry garbage.iv
  obtain rfl : emojiSealing.plaintext = plaintext := by
    have hsame : (dumps (.obj emoji)).bind encode = some emojiSealing.plaintext := by decide +kernel
    exact Option.some.inj (hsame.symm.trans hplain)
  have hdistinct : ∀ s : Sealing, sampleCrypto.aead.Distinct ([s].filterMap (Sealing.encryption sampleCrypto)) := by
    intro s e he e' he' _
    obtain ⟨_, hs, hse⟩ := List.mem_filterMap.mp he
    obtain ⟨_, hs', hse'⟩ := List.mem_filterMap.mp he'
    obtain rfl := List.mem_singleton.mp hs
    obtain rfl := List.mem_singleton.mp hs'
    exact Option.some.inj (hse.symm.trans hse')
  exact ⟨raw, hseal, h _ (List.mem_singleton_self _) (hdistinct _)⟩

/-- A text that spells a character as a surrogate pair comes back with the character. -/
theorem spelled_pair_comes_back_joined : ∃ raw,
    sealEnvelope sampleCrypto spelled (text "n1") (text "secret") .telemetry garbage.iv = some raw ∧
      openEnvelope sampleCrypto ([emojiSealing].filterMap (Sealing.encryption sampleCrypto)) raw (text "n1")
        (text "secret") .telemetry = .ok emoji ∧ emoji ≠ spelled := by
  have hplain : (dumps (.obj spelled)).bind encode = some emojiSealing.plaintext := by decide +kernel
  have hdumps : dumps (.obj emoji) = some (write .dumps (.obj emoji)) := rfl
  have hencode : encode (write .dumps (.obj emoji)) = some emojiSealing.plaintext := by decide +kernel
  obtain ⟨raw, hraw⟩ : ∃ raw, emojiSealing.envelope sampleCrypto = some raw :=
    Option.isSome_iff_exists.mp (by decide +kernel)
  refine ⟨raw, ?_, ?_, ?_⟩
  · simp only [sealEnvelope, hplain, bind, Option.bind_some]
    exact hraw
  · exact open_carried sample_faithful (carries_envelope hraw)
      (fun e he => List.mem_filterMap.mpr ⟨_, List.mem_singleton_self _, he⟩)
      (loadsBytes_dumps emoji_lossless hdumps hencode)
  · intro h
    cases h

/-- A Scheduler that has registered `n1` with its token. -/
def sampleRouter : ZenohRouter where
  registry := .refill [⟨text "n1", []⟩] (.set .empty (text "n1") (text "secret"))
  store := ⟨.empty, .empty, .empty⟩
  lastVerified := .empty

def sampleEnv : RouterEnv where
  crypto := sampleCrypto
  validate := fun _ => none
  fromTimestamp := fun _ => none
  fromIsoformat := fun _ => none
  nodeStaleAfter := 90

theorem empty_envelope_fails_once :
    (∃ payload, openEnvelope sampleCrypto [] (text "\x7b\x7d") (text "n1") (text "secret") .telemetry = .ok payload) ∨
      openEnvelope sampleCrypto [] (text "\x7b\x7d") (text "n1") (text "secret") .telemetry = .error .auth := by
  have hloads : loads (text "\x7b\x7d") = .ok (.obj []) := rfl
  have hiff := one_failure_iff sample_authentic sample_faithful sample_injective [] (text "\x7b\x7d")
    (text "n1") .telemetry
  refine (hiff.1 (text "secret")).mpr ?_
  rintro (⟨e, he, _⟩ | ⟨s, hs, _⟩)
  · rw [hloads] at he
    cases he
  · cases hs

/-- A plaintext that is no text, sealed by the node itself, ends the router's handler. -/
theorem undecodable_plaintext_escapes : ∃ raw, garbage.envelope sampleCrypto = some raw ∧
    openEnvelope sampleCrypto ([garbage].filterMap (Sealing.encryption sampleCrypto)) raw (text "n1")
      (text "secret") .telemetry = .error .value ∧
    ¬ ∃ answer, sampleRouter.openOrRaise sampleEnv ([garbage].filterMap (Sealing.encryption sampleCrypto)) raw
      (text "n1") .telemetry = .ok answer := by
  obtain ⟨raw, hraw⟩ : ∃ raw, garbage.envelope sampleCrypto = some raw :=
    Option.isSome_iff_exists.mp (by decide +kernel)
  have hbytes : decodeDetected garbage.plaintext = none := by decide +kernel
  have hload : loadsBytes garbage.plaintext = .error .unicode := by rw [loadsBytes, hbytes]
  have hvalue : openEnvelope sampleCrypto ([garbage].filterMap (Sealing.encryption sampleCrypto)) raw (text "n1")
      (text "secret") .telemetry = .error .value :=
    (raises_iff_undecodable sample_authentic sample_faithful sample_injective _ _ _ _ _).mpr
      (.inr ⟨garbage, List.mem_singleton_self _, rfl, rfl, rfl, carries_envelope hraw, _, hload, by decide⟩)
  have hknown : text "n1" ∈ sampleRouter.registry.nodes := by decide +kernel
  have htoken : given (sampleRouter.registry.getNodeToken (text "n1")) = some (text "secret") := by decide +kernel
  exact ⟨raw, hraw, hvalue, fun h => openOrRaise_answers.mp h _ hknown htoken hvalue⟩

end Envelopes
end PublicIntelligence.System
