import Mathlib.Algebra.Order.Ring.Rat
import PublicIntelligence.Lib.Aead
import PublicIntelligence.Lib.Base64
import PublicIntelligence.Lib.JsonRead

namespace PublicIntelligence.Mesh

open Text Encoding Json Base64

inductive Purpose where
  | telemetry
  | heartbeat
deriving DecidableEq

def Purpose.name : Purpose → Text
  | .telemetry => text "telemetry"
  | .heartbeat => text "heartbeat"

/-- The cryptography the envelopes rest on: SHA-256 and AES-256-GCM. -/
structure Crypto where
  sha256 : Bytes → Bytes
  aead : Aead

def context (purpose : Purpose) : Text := text "public-intelligence|mesh|v1|" ++ purpose.name

/-- `derive_key`, or `none` for a token that cannot be encoded. -/
def deriveKey (crypto : Crypto) (token : Text) (purpose : Purpose) : Option Bytes := do
  let token ← encode token
  let bar ← encode (text "|")
  let context ← encode (context purpose)
  return crypto.sha256 (token ++ bar ++ context)

def associatedData (nodeId : Text) (purpose : Purpose) : Option Bytes :=
  encode (context purpose ++ text "|" ++ nodeId)

/-- A call of `AESGCM.encrypt` as `seal` makes it, on any plaintext. -/
structure Sealing where
  token : Text
  nodeId : Text
  purpose : Purpose
  iv : Bytes
  plaintext : Bytes

def Sealing.encryption (crypto : Crypto) (s : Sealing) : Option Encryption := do
  let key ← deriveKey crypto s.token s.purpose
  let associated ← associatedData s.nodeId s.purpose
  return ⟨key, s.iv, s.plaintext, associated⟩

/-- The envelope that carries an encryption. -/
def Sealing.envelope (crypto : Crypto) (s : Sealing) : Option Text := do
  let e ← s.encryption crypto
  dumps (.obj [(text "v", .int 1), (text "node_id", .str s.nodeId), (text "iv", .str (b64encode s.iv)),
    (text "ciphertext", .str (b64encode (crypto.aead.encrypt e)))])

/-- `seal`, with the nonce it drew. -/
def sealEnvelope (crypto : Crypto) (payload : Fields) (nodeId token : Text) (purpose : Purpose)
    (iv : Bytes) : Option Text := do
  let plaintext ← (dumps (.obj payload)).bind encode
  Sealing.envelope crypto ⟨token, nodeId, purpose, iv, plaintext⟩

def decimal (digits : List Char) : Nat := digits.foldl (fun n c => 10 * n + (c.toNat - 48)) 0

/-- The number a finite float's literal writes. -/
def literalValue (literal : String) : ℚ :=
  let unsigned := literal.toList.dropWhile (· == '-')
  let mantissa := unsigned.takeWhile fun c => c != 'e' && c != 'E'
  let whole := mantissa.takeWhile (· != '.')
  let fraction := (mantissa.dropWhile (· != '.')).drop 1
  let exponent : Int :=
    match (unsigned.drop mantissa.length).drop 1 with
    | '-' :: digits => -decimal digits
    | '+' :: digits => decimal digits
    | digits => decimal digits
  let sign : ℚ := if literal.toList.head? = some '-' then -1 else 1
  sign * decimal (whole ++ fraction) * 10 ^ (exponent - fraction.length)

/-- `value == 1`. A literal between the midpoints to the neighbouring doubles rounds
to 1. -/
def equalsOne : Json → Bool
  | .int n => n = 1
  | .bool b => b
  | .float l =>
    l ∉ ["NaN", "Infinity", "-Infinity"] &&
      decide (1 - 1 / 2 ^ 54 ≤ literalValue l ∧ literalValue l ≤ 1 + 1 / 2 ^ 53)
  | _ => false

/-- `open_envelope` raises `MeshAuthError`, or lets the `ValueError` of `json.loads`
pass that is not a `JSONDecodeError`. -/
inductive OpenError where
  | auth
  | value
deriving DecidableEq

def OpenError.ofLoads : LoadsError → OpenError
  | .decode => .auth
  | .integer | .unicode => .value

/-- What an envelope's fields say, before anything is verified. -/
structure Envelope where
  nodeId : Option Json
  iv : Text
  ciphertext : Text

def readEnvelope (raw : Text) : Except OpenError Envelope :=
  match loads raw with
  | .error e => .error (.ofLoads e)
  | .ok (.obj fields) =>
    if (get? fields "v").any equalsOne then
      match get? fields "iv", get? fields "ciphertext" with
      | some (.str iv), some (.str ciphertext) => .ok ⟨get? fields "node_id", iv, ciphertext⟩
      | _, _ => .error .auth
    else .error .auth
  | .ok _ => .error .auth

/-- The plaintext of an envelope if it verifies. -/
def decryptEnvelope (crypto : Crypto) (made : List Encryption) (envelope : Envelope)
    (nodeId token : Text) (purpose : Purpose) : Option Bytes := do
  let key ← deriveKey crypto token purpose
  let iv ← b64decode envelope.iv
  let ciphertext ← b64decode envelope.ciphertext
  let associated ← associatedData nodeId purpose
  crypto.aead.decrypt made key iv ciphertext associated

def isStr (t : Text) : Option Json → Bool
  | some (.str s) => s = t
  | _ => false

def openEnvelope (crypto : Crypto) (made : List Encryption) (raw nodeId token : Text)
    (purpose : Purpose) : Except OpenError Fields := do
  let envelope ← readEnvelope raw
  if isStr nodeId envelope.nodeId then
    match decryptEnvelope crypto made envelope nodeId token purpose with
    | none => .error .auth
    | some plaintext =>
      match loadsBytes plaintext with
      | .error e => .error (.ofLoads e)
      | .ok (.obj payload) => .ok payload
      | .ok _ => .error .auth
  else .error .auth

/-- The text is an envelope that carries what was sealed. -/
def Carries (crypto : Crypto) (raw : Text) (s : Sealing) : Prop :=
  ∃ envelope e, readEnvelope raw = .ok envelope ∧ envelope.nodeId = some (.str s.nodeId) ∧
    s.encryption crypto = some e ∧ b64decode envelope.iv = some s.iv ∧
    b64decode envelope.ciphertext = some (crypto.aead.encrypt e)

section
variable {crypto : Crypto}

theorem isStr_eq_true : isStr t j = true ↔ j = some (.str t) := by
  unfold isStr
  split <;> simp_all

theorem deriveKey_eq_some : deriveKey crypto token purpose = some key ↔
    ∃ t b c, encode token = some t ∧ encode (text "|") = some b ∧
      encode (context purpose) = some c ∧ crypto.sha256 (t ++ b ++ c) = key := by
  simp [deriveKey, Option.bind_eq_some_iff]

/-- The contexts of the two purposes are equally long. -/
theorem context_length (hp : encode (context p) = some b) (hq : encode (context q) = some c) :
    b.length = c.length := by
  have hlen : ∀ r, (encode (context r)).map List.length = some 37 := by
    intro r
    cases r <;> decide +kernel
  have hb := hlen p
  have hc := hlen q
  rw [hp] at hb
  rw [hq] at hc
  exact Option.some.inj (hb.trans hc.symm)

theorem context_injective : Function.Injective context := by
  have hne : context .telemetry ≠ context .heartbeat := by decide +kernel
  intro p q h
  cases p <;> cases q
  · rfl
  · exact absurd h hne
  · exact absurd h.symm hne
  · rfl

/-- The purposes' names are equally long, so a key tells its token and its purpose. -/
theorem deriveKey_injective (hsha : Function.Injective crypto.sha256)
    (h : deriveKey crypto t p = some key) (h' : deriveKey crypto u q = some key) : t = u ∧ p = q := by
  obtain ⟨a, b, c, ha, hb, hc, rfl⟩ := deriveKey_eq_some.mp h
  obtain ⟨a', b', c', ha', hb', hc', heq⟩ := deriveKey_eq_some.mp h'
  obtain rfl := Option.some.inj (hb.symm.trans hb')
  have happ := hsha heq
  obtain ⟨hl, rfl⟩ := List.append_inj' happ (context_length hc' hc)
  obtain rfl := List.append_cancel_right hl
  exact ⟨encode_injective ha ha', context_injective (encode_injective hc hc')⟩

theorem associatedData_injective (h : associatedData n p = some a) (h' : associatedData m p = some a) :
    n = m :=
  List.append_cancel_left (encode_injective h h')

theorem encryption_eq_some {s : Sealing} : s.encryption crypto = some e ↔
    ∃ key associated, deriveKey crypto s.token s.purpose = some key ∧
      associatedData s.nodeId s.purpose = some associated ∧ e = ⟨key, s.iv, s.plaintext, associated⟩ := by
  simp only [Sealing.encryption, bind, Option.bind_eq_some_iff, pure, Option.some.injEq]
  constructor
  · rintro ⟨key, hk, associated, ha, rfl⟩
    exact ⟨key, associated, hk, ha, rfl⟩
  · rintro ⟨key, associated, hk, ha, rfl⟩
    exact ⟨key, hk, associated, ha, rfl⟩

theorem openEnvelope_ok (h : openEnvelope crypto made raw nodeId token purpose = .ok payload) :
    ∃ envelope plaintext, readEnvelope raw = .ok envelope ∧
      envelope.nodeId = some (.str nodeId) ∧
      decryptEnvelope crypto made envelope nodeId token purpose = some plaintext ∧
      loadsBytes plaintext = .ok (.obj payload) := by
  unfold openEnvelope at h
  cases hread : readEnvelope raw with
  | error e =>
    rw [hread] at h
    cases h
  | ok envelope =>
    rw [hread] at h
    simp only [bind, Except.bind] at h
    split at h
    · rename_i hid
      split at h
      · cases h
      · rename_i plaintext hdec
        split at h
        · cases h
        · rename_i fields hload
          cases h
          exact ⟨envelope, plaintext, rfl, isStr_eq_true.mp hid, hdec, hload⟩
        · cases h
    · cases h

/-- With an ideal cipher and no hash collisions, whatever verifies for a node was sealed with the
token, under the id and for the purpose it is opened with. -/
theorem decrypted_sealed {sealings : List Sealing} (hauth : crypto.aead.Authentic)
    (hsha : Function.Injective crypto.sha256) (hread : readEnvelope raw = .ok envelope)
    (hid : envelope.nodeId = some (.str nodeId))
    (hdec : decryptEnvelope crypto (sealings.filterMap (Sealing.encryption crypto)) envelope nodeId token
      purpose = some plaintext) :
    ∃ s ∈ sealings, s.token = token ∧ s.nodeId = nodeId ∧ s.purpose = purpose ∧
      Carries crypto raw s ∧ s.plaintext = plaintext := by
  simp only [decryptEnvelope, bind, Option.bind_eq_some_iff] at hdec
  obtain ⟨key, hkey, iv, hiv, ciphertext, hct, associated, had, hopen⟩ := hdec
  obtain ⟨hmade, henc⟩ := hauth _ _ _ _ _ _ hopen
  obtain ⟨s, hs, hse⟩ := List.mem_filterMap.mp hmade
  obtain ⟨key', associated', hkey', had', he⟩ := encryption_eq_some.mp hse
  obtain ⟨rfl, rfl, rfl, rfl⟩ := Encryption.mk.inj he
  obtain ⟨htoken, hpurpose⟩ := deriveKey_injective hsha hkey' hkey
  have hnode : s.nodeId = nodeId := by
    rw [hpurpose] at had'
    exact associatedData_injective had' had
  refine ⟨s, hs, htoken, hnode, hpurpose, ⟨envelope, _, hread, hnode ▸ hid, hse, hiv, ?_⟩, rfl⟩
  rw [hct, henc]

/-- So is whatever opens. -/
theorem opened_sealed {sealings : List Sealing} (hauth : crypto.aead.Authentic) (hsha : Function.Injective crypto.sha256)
    (h : openEnvelope crypto (sealings.filterMap (Sealing.encryption crypto)) raw nodeId token purpose =
      .ok payload) :
    ∃ s ∈ sealings, s.token = token ∧ s.nodeId = nodeId ∧ s.purpose = purpose ∧
      Carries crypto raw s ∧ loadsBytes s.plaintext = .ok (.obj payload) := by
  obtain ⟨envelope, plaintext, hread, hid, hdec, hload⟩ := openEnvelope_ok h
  obtain ⟨s, hs, htoken, hnode, hpurpose, hc, rfl⟩ := decrypted_sealed hauth hsha hread hid hdec
  exact ⟨s, hs, htoken, hnode, hpurpose, hc, hload⟩

theorem scalar_b64encode (bs : Bytes) : Scalar (b64encode bs) := by
  intro c hc
  have hascii := b64encode_ascii bs c hc
  simp only [isSurrogate, Bool.and_eq_false_iff, decide_eq_false_iff_not]
  omega

/-- Only a node id that can be encoded is sealed. -/
theorem scalar_nodeId (h : associatedData nodeId purpose = some associated) : Scalar nodeId := by
  obtain ⟨hs, _⟩ := encode_some.mp h
  exact fun c hc => hs c (List.mem_append_right _ hc)

/-- The envelope of a sealing carries it. -/
theorem carries_envelope {s : Sealing} (h : s.envelope crypto = some raw) : Carries crypto raw s := by
  simp only [Sealing.envelope, bind, Option.bind_eq_some_iff] at h
  obtain ⟨e, he, hraw⟩ := h
  obtain ⟨key, associated, _, had, hiv⟩ := encryption_eq_some.mp he
  have hkeys : [text "v", text "node_id", text "iv", text "ciphertext"].Nodup := by decide +kernel
  have hone : (natText 1).length ≤ maxDigits := by decide
  obtain ⟨_, _, _, hback⟩ := dumps_encodes hraw
  have hloads := hback (lossless_of_readable _ ⟨hkeys, scalar_text _, hone, scalar_text _,
    joined_of_scalar (scalar_nodeId had), scalar_text _, joined_of_scalar (scalar_b64encode _), scalar_text _,
    joined_of_scalar (scalar_b64encode _), trivial⟩)
  simp only [List.nodup_cons, List.mem_cons, List.not_mem_nil, or_false, not_or, not_false_eq_true,
    List.nodup_nil, and_true] at hkeys
  obtain ⟨⟨hvn, hvi, hvc⟩, ⟨hni, hnc⟩, hic⟩ := hkeys
  refine ⟨⟨some (.str s.nodeId), b64encode s.iv, b64encode (crypto.aead.encrypt e)⟩, e, ?_, rfl, he,
    b64decode_encode _, b64decode_encode _⟩
  simp [readEnvelope, hloads, get?, Dict.find, hvn, hvi, hvc, hni, hnc, hic, equalsOne]

/-- With a faithful cipher, what an envelope carries verifies for the node that sealed it. -/
theorem decrypt_carried (hfaith : crypto.aead.Faithful) {s : Sealing} (hc : Carries crypto raw s)
    (hmade : ∀ e, s.encryption crypto = some e → e ∈ made) :
    ∃ envelope, readEnvelope raw = .ok envelope ∧ envelope.nodeId = some (.str s.nodeId) ∧
      decryptEnvelope crypto made envelope s.nodeId s.token s.purpose = some s.plaintext := by
  obtain ⟨envelope, e, hread, hid, he, hiv, hct⟩ := hc
  have hopen := hfaith made e (hmade e he)
  obtain ⟨key, associated, hkey, had, rfl⟩ := encryption_eq_some.mp he
  refine ⟨envelope, hread, hid, ?_⟩
  simp only [decryptEnvelope, hkey, hiv, hct, had, bind, Option.bind_some]
  exact hopen

theorem open_carried (hfaith : crypto.aead.Faithful) {s : Sealing} (hc : Carries crypto raw s)
    (hmade : ∀ e, s.encryption crypto = some e → e ∈ made) (hload : loadsBytes s.plaintext = .ok (.obj payload)) :
    openEnvelope crypto made raw s.nodeId s.token s.purpose = .ok payload := by
  obtain ⟨envelope, hread, hid, hdec⟩ := decrypt_carried hfaith hc hmade
  simp only [openEnvelope, hread, bind, Except.bind, isStr_eq_true.mpr hid, if_true, hdec, hload]

/-- What a node seals opens with the token, under the id and for the purpose it was sealed with. -/
theorem open_seal (hfaith : crypto.aead.Faithful) (hj : Lossless (.obj payload))
    (hseal : sealEnvelope crypto payload nodeId token purpose iv = some raw)
    (hplain : (dumps (.obj payload)).bind encode = some plaintext)
    (hmade : ∀ e, Sealing.encryption crypto ⟨token, nodeId, purpose, iv, plaintext⟩ = some e → e ∈ made) :
    openEnvelope crypto made raw nodeId token purpose = .ok payload := by
  obtain ⟨t, ht, hbytes⟩ := Option.bind_eq_some_iff.mp hplain
  simp only [sealEnvelope, hplain, bind, Option.bind_some] at hseal
  exact open_carried hfaith (carries_envelope hseal) hmade (loadsBytes_dumps hj ht hbytes)

end

end PublicIntelligence.Mesh
