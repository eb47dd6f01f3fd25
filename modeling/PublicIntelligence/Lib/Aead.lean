import Mathlib.Data.List.Nodup
import PublicIntelligence.Lib.Dict
import PublicIntelligence.Lib.Encoding

namespace PublicIntelligence

/-- One encryption: what went in, under which key. -/
structure Encryption where
  key : Bytes
  iv : Bytes
  plaintext : Bytes
  associated : Bytes
deriving DecidableEq

/-- An authenticated cipher. What it opens may depend on which encryptions were made. -/
structure Aead where
  encrypt : Encryption → Bytes
  decrypt : (made : List Encryption) → (key iv ciphertext associated : Bytes) → Option Bytes

namespace Aead

/-- Nothing opens that was not encrypted under the same key, nonce and associated data. -/
def Authentic (aead : Aead) : Prop :=
  ∀ made key iv ciphertext associated plaintext,
    aead.decrypt made key iv ciphertext associated = some plaintext →
      ⟨key, iv, plaintext, associated⟩ ∈ made ∧
        aead.encrypt ⟨key, iv, plaintext, associated⟩ = ciphertext

/-- What was encrypted opens with what it was encrypted under. -/
def Faithful (aead : Aead) : Prop :=
  ∀ made, ∀ e ∈ made, aead.decrypt made e.key e.iv (aead.encrypt e) e.associated = some e.plaintext

/-- A ciphertext tells which of the encryptions made it. -/
def Distinct (aead : Aead) (made : List Encryption) : Prop :=
  ∀ e ∈ made, ∀ e' ∈ made, aead.encrypt e = aead.encrypt e' → e = e'

/-- The cipher that looks up what was encrypted. -/
def ideal (encrypt : Encryption → Bytes) : Aead where
  encrypt
  decrypt made key iv ciphertext associated :=
    (made.find? fun e => decide (e.key = key ∧ e.iv = iv ∧ e.associated = associated ∧
      encrypt e = ciphertext)).map Encryption.plaintext

theorem authentic_ideal (encrypt : Encryption → Bytes) : (ideal encrypt).Authentic := by
  intro made key iv ciphertext associated plaintext h
  obtain ⟨e, he, rfl⟩ := Option.map_eq_some_iff.mp h
  have hmatch := List.find?_some he
  obtain ⟨rfl, rfl, rfl, rfl⟩ := of_decide_eq_true hmatch
  exact ⟨List.mem_of_find?_eq_some he, rfl⟩

/-- Looking up is faithful if two plaintexts never have one ciphertext. -/
theorem faithful_ideal {encrypt : Encryption → Bytes}
    (hinj : ∀ e e', encrypt e = encrypt e' → e.plaintext = e'.plaintext) : (ideal encrypt).Faithful := by
  intro made e he
  obtain ⟨f, hf⟩ : ∃ f, (made.find? fun f => decide (f.key = e.key ∧ f.iv = e.iv ∧
      f.associated = e.associated ∧ encrypt f = encrypt e)) = some f := by
    refine Option.isSome_iff_exists.mp (List.find?_isSome.mpr ⟨e, he, ?_⟩)
    simp
  have hmatch := List.find?_some hf
  obtain ⟨_, _, _, hsame⟩ := of_decide_eq_true hmatch
  refine (congrArg (Option.map Encryption.plaintext) hf).trans ?_
  rw [Option.map_some, hinj f e hsame]

end Aead

/-- A hash of which the listed answers are known; longer than any of them elsewhere. -/
def known (answers : List (Bytes × Bytes)) (input : Bytes) : Bytes :=
  (Dict.find input answers).getD (List.replicate 33 0 ++ input)

/-- Known answers that are distinct digests leave no room for a collision. -/
theorem known_injective {answers : List (Bytes × Bytes)} (hd : (answers.map Prod.snd).Nodup)
    (hl : ∀ a ∈ answers, a.2.length = 32) : Function.Injective (known answers) := by
  have hlong : ∀ a b d : Bytes, (b, d) ∈ answers → d ≠ List.replicate 33 0 ++ a := by
    intro a b d hm h
    have hlen := congrArg List.length h
    rw [hl _ hm, List.length_append, List.length_replicate] at hlen
    omega
  intro a b h
  unfold known at h
  cases ha : Dict.find a answers with
  | none =>
    cases hb : Dict.find b answers with
    | none =>
      rw [ha, hb] at h
      exact List.append_cancel_left h
    | some d =>
      rw [ha, hb] at h
      exact absurd h.symm (hlong a b d (Dict.mem_of_find hb))
  | some d =>
    cases hb : Dict.find b answers with
    | none =>
      rw [ha, hb] at h
      exact absurd h (hlong b a d (Dict.mem_of_find ha))
    | some e =>
      rw [ha, hb] at h
      cases h
      have hpair := List.inj_on_of_nodup_map hd (Dict.mem_of_find ha) (Dict.mem_of_find hb) rfl
      exact (Prod.mk.inj hpair).1

/-- A cipher of which the listed ciphertexts are known; longer than any of them elsewhere. -/
def knownCipher (answers : List (Option Encryption × Bytes)) (e : Encryption) : Bytes :=
  (Dict.find (some e) answers).getD (List.replicate 60 0 ++ e.plaintext)

/-- Known ciphertexts that are distinct and short are never those of another plaintext. -/
theorem knownCipher_injective {answers : List (Option Encryption × Bytes)}
    (hd : (answers.map Prod.snd).Nodup) (hl : ∀ a ∈ answers, a.2.length < 60) (e e' : Encryption)
    (h : knownCipher answers e = knownCipher answers e') : e.plaintext = e'.plaintext := by
  have hlong : ∀ e c p, (e, c) ∈ answers → c ≠ List.replicate 60 0 ++ p := by
    rintro e c p hm rfl
    have hlen := hl _ hm
    rw [List.length_append, List.length_replicate] at hlen
    omega
  unfold knownCipher at h
  cases he : Dict.find (some e) answers with
  | none =>
    cases he' : Dict.find (some e') answers with
    | none =>
      rw [he, he'] at h
      exact List.append_cancel_left h
    | some c =>
      rw [he, he'] at h
      exact absurd h.symm (hlong _ c _ (Dict.mem_of_find he'))
  | some c =>
    cases he' : Dict.find (some e') answers with
    | none =>
      rw [he, he'] at h
      exact absurd h (hlong _ c _ (Dict.mem_of_find he))
    | some d =>
      rw [he, he'] at h
      cases h
      have hpair := List.inj_on_of_nodup_map hd (Dict.mem_of_find he) (Dict.mem_of_find he') rfl
      rw [Option.some.inj (Prod.mk.inj hpair).1]

end PublicIntelligence
