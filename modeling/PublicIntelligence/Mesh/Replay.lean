import Mathlib.Data.List.Perm.Subperm
import PublicIntelligence.Mesh.Request

namespace PublicIntelligence.Mesh

open Text Encoding Json

/-- `MAX_CLOCK_SKEW_SECONDS` in microseconds. -/
def skew : ℤ := 30000000

def sixDigits (n : Nat) : Text :=
  [digit (n / 100000 % 10), digit (n / 10000 % 10), digit (n / 1000 % 10), digit (n / 100 % 10),
    digit (n / 10 % 10), digit (n % 10)]

/-- A number of microseconds printed as seconds with six decimals. -/
def microText (t : ℤ) : Text :=
  (if t < 0 then [ofChar '-'] else []) ++
    (natText (t.natAbs / 1000000) ++ ofChar '.' :: sixDigits (t.natAbs % 1000000))

/-- Timestamps as exact integers in microseconds, however a JSON number is read as one. -/
def microTimes (ofJson : Json → Option ℤ) (toJson : ℤ → Json) : Times ℤ where
  ofJson
  toJson
  canonical := microText
  stale now timestamp := decide (skew < |now - timestamp|)
  before s t := decide (s < t)

/-- The signing of requests with exact times. -/
def Signing.exact (env : Signing ℤ) : Signing ℤ :=
  { env with times := microTimes env.times.ofJson env.times.toJson }

section

theorem digit_inj {m n : Nat} (hm : m < 10) (hn : n < 10) (h : digit m = digit n) : m = n := by
  have hval := congrArg Fin.val h
  rw [digit, digit, val_point (by omega), val_point (by omega)] at hval
  omega

theorem natText_inj {m n : Nat} (h : natText m = natText n) : m = n := by
  rw [← digitsValue_natText m, h, digitsValue_natText]

theorem sixDigits_inj {m n : Nat} (hm : m < 1000000) (hn : n < 1000000)
    (h : sixDigits m = sixDigits n) : m = n := by
  simp only [sixDigits, List.cons.injEq, and_true] at h
  obtain ⟨h5, h4, h3, h2, h1, h0⟩ := h
  have e5 := digit_inj (by omega) (by omega) h5
  have e4 := digit_inj (by omega) (by omega) h4
  have e3 := digit_inj (by omega) (by omega) h3
  have e2 := digit_inj (by omega) (by omega) h2
  have e1 := digit_inj (by omega) (by omega) h1
  have e0 := digit_inj (by omega) (by omega) h0
  omega

theorem sixDigits_digits (n : Nat) : ∀ c ∈ sixDigits n, isDigit c = true := by
  intro c hc
  simp only [sixDigits, List.mem_cons, List.not_mem_nil, or_false] at hc
  obtain rfl | rfl | rfl | rfl | rfl | rfl := hc <;> exact isDigit_digit (by omega)

theorem not_mem_digits {t : Text} (ht : ∀ c ∈ t, isDigit c = true) (hc : isDigit c = false) : c ∉ t := by
  intro hm
  rw [ht c hm] at hc
  cases hc

/-- Two times that print alike are the same. -/
theorem microText_injective : Function.Injective microText := by
  have hunsigned : ∀ m n : Nat,
      natText (m / 1000000) ++ ofChar '.' :: sixDigits (m % 1000000) =
        natText (n / 1000000) ++ ofChar '.' :: sixDigits (n % 1000000) → m = n := by
    intro m n h
    have hpoint : ∀ k, ofChar '.' ∉ sixDigits k := fun k =>
      not_mem_digits (sixDigits_digits k) (by decide)
    obtain ⟨hwhole, hfraction⟩ := Words.cut_last h (hpoint _) (hpoint _)
    have hq := natText_inj hwhole
    have hr := sixDigits_inj (by omega) (by omega) hfraction
    omega
  have hsign : ∀ (n : Nat) (rest t : Text), natText n ++ rest ≠ ofChar '-' :: t := by
    intro n rest t h
    obtain ⟨c, cs, he, hc⟩ := natText_cons n
    rw [he] at h
    rw [(List.cons.inj h).1] at hc
    cases hc
  intro t u h
  unfold microText at h
  split at h <;> split at h
  · have habs := hunsigned _ _ (List.cons.inj h).2
    omega
  · exact absurd h.symm (hsign _ _ _)
  · exact absurd h (hsign _ _ _)
  · have habs := hunsigned _ _ h
    omega

theorem microText_line (t : ℤ) : newline ∉ microText t := by
  have hdigits : ∀ u : Text, (∀ c ∈ u, isDigit c = true) → newline ∉ u := fun u hu =>
    not_mem_digits hu (by decide)
  have hminus : newline ∉ if t < 0 then [ofChar '-'] else [] := by
    split <;> decide
  simp only [microText, List.mem_append, List.mem_cons, not_or]
  exact ⟨hminus, hdigits _ (natText_digits _), by decide, hdigits _ (sixDigits_digits _)⟩

end

/-- A call of `verify_request` with the verifier's cache. -/
structure VerifyCall (τ : Type) where
  payload : Payload
  nodeId : Text
  token : Option Text
  now : τ

/-- A nonce cache, and the requests accepted with it so far, the last first. -/
structure Verifier (τ : Type) where
  cache : NonceCache τ
  accepted : List (SignedRequest τ)

namespace Verifier

def fresh (capacity : Nat) : Verifier τ := ⟨⟨capacity, .empty⟩, []⟩

section
variable (env : Signing τ)

/-- The request that a call presents. -/
def presented (call : VerifyCall τ) : Option (SignedRequest τ) :=
  match readRequest env.repr call.payload with
  | .error _ => none
  | .ok c => do
    let token ← call.token
    let timestamp ← env.times.ofJson c.timestamp
    return ⟨token, call.nodeId, c.model, c.prompt, c.stream, c.nonce, timestamp⟩

/-- What a call comes to, and the cache it leaves. -/
def verify (v : Verifier τ) (call : VerifyCall τ) : Except Refusal MeshInferenceRequest × NonceCache τ :=
  let (outcome, after) := v.cache.verifyRequest env call.payload call.nodeId call.token call.now
  (outcome, after.1)

def answer (v : Verifier τ) (call : VerifyCall τ) : Verifier τ :=
  match v.verify env call with
  | (.error _, cache) => ⟨cache, v.accepted⟩
  | (.ok _, cache) => ⟨cache, (presented env call).toList ++ v.accepted⟩

def refuses (v : Verifier τ) (call : VerifyCall τ) : Prop := ∃ e, (v.verify env call).1 = .error e

def answers (v : Verifier τ) (run : List (VerifyCall τ)) : Verifier τ := run.foldl (answer env) v

end

/-- At most `n` of the requests have their timestamps in any one window of twice the skew. -/
def Sparse (n : Nat) (requests : List (SignedRequest ℤ)) : Prop :=
  ∀ a, requests.countP (fun r => a ≤ r.timestamp ∧ r.timestamp ≤ a + 2 * skew) ≤ n

/-- The same request was signed for the same node. -/
def Same (env : Signing τ) (r r' : SignedRequest τ) : Prop :=
  r.nodeId = r'.nodeId ∧ r.message env = r'.message env

theorem oldest_cons_ne_none (before : τ → τ → Bool) (e : Text × τ) (es : List (Text × τ)) :
    oldest before (e :: es) ≠ none := by
  rw [oldest]
  split
  · exact Option.some_ne_none e
  · split <;> exact Option.some_ne_none _

theorem oldest_spec {es : List (Text × ℤ)} (h : oldest (fun s t => decide (s < t)) es = some o) :
    o ∈ es ∧ ∀ e ∈ es, o.2 ≤ e.2 := by
  induction es generalizing o with
  | nil => cases h
  | cons e es ih =>
    rw [oldest] at h
    split at h
    · rename_i hnone
      cases h
      cases es with
      | nil => simp
      | cons d ds => exact absurd hnone (oldest_cons_ne_none _ d ds)
    · rename_i p hp
      obtain ⟨hm, hle⟩ := ih hp
      simp only [List.forall_mem_cons]
      split at h
      · rename_i hlt
        cases h
        exact ⟨List.mem_cons_of_mem _ hm, le_of_lt (of_decide_eq_true hlt), hle⟩
      · rename_i hlt
        cases h
        have hpe : e.2 ≤ p.2 := by simpa using hlt
        exact ⟨List.mem_cons_self, le_refl _, fun d hd => hpe.trans (hle d hd)⟩

/-- A claim that succeeds is of a new nonce. It keeps every other entry, but when the
cache is full an oldest one. -/
theorem claim_spec {c : NonceCache ℤ}
    (h : c.claim (fun s t => decide (s < t)) nonce t = (some true, after)) :
    after.capacity = c.capacity ∧ c.seen.get? nonce = none ∧ after.seen.get? nonce = some t ∧
      ∀ n, n ≠ nonce → after.seen.get? n = c.seen.get? n ∨
        after.seen.get? n = none ∧ c.capacity ≤ c.seen.entries.length ∧
          ∃ u, c.seen.get? n = some u ∧ ∀ e ∈ c.seen.entries, u ≤ e.2 := by
  unfold NonceCache.claim at h
  split at h
  · cases h
  · rename_i hnew
    have hnone := Dict.not_mem_iff.mp hnew
    split at h
    · cases h
      exact ⟨rfl, hnone, Dict.get?_set_self _ _ _, fun n hn => .inl (Dict.get?_set_ne _ _ hn.symm)⟩
    · rename_i hfull
      split at h
      · cases h
      · rename_i o ho
        obtain ⟨k, u⟩ := o
        obtain ⟨hm, hmin⟩ := oldest_spec ho
        cases h
        refine ⟨rfl, hnone, Dict.get?_set_self _ _ _, fun n hn => ?_⟩
        by_cases hk : k = n
        · subst hk
          refine .inr ⟨?_, not_lt.mp hfull, u, Dict.get?_eq_some.mpr hm, hmin⟩
          rw [Dict.get?_set_ne _ _ hn.symm, Dict.get?_pop, if_pos rfl]
        · exact .inl ((Dict.get?_set_ne _ _ hn.symm).trans (Dict.get?_pop_ne _ hk))

section
variable {env : Signing τ} {v : Verifier τ}

theorem verify_eq (env : Signing τ) (v : Verifier τ) (call : VerifyCall τ) :
    verifyRequest env call.payload call.nodeId call.token (some v.cache) call.now =
      ((v.verify env call).1, some (v.verify env call).2) :=
  v.cache.verifyRequest_eq env call.payload call.nodeId call.token call.now

/-- A call that is refused leaves the cache as it was. -/
theorem cache_of_refuses (h : v.refuses env call) : (v.verify env call).2 = v.cache := by
  obtain ⟨e, he⟩ := h
  have hv := verify_eq env v call
  rw [he] at hv
  exact Option.some.inj (verifyRequest_refused hv)

theorem answer_of_refuses (h : v.refuses env call) : v.answer env call = v := by
  have hcache := cache_of_refuses h
  obtain ⟨e, he⟩ := h
  have hv : v.verify env call = (.error e, v.cache) := Prod.ext he hcache
  rw [answer, hv]

/-- A call changes nothing, or its nonce was new, its timestamp is fresh, and it is signed. -/
theorem answer_cases (env : Signing τ) (v : Verifier τ) (call : VerifyCall τ) :
    (v.answer env call = v ∧ v.refuses env call) ∨
      ∃ r after, v.cache.claim env.times.before r.nonce r.timestamp = (some true, after) ∧
        env.times.stale call.now r.timestamp = false ∧ (∃ m, r.message env = some m) ∧
        v.answer env call = ⟨after, r :: v.accepted⟩ := by
  rcases hv : v.verify env call with ⟨outcome, after⟩
  cases outcome with
  | error e =>
    have hrefuses : v.refuses env call := ⟨e, congrArg Prod.fst hv⟩
    exact .inl ⟨answer_of_refuses hrefuses, hrefuses⟩
  | ok request =>
    right
    have hok := verify_eq env v call
    rw [hv] at hok
    obtain ⟨token, c, t, htoken, _, hread, hcheck, hclaim, _⟩ := verifyRequest_ok hok
    obtain ⟨_, hsent, hfresh, digest, hdigest, hsig⟩ := checkRequest_ok hcheck
    obtain ⟨key, m, _, hm, _⟩ := signature_eq_some.mp hsig
    have hpres : presented env call =
        some ⟨token, call.nodeId, c.model, c.prompt, c.stream, c.nonce, t⟩ := by
      simp [presented, hread, htoken, hsent]
    have hc : v.cache.claim env.times.before c.nonce t = (some true, after) := by
      unfold claimNonce at hclaim
      dsimp only at hclaim
      split at hclaim
      · cases hclaim
      · cases hclaim
      · rename_i hc
        cases hclaim
        exact hc
    refine ⟨⟨token, call.nodeId, c.model, c.prompt, c.stream, c.nonce, t⟩, after, hc, hfresh,
      ⟨m, ?_⟩, ?_⟩
    · rw [SignedRequest.message, hdigest, Option.bind_some, hm]
    · rw [answer, hv, hpres]
      rfl

/-- What was accepted stays accepted. -/
theorem accepted_suffix (env : Signing τ) (v : Verifier τ) (run : List (VerifyCall τ)) :
    v.accepted <:+ (v.answers env run).accepted := by
  induction run generalizing v with
  | nil => exact List.suffix_refl _
  | cons call run ih =>
    refine List.IsSuffix.trans ?_ (ih (v.answer env call))
    obtain ⟨h, _⟩ | ⟨r, after, _, _, _, h⟩ := answer_cases env v call
    · rw [h]
    · rw [h]
      exact List.suffix_cons r v.accepted

end

section
variable {v : Verifier ℤ}

/-- What the cache and the clock say of the requests accepted: a request can only have
left the cache once its timestamp was too old, and none is ahead of the clock by more than
the skew. -/
structure Guarded (v : Verifier ℤ) (now : ℤ) : Prop where
  held : ∀ n t, v.cache.seen.get? n = some t → ∃ r ∈ v.accepted, r.nonce = n ∧ r.timestamp = t
  kept : ∀ r ∈ v.accepted, v.cache.seen.get? r.nonce = some r.timestamp ∨ r.timestamp < now - skew
  early : ∀ r ∈ v.accepted, r.timestamp ≤ now + skew
  once : v.accepted.Pairwise fun r r' => r.nonce = r'.nonce → r.timestamp ≠ r'.timestamp

theorem Guarded.later (h : Guarded v now) (hn : now ≤ now') : Guarded v now' where
  held := h.held
  kept r hr := (h.kept r hr).imp_right fun ht => by omega
  early r hr := (h.early r hr).trans (by omega)
  once := h.once

/-- If the oldest entry of a full cache could still pass, one window holds the whole cache
and the request that wants in. -/
theorem Guarded.evicted (h : Guarded v now) (hfull : n ≤ v.cache.seen.entries.length)
    (hmin : ∀ e ∈ v.cache.seen.entries, t ≤ e.2)
    (hnew : now - skew ≤ r.timestamp ∧ r.timestamp ≤ now + skew)
    (hsparse : Sparse n (r :: v.accepted)) : t < now - skew := by
  by_contra hlt
  have hwindow := hsparse (now - skew)
  have hinside : ∀ e ∈ v.cache.seen.entries, e ∈ (v.accepted.filter fun r =>
      now - skew ≤ r.timestamp ∧ r.timestamp ≤ now - skew + 2 * skew).map
        fun r => (r.nonce, r.timestamp) := by
    rintro ⟨k, u⟩ he
    obtain ⟨r, hr, rfl, rfl⟩ := h.held k u (Dict.get?_eq_some.mpr he)
    have hlow := hmin _ he
    have hhigh := h.early r hr
    refine List.mem_map.mpr ⟨r, List.mem_filter.mpr ⟨hr, decide_eq_true ⟨?_, ?_⟩⟩, rfl⟩ <;>
      dsimp only at hlow <;> omega
  have hcount := (List.Nodup.subperm (List.Nodup.of_map _ v.cache.seen.nodup) hinside).length_le
  rw [List.length_map, ← List.countP_eq_length_filter] at hcount
  rw [List.countP_cons_of_pos (by simp only [decide_eq_true_eq]; omega)] at hwindow
  omega

/-- Accepting a request keeps the guard, if the requests accepted are sparse. -/
theorem Guarded.claimed (h : Guarded v now)
    (hclaim : v.cache.claim (fun s t => decide (s < t)) r.nonce r.timestamp = (some true, after))
    (hnew : now - skew ≤ r.timestamp ∧ r.timestamp ≤ now + skew)
    (hsparse : Sparse v.cache.capacity (r :: v.accepted)) : Guarded ⟨after, r :: v.accepted⟩ now := by
  obtain ⟨_, hnone, hself, hother⟩ := claim_spec hclaim
  -- a request under the new nonce that was accepted before is out of the cache, so too old
  have hgone : ∀ q ∈ v.accepted, q.nonce = r.nonce → q.timestamp < now - skew := by
    intro q hq hn
    refine (h.kept q hq).resolve_left ?_
    rw [hn, hnone]
    exact (Option.some_ne_none _).symm
  constructor
  · intro n t ht
    by_cases hn : n = r.nonce
    · subst hn
      exact ⟨r, List.mem_cons_self, rfl, Option.some.inj (hself.symm.trans ht)⟩
    · obtain he | ⟨he, _⟩ := hother n hn
      · obtain ⟨q, hq, hqn⟩ := h.held n t (he.symm.trans ht)
        exact ⟨q, List.mem_cons_of_mem _ hq, hqn⟩
      · rw [he] at ht
        cases ht
  · refine List.forall_mem_cons.mpr ⟨.inl hself, fun q hq => ?_⟩
    by_cases hn : q.nonce = r.nonce
    · exact .inr (hgone q hq hn)
    · obtain hk | hk := h.kept q hq
      · obtain he | ⟨_, hfull, u, hu, hmin⟩ := hother q.nonce hn
        · exact .inl (he.trans hk)
        · cases hk.symm.trans hu
          exact .inr (h.evicted hfull hmin hnew hsparse)
      · exact .inr hk
  · exact List.forall_mem_cons.mpr ⟨hnew.2, h.early⟩
  · refine List.pairwise_cons.mpr ⟨fun q hq hn ht => ?_, h.once⟩
    have hold := hgone q hq hn.symm
    omega

/-- One call keeps the guard, whatever it presents. -/
theorem Guarded.answer {env : Signing ℤ} (h : Guarded v now) (call : VerifyCall ℤ)
    (hclock : now ≤ call.now)
    (hsparse : Sparse v.cache.capacity (v.answer env.exact call).accepted) :
    Guarded (v.answer env.exact call) call.now ∧
      (v.answer env.exact call).cache.capacity = v.cache.capacity := by
  obtain ⟨he, _⟩ | ⟨r, after, hclaim, hfresh, _, he⟩ := answer_cases env.exact v call
  · rw [he]
    exact ⟨h.later hclock, rfl⟩
  · rw [he] at hsparse ⊢
    have hnear : |call.now - r.timestamp| ≤ skew := by
      simpa [Signing.exact, microTimes] using hfresh
    obtain ⟨hlow, hhigh⟩ := abs_le.mp hnear
    exact ⟨(h.later hclock).claimed hclaim ⟨by omega, by omega⟩ hsparse, (claim_spec hclaim).1⟩

theorem Sparse.suffix (hs : Sparse n rs') (h : rs <:+ rs') : Sparse n rs :=
  fun a => (h.sublist.countP_le).trans (hs a)

/-- A run of calls keeps the guard while the clock does not go back. -/
theorem Guarded.answers {env : Signing ℤ} (h : Guarded v now) {run : List (VerifyCall ℤ)}
    (hclock : (now :: run.map VerifyCall.now).Pairwise (· ≤ ·))
    (hsparse : Sparse v.cache.capacity (v.answers env.exact run).accepted) :
    ∃ later, Guarded (v.answers env.exact run) later := by
  induction run generalizing v now with
  | nil => exact ⟨now, h⟩
  | cons call run ih =>
    obtain ⟨hfirst, hrest⟩ := List.pairwise_cons.mp hclock
    have hone := hsparse.suffix (accepted_suffix env.exact (v.answer env.exact call) run)
    obtain ⟨hcall, hcap⟩ := h.answer call (hfirst _ List.mem_cons_self) hone
    exact ih hcall hrest (hcap ▸ hsparse)

theorem guarded_fresh (capacity : Nat) (now : ℤ) : Guarded (fresh capacity) now := by
  constructor
  · intro n t ht
    cases ht
  · intro r hr
    cases hr
  · intro r hr
    cases hr
  · exact List.Pairwise.nil

theorem accepted_signed {env : Signing ℤ} (run : List (VerifyCall ℤ))
    (h : ∀ r ∈ v.accepted, ∃ m, r.message env = some m) :
    ∀ r ∈ (v.answers env run).accepted, ∃ m, r.message env = some m := by
  induction run generalizing v with
  | nil => exact h
  | cons call run ih =>
    refine ih ?_
    obtain ⟨he, _⟩ | ⟨r, after, _, _, hm, he⟩ := answer_cases env v call
    · rwa [he]
    · rw [he]
      exact List.forall_mem_cons.mpr ⟨hm, h⟩

/-- What is signed for a node tells the nonce and the time. -/
theorem Same.nonce_eq {env : Signing ℤ} (h : Same env.exact r r')
    (hm : r.message env.exact = some m) : r.nonce = r'.nonce ∧ r.timestamp = r'.timestamp := by
  obtain ⟨hnode, hmessage⟩ := h
  have hm' := hmessage.symm.trans hm
  obtain ⟨d, hd, hs⟩ := Option.bind_eq_some_iff.mp hm
  obtain ⟨d', hd', hs'⟩ := Option.bind_eq_some_iff.mp hm'
  rw [← hnode] at hs'
  obtain ⟨hnonce, hstamp, _⟩ := signedText_inj (encode_injective hs hs') (microText_line _)
    (microText_line _) (bodyDigest_plain hd) (bodyDigest_plain hd')
  exact ⟨hnonce, microText_injective hstamp⟩

end

/-- With a clock that does not go back and at most as many requests accepted in any window
of twice the skew as the cache holds, no signed request is accepted twice; and a call that
is refused leaves the cache as it was, and everything that follows as if it had not been made. -/
theorem no_replay (env : Signing ℤ) (capacity : Nat) (run : List (VerifyCall ℤ))
    (hclock : (run.map VerifyCall.now).Pairwise (· ≤ ·))
    (hsparse : Sparse capacity ((fresh capacity).answers env.exact run).accepted) :
    (((fresh capacity).answers env.exact run).accepted.Pairwise fun r r' => ¬ Same env.exact r r') ∧
      ∀ before call after, run = before ++ call :: after →
        ((fresh capacity).answers env.exact before).refuses env.exact call →
        (((fresh capacity).answers env.exact before).verify env.exact call).2 =
            ((fresh capacity).answers env.exact before).cache ∧
          (fresh capacity).answers env.exact run = (fresh capacity).answers env.exact (before ++ after) := by
  constructor
  · have hstart : ∃ now, (now :: run.map VerifyCall.now).Pairwise (· ≤ ·) := by
      cases run with
      | nil => exact ⟨0, by simp⟩
      | cons call run =>
        refine ⟨call.now, List.pairwise_cons.mpr ⟨?_, hclock⟩⟩
        exact List.forall_mem_cons.mpr ⟨le_refl _, (List.pairwise_cons.mp hclock).1⟩
    obtain ⟨now, hnow⟩ := hstart
    obtain ⟨later, hguard⟩ := (guarded_fresh capacity now).answers hnow hsparse
    have hsigned : ∀ r ∈ ((fresh capacity).answers env.exact run).accepted,
        ∃ m, r.message env.exact = some m :=
      accepted_signed run fun r hr => absurd hr List.not_mem_nil
    refine hguard.once.imp_of_mem fun hr _ hne hsame => ?_
    obtain ⟨m, hm⟩ := hsigned _ hr
    obtain ⟨hnonce, htime⟩ := hsame.nonce_eq hm
    exact hne hnonce htime
  · rintro before call after rfl hrefuses
    refine ⟨cache_of_refuses hrefuses, ?_⟩
    simp only [answers, List.foldl_append, List.foldl_cons]
    exact congrArg (fun v => List.foldl (answer env.exact) v after) (answer_of_refuses hrefuses)

def helloDigest : Bytes :=
  [230, 114, 154, 184, 90, 171, 137, 217, 180, 134, 47, 105, 188, 185, 156, 54, 129, 154, 247,
    227, 151, 195, 64, 44, 145, 85, 105, 122, 199, 188, 215, 225]

def helloMessage (nonce stamp : String) : Bytes :=
  (encode (text "node\n" ++ text nonce ++ text "\n" ++ text stamp ++ text "\n" ++
    hexText helloDigest)).getD []

/-- Whole seconds read as microseconds, and the two signatures made for the requests below. -/
def helloSigning : Signing ℤ where
  sha256 := known [((encode (text "llama3\x00hello\x000")).getD [], helloDigest)]
  hmacSha256 _ := known
    [(helloMessage "n1" "1767225600.000000",
      [197, 216, 20, 112, 23, 100, 192, 117, 65, 173, 104, 52, 160, 141, 165, 80, 4, 125, 47, 72, 70,
    182, 239, 149, 198, 15, 229, 166, 163, 88, 28, 152]),
    (helloMessage "n2" "1767225661.000000",
      [194, 166, 46, 79, 154, 199, 9, 23, 255, 141, 23, 8, 166, 154, 136, 195, 181, 89, 203, 178, 73,
    12, 183, 154, 48, 184, 145, 127, 190, 79, 7, 181])]
  times := microTimes
    (fun
      | .int n => some (n * 1000000)
      | _ => none)
    fun t => .int (t / 1000000)
  repr _ := []

def helloCall (nonce : String) (timestamp now : ℤ) : VerifyCall ℤ where
  payload := .bytes ((encodeRequest helloSigning (text "node") (text "llama3") (text "hello") false
    (text "secret") timestamp (text nonce)).getD [])
  nodeId := text "node"
  token := some (text "secret")
  now

/-- A request, its replay, another one a minute later, and the first one again. -/
def helloRun : List (VerifyCall ℤ) :=
  [helloCall "n1" 1767225600000000 1767225600000000, helloCall "n1" 1767225600000000 1767225601000000,
    helloCall "n2" 1767225661000000 1767225661000000, helloCall "n1" 1767225600000000 1767225661000000]

theorem helloRun_accepted : ((fresh 1).answers helloSigning.exact helloRun).accepted.map
    SignedRequest.timestamp = [1767225661000000, 1767225600000000] := by
  decide +kernel

theorem helloRun_sparse : Sparse 1 ((fresh 1).answers helloSigning.exact helloRun).accepted := by
  intro a
  have hcount := congrArg (List.countP fun t => decide (a ≤ t ∧ t ≤ a + 2 * skew)) helloRun_accepted
  rw [List.countP_map] at hcount
  refine hcount.trans_le ?_
  unfold skew
  rw [List.countP_cons, List.countP_singleton]
  split <;> split <;> simp only [decide_eq_true_eq] at * <;> omega

theorem no_replay_of_hello :
    (((fresh 1).answers helloSigning.exact helloRun).accepted.Pairwise fun r r' =>
        ¬ Same helloSigning.exact r r') ∧
      ∀ before call after, helloRun = before ++ call :: after →
        ((fresh 1).answers helloSigning.exact before).refuses helloSigning.exact call →
        (((fresh 1).answers helloSigning.exact before).verify helloSigning.exact call).2 =
            ((fresh 1).answers helloSigning.exact before).cache ∧
          (fresh 1).answers helloSigning.exact helloRun =
            (fresh 1).answers helloSigning.exact (before ++ after) :=
  no_replay helloSigning 1 helloRun (by decide +kernel) helloRun_sparse

end Verifier
end PublicIntelligence.Mesh
