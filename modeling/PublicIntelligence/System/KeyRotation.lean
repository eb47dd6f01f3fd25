import PublicIntelligence.Lib.Runs
import PublicIntelligence.Lib.Words
import PublicIntelligence.Scheduler.Credentials

namespace PublicIntelligence.System.KeyRotation

open Runs Text Encoding Json Scheduler

/-- A gateway, the clock, and every token that was signed so far. -/
structure Gateway (κ : Type) where
  deployment : Deployment κ
  clock : ℚ
  made : List (Signature κ)

/-- What happens to the keys: time goes on, an operator redeploys, issues a credential over the API, or mints one
with the private key at hand. -/
inductive Act (κ : Type) where
  | tick (seconds : ℚ)
  | deploy (d : Deployment κ)
  | issue (payload : CredentialRequest)
  | mint (key : κ) (kid subject tenant : Text) (hours : ℤ)

/-- A credential that is refused signs nothing. -/
def step : Step (Gateway κ) (Act κ)
  | g, .tick seconds => if 0 ≤ seconds then some { g with clock := g.clock + seconds } else none
  | g, .deploy d => some { g with deployment := d }
  | g, .issue payload =>
    match issueCredential g.deployment g.clock payload with
    | .error _ => some g
    | .ok s => some { g with made := s :: g.made }
  | g, .mint key kid subject tenant hours =>
    some { g with made := signatureFor key kid subject tenant g.clock hours :: g.made }

def start (d : Deployment κ) (clock : ℚ) : Gateway κ := ⟨d, clock, []⟩

section
variable (jwt : Jwt κ)

/-- The public keys the gateway verifies with. -/
def active (d : Deployment κ) : List Text := d.verificationKeys.map Prod.snd

/-- Whatever a deployment signs with, it verifies with. -/
def Paired (d : Deployment κ) : Prop :=
  ∀ kid key, d.signingKey kid = .ok key → jwt.publicPem key ∈ active d

/-- Rotation by the book: a key is retired once the last token signed with it has expired, and nothing is signed
with a key that the gateway does not have. -/
def Careful (g : Gateway κ) : Act κ → Prop
  | .deploy d => Paired jwt d ∧ ∀ s ∈ g.made, g.clock < s.expiresAt → jwt.publicPem s.key ∈ active d
  | .mint key _ _ _ _ => jwt.publicPem key ∈ active g.deployment
  | _ => True

/-- A request's answer. -/
def answers (g : Gateway κ) (authorization : Option Text) : Except HttpError Fields :=
  verifyJwt jwt g.made g.clock g.deployment authorization

def bearer (s : Signature κ) : Option Text := some (text "Bearer " ++ jwt.encode s)

end

section
variable {jwt : Jwt κ}

/-- No token is from the future. -/
def Past (g : Gateway κ) : Prop := ∀ s ∈ g.made, (s.issuedAt : ℚ) ≤ g.clock

/-- Every live token was signed with a key that the gateway has. -/
def Kept (jwt : Jwt κ) (g : Gateway κ) : Prop :=
  Paired jwt g.deployment ∧ ∀ s ∈ g.made, g.clock < s.expiresAt → jwt.publicPem s.key ∈ active g.deployment

theorem step_past (h : step g a = some g') (hp : Past g) : Past g' := by
  cases a with
  | tick seconds =>
    simp only [step] at h
    split at h
    · rename_i hpos
      cases h
      intro s hs
      have hle := hp s hs
      change (s.issuedAt : ℚ) ≤ g.clock + seconds
      linarith
    · cases h
  | deploy d =>
    cases h
    exact hp
  | issue payload =>
    simp only [step] at h
    split at h
    · cases h
      exact hp
    · rename_i s hs
      cases h
      obtain ⟨_, _, hissued, _⟩ := issueCredential_ok hs
      refine List.forall_mem_cons.mpr ⟨?_, hp⟩
      rw [hissued]
      exact Int.floor_le g.clock
  | mint key kid subject tenant hours =>
    cases h
    exact List.forall_mem_cons.mpr ⟨Int.floor_le g.clock, hp⟩

theorem step_kept (h : step g a = some g') (hk : Kept jwt g) (hc : Careful jwt g a) : Kept jwt g' := by
  obtain ⟨hpaired, hlive⟩ := hk
  cases a with
  | tick seconds =>
    simp only [step] at h
    split at h
    · rename_i hpos
      cases h
      refine ⟨hpaired, fun s hs hexp => hlive s hs ?_⟩
      change g.clock + seconds < s.expiresAt at hexp
      linarith
    · cases h
  | deploy d =>
    cases h
    exact hc
  | issue payload =>
    simp only [step] at h
    split at h
    · cases h
      exact ⟨hpaired, hlive⟩
    · rename_i s hs
      cases h
      obtain ⟨hkey, _⟩ := issueCredential_ok hs
      exact ⟨hpaired, List.forall_mem_cons.mpr ⟨fun _ => hpaired _ _ hkey, hlive⟩⟩
  | mint key kid subject tenant hours =>
    cases h
    exact ⟨hpaired, List.forall_mem_cons.mpr ⟨fun _ => hc, hlive⟩⟩

theorem run_past (h : exec step (start d clock) acts = some g) : Past g :=
  exec_invariant (fun _ _ _ hp hs => step_past hs hp) (fun _ hs => absurd hs List.not_mem_nil) h

theorem run_kept (hpaired : Paired jwt d) (hc : Along step (Careful jwt) (start d clock) acts)
    (h : exec step (start d clock) acts = some g) : Kept jwt g :=
  along_invariant (fun _ _ _ hk hc hs => step_kept hs hk hc) ⟨hpaired, fun _ hs => absurd hs List.not_mem_nil⟩ hc h

theorem bearer_accepted (hideal : jwt.Ideal) (hp : Past g) (hk : Kept jwt g) (hs : s ∈ g.made)
    (hexp : g.clock < s.expiresAt) : answers jwt g (bearer jwt s) = .ok s.claims := by
  obtain ⟨hstart, htoken⟩ := split_bearer (hideal.oneWord s)
  exact (verifyJwt_eq_ok hideal).mpr ⟨_, s, rfl, hstart, hs, htoken.symm, hk.2 s hs hexp, rfl, hp s hs, hexp⟩

end

/-- In every run of deployments, credentials and minting, whatever the gateway takes was signed by a key that it
has, and has not expired; and as long as keys are rotated by the book, from a deployment that verifies what it signs,
no live token is ever refused, whichever key its header names. -/
theorem rotation (jwt : Jwt κ) (hideal : jwt.Ideal) (d : Deployment κ) (clock : ℚ) (acts : List (Act κ))
    (g : Gateway κ) (hr : exec step (start d clock) acts = some g) :
    (∀ authorization payload, answers jwt g authorization = .ok payload →
        ∃ s ∈ g.made, payload = s.claims ∧ s.Live g.clock ∧ jwt.publicPem s.key ∈ active g.deployment) ∧
      (Paired jwt d → Along step (Careful jwt) (start d clock) acts →
        ∀ s ∈ g.made, g.clock < s.expiresAt → answers jwt g (bearer jwt s) = .ok s.claims) := by
  refine ⟨fun authorization payload h => ?_, fun hpaired hc s hs hexp => ?_⟩
  · obtain ⟨header, s, _, _, hs, _, hkey, rfl, hlive⟩ := (verifyJwt_eq_ok hideal).mp h
    exact ⟨s, hs, rfl, hlive, hkey⟩
  · exact bearer_accepted hideal (run_past hr) (run_kept hpaired hc hr) hs hexp

section

/-- Two marks for each character, so that a text is told by its marks. -/
def marks (t : Text) : Text := t.flatMap fun c => [point (0x100 + c.val / 4096), point (0x100 + c.val % 4096)]

theorem marks_high (t : Text) : ∀ c ∈ marks t, 0x100 ≤ c.val := by
  intro c hc
  obtain ⟨d, _, hd⟩ := List.mem_flatMap.mp hc
  have hlt := d.isLt
  simp only [List.mem_cons, List.not_mem_nil, or_false] at hd
  rcases hd with rfl | rfl
  · rw [val_point (by omega)]
    omega
  · rw [val_point (by omega)]
    omega

theorem marks_injective : Function.Injective marks := by
  intro t
  induction t with
  | nil =>
    intro u h
    cases u with
    | nil => rfl
    | cons d u => cases h
  | cons c t ih =>
    intro u h
    cases u with
    | nil => cases h
    | cons d u =>
      simp only [marks, List.flatMap_cons, List.cons_append, List.nil_append, List.cons.injEq] at h
      obtain ⟨hhigh, hlow, hrest⟩ := h
      have hc := c.isLt
      have hd := d.isLt
      have hhigh := congrArg Fin.val hhigh
      have hlow := congrArg Fin.val hlow
      rw [val_point (by omega), val_point (by omega)] at hhigh hlow
      rw [Fin.ext (show c.val = d.val by omega), ih hrest]

/-- A token that spells its claims. -/
def spelled (s : Signature Bool) : Text :=
  ((marks s.subject ++ ofChar '.' :: marks s.tenantId) ++ ofChar '.' :: intText s.issuedAt) ++
    ofChar '.' :: intText s.expiresAt

def pemOf (key : Bool) : Text := if key then text "new" else text "old"

/-- A library that looks up what was signed. Every header names a key that there is not. -/
def spelling : Jwt Bool where
  publicPem := pemOf
  encode := spelled
  unverifiedKid _ := some (some (text "gone"))
  decode made now token key :=
    (made.find? fun s => decide (s.Live now ∧ pemOf s.key = key ∧ spelled s = token)).map Signature.claims

theorem not_mem_marks (h : c.val < 0x100) (t : Text) : c ∉ marks t := fun hc =>
  absurd (marks_high t c hc) (Nat.not_le.mpr h)

theorem not_mem_intText (hc : isDigit c = false) (hm : c ≠ ofChar '-') (n : ℤ) : c ∉ intText n := by
  have hdigits : c ∉ natText n.natAbs := fun h => by
    rw [natText_digits _ _ h] at hc
    cases hc
  unfold intText
  split
  · exact fun h => (List.mem_cons.mp h).elim hm hdigits
  · exact hdigits

theorem intText_injective : Function.Injective intText := by
  have hnat : ∀ m n : Nat, natText m = natText n → m = n := fun m n h => by
    rw [← digitsValue_natText m, h, digitsValue_natText]
  have hsign : ∀ n t, natText n ≠ ofChar '-' :: t := by
    intro n t h
    obtain ⟨c, cs, he, hc⟩ := natText_cons n
    rw [he] at h
    rw [(List.cons.inj h).1] at hc
    cases hc
  intro m n h
  unfold intText at h
  split at h <;> split at h
  · have := hnat _ _ (List.cons.inj h).2
    omega
  · exact absurd h.symm (hsign _ _)
  · exact absurd h (hsign _ _)
  · have := hnat _ _ h
    omega

theorem spelled_claims (h : spelled s = spelled s') : s.claims = s'.claims := by
  have hpoint : ∀ n, ofChar '.' ∉ intText n := not_mem_intText (by decide) (by decide)
  have hmarks : ∀ t, ofChar '.' ∉ marks t := not_mem_marks (by decide)
  obtain ⟨hbody, hexpires⟩ := Words.cut_last h (hpoint _) (hpoint _)
  obtain ⟨hnames, hissued⟩ := Words.cut_last hbody (hpoint _) (hpoint _)
  obtain ⟨hsubject, htenant⟩ := Words.cut_last hnames (hmarks _) (hmarks _)
  rw [Signature.claims, marks_injective hsubject, marks_injective htenant, intText_injective hissued,
    intText_injective hexpires]
  rfl

theorem spelling_ideal : spelling.Ideal where
  authentic made now token key claims h := by
    obtain ⟨s, hfind, rfl⟩ := Option.map_eq_some_iff.mp h
    have hmatch := List.find?_some hfind
    obtain ⟨hlive, hpem, htoken⟩ := of_decide_eq_true hmatch
    exact ⟨s, List.mem_of_find?_eq_some hfind, htoken, hpem, rfl, hlive⟩
  accepts made now s hs hlive := by
    obtain ⟨s', hfind⟩ : ∃ s', (made.find? fun s' => decide (s'.Live now ∧ pemOf s'.key = pemOf s.key ∧
        spelled s' = spelled s)) = some s' := by
      refine Option.isSome_iff_exists.mp (List.find?_isSome.mpr ⟨s, hs, ?_⟩)
      exact decide_eq_true ⟨hlive, rfl, rfl⟩
    have hmatch := List.find?_some hfind
    obtain ⟨_, _, htoken⟩ := of_decide_eq_true hmatch
    exact (congrArg (Option.map Signature.claims) hfind).trans (congrArg some (spelled_claims htoken))
  oneWord s := by
    have hspace : ∀ n, ofChar ' ' ∉ intText n := not_mem_intText (by decide) (by decide)
    have hmarks : ∀ t, ofChar ' ' ∉ marks t := not_mem_marks (by decide)
    have hpoint : ofChar ' ' ≠ ofChar '.' := by decide
    simp only [spelling, spelled, List.mem_append, List.mem_cons, hspace, hmarks, hpoint, or_self, not_false_eq_true]
  shows _ _ := spelled_claims

/-- The keys of the sample deployments are where their names say. -/
def keyFile (path : Text) : Option Bool :=
  if path = text "old.pem" then some false else if path = text "new.pem" then some true else none

def oldKey : Deployment Bool := ⟨some (text "old"), none, some (text "old.pem"), none, 720, keyFile⟩

/-- The new key has come, and the old one is going. -/
def bothKeys : Deployment Bool :=
  ⟨some (text "new"), some (text "old"), some (text "new.pem"), none, 720, keyFile⟩

def newKey : Deployment Bool := ⟨some (text "new"), none, some (text "new.pem"), none, 720, keyFile⟩

def developer : CredentialRequest :=
  ⟨text "tenant-a", text "requester", 2, kidPrimary, by decide, by decide, by decide⟩

/-- A token of the old key, the rotation, a token of the new key, and the old one is retired after its two hours. -/
def rotating : List (Act Bool) :=
  [.issue developer, .deploy bothKeys, .tick 7000, .issue developer, .tick 200, .deploy newKey]

def oldToken : Signature Bool := signatureFor false kidPrimary (text "requester") (text "tenant-a") 0 2

def newToken : Signature Bool := signatureFor true kidPrimary (text "requester") (text "tenant-a") (0 + 7000) 2

theorem paired_of_primary {d : Deployment Bool} (key : Bool) (hnone : d.jwtPrivateKeyPathSecondary = none)
    (hprimary : d.signingKey kidPrimary = .ok key) (h : pemOf key ∈ active d) : Paired spelling d := by
  intro kid key' hkey
  by_cases hkid : kid = kidPrimary
  · rw [hkid, hprimary] at hkey
    cases hkey
    exact h
  · rw [Deployment.signingKey, if_neg hkid, hnone] at hkey
    cases hkey

def rotated : Gateway Bool := ⟨newKey, 0 + 7000 + 200, [newToken, oldToken]⟩

theorem rotating_careful : exec step (start oldKey 0) rotating = some rotated ∧
    Along step (Careful spelling) (start oldKey 0) rotating := by
  have h0 : step (start oldKey 0) (.issue developer) = some ⟨oldKey, 0, [oldToken]⟩ := rfl
  have h1 : step ⟨oldKey, 0, [oldToken]⟩ (.deploy bothKeys) = some ⟨bothKeys, 0, [oldToken]⟩ := rfl
  have h2 : step ⟨bothKeys, 0, [oldToken]⟩ (.tick 7000) = some ⟨bothKeys, 0 + 7000, [oldToken]⟩ := rfl
  have h3 : step ⟨bothKeys, 0 + 7000, [oldToken]⟩ (.issue developer) =
      some ⟨bothKeys, 0 + 7000, [newToken, oldToken]⟩ := rfl
  have h4 : step ⟨bothKeys, 0 + 7000, [newToken, oldToken]⟩ (.tick 200) =
      some ⟨bothKeys, 0 + 7000 + 200, [newToken, oldToken]⟩ := rfl
  have h5 : step ⟨bothKeys, 0 + 7000 + 200, [newToken, oldToken]⟩ (.deploy newKey) = some rotated := rfl
  have hboth : Paired spelling bothKeys := paired_of_primary true rfl rfl (by decide)
  have hnew : Paired spelling newKey := paired_of_primary true rfl rfl (by decide)
  -- the old token has just expired when its key goes
  have hexpired : ¬ (0 + 7000 + 200 : ℚ) < oldToken.expiresAt := by decide +kernel
  refine ⟨?_, ?_⟩
  · rw [rotating]
    simp only [exec, h0, h1, h2, h3, h4, h5, Option.bind_some]
  · rw [rotating, along_cons h0, along_cons h1, along_cons h2, along_cons h3, along_cons h4, along_cons h5]
    refine ⟨trivial, ⟨hboth, ?_⟩, trivial, trivial, trivial, ⟨hnew, ?_⟩, trivial⟩
    · exact List.forall_mem_singleton.mpr fun _ => by decide
    · exact List.forall_mem_cons.mpr ⟨fun _ => by decide, List.forall_mem_singleton.mpr fun h => absurd h hexpired⟩

/-- The new token is taken though its header names no key, and whatever is taken was signed with the new key. -/
theorem rotated_answers :
    (∀ authorization payload, answers spelling rotated authorization = .ok payload →
        ∃ s ∈ rotated.made, payload = s.claims ∧ s.Live rotated.clock ∧
          spelling.publicPem s.key ∈ active rotated.deployment) ∧
      answers spelling rotated (bearer spelling newToken) = .ok newToken.claims := by
  have hpaired : Paired spelling oldKey := paired_of_primary false rfl rfl (by decide)
  have hlive : rotated.clock < newToken.expiresAt := by decide +kernel
  obtain ⟨hrun, hcareful⟩ := rotating_careful
  obtain ⟨htaken, hkept⟩ := rotation spelling spelling_ideal oldKey 0 rotating rotated hrun
  exact ⟨htaken, hkept hpaired hcareful newToken List.mem_cons_self hlive⟩

end
end PublicIntelligence.System.KeyRotation
