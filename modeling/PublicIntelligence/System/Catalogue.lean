import PublicIntelligence.Node.Registration

namespace PublicIntelligence.System

open Runs Node Node.Runtime

/-- The two loops of a node that write its catalogue at the Scheduler: whoever
registers (`start()`, then the retry task) and the model refresh. -/
inductive Who where
  | registrar
  | refresher
deriving DecidableEq

inductive Request where
  | register (models : Catalogue)
  | push (models : Catalogue)
deriving DecidableEq

def Request.models : Request → Catalogue
  | .register ms => ms
  | .push ms => ms

/-- The catalogue-writing request a loop is waiting for. -/
def asks (r : Runtime) : Who → Option Request
  | .registrar =>
    if r.start = .registering ∨ r.retry = .registering then some (.register (r.nodeInfo.getD []))
    else if r.start = .publishing ∨ r.retry = .publishing then some (.push (r.nodeInfo.getD []))
    else none
  | .refresher =>
    match r.refresh with
    | .publishing ms => some (.push ms)
    | _ => none

/-- The segment that runs when a loop's request ends. -/
def resume (r : Runtime) (a : Answer) (rest : Bool) : Who → Runtime.Act
  | .registrar =>
    if r.start = .registering ∨ r.start = .publishing then .startAnswered a rest else .retryAnswered a
  | .refresher => .refreshAnswered a

/-- A segment that waits for no catalogue-writing request. `stop()` ends the node's life. -/
def isLocal : Runtime.Act → Bool
  | .startAnswered _ _ | .retryAnswered _ | .refreshAnswered _ | .stop => false
  | _ => true

/-- How a write at the Scheduler ends: answered, in error after it was stored, or
in error because only the memory took it. -/
inductive Fate where
  | answered
  | failedAfter
  | unsaved
deriving DecidableEq

/-- One node and the Scheduler. `record` and `stored` are the catalogue of the
node's record in the Scheduler's memory and in its store (if it has one); `answer`
holds what the Scheduler has answered and the node has not read; `strays` are
requests the node has given up on that may still arrive. -/
structure Pair where
  node : Runtime
  record : Option Catalogue
  stored : Option Catalogue
  durable : Bool
  answer : Who → Option Answer
  strays : List Request

namespace Pair

inductive Act where
  | node (a : Runtime.Act)
  | handled (w : Who) (fate : Fate)
  | refused (w : Who) (status : Nat)
  | answered (w : Who) (rest : Bool)
  | givenUp (w : Who) (raised rest : Bool)
  | strayHandled (i : Nat) (fate : Fate)
  | strayLost (i : Nat)
  | evicted (saved : Bool)
  | restarted

/-- A request that changes the record: a registration where there is none, a push where
there is one. -/
def takesEffect (s : Pair) : Request → Bool
  | .register _ => s.record.isNone
  | .push _ => s.record.isSome

def write (s : Pair) (models : Catalogue) (fate : Fate) : Pair :=
  { s with
    record := some models
    stored := if s.durable && fate ≠ .unsaved then some models else s.stored }

/-- `register_node` and `update_node_models` on the record, with the answer. -/
def handle (s : Pair) (q : Request) (fate : Fate) : Pair × Answer :=
  if s.takesEffect q then
    (s.write q.models fate, if fate = .answered then .ok else .error (some 500))
  else
    match q with
    | .register _ => (s, .error (some 409))
    | .push _ => (s, .error (some 404))

def setAnswer (s : Pair) (w : Who) (a : Option Answer) : Pair :=
  { s with answer := fun v => if v = w then a else s.answer v }

/-- The node reads an answer, or an error in its place. -/
def deliver (s : Pair) (w : Who) (a : Answer) (rest : Bool) : Option Pair :=
  (Runtime.step s.node (resume s.node a rest w)).map fun n =>
    ({ s with node := n } : Pair).setAnswer w none

def step : Step Pair Act
  | s, .node a =>
    if isLocal a then (Runtime.step s.node a).map fun n => { s with node := n } else none
  | s, .handled w fate =>
    match asks s.node w, s.answer w with
    | some q, none => some ((s.handle q fate).1.setAnswer w (some (s.handle q fate).2))
    | _, _ => none
  | s, .refused w status =>
    match asks s.node w, s.answer w with
    | some _, none => if status = 409 then none else some (s.setAnswer w (some (.error (some status))))
    | _, _ => none
  | s, .answered w rest =>
    match s.answer w with
    | some a => s.deliver w a rest
    | none => none
  | s, .givenUp w raised rest =>
    match asks s.node w with
    | some q =>
      let s' := if s.answer w = none then { s with strays := q :: s.strays } else s
      s'.deliver w (if raised then .raised else .error none) rest
    | none => none
  | s, .strayHandled i fate =>
    match s.strays[i]? with
    | some q => some { (s.handle q fate).1 with strays := s.strays.eraseIdx i }
    | none => none
  | s, .strayLost i => some { s with strays := s.strays.eraseIdx i }
  | s, .evicted saved =>
    some { s with record := none, stored := if saved then none else s.stored }
  | s, .restarted => some { s with record := s.stored }

/-- The node does not count its catalogue as known to the Scheduler, or the names
written are those it advertises. -/
def Harmless (s : Pair) (models : Catalogue) : Prop :=
  s.node.catalogueSynced = true → modelNames models = modelNames s.node.advertisedModels

/-- Every write that takes effect is acknowledged to the node, or harmless; no write
takes effect after the node has given up on it, unless harmless and alone; and no
loop sends a request while the other loop waits for one. -/
def Orderly (s : Pair) : Act → Prop
  | .node .retryWoke => s.node.retry = .sleeping → asks s.node .refresher = none
  | .node (.refreshListed (some ms)) =>
    s.node.nothingToPush ms = false → asks s.node .registrar = none
  | .handled w fate => fate ≠ .answered → ∀ q, asks s.node w = some q → s.takesEffect q = true →
    s.Harmless q.models
  | .givenUp w _ _ => s.answer w = some .ok → ∀ q, asks s.node w = some q → s.Harmless q.models
  | .strayHandled i _ => ∀ q, s.strays[i]? = some q → s.takesEffect q = true →
    s.Harmless q.models ∧ ∀ w, asks s.node w = none
  | _ => True

/-- Where the refresh finds nothing to push and the node has no other request in
flight, the Scheduler's record lists what Ollama just reported. -/
def Truthful (s : Pair) : Prop :=
  ∀ models, s.node.refresh = .listing → s.node.nothingToPush models = true →
    asks s.node .registrar = none → s.strays = [] →
    ∀ ms, s.record = some ms → modelNames ms = modelNames models

/-- A node that has not started, next to a Scheduler that may hold any record of it. -/
structure Fresh (s : Pair) : Prop where
  node : s.node = Runtime.init
  answer : ∀ w, s.answer w = none
  strays : s.strays = []
  stored : s.durable = false → s.stored = none

/-- Both copies of the record, where they exist, name these models. -/
def Lists (s : Pair) (models : Catalogue) : Prop :=
  ∀ ms, s.record = some ms ∨ s.stored = some ms → modelNames ms = modelNames models

structure Inv (s : Pair) : Prop where
  coherent : Coherent s.node
  volatile : s.durable = false → s.stored = none
  alone : asks s.node .registrar = none ∨ asks s.node .refresher = none
  awaited : ∀ w, asks s.node w = none → s.answer w = none
  /-- What is about to be acknowledged is what the Scheduler lists. -/
  acknowledged : ∀ w q, asks s.node w = some q → s.answer w = some .ok → s.Lists q.models
  synced : s.node.catalogueSynced = true → (∀ w, s.answer w ≠ some .ok) →
    s.Lists s.node.advertisedModels

end Pair

/-- A local segment neither learns nor unlearns what is advertised, and leaves the
requests in flight alone. -/
theorem local_spec (h : Coherent r) (ha : isLocal a = true) (hs : Runtime.step r a = some t) :
    t.catalogueSynced = r.catalogueSynced ∧ t.advertisedModels = r.advertisedModels ∧
      ∀ w q, asks r w = some q → asks t w = some q := by
  have h3 := h.started
  have h8 := h.busy
  cases a with
  | heartbeatAnswered a =>
    simp only [Runtime.step] at hs
    repeat' split at hs
    all_goals cases hs
    · have harm : ∀ r : Runtime, r.armRegistrationRetry.catalogueSynced = r.catalogueSynced ∧
          r.armRegistrationRetry.advertisedModels = r.advertisedModels ∧
          ∀ w q, asks r w = some q → asks r.armRegistrationRetry w = some q := by
        intro r
        unfold armRegistrationRetry
        split
        · exact ⟨rfl, rfl, fun w q hq => hq⟩
        · rename_i hlive
          refine ⟨rfl, rfl, fun w q hq => ?_⟩
          cases w with
          | refresher => exact hq
          | registrar => grind [asks, retryLive]
      exact ⟨(harm _).1, (harm _).2.1, fun w q hq => (harm _).2.2 w q (by cases w <;> exact hq)⟩
    · exact ⟨rfl, rfl, fun w q hq => by cases w <;> exact hq⟩
  | startAnswered | retryAnswered | refreshAnswered | stop => cases ha
  | _ =>
    simp only [Runtime.step, retryTop, refreshTop] at hs
    repeat' split at hs
    all_goals cases hs
    all_goals refine ⟨rfl, rfl, fun w q hq => ?_⟩
    all_goals cases w <;> grind [asks, startable, retryLive]

/-- A local segment sends at most one request, and `Orderly` keeps it from sending
one beside the other loop's. -/
theorem local_alone {s : Pair} (h : Coherent s.node) (ha : isLocal a = true) (ho : s.Orderly (.node a))
    (halone : asks s.node .registrar = none ∨ asks s.node .refresher = none)
    (hs : Runtime.step s.node a = some t) :
    asks t .registrar = none ∨ asks t .refresher = none := by
  have h3 := h.started
  have h6 := h.refreshing
  have h8 := h.busy
  cases a with
  | heartbeatAnswered a =>
    simp only [Runtime.step] at hs
    repeat' split at hs
    all_goals cases hs
    · unfold armRegistrationRetry
      grind [asks, retryLive]
    · exact halone
  | startAnswered | retryAnswered | refreshAnswered | stop => cases ha
  | _ =>
    simp only [Pair.Orderly] at ho
    simp only [Runtime.step, retryTop, refreshTop] at hs
    repeat' split at hs
    all_goals cases hs
    all_goals grind [asks, startable, retryLive]

/-- The end of a request, for what the node believes: acknowledged, the models are
advertised; otherwise nothing changes. -/
def Learns (r t : Runtime) (q : Request) (a : Answer) : Prop :=
  (a = .ok → t.catalogueSynced = true ∧ t.advertisedModels = q.models) ∧
  (a ≠ .ok → t.catalogueSynced = r.catalogueSynced ∧ t.advertisedModels = r.advertisedModels)

theorem refresher_learns (hq : asks r .refresher = some q)
    (hs : Runtime.step r (.refreshAnswered a) = some t) :
    Learns r t q a ∧ asks t .registrar = asks r .registrar := by
  simp only [Runtime.step] at hs
  split at hs
  · cases hs
    refine ⟨⟨?_, ?_⟩, ?_⟩
    all_goals grind [asks, publishModelCatalogue, refreshTop, Request.models]
  · cases hs

theorem starter_learns (h : Coherent r) (hq : asks r .registrar = some q)
    (hs : Runtime.step r (.startAnswered a rest) = some t) :
    Learns r t q a ∧ (asks r .refresher = none → asks t .refresher = none) := by
  have h3 := h.started
  have h8 := h.busy
  simp only [Runtime.step] at hs
  split at hs
  · rcases attempt_cases r a with ⟨ha, he⟩ | ⟨ha, he⟩ | ⟨⟨s, _, ha⟩, he⟩ | ⟨ha, he⟩
    all_goals rw [he] at hs; cases hs; subst ha
    all_goals refine ⟨⟨?_, ?_⟩, ?_⟩
    all_goals grind [asks, finishStart, armRegistrationRetry, Request.models]
  · cases hs
    refine ⟨⟨?_, ?_⟩, ?_⟩
    all_goals grind [asks, finishStart, publishModelCatalogue, Request.models, retryLive]
  · cases hs

theorem retrier_learns (h : Coherent r) (hn : ¬ (r.start = .registering ∨ r.start = .publishing))
    (hq : asks r .registrar = some q) (hs : Runtime.step r (.retryAnswered a) = some t) :
    Learns r t q a ∧ (asks r .refresher = none → asks t .refresher = none) := by
  have h2 := h.awake
  simp only [Runtime.step] at hs
  split at hs
  · rcases attempt_cases r a with ⟨ha, he⟩ | ⟨ha, he⟩ | ⟨⟨s, _, ha⟩, he⟩ | ⟨ha, he⟩
    all_goals rw [he] at hs; cases hs; subst ha
    all_goals refine ⟨⟨?_, ?_⟩, ?_⟩
    all_goals grind [asks, retryTop, Request.models]
  · cases hs
    refine ⟨⟨?_, ?_⟩, ?_⟩
    all_goals grind [asks, publishModelCatalogue, Request.models]
  · cases hs

/-- Whoever asked learns from the answer, and the other loop asks for nothing new. -/
theorem resume_learns (h : Coherent r) (hq : asks r w = some q)
    (hs : Runtime.step r (resume r a rest w) = some t) :
    Learns r t q a ∧ ∀ v, v ≠ w → asks r v = none → asks t v = none := by
  cases w with
  | refresher =>
    obtain ⟨hl, he⟩ := refresher_learns hq hs
    refine ⟨hl, ?_⟩
    rintro (_ | _) hv hn
    · exact he.trans hn
    · exact absurd rfl hv
  | registrar =>
    have hboth : Learns r t q a ∧ (asks r .refresher = none → asks t .refresher = none) := by
      change Runtime.step r (if r.start = .registering ∨ r.start = .publishing then _ else _) = _ at hs
      split at hs
      · exact starter_learns h hq hs
      · rename_i hn
        exact retrier_learns h hn hq hs
    refine ⟨hboth.1, ?_⟩
    rintro (_ | _) hv hn
    · exact absurd rfl hv
    · exact hboth.2 hn

namespace Pair

@[simp] theorem setAnswer_self (s : Pair) (w : Who) (a : Option Answer) :
    (s.setAnswer w a).answer w = a := if_pos rfl

theorem setAnswer_ne (s : Pair) (a : Option Answer) (h : v ≠ w) :
    (s.setAnswer w a).answer v = s.answer v := if_neg h

theorem Lists.write {s : Pair} (hs : s.durable = false → s.stored = none) :
    Lists (s.write ms .answered) ms := by
  rintro ms' (h | h)
  · cases h; rfl
  · simp only [Pair.write] at h
    split at h
    · cases h; rfl
    · rename_i hd
      have hv : s.durable = false := by simpa using hd
      rw [hs hv] at h
      cases h

/-- A harmless write keeps the lists what they were. -/
theorem Lists.write_harmless {s : Pair} (h : s.Lists ms) (hm : modelNames models = modelNames ms)
    (fate : Fate) : (s.write models fate).Lists ms := by
  rintro ms' (he | he)
  · cases he
    exact hm
  · simp only [Pair.write] at he
    split at he
    · cases he
      exact hm
    · exact h ms' (.inr he)

/-- What the Scheduler does with a request, and what it answers. -/
theorem handle_cases (s : Pair) (q : Request) (fate : Fate) :
    (s.takesEffect q = true ∧ s.handle q fate =
      (s.write q.models fate, if fate = .answered then .ok else .error (some 500))) ∨
    (s.takesEffect q = false ∧ (s.handle q fate).1 = s ∧ (s.handle q fate).2 ≠ .ok) := by
  cases h : s.takesEffect q with
  | true => exact .inl ⟨rfl, if_pos h⟩
  | false =>
    right
    unfold handle
    rw [if_neg (by simp [h])]
    cases q <;> exact ⟨rfl, rfl, nofun⟩

theorem Inv.quiet {s : Pair} (h : Inv s) (hq : asks s.node w = some q) (hv : v ≠ w) :
    asks s.node v = none := by
  rcases h.alone with hn | hn
  · cases v <;> cases w <;> simp_all
  · cases v <;> cases w <;> simp_all

theorem Inv.no_answer {s : Pair} (h : Inv s) (hq : asks s.node w = some q) (ha : s.answer w = none)
    (v : Who) : s.answer v = none := by
  by_cases hv : v = w
  · rw [hv]; exact ha
  · exact h.awaited v (h.quiet hq hv)

/-- An answer that acknowledges nothing. -/
theorem Inv.set_error {s : Pair} (h : Inv s) (hq : asks s.node w = some q) (ha : s.answer w = none)
    (he : a ≠ .ok) : Inv (s.setAnswer w (some a)) := by
  have hnone := h.no_answer hq ha
  have hne : ∀ v, (s.setAnswer w (some a)).answer v ≠ some .ok := by
    intro v
    by_cases hv : v = w
    · subst hv
      rw [setAnswer_self]
      exact fun hc => he (Option.some.inj hc)
    · rw [setAnswer_ne s _ hv, hnone v]
      exact nofun
  refine ⟨h.coherent, h.volatile, h.alone, ?_, fun v q' _ hv => absurd hv (hne v), fun hsync _ => ?_⟩
  · intro v hv
    rw [setAnswer_ne s _ fun he => ?_]
    · exact hnone v
    · subst he
      exact absurd (hq.symm.trans hv) nofun
  · exact h.synced hsync fun v => by rw [hnone v]; exact nofun

/-- A write that takes effect, with its acknowledgement on the way or harmless. -/
theorem Inv.set_written {s : Pair} (h : Inv s) (hq : asks s.node w = some q) (ha : s.answer w = none)
    (hf : fate ≠ .answered → s.Harmless q.models) :
    Inv ((s.write q.models fate).setAnswer w
      (some (if fate = .answered then .ok else .error (some 500)))) := by
  have hnone := h.no_answer hq ha
  refine ⟨h.coherent, ?_, h.alone, ?_, ?_, fun hsync hno => ?_⟩
  · intro hd
    change s.durable = false at hd
    simpa [setAnswer, write, hd] using h.volatile hd
  · intro v hv
    rw [setAnswer_ne _ _ fun he => ?_]
    · exact hnone v
    · subst he
      exact absurd (hq.symm.trans hv) nofun
  · intro v q' hq' hv
    by_cases he : v = w
    · subst he
      cases Option.some.inj (hq.symm.trans hq')
      rw [setAnswer_self] at hv
      split at hv
      · rename_i hans
        subst hans
        exact Lists.write h.volatile
      · cases hv
    · rw [setAnswer_ne _ _ he] at hv
      exact absurd ((hnone v).symm.trans hv) nofun
  · have hfate : fate ≠ .answered := fun he => hno w (by rw [setAnswer_self, if_pos he])
    have hlists := h.synced hsync fun v => by rw [hnone v]; exact nofun
    exact hlists.write_harmless (hf hfate hsync) fate

theorem handled_inv {s : Pair} (h : Inv s) (ho : s.Orderly (.handled w fate))
    (hs : step s (.handled w fate) = some t) : Inv t := by
  simp only [step] at hs
  split at hs
  · rename_i q hq ha
    cases hs
    rcases handle_cases s q fate with ⟨he, hh⟩ | ⟨_, hsame, hne⟩
    · rw [hh]
      exact h.set_written hq ha fun hf => ho hf q hq he
    · rw [hsame]
      exact h.set_error hq ha hne
  · cases hs

theorem refused_inv {s : Pair} (h : Inv s) (hs : step s (.refused w status) = some t) : Inv t := by
  simp only [step] at hs
  repeat' split at hs
  all_goals cases hs
  rename_i hq ha _
  exact h.set_error hq ha nofun

theorem node_inv {s : Pair} (h : Inv s) (ho : s.Orderly (.node a))
    (hs : step s (.node a) = some t) : Inv t := by
  simp only [step] at hs
  split at hs
  · rename_i hlocal
    obtain ⟨n, hn, rfl⟩ := Option.map_eq_some_iff.mp hs
    obtain ⟨hsync, hadv, hasks⟩ := local_spec h.coherent hlocal hn
    have hawait : ∀ w, asks n w = none → s.answer w = none := fun w hw => by
      apply h.awaited
      cases hq : asks s.node w with
      | none => rfl
      | some q => exact absurd ((hasks w q hq).symm.trans hw) nofun
    refine ⟨step_coherent _ _ _ h.coherent hn, h.volatile, local_alone h.coherent hlocal ho h.alone hn,
      hawait, ?_, ?_⟩
    · intro w q hq ha
      cases hq' : asks s.node w with
      | none => exact absurd ((h.awaited w hq').symm.trans ha) nofun
      | some q' =>
        cases Option.some.inj ((hasks w q' hq').symm.trans hq)
        exact h.acknowledged w q hq' ha
    · intro hs' hno
      change n.catalogueSynced = true at hs'
      change s.Lists n.advertisedModels
      rw [hadv]
      exact h.synced (hsync ▸ hs') hno
  · cases hs

/-- The node reads an answer, or gives up: what it then counts on is listed. -/
theorem deliver_inv {s : Pair} (h : Inv s) (hq : asks s.node w = some q)
    (hok : a = .ok → s.Lists q.models)
    (hno : a ≠ .ok → s.node.catalogueSynced = true → s.Lists s.node.advertisedModels)
    (hs : s.deliver w a rest = some t) : Inv t := by
  obtain ⟨n, hn, rfl⟩ := Option.map_eq_some_iff.mp hs
  obtain ⟨⟨hyes, hnot⟩, hother⟩ := resume_learns h.coherent hq hn
  have hnone : ∀ v, (({ s with node := n } : Pair).setAnswer w none).answer v = none := by
    intro v
    by_cases hv : v = w
    · rw [hv, setAnswer_self]
    · rw [setAnswer_ne _ _ hv]
      exact h.awaited v (h.quiet hq hv)
  refine ⟨step_coherent _ _ _ h.coherent hn, h.volatile, ?_, fun v _ => hnone v, ?_, ?_⟩
  · cases w with
    | registrar => exact .inr (hother .refresher nofun (h.quiet hq nofun))
    | refresher => exact .inl (hother .registrar nofun (h.quiet hq nofun))
  · intro v q' _ hv
    exact absurd ((hnone v).symm.trans hv) nofun
  · intro hsync _
    change n.catalogueSynced = true at hsync
    change s.Lists n.advertisedModels
    by_cases ha : a = .ok
    · rw [(hyes ha).2]
      exact hok ha
    · obtain ⟨hs', hadv⟩ := hnot ha
      rw [hadv]
      exact hno ha (hs' ▸ hsync)

theorem answered_inv {s : Pair} (h : Inv s) (hs : step s (.answered w rest) = some t) : Inv t := by
  simp only [step] at hs
  split at hs
  · rename_i a ha
    cases hq : asks s.node w with
    | none => exact absurd ((h.awaited w hq).symm.trans ha) nofun
    | some q =>
      refine deliver_inv h hq (fun he => h.acknowledged w q hq (he ▸ ha)) (fun he hsync => ?_) hs
      refine h.synced hsync fun v => ?_
      by_cases hv : v = w
      · rw [hv, ha]
        exact fun hc => he (Option.some.inj hc)
      · rw [h.awaited v (h.quiet hq hv)]
        exact nofun
  · cases hs

theorem givenUp_inv {s : Pair} (h : Inv s) (ho : s.Orderly (.givenUp w raised rest))
    (hs : step s (.givenUp w raised rest) = some t) : Inv t := by
  simp only [step] at hs
  split at hs
  · rename_i q hq
    have hnever : (if raised = true then Answer.raised else .error none) ≠ .ok := by
      split <;> exact nofun
    have hlists : s.node.catalogueSynced = true → s.Lists s.node.advertisedModels := by
      intro hsync
      by_cases ha : s.answer w = some .ok
      · have hharm := ho ha q hq hsync
        exact fun ms hm => (h.acknowledged w q hq ha ms hm).trans hharm
      · refine h.synced hsync fun v => ?_
        by_cases hv : v = w
        · rw [hv]; exact ha
        · rw [h.awaited v (h.quiet hq hv)]
          exact nofun
    split at hs
    · have h' : Inv { s with strays := q :: s.strays } :=
        ⟨h.coherent, h.volatile, h.alone, h.awaited, h.acknowledged, h.synced⟩
      exact deliver_inv h' hq (fun he => absurd he hnever) (fun _ => hlists) hs
    · exact deliver_inv h hq (fun he => absurd he hnever) (fun _ => hlists) hs
  · cases hs

theorem strayHandled_inv {s : Pair} (h : Inv s) (ho : s.Orderly (.strayHandled i fate))
    (hs : step s (.strayHandled i fate) = some t) : Inv t := by
  simp only [step] at hs
  split at hs
  · rename_i q hq
    cases hs
    rcases handle_cases s q fate with ⟨he, hh⟩ | ⟨_, hsame, _⟩
    · obtain ⟨hharm, hidle⟩ := ho q hq he
      rw [hh]
      refine ⟨h.coherent, ?_, h.alone, h.awaited, fun w q' hq' _ => ?_, fun hsync hno => ?_⟩
      · intro hd
        change s.durable = false at hd
        simpa [write, hd] using h.volatile hd
      · exact absurd ((hidle w).symm.trans hq') nofun
      · exact (h.synced hsync hno).write_harmless (hharm hsync) fate
    · rw [hsame]
      exact ⟨h.coherent, h.volatile, h.alone, h.awaited, h.acknowledged, h.synced⟩
  · cases hs

/-- A record that goes, or comes back from the store, is none the node was not told of. -/
theorem Inv.recall {s : Pair} (h : Inv s) {record stored : Option Catalogue}
    (hr : ∀ ms, record = some ms ∨ stored = some ms → s.record = some ms ∨ s.stored = some ms)
    (hv : s.durable = false → stored = none) : Inv { s with record := record, stored := stored } :=
  ⟨h.coherent, hv, h.alone, h.awaited, fun w q hq ha ms hm => h.acknowledged w q hq ha ms (hr ms hm),
    fun hsync hno ms hm => h.synced hsync hno ms (hr ms hm)⟩

theorem step_inv (s : Pair) (a : Act) (t : Pair) (h : Inv s) (ho : s.Orderly a)
    (hs : step s a = some t) : Inv t := by
  cases a with
  | node a => exact node_inv h ho hs
  | handled w fate => exact handled_inv h ho hs
  | refused w status => exact refused_inv h hs
  | answered w rest => exact answered_inv h hs
  | givenUp w raised rest => exact givenUp_inv h ho hs
  | strayHandled i fate => exact strayHandled_inv h ho hs
  | strayLost i =>
    cases hs
    exact ⟨h.coherent, h.volatile, h.alone, h.awaited, h.acknowledged, h.synced⟩
  | evicted saved =>
    cases hs
    refine h.recall (fun ms hm => ?_) (fun hd => ?_)
    · rcases hm with hm | hm
      · cases hm
      · split at hm
        · cases hm
        · exact .inr hm
    · rw [h.volatile hd]
      exact ite_self _
  | restarted =>
    cases hs
    exact h.recall (fun ms hm => .inr (hm.elim id id)) h.volatile

theorem Fresh.inv {s : Pair} (h : Fresh s) : Inv s := by
  have hinit : ∀ w, asks s.node w = none := by
    rw [h.node]
    intro w
    cases w <;> rfl
  refine ⟨h.node ▸ init_coherent, h.stored, .inl (hinit _), fun w _ => h.answer w, ?_, ?_⟩
  · intro w q hq
    exact absurd ((hinit w).symm.trans hq) nofun
  · rw [h.node]
    exact nofun

theorem Inv.truthful {s : Pair} (h : Inv s) : Truthful s := by
  intro models hlist hnothing hquiet _ ms hrec
  have hidle : ∀ w, asks s.node w = none := by
    rintro (_ | _)
    · exact hquiet
    · simp [asks, hlist]
  simp only [nothingToPush, Bool.and_eq_true, decide_eq_true_eq] at hnothing
  rw [hnothing.2]
  exact h.synced hnothing.1 (fun w => by rw [h.awaited w (hidle w)]; exact nofun) ms (.inl hrec)

/-- Along an orderly run, a refresh that has nothing to push is right about the
Scheduler's record in every state. -/
theorem nothing_to_push_truthful {s : Pair} {as : List Act} (hf : Fresh s)
    (ho : Along step Orderly s as) : Throughout step Truthful s as :=
  throughout_mono (fun _ h => h.truthful) (along_throughout step_inv hf.inv ho)

def blank : Pair := ⟨Runtime.init, none, none, true, fun _ => none, []⟩

theorem blank_fresh : Fresh blank := ⟨rfl, fun _ => rfl, rfl, nofun⟩

/-- A node registers with a model `a`, and comes to refresh its catalogue. -/
def joined : List Act :=
  [.node .start, .node (.discovered (some [[97]])), .node (.probed true),
    .handled .registrar .answered, .answered .registrar true, .node .refreshWoke]

theorem joined_orderly : Along step Orderly blank joined := by
  refine (along_cons rfl).mpr ⟨trivial, (along_cons rfl).mpr ⟨trivial, (along_cons rfl).mpr
    ⟨trivial, (along_cons rfl).mpr ⟨fun h => absurd rfl h, (along_cons rfl).mpr ⟨trivial,
    (along_cons rfl).mpr ⟨trivial, trivial⟩⟩⟩⟩⟩⟩

theorem joined_truthful : Throughout step Truthful blank joined :=
  nothing_to_push_truthful blank_fresh joined_orderly

/-- A model `b` is pulled and pushed: the Scheduler applies the push, its answer is
lost, and the model is removed again. -/
def pulled : List Act :=
  joined ++ [.node (.refreshListed (some [[97], [98]])), .handled .refresher .answered,
    .givenUp .refresher false true, .node .refreshWoke]

/-- The refresh finds nothing to push while the Scheduler still lists the removed model. -/
theorem pulled_not_truthful :
    ¬ ∀ s as t, Fresh s → exec step s as = some t → Truthful t := by
  intro h
  have hnames := h blank pulled _ blank_fresh rfl [[97]] rfl rfl rfl rfl [[97], [98]] rfl
  exact absurd hnames (by decide)

end Pair

end PublicIntelligence.System
