import PublicIntelligence.Node.QueryThreads
import PublicIntelligence.System.MeshCall

namespace PublicIntelligence.System.MeshDrain

open Runs Encoding Mesh Node QueryThreads

/-- The future of the call is in `_inflight`. -/
def Tracked (c : QueryCall) : Prop := c.thread = .added ∨ c.thread = .returned ∧ c.watched = true ∧ c.task ≠ .settled

/-- How far the thread and the coroutine of a call can be at once. -/
def Sound (c : QueryCall) : Prop :=
  match c.thread with
  | .called | .accepted => c.task = .absent ∧ c.watched = false ∧ c.sent = []
  | .scheduled | .added => c.task ≠ .absent ∧ c.watched = false
  | .returned =>
    c.task = .absent ∧ c.watched = false ∧ c.sent = notAccepting ∨
      c.task ≠ .absent ∧ (c.watched = true ∨ c.task.ended = true)

/-- Nothing is in `_inflight` but the futures of calls that are tracked. -/
structure Kept (s : QueryThreads τ) : Prop where
  inflight : ∀ i, i ∈ s.inflight ↔ ∃ c, s.calls.get? i = some c ∧ Tracked c
  sound : ∀ i c, s.calls.get? i = some c → Sound c

section
variable (env : Signing τ)

/-- What serving a query alone replies. -/
def replies (server : ZenohInferenceServer τ) (q : Query τ) : List Bytes :=
  (server.serve env q.ollama q.payload q.now).1.getD []

/-- The calls have been sent, or are to be sent, what serving their queries one after the other replies. -/
def Serves (calls : Dict Nat QueryCall) : ZenohInferenceServer τ → List (Nat × Query τ) → Prop
  | _, [] => True
  | server, (i, q) :: rest =>
    (∃ c, calls.get? i = some c ∧ q.payload = c.payload ∧ c.sent ++ c.task.rest = replies env server q) ∧
      Serves calls (served env server q) rest

/-- The queries that were begun, in this order, have made of the server what it is, each once. -/
structure Serial (first : ZenohInferenceServer τ) (s : QueryThreads τ) (order : List (Nat × Query τ)) : Prop where
  once : (order.map Prod.fst).Nodup
  begun : ∀ i, i ∈ order.map Prod.fst ↔ ∃ c, s.calls.get? i = some c ∧ c.task.begun = true
  server : s.server = servedAll env first (order.map Prod.snd)
  serves : Serves env s.calls first order
  silent : ∀ i c, s.calls.get? i = some c → c.task = .waiting → c.sent = []

end

section
variable {env : Signing τ} {first node : ZenohInferenceServer τ} {s t : QueryThreads τ}

theorem Kept.put (h : Kept s) (hc : t.calls = s.calls.set i c) (hsound : Sound c) (hin : i ∈ t.inflight ↔ Tracked c)
    (hother : ∀ j, j ≠ i → (j ∈ t.inflight ↔ j ∈ s.inflight)) : Kept t := by
  refine ⟨fun j => ?_, fun j d hd => ?_⟩
  · rw [hc, Dict.get?_set]
    split
    · rename_i hj
      subst hj
      rw [hin]
      exact ⟨fun hd => ⟨c, rfl, hd⟩, fun ⟨d, hd, ht⟩ => Option.some.inj hd ▸ ht⟩
    · rename_i hj
      rw [hother j (Ne.symm hj), h.inflight j]
  · rw [hc, Dict.get?_set] at hd
    split at hd
    · exact Option.some.inj hd ▸ hsound
    · exact h.sound j d hd

theorem serves_set {calls : Dict Nat QueryCall} (hsame : ∀ c, calls.get? i = some c → c.task.begun = true →
      d.payload = c.payload ∧ d.sent ++ d.task.rest = c.sent ++ c.task.rest)
    (hbegun : ∀ j ∈ order.map Prod.fst, ∃ c, calls.get? j = some c ∧ c.task.begun = true)
    (h : Serves env calls node order) : Serves env (calls.set i d) node order := by
  induction order generalizing node with
  | nil => trivial
  | cons entry order ih =>
    obtain ⟨j, q⟩ := entry
    obtain ⟨⟨e, he, hq, hreplies⟩, hrest⟩ := h
    refine ⟨?_, ih (fun k hk => hbegun k (List.mem_cons_of_mem _ hk)) hrest⟩
    by_cases hj : i = j
    · subst hj
      obtain ⟨e', he', hb⟩ := hbegun i List.mem_cons_self
      obtain rfl := Option.some.inj (he.symm.trans he')
      obtain ⟨hpayload, hsent⟩ := hsame e he hb
      exact ⟨d, Dict.get?_set_self _ _ _, hq.trans hpayload.symm, hsent.trans hreplies⟩
    · exact ⟨e, (Dict.get?_set_ne _ _ hj).trans he, hq, hreplies⟩

/-- A step of a call that does not begin its coroutine. -/
theorem Serial.set (h : Serial env first s order) (ht : t.calls = s.calls.set i d) (hserver : t.server = s.server)
    (hbegun : d.task.begun = true ↔ ∃ c, s.calls.get? i = some c ∧ c.task.begun = true)
    (hsame : ∀ c, s.calls.get? i = some c → c.task.begun = true →
      d.payload = c.payload ∧ d.sent ++ d.task.rest = c.sent ++ c.task.rest)
    (hsilent : d.task = .waiting → d.sent = []) : Serial env first t order := by
  refine ⟨h.once, fun j => ?_, hserver.trans h.server, ?_, fun j e he => ?_⟩
  · rw [h.begun j, ht, Dict.get?_set]
    split
    · rename_i hj
      subst hj
      simp only [← hbegun, Option.some.injEq, exists_eq_left']
    · exact Iff.rfl
  · rw [ht]
    exact serves_set hsame (fun j hj => (h.begun j).mp hj) h.serves
  · rw [ht, Dict.get?_set] at he
    split at he
    · exact Option.some.inj he ▸ hsilent
    · exact h.silent j e he

theorem Serial.put (h : Serial env first s order) (hc : s.calls.get? i = some c) (ht : t.calls = s.calls.set i d)
    (hserver : t.server = s.server) (hpayload : d.payload = c.payload) (hbegun : d.task.begun = c.task.begun)
    (hsent : c.task.begun = true → d.sent ++ d.task.rest = c.sent ++ c.task.rest)
    (hsilent : d.task = .waiting → d.sent = []) : Serial env first t order := by
  refine h.set ht hserver ?_ (fun e he hb => ?_) hsilent
  · simp only [hc, hbegun, Option.some.injEq, exists_eq_left']
  · obtain rfl := Option.some.inj (he.symm.trans hc)
    exact ⟨hpayload, hsent hb⟩

theorem serves_append {calls : Dict Nat QueryCall} : Serves env calls node (order ++ [(i, q)]) ↔
    Serves env calls node order ∧ ∃ c, calls.get? i = some c ∧ q.payload = c.payload ∧
      c.sent ++ c.task.rest = replies env (servedAll env node (order.map Prod.snd)) q := by
  induction order generalizing node with
  | nil => exact and_comm
  | cons entry order ih =>
    obtain ⟨j, p⟩ := entry
    rw [List.cons_append, Serves, Serves, ih, and_assoc]
    rfl

/-- The beginning of a coroutine: its query is served next. -/
theorem Serial.begin (h : Serial env first s order) (hc : s.calls.get? i = some c) (hwaits : c.task = .waiting)
    (q : Query τ) (hq : q.payload = c.payload) (ht : t.calls = s.calls.set i d) (hpayload : d.payload = c.payload)
    (hserver : t.server = served env s.server q) (hbegun : d.task.begun = true)
    (hsent : d.sent ++ d.task.rest = replies env s.server q) : Serial env first t (order ++ [(i, q)]) := by
  have hnot : c.task.begun = false := by rw [hwaits]; rfl
  have hnew : i ∉ order.map Prod.fst := by
    intro hi
    obtain ⟨e, he, hb⟩ := (h.begun i).mp hi
    obtain rfl := Option.some.inj (he.symm.trans hc)
    exact Bool.false_ne_true (hnot.symm.trans hb)
  have hget : t.calls.get? i = some d := by rw [ht, Dict.get?_set_self]
  refine ⟨?_, fun j => ?_, ?_, serves_append.mpr ⟨?_, d, hget, hq.trans hpayload.symm, ?_⟩, fun j e he hw => ?_⟩
  · rw [List.map_append]
    exact List.nodup_append.mpr ⟨h.once, List.nodup_singleton i, fun j hj k hk => by
      rw [List.mem_singleton.mp hk]
      rintro rfl
      exact hnew hj⟩
  · rw [List.map_append, List.mem_append, h.begun j, ht, Dict.get?_set]
    split
    · rename_i hj
      subst hj
      exact iff_of_true (.inr List.mem_cons_self) ⟨d, rfl, hbegun⟩
    · rename_i hj
      exact or_iff_left fun hm => hj (List.mem_singleton.mp hm).symm
  · rw [hserver, h.server, servedAll, servedAll, List.map_append, List.foldl_append]
    rfl
  · rw [ht]
    refine serves_set (fun e he hb => ?_) (fun j hj => (h.begun j).mp hj) h.serves
    obtain rfl := Option.some.inj (he.symm.trans hc)
    exact absurd (hnot.symm.trans hb) Bool.false_ne_true
  · rw [hsent, h.server]
  · rw [ht, Dict.get?_set] at he
    split at he
    · obtain rfl := Option.some.inj he
      rw [hw] at hbegun
      cases hbegun
    · exact h.silent j e he hw

theorem threadStep_kept (h : Kept s) (hserial : Serial env first s order) (hc : s.calls.get? i = some c)
    (hs : s.threadStep i c = some t) : Kept t ∧ Serial env first t order := by
  have hsound := h.sound i c hc
  have hin := h.inflight i
  simp only [hc, Option.some.injEq, exists_eq_left'] at hin
  unfold threadStep at hs
  unfold Sound at hsound
  cases hthread : c.thread with
  | called =>
    rw [hthread] at hs hsound
    obtain ⟨htask, hwatched, hsent⟩ := hsound
    have hout : ¬ Tracked c := by simp [Tracked, hthread]
    dsimp only at hs
    split at hs
    · cases hs
      refine ⟨h.put rfl ⟨htask, hwatched, hsent⟩ ?_ fun j _ => Iff.rfl,
        hserial.put hc rfl rfl rfl rfl (fun _ => rfl) ?_⟩
      · exact iff_of_false (fun hi => hout (hin.mp hi)) (by simp [Tracked])
      · exact fun _ => hsent
    · cases hs
      refine ⟨h.put rfl (.inl ⟨htask, hwatched, rfl⟩) ?_ fun j _ => Iff.rfl, hserial.put hc rfl rfl rfl rfl ?_ ?_⟩
      · exact iff_of_false (fun hi => hout (hin.mp hi)) (by simp [Tracked, hwatched])
      · exact fun hb => absurd hb (by rw [htask]; exact Bool.false_ne_true)
      · exact fun hw => absurd (htask.symm.trans hw) nofun
  | accepted =>
    rw [hthread] at hs hsound
    obtain ⟨htask, hwatched, hsent⟩ := hsound
    cases hs
    have hout : ¬ Tracked c := by simp [Tracked, hthread]
    refine ⟨h.put rfl ⟨nofun, hwatched⟩ ?_ fun j _ => Iff.rfl, hserial.put hc rfl rfl rfl ?_ ?_ fun _ => hsent⟩
    · exact iff_of_false (fun hi => hout (hin.mp hi)) (by simp [Tracked])
    · rw [htask]
      rfl
    · exact fun hb => absurd hb (by rw [htask]; exact Bool.false_ne_true)
  | scheduled =>
    rw [hthread] at hs hsound
    cases hs
    refine ⟨h.put rfl hsound ?_ fun j hj => ?_, hserial.put hc rfl rfl rfl rfl (fun _ => rfl) (hserial.silent i c hc)⟩
    · exact iff_of_true (Finset.mem_insert_self _ _) (.inl rfl)
    · exact Finset.mem_insert.trans (or_iff_right hj)
  | added =>
    rw [hthread] at hs hsound
    obtain ⟨htask, hwatched⟩ := hsound
    dsimp only at hs
    split at hs
    · rename_i hover
      cases hs
      refine ⟨h.put rfl (.inr ⟨htask, .inr hover⟩) ?_ fun j hj => ?_,
        hserial.put hc rfl rfl rfl rfl (fun _ => rfl) (hserial.silent i c hc)⟩
      · exact iff_of_false (Finset.notMem_erase _ _) (by simp [Tracked, hwatched])
      · exact Finset.mem_erase.trans (and_iff_right hj)
    · rename_i hover
      cases hs
      have hnot : c.task ≠ .settled := fun hsettled => hover (by rw [hsettled]; rfl)
      refine ⟨h.put rfl (.inr ⟨htask, .inl rfl⟩) ?_ fun j _ => Iff.rfl,
        hserial.put hc rfl rfl rfl rfl (fun _ => rfl) (hserial.silent i c hc)⟩
      exact iff_of_true (hin.mpr (.inl hthread)) (.inr ⟨rfl, rfl, hnot⟩)
  | returned =>
    rw [hthread] at hs
    cases hs

/-- A coroutine that goes on has a future that is not done, so that it makes no difference to `_inflight`. -/
theorem Sound.goes (h : Sound c) (hlive : c.task ≠ .absent) (hover : c.task.ended = false)
    (hthread : d.thread = c.thread) (hwatched : d.watched = c.watched) (habsent : d.task ≠ .absent)
    (hsettled : d.task ≠ .settled) : Sound d ∧ (Tracked d ↔ Tracked c) := by
  have hnot : c.task ≠ .settled := by
    rintro hs
    rw [hs] at hover
    cases hover
  refine ⟨?_, by simp only [Tracked, hthread, hwatched, ne_eq, hsettled, hnot, not_false_eq_true, and_true]⟩
  unfold Sound at h ⊢
  rw [hthread, hwatched]
  cases hc : c.thread with
  | called | accepted =>
    rw [hc] at h
    exact absurd h.1 hlive
  | scheduled | added =>
    rw [hc] at h
    exact ⟨habsent, h.2⟩
  | returned =>
    rw [hc] at h
    rcases h with ⟨hnone, _⟩ | ⟨_, hw | ho⟩
    · exact absurd hnone hlive
    · exact .inr ⟨habsent, .inl hw⟩
    · rw [hover] at ho
      cases ho

/-- A coroutine that begins serves its query, and then has the replies to send. -/
theorem beginStep_cases (hs : s.beginStep env i c ollama now = some t) :
    c.task = .waiting ∧ ∃ task : TaskPc, (task.begun = true ∧ task ≠ .absent ∧ task ≠ .settled) ∧
      task.rest = replies env s.server ⟨ollama, c.payload, now⟩ ∧
      t = { s.put i { c with task } with server := served env s.server ⟨ollama, c.payload, now⟩ } := by
  unfold beginStep at hs
  unfold replies served
  split at hs
  · rename_i hwaits
    refine ⟨hwaits, ?_⟩
    rcases hserve : s.server.serve env ollama c.payload now with ⟨answer, server⟩
    rw [hserve] at hs
    cases answer with
    | none =>
      cases hs
      refine ⟨.done, ⟨rfl, ?_, ?_⟩, rfl, rfl⟩
      · intro h
        cases h
      · intro h
        cases h
    | some rest =>
      cases hs
      refine ⟨.replying rest, ⟨rfl, ?_, ?_⟩, rfl, rfl⟩
      · intro h
        cases h
      · intro h
        cases h
  · cases hs

theorem beginStep_kept (h : Kept s) (hserial : Serial env first s order) (hc : s.calls.get? i = some c)
    (hs : s.beginStep env i c ollama now = some t) : Kept t ∧ ∃ order, Serial env first t order := by
  have hin := h.inflight i
  simp only [hc, Option.some.injEq, exists_eq_left'] at hin
  obtain ⟨hwaits, task, ⟨hbegun, habsent, hsettled⟩, hrest, rfl⟩ := beginStep_cases hs
  have hlive : c.task ≠ .absent := by
    rw [hwaits]
    intro hnone
    cases hnone
  have hover : c.task.ended = false := by rw [hwaits]; rfl
  have hsent := hserial.silent i c hc hwaits
  obtain ⟨hsound, htracked⟩ :=
    (h.sound i c hc).goes (d := { c with task }) hlive hover rfl rfl habsent hsettled
  refine ⟨h.put rfl hsound (hin.trans htracked.symm) fun j _ => Iff.rfl, _,
    hserial.begin hc hwaits ⟨ollama, c.payload, now⟩ rfl rfl rfl rfl hbegun ?_⟩
  dsimp only
  rw [hsent, List.nil_append, hrest]

theorem taskStep_kept (h : Kept s) (hserial : Serial env first s order) (hc : s.calls.get? i = some c)
    (hs : s.taskStep i c = some t) : Kept t ∧ Serial env first t order := by
  have hin := h.inflight i
  simp only [hc, Option.some.injEq, exists_eq_left'] at hin
  unfold taskStep at hs
  cases htask : c.task with
  | absent | waiting | settled =>
    rw [htask] at hs
    cases hs
  | replying rest =>
    have hlive : c.task ≠ .absent := by rw [htask]; exact nofun
    have hover : c.task.ended = false := by rw [htask]; rfl
    cases rest with
    | nil =>
      rw [htask] at hs
      cases hs
      obtain ⟨hsound, htracked⟩ := (h.sound i c hc).goes (d := { c with task := .done }) hlive hover rfl rfl nofun nofun
      refine ⟨h.put rfl hsound (hin.trans htracked.symm) fun j _ => Iff.rfl,
        hserial.put hc rfl rfl rfl ?_ (fun _ => ?_) nofun⟩
      · rw [htask]
        rfl
      · rw [htask]
        rfl
    | cons reply rest =>
      rw [htask] at hs
      cases hs
      obtain ⟨hsound, htracked⟩ := (h.sound i c hc).goes
        (d := { c with task := .replying rest, sent := c.sent ++ [reply] }) hlive hover rfl rfl nofun nofun
      refine ⟨h.put rfl hsound (hin.trans htracked.symm) fun j _ => Iff.rfl,
        hserial.put hc rfl rfl rfl ?_ (fun _ => ?_) nofun⟩
      · rw [htask]
        rfl
      · rw [htask]
        exact List.append_assoc _ _ _
  | done =>
    rw [htask] at hs
    cases hs
    have hsound := h.sound i c hc
    unfold Sound at hsound
    have hadded : c.thread = .added → c.watched = false := by
      intro hthread
      rw [hthread] at hsound
      exact hsound.2
    refine ⟨h.put (c := { c with task := .settled }) rfl ?_ ?_ fun j hj => ?_,
      hserial.put hc rfl rfl rfl ?_ (fun _ => ?_) nofun⟩
    · unfold Sound
      cases hthread : c.thread with
      | called | accepted =>
        rw [hthread] at hsound
        exact absurd (htask.symm.trans hsound.1) nofun
      | scheduled | added =>
        rw [hthread] at hsound
        exact ⟨nofun, hsound.2⟩
      | returned =>
        rw [hthread] at hsound
        rcases hsound with ⟨hnone, _⟩ | _
        · exact absurd (htask.symm.trans hnone) nofun
        · exact .inr ⟨nofun, .inr rfl⟩
    · -- the callback drops exactly what has it
      have htracked : Tracked { c with task := .settled } ↔ c.thread = .added := by simp [Tracked]
      rw [htracked]
      cases hw : c.watched with
      | true =>
        refine iff_of_false (Finset.notMem_erase _ _) fun hthread => ?_
        exact Bool.false_ne_true ((hadded hthread).symm.trans hw)
      | false =>
        refine hin.trans ⟨?_, .inl⟩
        rintro (hthread | ⟨_, hw', _⟩)
        · exact hthread
        · exact absurd (hw.symm.trans hw') Bool.false_ne_true
    · split
      · exact Finset.mem_erase.trans (and_iff_right hj)
      · exact Iff.rfl
    · rw [htask]
      rfl
    · rw [htask]
      rfl

theorem step_kept (h : Kept s ∧ ∃ order, Serial env first s order) (hs : step env s a = some t) :
    Kept t ∧ ∃ order, Serial env first t order := by
  obtain ⟨hk, order, hserial⟩ := h
  cases a with
  | start declares =>
    obtain rfl := Option.some.inj hs
    split
    · exact ⟨hk, order, hserial⟩
    · exact ⟨⟨hk.inflight, hk.sound⟩, order, hserial.once, hserial.begun, hserial.server, hserial.serves,
        hserial.silent⟩
  | stop =>
    obtain rfl := Option.some.inj hs
    split
    · exact ⟨⟨hk.inflight, hk.sound⟩, order, hserial.once, hserial.begun, hserial.server, hserial.serves,
        hserial.silent⟩
    · exact ⟨hk, order, hserial⟩
  | deliver i payload =>
    simp only [step] at hs
    split at hs
    · rename_i hdeliver
      cases hs
      have hnone := Dict.not_mem_iff.mp hdeliver.2
      refine ⟨hk.put rfl ⟨rfl, rfl, rfl⟩ (iff_of_false (fun hi => ?_) (by simp [Tracked])) fun j _ => Iff.rfl, order,
        hserial.set rfl rfl (iff_of_false nofun ?_) (fun c hc => ?_) nofun⟩
      · obtain ⟨c, hc, _⟩ := (hk.inflight i).mp hi
        cases hnone.symm.trans hc
      · rintro ⟨c, hc, _⟩
        cases hnone.symm.trans hc
      · cases hnone.symm.trans hc
    · cases hs
  | thread i =>
    obtain ⟨c, hc, hs⟩ := Option.bind_eq_some_iff.mp hs
    obtain ⟨hk', hserial'⟩ := threadStep_kept hk hserial hc hs
    exact ⟨hk', order, hserial'⟩
  | begin i ollama now =>
    obtain ⟨c, hc, hs⟩ := Option.bind_eq_some_iff.mp hs
    exact beginStep_kept hk hserial hc hs
  | task i =>
    obtain ⟨c, hc, hs⟩ := Option.bind_eq_some_iff.mp hs
    obtain ⟨hk', hserial'⟩ := taskStep_kept hk hserial hc hs
    exact ⟨hk', order, hserial'⟩

theorem run_kept (h : exec (step env) (start first) acts = some s) : Kept s ∧ ∃ order, Serial env first s order := by
  refine exec_invariant (I := fun s => Kept s ∧ ∃ order, Serial env first s order)
    (fun _ _ _ hi hs => step_kept hi hs) ⟨⟨fun i => ?_, fun i c hc => by cases hc⟩, [], ?_⟩ h
  · refine iff_of_false (Finset.notMem_empty i) ?_
    rintro ⟨_, hc, _⟩
    cases hc
  · refine ⟨List.nodup_nil, fun i => ?_, rfl, trivial, fun i c hc => by cases hc⟩
    refine iff_of_false List.not_mem_nil ?_
    rintro ⟨_, hc, _⟩
    cases hc

theorem mem_pending : i ∈ s.pending ↔ i ∈ s.inflight ∧ ∃ c, s.calls.get? i = some c ∧ c.task.ended = false := by
  simp only [pending, Finset.mem_filter, Option.any_eq_true, Bool.not_eq_true']

/-- Once nothing is pending, whatever was handed over by a call that has returned, or is about to, is answered. -/
theorem Kept.drained (h : Kept s) (hp : s.pending = ∅) (hc : s.calls.get? i = some c)
    (hthread : c.thread = .added ∨ c.thread = .returned) : c.task = .absent ∨ c.task.ended = true := by
  have hover : Tracked c → c.task.ended = true := by
    intro ht
    by_contra hnot
    have hmem := mem_pending.mpr ⟨(h.inflight i).mpr ⟨c, hc, ht⟩, c, hc, Bool.eq_false_iff.mpr hnot⟩
    rw [hp] at hmem
    exact Finset.notMem_empty i hmem
  have hsound := h.sound i c hc
  unfold Sound at hsound
  rcases hthread with ha | hr
  · exact .inr (hover (.inl ha))
  · rw [hr] at hsound
    rcases hsound with ⟨hnone, _⟩ | ⟨_, hw | ho⟩
    · exact .inl hnone
    · by_cases hs : c.task = .settled
      · exact .inr (by rw [hs]; rfl)
      · exact .inr (hover (.inr ⟨hr, hw, hs⟩))
    · exact .inr ho

theorem Kept.refused (h : Kept s) (hc : s.calls.get? i = some c) (hthread : c.thread = .returned)
    (hnone : c.task = .absent) : c.sent = notAccepting := by
  have hsound := h.sound i c hc
  unfold Sound at hsound
  rw [hthread] at hsound
  rcases hsound with ⟨_, _, hsent⟩ | ⟨hlive, _⟩
  · exact hsent
  · exact absurd hnone hlive

/-- No thread is in `_on_query`, and no coroutine is left. -/
def Quiet (s : QueryThreads τ) : Prop :=
  ∀ i c, s.calls.get? i = some c → c.thread = .returned ∧ (c.task = .absent ∨ c.task = .settled)

theorem Kept.empty (h : Kept s) (hq : Quiet s) : s.inflight = ∅ := by
  refine Finset.eq_empty_of_forall_notMem fun i hi => ?_
  obtain ⟨c, hc, ht⟩ := (h.inflight i).mp hi
  obtain ⟨hthread, htask⟩ := hq i c hc
  have hsound := h.sound i c hc
  unfold Sound at hsound
  rw [hthread] at hsound
  rcases ht with ha | ⟨_, hw, hs⟩
  · cases hthread.symm.trans ha
  · rcases htask with hnone | hsettled
    · rcases hsound with ⟨_, hnot, _⟩ | ⟨hlive, _⟩
      · exact Bool.false_ne_true (hnot.symm.trans hw)
      · exact hlive hnone
    · exact hs hsettled

end

/-- However the threads of the queryable, the event loop, starts and stops of the server interleave: the queries
that are served get what serving them one after the other in some order replies, each of them once, and the others
that the node has dealt with get the refusal; when `wait_for_inflight` has nothing to wait for, whatever was handed
over by a call past its registration is answered; and once all is quiet nothing is left in `_inflight`. -/
theorem mesh_drain (env : Signing τ) (first : ZenohInferenceServer τ) (acts : List (ThreadAct τ)) (s : QueryThreads τ)
    (hr : exec (step env) (start first) acts = some s) :
    (∃ order, Serial env first s order) ∧
      (∀ i c, s.calls.get? i = some c → c.thread = .returned → c.task = .absent → c.sent = notAccepting) ∧
      (s.pending = ∅ → ∀ i c, s.calls.get? i = some c → c.thread = .added ∨ c.thread = .returned →
        c.task = .absent ∨ c.task.ended = true) ∧
      (Quiet s → s.inflight = ∅) := by
  obtain ⟨hk, hserial⟩ := run_kept hr
  exact ⟨hserial, fun i c hc => hk.refused hc, fun hp i c hc => hk.drained hp hc, hk.empty⟩

/-- Two threads bring the same request and hand it over in turn, then the server stops. The coroutine of
the second is begun first, so that its query is served and the other is a replay; each call returns while
the other is still at work. -/
def stoppedAmid : List (ThreadAct ℤ) :=
  [.start true, .deliver 0 ZenohInferenceServer.helloPayload, .deliver 1 ZenohInferenceServer.helloPayload,
    .thread 0, .thread 1, .thread 1, .thread 0, .stop,
    .begin 1 ZenohInferenceServer.sampleClient 1767225600000000, .thread 0,
    .begin 0 ZenohInferenceServer.sampleClient 1767225600000001, .task 1, .thread 1, .task 0, .task 1, .thread 0,
    .task 0, .thread 1, .task 0, .task 1]

/-- The call is over: its thread is back, and its coroutine has sent something and come to its end. -/
def Over (c : QueryCall) : Prop := c.thread = .returned ∧ c.task = .settled ∧ c.sent ≠ []

instance decidableOver (c : QueryCall) : Decidable (Over c) := inferInstanceAs (Decidable (_ ∧ _ ∧ _))

theorem stopped_amid : ∃ s, exec (step Verifier.helloSigning) (start ZenohInferenceServer.sampleServer) stoppedAmid =
      some s ∧ (∀ i ∈ [0, 1], ∃ c, s.calls.get? i = some c ∧ Over c) ∧ s.inflight = ∅ ∧
      ∃ order, Serial Verifier.helloSigning ZenohInferenceServer.sampleServer s order := by
  have hrun : ((exec (step Verifier.helloSigning) (start ZenohInferenceServer.sampleServer) stoppedAmid).any fun s =>
      decide (s.calls.keys = [0, 1]) && [0, 1].all fun i => (s.calls.get? i).any fun c => decide (Over c)) = true := by
    decide +kernel
  obtain ⟨s, hs, hfacts⟩ := (Option.any_eq_true _ _).mp hrun
  obtain ⟨hkeys, hcalls⟩ := Bool.and_eq_true_iff.mp hfacts
  have hover : ∀ i ∈ [0, 1], ∃ c, s.calls.get? i = some c ∧ Over c := by
    intro i hi
    obtain ⟨c, hc, hdone⟩ := (Option.any_eq_true _ _).mp (List.all_eq_true.mp hcalls i hi)
    exact ⟨c, hc, of_decide_eq_true hdone⟩
  obtain ⟨hserial, _, _, hempty⟩ :=
    mesh_drain Verifier.helloSigning ZenohInferenceServer.sampleServer stoppedAmid s hs
  refine ⟨s, hs, hover, hempty fun i d hd => ?_, hserial⟩
  have hi : i ∈ s.calls.keys := Dict.mem_keys.mpr (Dict.mem_iff.mpr ⟨d, hd⟩)
  rw [of_decide_eq_true hkeys] at hi
  obtain ⟨c, hc, hthread, htask, _⟩ := hover i hi
  obtain rfl := Option.some.inj (hc.symm.trans hd)
  exact ⟨hthread, .inr htask⟩

end PublicIntelligence.System.MeshDrain
