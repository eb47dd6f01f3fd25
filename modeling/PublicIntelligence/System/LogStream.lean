import PublicIntelligence.Node.LogBuffer
import PublicIntelligence.Scheduler.UsageHistory

namespace PublicIntelligence.System.LogStream

open Runs Text Encoding Node

/-- What an act writes to the log. -/
def written : LogAct → List LogEntry
  | .executed clock branch stdout stderr expired => sandboxEntries clock branch stdout stderr expired
  | _ => []

def logged (acts : List LogAct) : List LogEntry := acts.flatMap written

/-- What was written since the log was cleared for the last time. -/
def kept (seen : List LogEntry) : LogAct → List LogEntry
  | .clear => []
  | a => seen ++ written a

/-- What a stream that is opened after these acts begins with. -/
def recent (maxlen : Nat) (acts : List LogAct) : List LogEntry := ((acts.foldl kept []).rtake maxlen).rtake 50

def opens : LogAct → Bool
  | .opened _ => true
  | _ => false

/-- The queue that the next stream gets. -/
def nextQueue (acts : List LogAct) : Nat := acts.countP opens

def entryOf : LogFrame → Option LogEntry
  | .event entry => some entry
  | .keepAlive => none

/-- The entries that a stream has sent. -/
def events (s : LogStream) : List LogEntry := s.frames.filterMap entryOf

/-- What a stream has still to send of its snapshot. -/
def rest (s : LogStream) : List LogEntry :=
  match s.stand with
  | .snapshot rest => rest
  | _ => []

def Open (s : LogStream) : Prop := s.stand ≠ .ended

/-- A stream counts what it sent, and stops at its bound. -/
def Counted (s : LogStream) : Prop :=
  match s.stand with
  | .snapshot _ | .live => (events s).length = s.count + 1 ∧ (s.count = 0 ∨ s.full = false)
  | .idle => (events s).length = s.count ∧ s.maxEvents = none
  | .waiting => (events s).length = s.count ∧ (s.count = 0 ∨ s.full = false)
  | .ended => ∀ n, s.maxEvents = some n → (events s).length ≤ max 1 n.toNat

/-- The client reads on, and finds something in the queue. -/
def Reads (queue : Nat) (a : LogAct) : Prop := a = .pull queue ∨ a = .wake queue .got

/-- The queues that are subscribed are those of the streams that are open. -/
def Subscribed (h : LogHost) : Prop :=
  ∀ queue, queue ∈ h.log.subscribers ↔ ∃ s, h.streams.get? queue = some s ∧ Open s

/-- A stream has sent a part of what is due, and unless it has ended the rest of it is on its way. -/
def Follows (queue : Nat) (maxEvents : Option Int) (due : List LogEntry) (h : LogHost) : Prop :=
  queue < h.log.nextQueue ∧ ∃ s, h.streams.get? queue = some s ∧ s.maxEvents = maxEvents ∧ Counted s ∧
    events s <+: due ∧
    (Open s → ∃ pending, h.log.subscribers.get? queue = some pending ∧ events s ++ rest s ++ pending = due)

/-- What a stream does with what it took from its queue: it ends, or what it sent and has still to send goes on
with it. -/
structure Turn (s s' : LogStream) (taken : List LogEntry) : Prop where
  bound : s'.maxEvents = s.maxEvents
  counted : Counted s → Counted s'
  sent : s'.stand = .ended ∧ events s' = events s ∨ Open s' ∧ events s' ++ rest s' = events s ++ rest s ++ taken

section
variable {s s' : LogStream}

theorem events_send (s : LogStream) (f : LogFrame) (stand : Stand) :
    events (s.send f stand) = events s ++ (entryOf f).toList := by
  rw [events, LogStream.send, List.filterMap_append]
  cases f <;> rfl

theorem lt_of_not_full (h : s.full = false) (hn : s.maxEvents = some n) : (s.count : Int) < n := by
  rw [LogStream.full, hn, Option.any_some, decide_eq_false_iff_not] at h
  omega

theorem turn_ended (s : LogStream) (count : Nat) : Turn s { s with count := count, stand := .ended } [] where
  bound := rfl
  counted hc n hn := by
    have hsame : events { s with count := count, stand := .ended } = events s := rfl
    have hbound : s.maxEvents = some n := hn
    rw [hsame]
    unfold Counted at hc
    split at hc
    · obtain ⟨hlength, hzero | hfull⟩ := hc
      · omega
      · have := lt_of_not_full hfull hbound
        omega
    · obtain ⟨hlength, hzero | hfull⟩ := hc
      · omega
      · have := lt_of_not_full hfull hbound
        omega
    · rw [hbound] at hc
      cases hc.2
    · obtain ⟨hlength, hzero | hfull⟩ := hc
      · omega
      · have := lt_of_not_full hfull hbound
        omega
    · exact hc n hbound
  sent := .inl ⟨rfl, rfl⟩

/-- The snapshot goes on with a stream that sent as much as it counted. -/
theorem counted_replay (entries : List LogEntry) (hlength : (events s).length = s.count)
    (hfull : s.count = 0 ∨ s.full = false) : Counted (s.replay entries) := by
  cases entries with
  | nil => exact ⟨hlength, hfull⟩
  | cons e entries =>
    refine ⟨?_, hfull⟩
    rw [LogStream.replay, events_send, List.length_append, hlength]
    rfl

theorem sent_replay (s : LogStream) (entries : List LogEntry) :
    Open (s.replay entries) ∧ events (s.replay entries) ++ rest (s.replay entries) = events s ++ entries := by
  cases entries with
  | nil => exact ⟨nofun, rfl⟩
  | cons e entries =>
    refine ⟨nofun, ?_⟩
    rw [LogStream.replay, events_send, List.append_assoc]
    rfl

/-- Behind the `yield` of an entry a stream has reached its bound, or goes on. -/
theorem turn_counted (entries : List LogEntry) (hrest : rest s = entries)
    (hsent : Counted s → (events s).length = s.count + 1) :
    Turn s (s.counted fun s => s.replay entries) [] := by
  unfold LogStream.counted
  dsimp only
  split
  · exact turn_ended s (s.count + 1)
  · rename_i hfull
    rw [Bool.not_eq_true] at hfull
    obtain ⟨hopen, hgoes⟩ := sent_replay { s with count := s.count + 1 } entries
    refine ⟨?_, fun hc => counted_replay entries (hsent hc) (.inr hfull), .inr ⟨hopen, ?_⟩⟩
    · cases entries <;> rfl
    · rw [hgoes, hrest, List.append_nil]
      rfl

theorem turn_resume (h : s.resume = some s') : Turn s s' [] := by
  unfold LogStream.resume at h
  split at h
  · rename_i entries hstand
    cases h
    exact turn_counted entries (by rw [rest, hstand]) fun hc => by
      rw [Counted, hstand] at hc
      exact hc.1
  · rename_i hstand
    cases h
    exact turn_counted [] (by rw [rest, hstand]) fun hc => by
      rw [Counted, hstand] at hc
      exact hc.1
  · rename_i hstand
    cases h
    obtain ⟨hopen, hgoes⟩ := sent_replay s []
    refine ⟨rfl, fun hc => ?_, .inr ⟨hopen, by rw [hgoes, rest, hstand, List.append_nil, List.append_nil]⟩⟩
    rw [Counted, hstand] at hc
    exact counted_replay [] hc.1 (.inr (by rw [LogStream.full, hc.2, Option.any_none]))
  · cases h
  · cases h

theorem turn_got (entry : LogEntry) (hstand : s.stand = .waiting) :
    Turn s (s.send (.event entry) .live) [entry] where
  bound := rfl
  counted hc := by
    rw [Counted, hstand] at hc
    refine ⟨?_, hc.2⟩
    rw [events_send, List.length_append, hc.1]
    rfl
  sent := by
    refine .inr ⟨nofun, ?_⟩
    have hnone : rest s = [] := by rw [rest, hstand]
    rw [events_send, hnone, List.append_nil]
    exact List.append_nil _

theorem turn_timedOut (hstand : s.stand = .waiting) :
    Turn s (if s.maxEvents.isSome then { s with stand := .ended } else s.send .keepAlive .idle) [] := by
  split
  · exact turn_ended s s.count
  · rename_i hbound
    rw [Bool.not_eq_true, Option.isSome_eq_false_iff, Option.isNone_iff_eq_none] at hbound
    have hsame : events (s.send .keepAlive .idle) = events s := by
      rw [events_send]
      exact List.append_nil _
    refine ⟨rfl, fun hc => ?_, .inr ⟨nofun, ?_⟩⟩
    · rw [Counted, hstand] at hc
      exact ⟨by rw [hsame, hc.1]; rfl, hbound⟩
    · have hnone : rest s = [] := by rw [rest, hstand]
      rw [hsame, hnone, List.append_nil]
      rfl

end

/-- What a stream takes from its queue, and the log without it. -/
def Takes (log : SandboxLogBuffer) (queue : Nat) (taken : List LogEntry) (log' : SandboxLogBuffer) : Prop :=
  taken = [] ∧ log' = log ∨ ∃ entry pending, taken = [entry] ∧ log.subscribers.get? queue = some (entry :: pending) ∧
    log' = { log with subscribers := log.subscribers.set queue pending }

/-- The stream that an act is about. -/
def ofStream : LogAct → Option Nat
  | .pull queue | .wake queue _ | .close queue => some queue
  | _ => none

theorem writes_nothing (ha : ofStream a = some queue) (seen : List LogEntry) :
    kept seen a = seen ∧ written a = [] ∧ opens a = false := by
  cases a with
  | executed clock branch stdout stderr expired => cases ha
  | clear => cases ha
  | opened maxEvents => cases ha
  | pull q => exact ⟨List.append_nil seen, rfl, rfl⟩
  | wake q wake => exact ⟨List.append_nil seen, rfl, rfl⟩
  | close q => exact ⟨List.append_nil seen, rfl, rfl⟩

/-- A stream's own act is a turn of this stream. -/
theorem step_turn (hs : LogHost.step h a = some h') (ha : ofStream a = some queue) :
    ∃ s s' taken log, h.streams.get? queue = some s ∧ Open s ∧ Turn s s' taken ∧ Takes h.log queue taken log ∧
      h' = LogHost.settle { h with log := log } queue s' := by
  cases a with
  | executed clock branch stdout stderr expired => cases ha
  | clear => cases ha
  | opened maxEvents => cases ha
  | pull q =>
    cases ha
    simp only [LogHost.step, Option.bind_eq_bind, Option.bind_eq_some_iff, Option.pure_def, Option.some.injEq] at hs
    obtain ⟨s, hget, s', hresume, rfl⟩ := hs
    refine ⟨s, s', [], h.log, hget, fun hended => ?_, turn_resume hresume, .inl ⟨rfl, rfl⟩, rfl⟩
    rw [LogStream.resume, hended] at hresume
    cases hresume
  | wake q wake =>
    cases ha
    simp only [LogHost.step, Option.bind_eq_bind, Option.bind_eq_some_iff] at hs
    obtain ⟨s, hget, hs⟩ := hs
    split at hs
    · rename_i hstand
      have hopen : Open s := fun hended => by rw [hstand] at hended; cases hended
      cases wake with
      | disconnected =>
        cases hs
        exact ⟨s, _, [], h.log, hget, hopen, turn_ended s s.count, .inl ⟨rfl, rfl⟩, rfl⟩
      | got =>
        obtain ⟨r, hr, rfl⟩ := Option.map_eq_some_iff.mp hs
        obtain ⟨pending, hpending, hlog⟩ := SandboxLogBuffer.getEntry_eq_some hr
        exact ⟨s, _, [r.1], r.2, hget, hopen, turn_got r.1 hstand, .inr ⟨r.1, pending, rfl, hpending, hlog⟩, rfl⟩
      | timedOut =>
        cases hs
        exact ⟨s, _, [], h.log, hget, hopen, turn_timedOut hstand, .inl ⟨rfl, rfl⟩, rfl⟩
    · cases hs
  | close q =>
    cases ha
    simp only [LogHost.step, Option.bind_eq_bind, Option.bind_eq_some_iff] at hs
    obtain ⟨s, hget, hs⟩ := hs
    split at hs
    · cases hs
    · rename_i hopen
      cases hs
      exact ⟨s, _, [], h.log, hget, hopen, turn_ended s s.count, .inl ⟨rfl, rfl⟩, rfl⟩

/-- A stream opens with the end of the buffer, and with a queue of its own. -/
theorem step_opened (hs : LogHost.step h (.opened maxEvents) = some h') :
    ∃ s, Open s ∧ Counted s ∧ s.maxEvents = maxEvents ∧ events s ++ rest s = h.log.buffer.rtake 50 ∧
      h' = LogHost.settle { h with log := h.log.subscribe.2 } h.log.nextQueue s := by
  cases hs
  obtain ⟨hopen, hgoes⟩ := sent_replay (LogStream.init maxEvents) (h.log.buffer.rtake 50)
  refine ⟨_, hopen, counted_replay _ rfl (.inl rfl), ?_, hgoes, rfl⟩
  cases h.log.buffer.rtake 50 <;> rfl

section
variable {h h' : LogHost}

theorem takes_frame (ht : Takes log queue taken log') :
    log'.maxlen = log.maxlen ∧ log'.buffer = log.buffer ∧ log'.nextQueue = log.nextQueue ∧
      (∀ other, queue ≠ other → log'.subscribers.get? other = log.subscribers.get? other) ∧
      (queue ∈ log'.subscribers ↔ queue ∈ log.subscribers) := by
  obtain ⟨_, rfl⟩ | ⟨entry, pending, _, hget, rfl⟩ := ht
  · exact ⟨rfl, rfl, rfl, fun _ _ => rfl, Iff.rfl⟩
  · refine ⟨rfl, rfl, rfl, fun other hother => Dict.get?_set_ne _ _ hother, ?_⟩
    exact iff_of_true (Dict.mem_set.mpr (.inl rfl)) (Dict.mem_iff.mpr ⟨_, hget⟩)

/-- What the buffer holds after what was kept, and which queue is the next. -/
def Recorded (maxlen : Nat) (seen : List LogEntry) (n : Nat) (h : LogHost) : Prop :=
  h.log.maxlen = maxlen ∧ h.log.buffer = seen.rtake maxlen ∧ h.log.nextQueue = n

theorem buffer_foldl {b : SandboxLogBuffer} (es : List LogEntry) (hb : b.buffer = seen.rtake b.maxlen) :
    (es.foldl SandboxLogBuffer.addLog b).buffer = (seen ++ es).rtake b.maxlen := by
  induction es generalizing b seen with
  | nil => rw [List.append_nil, List.foldl_nil, hb]
  | cons e es ih =>
    have hone : (b.addLog e).buffer = (seen ++ [e]).rtake (b.addLog e).maxlen := by
      rw [SandboxLogBuffer.addLog, hb, Scheduler.rtake_append_rtake]
    rw [List.foldl_cons, ih hone, List.append_assoc]
    rfl

theorem turn_recorded (hs : LogHost.step h a = some h') (ha : ofStream a = some queue)
    (hr : Recorded maxlen seen n h) : Recorded maxlen (kept seen a) (n + if opens a then 1 else 0) h' := by
  obtain ⟨s, s', taken, log, _, _, _, htakes, rfl⟩ := step_turn hs ha
  obtain ⟨hmax, hbuffer, hnext, _⟩ := takes_frame htakes
  obtain ⟨hkept, _, hopens⟩ := writes_nothing ha seen
  rw [Recorded, LogHost.settle_maxlen, LogHost.settle_buffer, LogHost.settle_nextQueue, hkept, hopens]
  exact ⟨hmax.trans hr.1, hbuffer.trans hr.2.1, hnext.trans hr.2.2⟩

theorem step_recorded (hs : LogHost.step h a = some h') (hr : Recorded maxlen seen n h) :
    Recorded maxlen (kept seen a) (n + if opens a then 1 else 0) h' := by
  cases a with
  | executed clock branch stdout stderr expired =>
    cases hs
    obtain ⟨rfl, hbuffer, rfl⟩ := hr
    exact ⟨SandboxLogBuffer.foldl_addLog_maxlen _ _, buffer_foldl _ hbuffer,
      SandboxLogBuffer.foldl_addLog_nextQueue _ _⟩
  | clear =>
    cases hs
    exact ⟨hr.1, (List.rtake_nil _).symm, hr.2.2⟩
  | opened maxEvents =>
    obtain ⟨s, _, _, _, _, rfl⟩ := step_opened hs
    obtain ⟨rfl, hbuffer, rfl⟩ := hr
    have hsame : kept seen (.opened maxEvents) = seen := List.append_nil seen
    rw [Recorded, LogHost.settle_maxlen, LogHost.settle_buffer, LogHost.settle_nextQueue, hsame]
    exact ⟨rfl, hbuffer, rfl⟩
  | pull queue => exact turn_recorded hs rfl hr
  | wake queue wake => exact turn_recorded hs rfl hr
  | close queue => exact turn_recorded hs rfl hr

theorem run_recorded (hrun : exec LogHost.step h acts = some h') (hr : Recorded maxlen seen n h) :
    Recorded maxlen (acts.foldl kept seen) (n + nextQueue acts) h' := by
  induction acts generalizing h seen n with
  | nil =>
    cases hrun
    exact hr
  | cons a acts ih =>
    obtain ⟨t, hs, hrun⟩ := exec_cons.mp hrun
    have := ih hrun (step_recorded hs hr)
    rw [nextQueue, List.countP_cons, List.foldl_cons, add_comm (acts.countP opens), ← add_assoc]
    exact this

/-- The stream of a turn is subscribed as long as it is open. -/
theorem turn_subscribed (hs : LogHost.step h a = some h') (ha : ofStream a = some queue) (hsub : Subscribed h) :
    Subscribed h' := by
  obtain ⟨s, s', taken, log, hget, hopen, _, htakes, rfl⟩ := step_turn hs ha
  obtain ⟨_, _, _, hothers, hself⟩ := takes_frame htakes
  intro other
  rw [LogHost.settle_streams, Dict.get?_set]
  by_cases hq : queue = other
  · subst hq
    simp only [if_true, Option.some.injEq, exists_eq_left']
    by_cases hended : s'.stand = .ended
    · rw [LogHost.settle_ended queue hended]
      exact iff_of_false (fun h => (Dict.mem_pop.mp h).1 rfl) (fun h => h hended)
    · rw [LogHost.settle_open queue hended]
      exact iff_of_true (hself.mpr ((hsub queue).mpr ⟨s, hget, hopen⟩)) hended
  · rw [if_neg hq, Dict.mem_iff, LogHost.settle_other s' hq, hothers other hq, ← Dict.mem_iff]
    exact hsub other

theorem step_subscribed (hs : LogHost.step h a = some h') (hsub : Subscribed h) : Subscribed h' := by
  cases a with
  | executed clock branch stdout stderr expired =>
    cases hs
    intro queue
    rw [← hsub queue, Dict.mem_iff, Dict.mem_iff, SandboxLogBuffer.foldl_addLog_subscribers]
    simp
  | clear =>
    cases hs
    exact hsub
  | opened maxEvents =>
    obtain ⟨s, hopen, _, _, _, rfl⟩ := step_opened hs
    intro queue
    rw [LogHost.settle_streams, LogHost.settle_open _ hopen, Dict.get?_set]
    by_cases hq : h.log.nextQueue = queue
    · rw [if_pos hq]
      exact iff_of_true (Dict.mem_set.mpr (.inl hq.symm)) ⟨_, rfl, hopen⟩
    · rw [if_neg hq, ← hsub queue]
      exact Dict.mem_set.trans (or_iff_right (Ne.symm hq))
  | pull queue => exact turn_subscribed hs rfl hsub
  | wake queue wake => exact turn_subscribed hs rfl hsub
  | close queue => exact turn_subscribed hs rfl hsub

/-- A stream's turn leaves what is due to the other streams, and passes on what is due to itself. -/
theorem turn_follows (hs : LogHost.step h a = some h') (ha : ofStream a = some other)
    (hf : Follows queue maxEvents due h) : Follows queue maxEvents due h' := by
  obtain ⟨s, s', taken, log, hget, hopen, hturn, htakes, rfl⟩ := step_turn hs ha
  obtain ⟨_, _, hnext, hothers, _⟩ := takes_frame htakes
  obtain ⟨hlt, t, ht, hbound, hcounted, hprefix, hdue⟩ := hf
  refine ⟨by rw [LogHost.settle_nextQueue, hnext]; exact hlt, ?_⟩
  rw [LogHost.settle_streams, Dict.get?_set]
  by_cases hq : other = queue
  · subst hq
    obtain rfl : s = t := Option.some.inj (hget.symm.trans ht)
    obtain ⟨pending, hpending, hall⟩ := hdue hopen
    refine ⟨s', if_pos rfl, hturn.bound.trans hbound, hturn.counted hcounted, ?_⟩
    obtain ⟨hended, hevents⟩ | ⟨hstill, hgoes⟩ := hturn.sent
    · exact ⟨hevents ▸ hprefix, fun hstill => absurd hended hstill⟩
    · -- what the stream took was at the head of its queue
      obtain ⟨pending', hpending', htaken⟩ : ∃ pending', log.subscribers.get? other = some pending' ∧
          taken ++ pending' = pending := by
        obtain ⟨rfl, rfl⟩ | ⟨entry, pending', rfl, hentry, rfl⟩ := htakes
        · exact ⟨pending, hpending, rfl⟩
        · exact ⟨pending', Dict.get?_set_self _ _ _, Option.some.inj (hentry.symm.trans hpending)⟩
      have hgo : events s' ++ rest s' ++ pending' = due := by
        rw [hgoes, List.append_assoc, htaken, hall]
      refine ⟨?_, fun _ => ⟨pending', ?_, hgo⟩⟩
      · rw [← hgo, List.append_assoc]
        exact List.prefix_append _ _
      · rw [LogHost.settle_open _ hstill]
        exact hpending'
  · refine ⟨t, by rw [if_neg hq]; exact ht, hbound, hcounted, hprefix, fun hstill => ?_⟩
    obtain ⟨pending, hpending, hall⟩ := hdue hstill
    exact ⟨pending, by rw [LogHost.settle_other s' hq, hothers queue hq]; exact hpending, hall⟩

theorem step_follows (hs : LogHost.step h a = some h') (hf : Follows queue maxEvents due h) :
    Follows queue maxEvents (due ++ written a) h' := by
  cases a with
  | executed clock branch stdout stderr expired =>
    cases hs
    obtain ⟨hlt, s, hget, hbound, hcounted, hprefix, hdue⟩ := hf
    refine ⟨?_, s, hget, hbound, hcounted, hprefix.trans (List.prefix_append _ _), fun hopen => ?_⟩
    · rw [SandboxLogBuffer.foldl_addLog_nextQueue]
      exact hlt
    · obtain ⟨pending, hpending, rfl⟩ := hdue hopen
      refine ⟨pending ++ sandboxEntries clock branch stdout stderr expired, ?_, ?_⟩
      · rw [SandboxLogBuffer.foldl_addLog_subscribers, hpending]
        rfl
      · simp only [List.append_assoc, written]
  | clear =>
    cases hs
    exact (List.append_nil due).symm ▸ hf
  | opened maxEvents' =>
    obtain ⟨s', hopen, _, _, _, rfl⟩ := step_opened hs
    obtain ⟨hlt, s, hget, hbound, hcounted, hprefix, hdue⟩ := hf
    have hother : h.log.nextQueue ≠ queue := Nat.ne_of_gt hlt
    have hsame : due ++ written (.opened maxEvents') = due := List.append_nil due
    rw [Follows, LogHost.settle_nextQueue, LogHost.settle_streams, LogHost.settle_other s' hother, hsame]
    refine ⟨Nat.lt_succ_of_lt hlt, s, by rw [Dict.get?_set_ne _ _ hother]; exact hget, hbound, hcounted, hprefix, ?_⟩
    intro hstill
    obtain ⟨pending, hpending, hall⟩ := hdue hstill
    exact ⟨pending, (Dict.get?_set_ne _ _ hother).trans hpending, hall⟩
  | pull other => exact (List.append_nil due).symm ▸ turn_follows hs rfl hf
  | wake other wake => exact (List.append_nil due).symm ▸ turn_follows hs rfl hf
  | close other => exact (List.append_nil due).symm ▸ turn_follows hs rfl hf

theorem run_follows (hrun : exec LogHost.step h acts = some h') (hf : Follows queue maxEvents due h) :
    Follows queue maxEvents (due ++ logged acts) h' := by
  induction acts generalizing h due with
  | nil =>
    cases hrun
    exact (List.append_nil due).symm ▸ hf
  | cons a acts ih =>
    obtain ⟨t, hs, hrun⟩ := exec_cons.mp hrun
    rw [logged, List.flatMap_cons, ← List.append_assoc]
    exact ih hrun (step_follows hs hf)

/-- A stream follows from its opening on. -/
theorem opened_follows (hs : LogHost.step h (.opened maxEvents) = some h') :
    Follows h.log.nextQueue maxEvents (h.log.buffer.rtake 50) h' := by
  obtain ⟨s, hopen, hcounted, hbound, hgoes, rfl⟩ := step_opened hs
  rw [Follows, LogHost.settle_nextQueue, LogHost.settle_streams, LogHost.settle_open _ hopen]
  refine ⟨Nat.lt_succ_self _, s, Dict.get?_set_self _ _ _, hbound, hcounted, hgoes ▸ List.prefix_append _ _, ?_⟩
  exact fun _ => ⟨[], Dict.get?_set_self _ _ _, by rw [List.append_nil, hgoes]⟩

theorem length_events (hc : Counted s) (hn : s.maxEvents = some n) : (events s).length ≤ max 1 n.toNat := by
  obtain ⟨hbound, hcounted, _⟩ := turn_ended s s.count
  exact hcounted hc n hn

theorem logged_reads (h : ∀ a ∈ acts, Reads queue a) : logged acts = [] := by
  refine List.flatMap_eq_nil_iff.mpr fun a ha => ?_
  obtain rfl | rfl := h a ha
  · rfl
  · rfl

/-- Without a bound a stream goes on behind each `yield`. -/
theorem resume_unbounded (hbound : s.maxEvents = none) (hopen : Open s) (hwaits : s.stand ≠ .waiting) :
    ∃ count, s.resume = some ({ s with count := count }.replay (rest s)) := by
  obtain ⟨bound, count, stand, frames⟩ := s
  obtain rfl : bound = none := hbound
  cases stand with
  | snapshot entries => exact ⟨count + 1, rfl⟩
  | live => exact ⟨count + 1, rfl⟩
  | idle => exact ⟨count, rfl⟩
  | waiting => exact absurd rfl hwaits
  | ended => exact absurd rfl hopen

/-- A stream that waits is given the head of its queue. -/
theorem wake_got (hget : h.streams.get? queue = some s) (hstand : s.stand = .waiting)
    (hpending : h.log.subscribers.get? queue = some (e :: pending)) :
    ∃ h', LogHost.step h (.wake queue .got) = some h' ∧
      h'.streams.get? queue = some (s.send (.event e) .live) := by
  have hs : LogHost.step h (.wake queue .got) = some (LogHost.settle
      { h with log := { h.log with subscribers := h.log.subscribers.set queue pending } } queue
      (s.send (.event e) .live)) := by
    rw [LogHost.step, hget]
    simp only [Option.bind_eq_bind, Option.bind_some, hstand, if_true]
    rw [LogHost.wakeUp, SandboxLogBuffer.getEntry_eq hpending, Option.map_some]
  exact ⟨_, hs, Dict.get?_set_self _ _ _⟩

/-- A stream without a bound that has not sent all that is due sends the next entry as soon as it is read. -/
theorem read_next (hf : Follows queue none due h) (hget : h.streams.get? queue = some s) (hopen : Open s)
    (hne : events s ≠ due) :
    ∃ acts h' s', (∀ a ∈ acts, Reads queue a) ∧ exec LogHost.step h acts = some h' ∧
      h'.streams.get? queue = some s' ∧ Open s' ∧ (events s').length = (events s).length + 1 := by
  obtain ⟨_, t, ht, hbound, _, _, hdue⟩ := hf
  obtain rfl : s = t := Option.some.inj (hget.symm.trans ht)
  obtain ⟨pending, hpending, hall⟩ := hdue hopen
  have hsent : ∀ (t : LogStream) e stand, (events (t.send (.event e) stand)).length = (events t).length + 1 := by
    intro t e stand
    rw [events_send, List.length_append]
    rfl
  by_cases hwaits : s.stand = .waiting
  · have hrest : rest s = [] := by rw [rest, hwaits]
    cases pending with
    | nil => exact absurd (by simpa [hrest] using hall) hne
    | cons e pending =>
      obtain ⟨h', hs, hget'⟩ := wake_got hget hwaits hpending
      refine ⟨[.wake queue .got], h', _, by simp [Reads], ?_, hget', nofun, hsent s e .live⟩
      exact exec_cons.mpr ⟨_, hs, rfl⟩
  · obtain ⟨count, hresume⟩ := resume_unbounded hbound hopen hwaits
    have hs : LogHost.step h (.pull queue) = some (h.settle queue ({ s with count := count }.replay (rest s))) := by
      rw [LogHost.step, hget]
      simp only [Option.bind_eq_bind, Option.bind_some, hresume, Option.pure_def]
    cases hrest : rest s with
    | cons e entries =>
      rw [hrest] at hs
      refine ⟨[.pull queue], _, _, by simp [Reads], exec_cons.mpr ⟨_, hs, rfl⟩, Dict.get?_set_self _ _ _, nofun, ?_⟩
      exact hsent { s with count := count } e _
    | nil =>
      rw [hrest] at hs
      cases pending with
      | nil => exact absurd (by simpa [hrest] using hall) hne
      | cons e pending =>
        -- behind its `yield` the stream waits, and is given what is in the queue
        have hlog : (h.settle queue ({ s with count := count }.replay [])).log = h.log := LogHost.settle_open _ nofun
        obtain ⟨h', hs', hget'⟩ := wake_got (h := h.settle queue ({ s with count := count }.replay []))
          (Dict.get?_set_self _ _ _) rfl (by rw [hlog]; exact hpending)
        refine ⟨[.pull queue, .wake queue .got], h', _, by simp [Reads], ?_, hget', nofun, hsent _ e .live⟩
        exact exec_cons.mpr ⟨_, hs, exec_cons.mpr ⟨_, hs', rfl⟩⟩

/-- Read on, a stream without a bound sends all that is due. -/
theorem read_all (hf : Follows queue none due h) (hget : h.streams.get? queue = some s) (hopen : Open s) :
    ∃ acts h' s', (∀ a ∈ acts, Reads queue a) ∧ exec LogHost.step h acts = some h' ∧
      h'.streams.get? queue = some s' ∧ events s' = due := by
  generalize hn : due.length - (events s).length = n
  induction n generalizing h s with
  | zero =>
    obtain ⟨_, t, ht, _, _, hprefix, _⟩ := id hf
    obtain rfl : s = t := Option.some.inj (hget.symm.trans ht)
    exact ⟨[], h, s, nofun, rfl, hget, hprefix.eq_of_length_le (by omega)⟩
  | succ n ih =>
    have hne : events s ≠ due := by
      rintro rfl
      omega
    obtain ⟨acts, h', s', hreads, hrun, hget', hopen', hlength⟩ := read_next hf hget hopen hne
    have hf' := run_follows hrun hf
    rw [logged_reads hreads, List.append_nil] at hf'
    obtain ⟨acts', h'', s'', hreads', hrun', hget'', hall⟩ := ih hf' hget' hopen' (by omega)
    refine ⟨acts ++ acts', h'', s'', ?_, exec_append.mpr ⟨h', hrun, hrun'⟩, hget'', hall⟩
    exact List.forall_mem_append.mpr ⟨hreads, hreads'⟩

end

/-- Whatever runs, is cleared, opened, read and closed around it: a log stream sends the end of the log as it was
when it opened and then every line that was logged since, in order, each once and at most as many as it was asked
for. Until it has ended all of this is sent or on its way, and reading on gets it; and the node keeps a queue
for the streams that are open, and for no other. -/
theorem log_stream (maxlen : Nat) (before after : List LogAct) (maxEvents : Option Int) (h : LogHost)
    (hr : exec LogHost.step (.start maxlen) (before ++ .opened maxEvents :: after) = some h) :
    ∃ s, h.streams.get? (nextQueue before) = some s ∧
      events s <+: recent maxlen before ++ logged after ∧
      (∀ n, maxEvents = some n → (events s).length ≤ max 1 n.toNat) ∧
      (Open s → ∃ pending, h.log.subscribers.get? (nextQueue before) = some pending ∧
        events s ++ rest s ++ pending = recent maxlen before ++ logged after) ∧
      (Open s → maxEvents = none → ∃ acts h' s', (∀ a ∈ acts, Reads (nextQueue before) a) ∧
        exec LogHost.step h acts = some h' ∧ h'.streams.get? (nextQueue before) = some s' ∧
        events s' = recent maxlen before ++ logged after) ∧
      Subscribed h := by
  obtain ⟨h₁, hbefore, hrun⟩ := exec_append.mp hr
  obtain ⟨h₂, hs, hafter⟩ := exec_cons.mp hrun
  have hrecorded : Recorded maxlen [] 0 (.start maxlen) := ⟨rfl, (List.rtake_nil _).symm, rfl⟩
  obtain ⟨_, hbuffer, hnext⟩ := run_recorded hbefore hrecorded
  have hsub : Subscribed h := by
    refine exec_invariant (fun _ _ _ hsub hs => step_subscribed hs hsub) (fun queue => ?_) hr
    exact iff_of_false (Dict.not_mem_empty queue) fun ⟨_, hnone, _⟩ => nomatch hnone
  have hf := run_follows hafter (opened_follows hs)
  rw [hbuffer, hnext, Nat.zero_add] at hf
  obtain ⟨_, s, hget, hbound, hcounted, hprefix, hdue⟩ := id hf
  refine ⟨s, hget, hprefix, fun n hn => length_events hcounted (hbound.trans hn), hdue, ?_, hsub⟩
  rintro hopen rfl
  exact read_all hf hget hopen

section

def line (message : Text) : LogEntry := ⟨text "12:00", text "stdout", text "main", message⟩

def prints (stdout : Text) : LogAct :=
  .executed (fun _ => text "12:00") (text "main") (stdout.flatMap encodePoint) [] false

/-- A log of two lines, of which a stream sends the one it finds there, and is given two that come in. -/
def watched : List LogAct := [prints (text "b\n \nc"), .pull 0, .wake 0 .got, .pull 0]

theorem log_stream_watched :
    ∃ h s, exec LogHost.step (.start 2) ([.clear, prints (text "a")] ++ .opened none :: watched) = some h ∧
      h.streams.get? 0 = some s ∧ events s <+: [line (text "a"), line (text "b"), line (text "c")] ∧
      Subscribed h := by
  have hruns :
      (exec LogHost.step (.start 2) ([.clear, prints (text "a")] ++ .opened none :: watched)).isSome = true := by
    decide +kernel
  have hdue : recent 2 [.clear, prints (text "a")] ++ logged watched =
      [line (text "a"), line (text "b"), line (text "c")] := by
    decide +kernel
  obtain ⟨h, hr⟩ := Option.isSome_iff_exists.mp hruns
  obtain ⟨s, hget, hprefix, _, _, _, hsub⟩ := log_stream 2 [.clear, prints (text "a")] watched none h hr
  exact ⟨h, s, hr, hget, hdue ▸ hprefix, hsub⟩

end
end PublicIntelligence.System.LogStream
