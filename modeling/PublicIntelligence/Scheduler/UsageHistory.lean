import Mathlib.Data.List.DropRight
import Mathlib.Data.List.Sort
import PublicIntelligence.Lib.Runs
import PublicIntelligence.Scheduler.Metering

namespace PublicIntelligence.Scheduler

open Runs Text

/-- A row of `usage_records`. -/
structure UsageRow where
  id : Nat
  requestId : Text
  tenantId : Text
  nodeId : Text
  model : Text
  promptTokens : Int
  completionTokens : Int
  durationSeconds : ℚ
  succeeded : Int
  recordedAt : ℚ

/-- The order of `ORDER BY id DESC`. -/
def UsageRow.Later (r s : UsageRow) : Prop := s.id ≤ r.id

instance decidableLater : DecidableRel UsageRow.Later := fun r s => inferInstanceAs (Decidable (s.id ≤ r.id))

instance totalLater : Std.Total UsageRow.Later := ⟨fun r s => Nat.le_total s.id r.id⟩

instance transLater : IsTrans UsageRow UsageRow.Later := ⟨fun _ _ _ h h' => h'.trans h⟩

/-- SQLite keeps a table in the order of its `INTEGER PRIMARY KEY`. `lastId` is the table's
entry in `sqlite_sequence`. -/
structure UsageTable where
  rows : List UsageRow
  lastId : Nat
  ascending : rows.Pairwise fun r s => r.id < s.id
  known : ∀ r ∈ rows, r.id ≤ lastId

/-- `UsageRecord` as its constructor builds one: it refuses a negative duration. -/
abbrev BuiltRecord := { usage : UsageRecord // 0 ≤ usage.durationSeconds }

/-- The `UsageRecord` of a row, or `none` for a `ValidationError`. -/
def UsageRow.validate (r : UsageRow) : Option UsageRecord :=
  if 0 ≤ r.promptTokens ∧ 0 ≤ r.completionTokens ∧ 0 ≤ r.durationSeconds then
    some ⟨r.requestId, r.tenantId, r.nodeId, r.model, r.promptTokens.toNat, r.completionTokens.toNat,
      r.durationSeconds, r.succeeded ≠ 0, r.recordedAt⟩
  else none

namespace UsageTable

def empty : UsageTable := ⟨[], 0, .nil, fun _ h => absurd h List.not_mem_nil⟩

/-- The largest integer of SQLite. -/
def maxInteger : Nat := 2 ^ 63 - 1

def row (id : Nat) (u : UsageRecord) : UsageRow :=
  ⟨id, u.requestId, u.tenantId, u.nodeId, u.model, u.promptTokens, u.completionTokens, u.durationSeconds,
    if u.succeeded then 1 else 0, u.recordedAt⟩

/-- What can be bound: text that has an encoding, and integers of 64 bits. -/
def Storable (u : UsageRecord) : Prop :=
  u.Bindable ∧
    u.promptTokens ≤ maxInteger ∧ u.completionTokens ≤ maxInteger

instance decidableStorable (u : UsageRecord) : Decidable (Storable u) :=
  inferInstanceAs (Decidable (_ ∧ _ ∧ _))

/-- The row goes behind the others, since `AUTOINCREMENT` never gives out an id twice. -/
def insert (t : UsageTable) (u : UsageRecord) : UsageTable where
  rows := t.rows ++ [row (t.lastId + 1) u]
  lastId := t.lastId + 1
  ascending := by
    refine List.pairwise_append.mpr ⟨t.ascending, List.pairwise_singleton _ _, fun r hr s hs => ?_⟩
    rw [List.mem_singleton.mp hs]
    exact Nat.lt_succ_of_le (t.known r hr)
  known := by
    intro r hr
    rcases List.mem_append.mp hr with hr | hr
    · exact (t.known r hr).trans (Nat.le_succ _)
    · rw [List.mem_singleton.mp hr]
      exact le_rfl

/-- `save_usage`, or `none` where it raises. -/
def saveUsage (t : UsageTable) (u : UsageRecord) : Option UsageTable :=
  if Storable u ∧ t.lastId < maxInteger then some (t.insert u) else none

/-- `LIMIT`, which a negative number lifts. -/
def limited (limit : Int) (rows : List UsageRow) : List UsageRow :=
  if limit < 0 then rows else rows.take limit.toNat

/-- `load_usage`: the query gives the latest rows first, and what does not validate is skipped. -/
def loadUsage (t : UsageTable) (limit : Int) : List UsageRecord :=
  (limited limit (t.rows.insertionSort UsageRow.Later)).reverse.filterMap UsageRow.validate

/-- The query reads the table from its end. -/
theorem sorted_eq_reverse (t : UsageTable) : t.rows.insertionSort UsageRow.Later = t.rows.reverse := by
  have hdescending : t.rows.reverse.Pairwise UsageRow.Later :=
    List.pairwise_reverse.mpr (t.ascending.imp fun h => h.le)
  have hids : (t.rows.map UsageRow.id).Nodup :=
    List.pairwise_map.mpr (t.ascending.imp fun h => h.ne)
  have hsame : ∀ r s, r ∈ t.rows.insertionSort UsageRow.Later → s ∈ t.rows.reverse → r.Later s → s.Later r →
      r = s := by
    intro r s hr hs hrs hsr
    have hr' : r ∈ t.rows := (List.perm_insertionSort UsageRow.Later t.rows).mem_iff.mp hr
    exact List.inj_on_of_nodup_map hids hr' (List.mem_reverse.mp hs) (le_antisymm hsr hrs)
  have hsorted : (t.rows.insertionSort UsageRow.Later).Pairwise UsageRow.Later :=
    List.pairwise_insertionSort UsageRow.Later t.rows
  exact List.Perm.eq_of_pairwise hsame hsorted hdescending
    ((List.perm_insertionSort UsageRow.Later t.rows).trans t.rows.reverse_perm.symm)

theorem validate_row (id : Nat) (u : BuiltRecord) : (row id u.1).validate = some u.1 := by
  have hvalid : 0 ≤ (row id u.1).promptTokens ∧ 0 ≤ (row id u.1).completionTokens ∧
      0 ≤ (row id u.1).durationSeconds := ⟨Int.natCast_nonneg _, Int.natCast_nonneg _, u.2⟩
  rw [UsageRow.validate, if_pos hvalid]
  obtain ⟨⟨_, _, _, _, _, _, _, succeeded, _⟩, _⟩ := u
  cases succeeded <;> rfl

/-- What the rows say of the records that were saved. -/
def Holds (t : UsageTable) (records : List UsageRecord) : Prop := t.rows.map UsageRow.validate = records.map some

theorem holds_insert {t : UsageTable} (h : t.Holds records) (u : BuiltRecord) :
    (t.insert u.1).Holds (records ++ [u.1]) := by
  unfold Holds at h ⊢
  rw [insert, List.map_append, h, List.map_singleton, validate_row, List.map_append, List.map_singleton]

/-- The store gives back the last records, in the order they were made. -/
theorem loadUsage_eq {t : UsageTable} (h : t.Holds records) (limit : Nat) :
    t.loadUsage limit = records.rtake limit := by
  have hlength : t.rows.length = records.length := by
    have hboth := congrArg List.length h
    rwa [List.length_map, List.length_map] at hboth
  have hrows : (limited limit t.rows.reverse).reverse = t.rows.rtake limit := by
    rw [limited, if_neg (by omega), Int.toNat_natCast, List.rtake_eq_reverse_take_reverse]
  have hread : (t.rows.rtake limit).map UsageRow.validate = (records.rtake limit).map some := by
    rw [List.rtake, List.map_drop, h, ← List.map_drop, hlength, ← List.rtake]
  rw [loadUsage, sorted_eq_reverse, hrows]
  calc (t.rows.rtake limit).filterMap UsageRow.validate
      = ((t.rows.rtake limit).map UsageRow.validate).filterMap id := by rw [List.filterMap_map, Function.id_comp]
    _ = ((records.rtake limit).map some).filterMap id := by rw [hread]
    _ = records.rtake limit := by
      rw [List.filterMap_map, Function.id_comp]
      exact List.filterMap_some

end UsageTable

/-- `xs[start:]` -/
def sliceFrom (xs : List α) (start : Int) : List α :=
  xs.drop (if start < 0 then (xs.length + start).toNat else start.toNat)

theorem rtake_append_rtake (xs ys : List α) (n : Nat) : (xs.rtake n ++ ys).rtake n = (xs ++ ys).rtake n := by
  simp only [List.rtake_eq_reverse_take_reverse, List.reverse_append, List.reverse_reverse, List.take_append,
    List.take_take, List.length_reverse]
  rw [min_eq_left (Nat.sub_le _ _)]

theorem rtake_rtake (xs : List α) (n : Nat) : (xs.rtake n).rtake n = xs.rtake n := by
  simpa using rtake_append_rtake xs [] n

theorem rtake_min (xs : List α) (n : Nat) : xs.rtake (min n xs.length) = xs.rtake n := by
  rw [List.rtake, List.rtake]
  congr 1
  omega

theorem sliceFrom_neg (xs : List α) (h : 1 ≤ limit) : sliceFrom xs (-limit) = xs.rtake limit.toNat := by
  rw [sliceFrom, if_pos (by omega), List.rtake]
  congr 1
  omega

namespace UsageMeter

/-- The records of a node, or all. -/
def ofNode (nodeId : Option Text) (records : List UsageRecord) : List UsageRecord :=
  match nodeId with
  | none => records
  | some nodeId => records.filter fun r => r.nodeId = nodeId

/-- `recent`: newest first. -/
def mostRecent (m : UsageMeter) (nodeId : Option Text) (limit : Int) : List UsageRecord :=
  (sliceFrom (ofNode nodeId m.recent) (-limit)).reverse

/-- What `list_recent_usage` replies: the window, and as many records as it says. -/
structure RecentUsage where
  windowSize : Nat
  count : Nat
  records : List UsageRecord

/-- `list_recent_usage` -/
def listRecentUsage (m : UsageMeter) (limit : Int) : RecentUsage :=
  let records := m.mostRecent none (max 1 (min limit maxRecent))
  ⟨maxRecent, records.length, records⟩

theorem tail_eq_rtake (records : List UsageRecord) : tail records = records.rtake maxRecent := by
  rw [tail, List.rtake]

theorem mostRecent_eq (m : UsageMeter) (nodeId : Option Text) (h : 1 ≤ limit) :
    m.mostRecent nodeId limit = ((ofNode nodeId m.recent).rtake limit.toNat).reverse := by
  rw [mostRecent, sliceFrom_neg _ h]

/-- Whatever is asked for, the reply is the last records of the window, and at least one if there is one. -/
theorem listRecentUsage_eq (m : UsageMeter) (limit : Int) :
    (m.listRecentUsage limit).records = (m.recent.rtake (max 1 (min limit maxRecent)).toNat).reverse :=
  mostRecent_eq m none (le_max_left _ _)

end UsageMeter

/-- A meter with its store. -/
structure MeteredStore where
  usageMeter : UsageMeter
  store : UsageTable

namespace MeteredStore

/-- A request is metered, or the Scheduler is started anew. -/
inductive Op where
  | record (usage : BuiltRecord)
  | restart

/-- `UsageMeter(store=store)`: what a process makes of its table has an empty tail. -/
def opened (store : UsageTable) : MeteredStore := ⟨⟨[]⟩, store⟩

/-- The first process, with a new table. -/
def fresh : MeteredStore := opened .empty

def load (s : MeteredStore) : MeteredStore :=
  ⟨.load (s.store.loadUsage UsageMeter.maxRecent), s.store⟩

/-- The next process has the table and nothing else of the last one; it loads before it serves. -/
def restart (s : MeteredStore) : MeteredStore := (opened s.store).load

/-- A storage failure is no step. -/
def step : Step MeteredStore Op := fun s op =>
  match op with
  | .record usage => (s.store.saveUsage usage.1).map fun store => ⟨s.usageMeter.record usage.1, store⟩
  | .restart => some s.restart

def made : List Op → List UsageRecord
  | [] => []
  | .record usage :: ops => usage.1 :: made ops
  | .restart :: ops => made ops

/-- The tail is that of all records ever made, and the store has them all. -/
structure Remembers (records : List UsageRecord) (s : MeteredStore) : Prop where
  tail : s.usageMeter.recent = records.rtake UsageMeter.maxRecent
  holds : s.store.Holds records

/-- What is loaded into an empty tail is the tail of all records. -/
theorem remembers_restart {s : MeteredStore} (h : s.store.Holds records) : Remembers records s.restart where
  tail := by
    have hrows : s.store.loadUsage UsageMeter.maxRecent = records.rtake UsageMeter.maxRecent :=
      UsageTable.loadUsage_eq h UsageMeter.maxRecent
    have htail : s.restart.usageMeter.recent = UsageMeter.tail (s.store.loadUsage UsageMeter.maxRecent) := by
      rw [restart, load, opened, UsageMeter.load]
    rw [htail, UsageMeter.tail_eq_rtake, hrows, rtake_rtake]
  holds := by
    rw [restart, load, opened]
    exact h

/-- A step adds to the records what it makes. -/
theorem step_remembers (h : Remembers records s) (hs : step s op = some t) :
    Remembers (records ++ made [op]) t := by
  cases op with
  | record usage =>
    obtain ⟨store, hsave, rfl⟩ := Option.map_eq_some_iff.mp hs
    have hstore : s.store.insert usage.1 = store := by
      unfold UsageTable.saveUsage at hsave
      split at hsave
      · exact Option.some.inj hsave
      · cases hsave
    refine ⟨?_, hstore ▸ UsageTable.holds_insert h.holds usage⟩
    have htail : (s.usageMeter.record usage.1).recent = UsageMeter.tail (s.usageMeter.recent ++ [usage.1]) := by
      rw [UsageMeter.record]
    rw [htail, UsageMeter.tail_eq_rtake, h.tail, rtake_append_rtake, made, made]
  | restart =>
    have hrestart : s.restart = t := Option.some.inj hs
    rw [← hrestart, made, made, List.append_nil]
    exact remembers_restart h.holds

theorem made_cons (op : Op) (ops : List Op) : made (op :: ops) = made [op] ++ made ops := by
  cases op <;> rfl

theorem run_remembers (h : Remembers records s) (hr : exec step s ops = some t) :
    Remembers (records ++ made ops) t := by
  induction ops generalizing s records with
  | nil =>
    cases hr
    rwa [made, List.append_nil]
  | cons op ops ih =>
    obtain ⟨m, hm, ht⟩ := exec_cons.mp hr
    rw [made_cons, ← List.append_assoc]
    exact ih (step_remembers h hm) ht

/-- After every run of records and restarts the meter has the last records ever made, a process started
then comes up with the same ones, and it answers with the last of these that are asked for. -/
theorem tail_of_history (ops : List Op) (hr : exec step fresh ops = some s) :
    s.usageMeter.recent = (made ops).rtake (min (made ops).length UsageMeter.maxRecent) ∧
      s.restart.usageMeter.recent = s.usageMeter.recent ∧
      ∀ (nodeId : Option Text) (limit : Int), 1 ≤ limit →
        s.usageMeter.mostRecent nodeId limit =
          ((UsageMeter.ofNode nodeId s.usageMeter.recent).rtake
            (min limit.toNat (UsageMeter.ofNode nodeId s.usageMeter.recent).length)).reverse := by
  have hstart : Remembers [] fresh := ⟨rfl, rfl⟩
  have hall : Remembers (made ops) s := run_remembers hstart hr
  refine ⟨?_, ?_, fun nodeId limit hlimit => ?_⟩
  · rw [hall.tail, min_comm, rtake_min]
  · rw [(remembers_restart hall.holds).tail, hall.tail]
  · rw [UsageMeter.mostRecent_eq _ _ hlimit, rtake_min]

def sampleUsage (nodeId : String) : BuiltRecord :=
  ⟨⟨text "chatcmpl-1", text "tenant", text nodeId, text "llama3", 2, 5, 1, true, 1767225600⟩, by norm_num⟩

/-- Two requests, with a restart between them. -/
def sampleOps : List Op := [.record (sampleUsage "n1"), .restart, .record (sampleUsage "n2")]

theorem tail_of_sample : ∃ s, exec step fresh sampleOps = some s ∧
    s.usageMeter.recent = (made sampleOps).rtake
      (min (made sampleOps).length UsageMeter.maxRecent) ∧
    s.restart.usageMeter.recent = s.usageMeter.recent ∧
    ∀ (nodeId : Option Text) (limit : Int), 1 ≤ limit →
      s.usageMeter.mostRecent nodeId limit =
        ((UsageMeter.ofNode nodeId s.usageMeter.recent).rtake
          (min limit.toNat (UsageMeter.ofNode nodeId s.usageMeter.recent).length)).reverse := by
  have hsome : (exec step fresh sampleOps).isSome = true := by
    decide +kernel
  obtain ⟨s, hs⟩ := Option.isSome_iff_exists.mp hsome
  exact ⟨s, hs, tail_of_history _ hs⟩

end MeteredStore
end PublicIntelligence.Scheduler
