import PublicIntelligence.Lib.Dict

namespace PublicIntelligence

/-- A dictionary in which every value is stored under its own key. -/
structure Table (κ : Type) {ν : Type} (key : ν → κ) [DecidableEq κ] where
  rows : Dict κ ν
  keyed : ∀ k v, rows.get? k = some v → key v = k

namespace Table

variable {κ ν : Type} {key : ν → κ} [DecidableEq κ]

def empty : Table κ key := ⟨.empty, fun _ _ h => absurd h (by simp)⟩

def get? (t : Table κ key) (k : κ) : Option ν := t.rows.get? k

/-- Insert the value, or replace the one that has its key. -/
def put (t : Table κ key) (v : ν) : Table κ key where
  rows := t.rows.set (key v) v
  keyed := by
    intro k w hw
    rw [Dict.get?_set] at hw
    split at hw
    · rename_i hk
      rw [← Option.some.inj hw, hk]
    · exact t.keyed k w hw

def pop (t : Table κ key) (k : κ) : Table κ key where
  rows := t.rows.pop k
  keyed := by
    intro l w hw
    rw [Dict.get?_pop] at hw
    split at hw
    · cases hw
    · exact t.keyed l w hw

def values (t : Table κ key) : List ν := t.rows.values

def isEmpty (t : Table κ key) : Bool := t.rows.entries.isEmpty

instance : Membership κ (Table κ key) := ⟨fun t k => k ∈ t.rows⟩

instance (k : κ) (t : Table κ key) : Decidable (k ∈ t) := inferInstanceAs (Decidable (k ∈ t.rows))

theorem key_of_get? {t : Table κ key} (h : t.get? k = some v) : key v = k := t.keyed k v h

theorem mem_iff {t : Table κ key} : k ∈ t ↔ ∃ v, t.get? k = some v := Dict.mem_iff

theorem not_mem_iff {t : Table κ key} : k ∉ t ↔ t.get? k = none := Dict.not_mem_iff

theorem get?_put (t : Table κ key) (v : ν) (k : κ) :
    (t.put v).get? k = if key v = k then some v else t.get? k :=
  Dict.get?_set t.rows (key v) k v

theorem get?_pop (t : Table κ key) (k l : κ) :
    (t.pop k).get? l = if k = l then none else t.get? l :=
  Dict.get?_pop t.rows k l

theorem mem_put {t : Table κ key} : k ∈ t.put v ↔ k = key v ∨ k ∈ t := Dict.mem_set

theorem mem_pop {t : Table κ key} : k ∈ t.pop l ↔ k ≠ l ∧ k ∈ t := Dict.mem_pop

theorem mem_values {t : Table κ key} : v ∈ t.values ↔ t.get? (key v) = some v := by
  constructor
  · intro h
    obtain ⟨⟨k, w⟩, hm, rfl⟩ := List.mem_map.mp h
    have hget : t.get? k = some w := Dict.get?_eq_some.mpr hm
    rwa [key_of_get? hget]
  · exact fun h => List.mem_map.mpr ⟨(key v, v), Dict.get?_eq_some.mp h, rfl⟩

theorem mem_keys {t : Table κ key} : k ∈ t.values.map key ↔ k ∈ t := by
  rw [List.mem_map, mem_iff]
  constructor
  · rintro ⟨v, hv, rfl⟩
    exact ⟨v, mem_values.mp hv⟩
  · rintro ⟨v, hv⟩
    have hk := key_of_get? hv
    exact ⟨v, mem_values.mpr (hk ▸ hv), hk⟩

theorem mem_of_value {t : Table κ key} (h : v ∈ t.values) : key v ∈ t := mem_keys.mp (List.mem_map_of_mem h)

theorem isEmpty_of_get? {t : Table κ key} (h : t.get? k = some v) : t.isEmpty = false := by
  have hm : (k, v) ∈ t.rows.entries := Dict.get?_eq_some.mp h
  cases he : t.rows.entries with
  | nil => rw [he] at hm; cases hm
  | cons e es => rw [isEmpty, he]; rfl

theorem ext_rows {s t : Table κ key} (h : s.rows = t.rows) : s = t := by
  obtain ⟨rows, hkeyed⟩ := s
  obtain rfl : rows = t.rows := h
  rfl

theorem put_eq_self {t : Table κ key} : t.put v = t ↔ t.get? (key v) = some v := by
  constructor
  · intro h
    rw [← h, get?_put, if_pos rfl]
  · exact fun h => ext_rows (Dict.set_eq_self.mpr h)

theorem pop_eq_self {t : Table κ key} : t.pop k = t ↔ k ∉ t := by
  constructor
  · intro h
    rw [← h, not_mem_iff, get?_pop, if_pos rfl]
  · exact fun h => ext_rows (Dict.pop_eq_self.mpr h)

/-- The second of two values with one key is the one that stays. -/
theorem put_put {t : Table κ key} (h : key v = key w) : (t.put v).put w = t.put w := by
  refine ext_rows ?_
  change (t.rows.set (key v) v).set (key w) w = t.rows.set (key w) w
  rw [h, Dict.set_set]

/-- A table lists its keys in the order of its values. -/
theorem entries_eq (t : Table κ key) : t.rows.entries = t.values.map fun v => (key v, v) := by
  unfold values Dict.values
  rw [List.map_map]
  refine (List.map_id _).symm.trans (List.map_congr_left fun e he => ?_)
  obtain ⟨k, v⟩ := e
  have hk : key v = k := t.keyed k v (Dict.get?_eq_some.mpr he)
  simp [hk]

theorem ext_values {s t : Table κ key} (h : s.values = t.values) : s = t := by
  have hrows : s.rows.entries = t.rows.entries := by rw [entries_eq, entries_eq, h]
  obtain ⟨⟨es, hes⟩, hs⟩ := s
  obtain ⟨⟨es', hes'⟩, ht⟩ := t
  obtain rfl : es = es' := hrows
  rfl

theorem values_nodup (t : Table κ key) : (t.values.map key).Nodup := by
  have h := t.rows.nodup
  rw [entries_eq, List.map_map] at h
  exact h

theorem values_put_new {t : Table κ key} (h : key v ∉ t) : (t.put v).values = t.values ++ [v] := by
  have hm : key v ∉ t.rows.entries.map Prod.fst := fun hm => h (Dict.mem_keys.mp hm)
  change (Dict.put (key v) v t.rows.entries).map Prod.snd = _
  rw [Dict.put_new hm, List.map_append]
  rfl

theorem values_put_old {t : Table κ key} (h : key v ∈ t) :
    (t.put v).values = t.values.map fun w => if key w = key v then v else w := by
  have hm : key v ∈ t.rows.entries.map Prod.fst := Dict.mem_keys.mpr h
  change (Dict.put (key v) v t.rows.entries).map Prod.snd = _
  rw [Dict.put_old hm t.rows.nodup, entries_eq, List.map_map, List.map_map]
  refine List.map_congr_left fun w _ => ?_
  simp only [Function.comp_apply]
  split <;> rfl

theorem values_pop (t : Table κ key) (k : κ) : (t.pop k).values = t.values.filter fun w => key w ≠ k := by
  change (Dict.remove k t.rows.entries).map Prod.snd = _
  rw [Dict.remove_eq_filter, entries_eq, List.filter_map, List.map_map]
  exact List.map_id _

/-- Values with distinct keys, put in one after the other. -/
theorem values_foldl_put {vs : List ν} {t : Table κ key} (h : ((t.values ++ vs).map key).Nodup) :
    (vs.foldl put t).values = t.values ++ vs := by
  induction vs generalizing t with
  | nil => exact (List.append_nil _).symm
  | cons v vs ih =>
    have hv : key v ∉ t := by
      intro hm
      rw [List.map_append, List.map_cons] at h
      exact (List.disjoint_of_nodup_append h) (mem_keys.mpr hm) List.mem_cons_self
    have happ := values_put_new hv
    rw [List.foldl_cons, ih]
    · rw [happ, List.append_assoc, List.singleton_append]
    · rw [happ, List.append_assoc, List.singleton_append]
      exact h

end Table
end PublicIntelligence
