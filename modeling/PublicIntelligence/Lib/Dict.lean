import Mathlib.Data.List.Nodup

namespace PublicIntelligence

/-- An insertion-ordered dictionary: the keys are distinct, oldest entry first. -/
structure Dict (κ ν : Type) where
  entries : List (κ × ν)
  nodup : (entries.map Prod.fst).Nodup
deriving DecidableEq

namespace Dict

def empty : Dict κ ν := ⟨[], List.nodup_nil⟩

def keys (d : Dict κ ν) : List κ := d.entries.map Prod.fst

def values (d : Dict κ ν) : List ν := d.entries.map Prod.snd

/-- The same keys, with other values. -/
def mapValues (f : ν → μ) (d : Dict κ ν) : Dict κ μ where
  entries := d.entries.map fun e => (e.1, f e.2)
  nodup := by
    rw [List.map_map]
    exact d.nodup

section
variable [DecidableEq κ]

def find (k : κ) : List (κ × ν) → Option ν
  | [] => none
  | (k', v) :: es => if k' = k then some v else find k es

def get? (d : Dict κ ν) (k : κ) : Option ν := find k d.entries

/-- Overwrite in place, or append when the key is new. -/
def put (k : κ) (v : ν) : List (κ × ν) → List (κ × ν)
  | [] => [(k, v)]
  | (k', v') :: es => if k' = k then (k, v) :: es else (k', v') :: put k v es

def remove (k : κ) : List (κ × ν) → List (κ × ν)
  | [] => []
  | (k', v) :: es => if k' = k then remove k es else (k', v) :: remove k es

theorem put_keys (k : κ) (v : ν) (es : List (κ × ν)) :
    (put k v es).map Prod.fst =
      if k ∈ es.map Prod.fst then es.map Prod.fst else es.map Prod.fst ++ [k] := by
  induction es with
  | nil => simp [put]
  | cons e es ih =>
    obtain ⟨k', v'⟩ := e
    by_cases h : k' = k
    · simp [put, h]
    · simp only [put, h, if_false, List.map_cons, ih, List.mem_cons, Ne.symm h, false_or]
      split <;> simp

theorem put_new {es : List (κ × ν)} (h : k ∉ es.map Prod.fst) : put k v es = es ++ [(k, v)] := by
  induction es with
  | nil => rfl
  | cons e es ih =>
    obtain ⟨k', v'⟩ := e
    simp only [List.map_cons, List.mem_cons, not_or] at h
    rw [put, if_neg (Ne.symm h.1), ih h.2, List.cons_append]

/-- Setting a key that is there is rewriting its entry. -/
theorem put_old {es : List (κ × ν)} (h : k ∈ es.map Prod.fst) (hn : (es.map Prod.fst).Nodup) :
    put k v es = es.map fun e => if e.1 = k then (k, v) else e := by
  induction es with
  | nil => cases h
  | cons e es ih =>
    obtain ⟨k', v'⟩ := e
    simp only [List.map_cons, List.nodup_cons] at hn
    by_cases hk : k' = k
    · subst hk
      have hrest : es.map (fun e => if e.1 = k' then (k', v) else e) = es := by
        refine (List.map_congr_left fun e he => if_neg ?_).trans (List.map_id' es)
        rintro rfl
        exact hn.1 (List.mem_map_of_mem he)
      simp [put, hrest]
    · have hmem := (List.mem_cons.mp h).resolve_left (Ne.symm hk)
      simp [put, hk, ih hmem hn.2]

theorem remove_eq_filter (k : κ) (es : List (κ × ν)) : remove k es = es.filter fun e => e.1 ≠ k := by
  induction es with
  | nil => rfl
  | cons e es ih =>
    obtain ⟨k', v⟩ := e
    by_cases hk : k' = k
    · simp [remove, hk, ih]
    · simp [remove, hk, ih]

theorem put_nodup {es : List (κ × ν)} (h : (es.map Prod.fst).Nodup) :
    ((put k v es).map Prod.fst).Nodup := by
  rw [put_keys]
  split
  · exact h
  · rename_i hk
    exact h.append (List.nodup_singleton k) (List.disjoint_singleton.mpr hk)

theorem remove_sublist (k : κ) (es : List (κ × ν)) : (remove k es).Sublist es := by
  induction es with
  | nil => exact .slnil
  | cons e es ih =>
    obtain ⟨k', v⟩ := e
    unfold remove
    split
    · exact ih.cons _
    · exact ih.cons_cons _

theorem remove_nodup {es : List (κ × ν)} (h : (es.map Prod.fst).Nodup) :
    ((remove k es).map Prod.fst).Nodup :=
  h.sublist ((remove_sublist k es).map Prod.fst)

/-- `d[k] = v` -/
def set (d : Dict κ ν) (k : κ) (v : ν) : Dict κ ν := ⟨put k v d.entries, put_nodup d.nodup⟩

/-- `d.pop(k, None)` -/
def pop (d : Dict κ ν) (k : κ) : Dict κ ν := ⟨remove k d.entries, remove_nodup d.nodup⟩

instance : Membership κ (Dict κ ν) := ⟨fun d k => (d.get? k).isSome = true⟩

instance (k : κ) (d : Dict κ ν) : Decidable (k ∈ d) :=
  inferInstanceAs (Decidable ((d.get? k).isSome = true))

theorem mem_iff {d : Dict κ ν} : k ∈ d ↔ ∃ v, d.get? k = some v :=
  Option.isSome_iff_exists

theorem not_mem_iff {d : Dict κ ν} : k ∉ d ↔ d.get? k = none := by
  rw [mem_iff, Option.eq_none_iff_forall_ne_some, not_exists]

@[simp] theorem get?_empty (k : κ) : (empty : Dict κ ν).get? k = none := rfl

theorem not_mem_empty (k : κ) : k ∉ (empty : Dict κ ν) := Bool.false_ne_true

theorem find_put (k k' : κ) (v : ν) (es : List (κ × ν)) :
    find k' (put k v es) = if k = k' then some v else find k' es := by
  induction es with
  | nil => rfl
  | cons e es ih =>
    obtain ⟨l, w⟩ := e
    by_cases hl : l = k
    · subst hl
      by_cases hk : l = k' <;> simp [put, find, hk]
    · by_cases hk : k = k'
      · subst hk
        simp [put, find, hl, ih]
      · simp only [put, hl, if_false, find, ih, hk]

theorem get?_set (d : Dict κ ν) (k k' : κ) (v : ν) :
    (d.set k v).get? k' = if k = k' then some v else d.get? k' :=
  find_put k k' v d.entries

theorem mem_set {d : Dict κ ν} {v : ν} : k ∈ d.set l v ↔ k = l ∨ k ∈ d := by
  rw [mem_iff, get?_set]
  split
  · rename_i hk
    exact iff_of_true ⟨v, rfl⟩ (.inl hk.symm)
  · rename_i hk
    rw [← mem_iff, or_iff_right (Ne.symm hk)]

@[simp] theorem get?_set_self (d : Dict κ ν) (k : κ) (v : ν) : (d.set k v).get? k = some v := by
  simp [get?_set]

@[simp] theorem get?_set_ne (d : Dict κ ν) (v : ν) (h : k ≠ k') :
    (d.set k v).get? k' = d.get? k' := by
  simp [get?_set, h]

theorem put_put (k : κ) (v w : ν) (es : List (κ × ν)) : put k w (put k v es) = put k w es := by
  induction es with
  | nil => simp [put]
  | cons e es ih =>
    obtain ⟨l, u⟩ := e
    by_cases hl : l = k
    · simp [put, hl]
    · simp [put, hl, ih]

/-- The second of two writes to a key is the one that stays. -/
@[simp] theorem set_set (d : Dict κ ν) (k : κ) (v w : ν) : (d.set k v).set k w = d.set k w := by
  unfold set
  simp only [put_put]

/-- An entry stays when a key with another entry is set. -/
theorem get?_set_other {d : Dict κ ν} (h : d.get? l = some w) (hk : d.get? k ≠ some w) :
    (d.set k v).get? l = some w := by
  rw [get?_set_ne]
  · exact h
  · rintro rfl
    exact hk h

theorem find_remove (k k' : κ) (es : List (κ × ν)) :
    find k' (remove k es) = if k = k' then none else find k' es := by
  induction es with
  | nil => simp [remove, find]
  | cons e es ih =>
    obtain ⟨l, w⟩ := e
    by_cases hl : l = k
    · subst hl
      simp only [remove, if_true, ih, find]
      split <;> rfl
    · by_cases hk : k = k'
      · subst hk
        simp only [remove, hl, if_false, find, ih]
      · simp only [remove, hl, if_false, find, ih, hk]

theorem get?_pop (d : Dict κ ν) (k k' : κ) :
    (d.pop k).get? k' = if k = k' then none else d.get? k' :=
  find_remove k k' d.entries

theorem mem_pop {d : Dict κ ν} : k ∈ d.pop l ↔ k ≠ l ∧ k ∈ d := by
  rw [mem_iff, get?_pop]
  split
  · rename_i hk
    exact iff_of_false nofun fun h => h.1 hk.symm
  · rename_i hk
    rw [← mem_iff, and_iff_right (Ne.symm hk)]

@[simp] theorem get?_pop_ne (d : Dict κ ν) (h : k ≠ k') : (d.pop k).get? k' = d.get? k' := by
  simp [get?_pop, h]

theorem of_get?_pop {d : Dict κ ν} (h : (d.pop k).get? l = some v) : d.get? l = some v := by
  rw [get?_pop] at h
  split at h
  · cases h
  · exact h

theorem mem_of_find {es : List (κ × ν)} (h : find k es = some v) : (k, v) ∈ es := by
  induction es with
  | nil => cases h
  | cons e es ih =>
    obtain ⟨l, w⟩ := e
    rw [find] at h
    split at h
    · rename_i hl
      cases h
      exact hl ▸ List.mem_cons_self
    · exact List.mem_cons_of_mem _ (ih h)

theorem find_eq_some {es : List (κ × ν)} (hn : (es.map Prod.fst).Nodup) :
    find k es = some v ↔ (k, v) ∈ es := by
  induction es with
  | nil => simp [find]
  | cons e es ih =>
    obtain ⟨l, w⟩ := e
    simp only [List.map_cons, List.nodup_cons] at hn
    by_cases hl : l = k
    · subst hl
      have hm : (l, v) ∉ es := fun h => hn.1 (List.mem_map.mpr ⟨(l, v), h, rfl⟩)
      simp [find, hm, eq_comm]
    · simp [find, hl, Ne.symm hl, ih hn.2]

theorem put_find {es : List (κ × ν)} (h : find k es = some v) : put k v es = es := by
  induction es with
  | nil => cases h
  | cons e es ih =>
    obtain ⟨l, w⟩ := e
    by_cases hl : l = k
    · simp only [find, hl, if_true, Option.some.injEq] at h
      simp [put, hl, h]
    · simp only [find, hl, if_false] at h
      simp [put, hl, ih h]

/-- Writing what is there changes nothing. -/
theorem set_get? {d : Dict κ ν} (h : d.get? k = some v) : d.set k v = d := by
  unfold set
  simp only [put_find h]

theorem set_eq_self {d : Dict κ ν} : d.set k v = d ↔ d.get? k = some v := by
  refine ⟨fun h => ?_, set_get?⟩
  rw [← h, get?_set_self]

/-- Looking a key up and listing the entries say the same. -/
theorem get?_eq_some {d : Dict κ ν} : d.get? k = some v ↔ (k, v) ∈ d.entries :=
  find_eq_some d.nodup

theorem pop_eq_self {d : Dict κ ν} : d.pop k = d ↔ k ∉ d := by
  constructor
  · intro h
    rw [← h, not_mem_iff, get?_pop, if_pos rfl]
  · intro h
    have hkey : ∀ e ∈ d.entries, e.1 ≠ k := by
      rintro ⟨k', v⟩ he rfl
      exact h (mem_iff.mpr ⟨v, get?_eq_some.mpr he⟩)
    have hentries : remove k d.entries = d.entries := by
      rw [remove_eq_filter, List.filter_eq_self]
      exact fun e he => decide_eq_true (hkey e he)
    obtain ⟨es, hes⟩ := d
    unfold pop
    simp only [hentries]

theorem mem_keys {d : Dict κ ν} : k ∈ d.keys ↔ k ∈ d := by
  rw [mem_iff, keys, List.mem_map]
  constructor
  · rintro ⟨⟨l, v⟩, hm, rfl⟩
    exact ⟨v, get?_eq_some.mpr hm⟩
  · rintro ⟨v, hv⟩
    exact ⟨(k, v), get?_eq_some.mp hv, rfl⟩

theorem find_map (f : ν → μ) (k : κ) (es : List (κ × ν)) :
    find k (es.map fun e => (e.1, f e.2)) = (find k es).map f := by
  induction es with
  | nil => rfl
  | cons e es ih =>
    rw [List.map_cons, find, find, ih]
    split <;> rfl

theorem get?_mapValues (f : ν → μ) (d : Dict κ ν) (k : κ) : (d.mapValues f).get? k = (d.get? k).map f :=
  find_map f k d.entries

end
end Dict
end PublicIntelligence
