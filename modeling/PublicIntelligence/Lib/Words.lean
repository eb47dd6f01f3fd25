import Mathlib.Data.List.Infix

namespace PublicIntelligence.Words

variable [DecidableEq α]

/-- The longest common prefix of two words. -/
def lcp : List α → List α → List α
  | a :: u, b :: v => if a = b then a :: lcp u v else []
  | _, _ => []

@[simp] theorem lcp_nil_left (v : List α) : lcp [] v = [] := by cases v <;> rfl

@[simp] theorem lcp_nil_right (u : List α) : lcp u [] = [] := by cases u <;> rfl

theorem lcp_cons (a b : α) (u v : List α) :
    lcp (a :: u) (b :: v) = if a = b then a :: lcp u v else [] := rfl

@[simp] theorem lcp_self (u : List α) : lcp u u = u := by
  induction u with
  | nil => rfl
  | cons a u ih => simp [lcp_cons, ih]

theorem lcp_append (p u v : List α) : lcp (p ++ u) (p ++ v) = p ++ lcp u v := by
  induction p with
  | nil => rfl
  | cons a p ih => simp [lcp_cons, ih]

theorem lcp_spec (u v : List α) : lcp u v <+: u ∧ lcp u v <+: v := by
  induction u generalizing v with
  | nil => simp
  | cons a u ih =>
    cases v with
    | nil => simp
    | cons b v =>
      rw [lcp_cons]
      split
      · rename_i hab
        subst hab
        exact ⟨List.cons_prefix_cons.mpr ⟨rfl, (ih v).1⟩, List.cons_prefix_cons.mpr ⟨rfl, (ih v).2⟩⟩
      · exact ⟨List.nil_prefix, List.nil_prefix⟩

/-- Two words share no prefix exactly when one is empty or they start apart. -/
theorem lcp_eq_nil {u v : List α} :
    lcp u v = [] ↔ u = [] ∨ v = [] ∨ u.head? ≠ v.head? := by
  cases u with
  | nil => simp
  | cons a u =>
    cases v with
    | nil => simp
    | cons b v =>
      rw [lcp_cons]
      split <;> simp_all

theorem lcp_ne_nil {u v : List α} (h : lcp u v ≠ []) :
    u ≠ [] ∧ v ≠ [] ∧ u.head? = v.head? := by
  have := mt lcp_eq_nil.mpr h
  simp only [not_or, ne_eq, not_not] at this
  exact this

/-- What is left of two words after their longest common prefix starts apart. -/
theorem lcp_rest (u v : List α) :
    ∃ u' v', u = lcp u v ++ u' ∧ v = lcp u v ++ v' ∧ lcp u' v' = [] := by
  obtain ⟨⟨u', hu⟩, ⟨v', hv⟩⟩ := lcp_spec u v
  refine ⟨u', v', hu.symm, hv.symm, ?_⟩
  have h := lcp_append (lcp u v) u' v'
  rw [hu, hv] at h
  exact List.self_eq_append_right.mp h

omit [DecidableEq α] in
theorem take_split {u p r : List α} (h : u = p ++ r) : u.take p.length = p := by
  rw [h, List.take_left]

omit [DecidableEq α] in
theorem drop_split {u p r : List α} (h : u = p ++ r) : u.drop p.length = r := by
  rw [h, List.drop_left]

/-- `p` is where two of the words part, or one of them: the longest common
prefix of two members of `W`, which may be the same member twice. -/
def Junction (W : List α → Prop) (p : List α) : Prop :=
  ∃ u v, W u ∧ W v ∧ lcp u v = p

omit [DecidableEq α] in
theorem head_of_prefix {p q : List α} (hp : p ≠ []) (h : p <+: q) : p.head? = q.head? := by
  obtain ⟨r, rfl⟩ := h
  cases p with
  | nil => exact absurd rfl hp
  | cons a p => rfl

theorem Junction.member {W : List α → Prop} (h : W p) : Junction W p :=
  ⟨p, p, h, h, lcp_self p⟩

/-- How far the words of `W` lead along `q`: its longest prefix that is one of them or where two of
them part, and the empty word if there is none. -/
structure Furthest (W : List α → Prop) (q p : List α) : Prop where
  within : p <+: q
  reached : p = [] ∨ Junction W p
  longest : ∀ j, Junction W j → j <+: q → j.length ≤ p.length

theorem Furthest.length_le {W : List α → Prop} (h : Furthest W q p) (h' : Furthest W q p') : p.length ≤ p'.length := by
  rcases h.reached with rfl | hj
  · exact Nat.zero_le _
  · exact h'.longest p hj h.within

theorem Furthest.unique {W : List α → Prop} (h : Furthest W q p) (h' : Furthest W q p') : p = p' := by
  have hle := h.length_le h'
  have hpre := List.prefix_of_prefix_length_le h.within h'.within hle
  exact hpre.eq_of_length (Nat.le_antisymm hle (h'.length_le h))

theorem Furthest.congr {W W' : List α → Prop} (h : Furthest W q p) (hW : ∀ w, W' w ↔ W w) : Furthest W' q p := by
  obtain rfl : W' = W := funext fun w => propext (hW w)
  exact h

section Framing
variable {a a' b b' : List α} {s : α}

omit [DecidableEq α] in
/-- Where the separator is not in the last part, a text can be cut there in one way only. -/
theorem cut_last (h : a ++ s :: b = a' ++ s :: b') (hb : s ∉ b) (hb' : s ∉ b') : a = a' ∧ b = b' := by
  obtain ⟨c, hc, hd⟩ | ⟨c, hc, hd⟩ := List.append_eq_append_iff.mp h
  · cases c with
    | nil =>
      cases hd
      exact ⟨by simpa using hc.symm, rfl⟩
    | cons d c =>
      cases hd
      exact absurd (List.mem_append_right c List.mem_cons_self) hb
  · cases c with
    | nil =>
      cases hd
      exact ⟨by simpa using hc, rfl⟩
    | cons d c =>
      cases hd
      exact absurd (List.mem_append_right c List.mem_cons_self) hb'

omit [DecidableEq α] in
/-- A text with a single separator can be cut there in one way only. -/
theorem cut_only (h : a ++ s :: b = a' ++ s :: b') (ha : s ∉ a) (hb : s ∉ b) : a = a' ∧ b = b' := by
  refine cut_last h hb ?_
  intro hb'
  obtain ⟨c, hc, hd⟩ | ⟨c, hc, hd⟩ := List.append_eq_append_iff.mp h
  · cases c with
    | nil =>
      cases hd
      exact hb hb'
    | cons d c =>
      cases hd
      exact hb (List.mem_append_right c List.mem_cons_self)
  · cases c with
    | nil =>
      cases hd
      exact hb hb'
    | cons d c =>
      cases hd
      exact ha (hc ▸ List.mem_append_right a' List.mem_cons_self)

omit [DecidableEq α] in
/-- A text with a second separator can be cut in another place as well. -/
theorem cut_elsewhere (h : s ∈ a ∨ s ∈ b) :
    ∃ a' b', a' ++ s :: b' = a ++ s :: b ∧ ¬ (a' = a ∧ b' = b) := by
  obtain h | h := h
  · obtain ⟨u, v, rfl⟩ := List.append_of_mem h
    refine ⟨u, v ++ s :: b, by simp, ?_⟩
    rintro ⟨hu, _⟩
    simpa using congrArg List.length hu
  · obtain ⟨u, v, rfl⟩ := List.append_of_mem h
    refine ⟨a ++ s :: u, v, by simp, ?_⟩
    rintro ⟨ha, _⟩
    simpa using congrArg List.length ha

end Framing

end PublicIntelligence.Words
