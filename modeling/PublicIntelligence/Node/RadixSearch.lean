import Mathlib.Data.List.Nodup
import PublicIntelligence.Node.RadixCache

namespace PublicIntelligence.Node
open RadixTrieNode Words

variable [DecidableEq τ]

theorem common_eq_lcp (u v : List τ) : getCommonPrefixLength u v = (lcp u v).length := by
  induction u generalizing v with
  | nil => cases v <;> rfl
  | cons a u ih =>
    cases v with
    | nil => rfl
    | cons b v =>
      simp only [getCommonPrefixLength, lcp_cons, ih]
      split <;> rfl

/-- The match test of `_search_trie` accepts exactly the prefixes. -/
theorem common_full {u v : List τ} : getCommonPrefixLength u v = u.length ↔ u <+: v := by
  rw [common_eq_lcp]
  constructor
  · intro h
    have hu := (lcp_spec u v).1.eq_of_length h
    exact hu ▸ (lcp_spec u v).2
  · rintro ⟨r, rfl⟩
    have h := lcp_append u [] r
    rw [List.append_nil, lcp_nil_left, List.append_nil] at h
    rw [h]

omit [DecidableEq τ] in
mutual
/-- The words spelled below a node, its own path left out. -/
def wordsBelow : RadixTrieNode τ → List (List τ)
  | mk _ l cs => (if l then [[]] else []) ++ wordsAmong cs
/-- The words spelled through a list of siblings. -/
def wordsAmong : List (RadixTrieNode τ) → List (List τ)
  | [] => []
  | c :: cs => (wordsBelow c).map (c.path ++ ·) ++ wordsAmong cs
end

section
omit [DecidableEq τ]

theorem mem_wordsBelow {t : RadixTrieNode τ} :
    x ∈ wordsBelow t ↔ (t.isLeaf = true ∧ x = []) ∨ x ∈ wordsAmong t.children := by
  obtain ⟨p, l, cs⟩ := t
  cases l <;> simp [wordsBelow]

theorem mem_wordsAmong {cs : List (RadixTrieNode τ)} :
    x ∈ wordsAmong cs ↔ ∃ c ∈ cs, ∃ y ∈ wordsBelow c, x = c.path ++ y := by
  induction cs with
  | nil => simp [wordsAmong]
  | cons c cs ih => simp [wordsAmong, ih, eq_comm]

def head (t : RadixTrieNode τ) : Option τ := t.path.head?

/-- The shape of a radix trie away from its root: no empty edge, siblings start
apart, and a node where no prompt ends is there because it branches. -/
inductive Compact : RadixTrieNode τ → Prop
  | mk (edge : p ≠ []) (kept : l = true ∨ 2 ≤ cs.length) (apart : (cs.map head).Nodup)
      (children : ∀ c ∈ cs, Compact c) : Compact (mk p l cs)

structure Siblings (cs : List (RadixTrieNode τ)) : Prop where
  apart : (cs.map head).Nodup
  compact : ∀ c ∈ cs, Compact c

theorem Compact.edge {t : RadixTrieNode τ} (h : Compact t) : t.path ≠ [] := by
  cases h with | mk edge _ _ _ => exact edge

theorem Compact.kept {t : RadixTrieNode τ} (h : Compact t) :
    t.isLeaf = true ∨ 2 ≤ t.children.length := by
  cases h with | mk _ kept _ _ => exact kept

theorem Compact.siblings {t : RadixTrieNode τ} (h : Compact t) : Siblings t.children := by
  cases h with | mk _ _ apart children => exact ⟨apart, children⟩

theorem Compact.of_parts {t : RadixTrieNode τ} (hp : t.path ≠ [])
    (hk : t.isLeaf = true ∨ 2 ≤ t.children.length) (hs : Siblings t.children) : Compact t := by
  obtain ⟨p, l, cs⟩ := t
  exact .mk hp hk hs.apart hs.compact

/-- The first token of a word decides the child it goes through. -/
theorem Siblings.pick {cs : List (RadixTrieNode τ)} (h : Siblings cs) (hc : c ∈ cs) (hd : d ∈ cs)
    (he : head c = head d) : c = d :=
  List.inj_on_of_nodup_map h.apart hc hd he

theorem Siblings.head_of_prefix {cs : List (RadixTrieNode τ)} (h : Siblings cs) (hc : c ∈ cs)
    (hp : c.path <+: q) : head c = q.head? :=
  Words.head_of_prefix (h.compact c hc).edge hp

theorem Siblings.nil_not_mem {cs : List (RadixTrieNode τ)} (h : Siblings cs) :
    [] ∉ wordsAmong cs := by
  intro hm
  obtain ⟨c, hc, y, _, he⟩ := mem_wordsAmong.mp hm
  exact (h.compact c hc).edge (List.append_eq_nil_iff.mp he.symm).1

/-- No dead branch: some prompt ends at or below every node. -/
theorem Compact.has_word (t : RadixTrieNode τ) : Compact t → ∃ y, y ∈ wordsBelow t := by
  induction t using RadixTrieNode.induct with
  | h p l cs ih =>
    intro ht
    rcases ht.kept with hl | hk
    · exact ⟨[], mem_wordsBelow.mpr (.inl ⟨hl, rfl⟩)⟩
    · obtain ⟨c, rest, rfl⟩ := List.exists_cons_of_length_pos (Nat.lt_of_lt_of_le Nat.zero_lt_two hk)
      have hc : c ∈ c :: rest := List.mem_cons_self
      obtain ⟨y, hy⟩ := ih c hc (ht.siblings.compact c hc)
      exact ⟨c.path ++ y, mem_wordsBelow.mpr (.inr (mem_wordsAmong.mpr ⟨c, hc, y, hy, rfl⟩))⟩

end

/-- The loop over the children finds the first one whose path is a prefix. -/
theorem searchAmong_cases (cs : List (RadixTrieNode τ)) (q : List τ) :
    (searchAmong cs q = ([], q) ∧ ∀ c ∈ cs, ¬ c.path <+: q) ∨
    ∃ c ∈ cs, ∃ rest, q = c.path ++ rest ∧
      searchAmong cs q = (c.path ++ (searchFrom c rest).1, (searchFrom c rest).2) := by
  induction cs with
  | nil => exact .inl ⟨rfl, by simp⟩
  | cons c cs ih =>
    rw [searchAmong]
    split
    · rename_i hfull
      obtain ⟨rest, rfl⟩ := common_full.mp hfull
      exact .inr ⟨c, List.mem_cons_self, rest, rfl, by simp⟩
    · rename_i hfull
      rcases ih with ⟨hnone, hall⟩ | ⟨d, hd, rest, hq, he⟩
      · refine .inl ⟨hnone, fun d hd => ?_⟩
        rcases List.mem_cons.mp hd with rfl | hd
        · exact fun hp => hfull (common_full.mpr hp)
        · exact hall d hd
      · exact .inr ⟨d, List.mem_cons_of_mem _ hd, rest, hq, he⟩

theorem searchFrom_nil (t : RadixTrieNode τ) : searchFrom t [] = ([], []) := by
  obtain ⟨p, l, cs⟩ := t
  rw [searchFrom, if_pos rfl]

theorem searchFrom_cons (t : RadixTrieNode τ) (hq : q ≠ []) :
    searchFrom t q = searchAmong t.children q := by
  obtain ⟨p, l, cs⟩ := t
  rw [searchFrom, if_neg hq]
  rfl

/-- A child's own path is a junction: a prompt ends there, or two part there. -/
theorem Siblings.junction_path {cs : List (RadixTrieNode τ)} (h : Siblings cs) (hc : c ∈ cs) :
    Junction (· ∈ wordsAmong cs) c.path := by
  have hword : ∀ y ∈ wordsBelow c, c.path ++ y ∈ wordsAmong cs := fun y hy =>
    mem_wordsAmong.mpr ⟨c, hc, y, hy, rfl⟩
  have hcc := h.compact c hc
  rcases hcc.kept with hl | hk
  · have := hword [] (mem_wordsBelow.mpr (.inl ⟨hl, rfl⟩))
    exact .member (by simpa using this)
  · have hcs := hcc.siblings
    obtain ⟨d, e, rest, hde⟩ : ∃ d e rest, c.children = d :: e :: rest := by
      match hm : c.children with
      | [] => simp [hm] at hk
      | [_] => simp [hm] at hk
      | d :: e :: rest => exact ⟨d, e, rest, rfl⟩
    have hd : d ∈ c.children := hde ▸ List.mem_cons_self
    have he : e ∈ c.children := hde ▸ List.mem_cons_of_mem _ List.mem_cons_self
    obtain ⟨y, hy⟩ := Compact.has_word d (hcs.compact d hd)
    obtain ⟨z, hz⟩ := Compact.has_word e (hcs.compact e he)
    have hapart : head d ≠ head e := by
      have := hcs.apart
      rw [hde] at this
      simp only [List.map_cons, List.nodup_cons, List.mem_cons, not_or] at this
      exact this.1.1
    refine ⟨c.path ++ (d.path ++ y), c.path ++ (e.path ++ z), ?_, ?_, ?_⟩
    · exact hword _ (mem_wordsBelow.mpr (.inr (mem_wordsAmong.mpr ⟨d, hd, y, hy, rfl⟩)))
    · exact hword _ (mem_wordsBelow.mpr (.inr (mem_wordsAmong.mpr ⟨e, he, z, hz, rfl⟩)))
    · rw [lcp_append, lcp_eq_nil.mpr, List.append_nil]
      right; right
      rw [← Words.head_of_prefix (hcs.compact d hd).edge (List.prefix_append _ y),
        ← Words.head_of_prefix (hcs.compact e he).edge (List.prefix_append _ z)]
      exact hapart

/-- What lies below a child, carried up through its path. -/
theorem Siblings.junction_below {cs : List (RadixTrieNode τ)} (hc : c ∈ cs)
    (hj : Junction (· ∈ wordsAmong c.children) j) :
    Junction (· ∈ wordsAmong cs) (c.path ++ j) := by
  obtain ⟨u, v, hu, hv, rfl⟩ := hj
  refine ⟨c.path ++ u, c.path ++ v, ?_, ?_, lcp_append _ _ _⟩
  · exact mem_wordsAmong.mpr ⟨c, hc, u, mem_wordsBelow.mpr (.inr hu), rfl⟩
  · exact mem_wordsAmong.mpr ⟨c, hc, v, mem_wordsBelow.mpr (.inr hv), rfl⟩

/-- Conversely a non-empty junction runs through one child, and what is left
of it is empty or a junction wordsBelow that child. -/
theorem Siblings.junction_inv {cs : List (RadixTrieNode τ)} (h : Siblings cs)
    (hj : Junction (· ∈ wordsAmong cs) j) (hne : j ≠ []) :
    ∃ c ∈ cs, ∃ j', j = c.path ++ j' ∧ (j' = [] ∨ Junction (· ∈ wordsAmong c.children) j') := by
  obtain ⟨u, v, hu, hv, rfl⟩ := hj
  obtain ⟨c, hc, y, hy, rfl⟩ := mem_wordsAmong.mp hu
  obtain ⟨d, hd, z, hz, rfl⟩ := mem_wordsAmong.mp hv
  have hcd : c = d := by
    apply h.pick hc hd
    have := (lcp_ne_nil hne).2.2
    rwa [← h.head_of_prefix hc (List.prefix_append _ y),
      ← h.head_of_prefix hd (List.prefix_append _ z)] at this
  subst hcd
  refine ⟨c, hc, lcp y z, lcp_append _ _ _, ?_⟩
  rcases mem_wordsBelow.mp hy with ⟨_, rfl⟩ | hy
  · exact .inl (lcp_nil_left z)
  rcases mem_wordsBelow.mp hz with ⟨_, rfl⟩ | hz
  · exact .inl (lcp_nil_right y)
  exact .inr ⟨y, z, hy, hz, rfl⟩

/-- The search splits the query, and it stops at the start or at a junction. -/
theorem searchFrom_sound (t : RadixTrieNode τ) : ∀ q, Siblings t.children →
    (searchFrom t q).1 ++ (searchFrom t q).2 = q ∧
      ((searchFrom t q).1 = [] ∨ Junction (· ∈ wordsAmong t.children) (searchFrom t q).1) := by
  induction t using RadixTrieNode.induct with
  | h p l cs ih =>
    intro q hs
    by_cases hq : q = []
    · subst hq
      simp [searchFrom_nil]
    rw [searchFrom_cons _ hq]
    rcases searchAmong_cases cs q with ⟨he, _⟩ | ⟨c, hc, rest, rfl, he⟩
    · simp only [children_mk, he, List.nil_append, true_or, and_self]
    · obtain ⟨hsplit, hjunction⟩ := ih c hc rest (hs.compact c hc).siblings
      simp only [children_mk, he]
      refine ⟨by rw [List.append_assoc, hsplit], .inr ?_⟩
      rcases hjunction with hnil | hj
      · rw [hnil, List.append_nil]
        exact hs.junction_path hc
      · exact Siblings.junction_below hc hj

/-- No junction of the cached words that is a prefix of the query is longer
than what the search matched. -/
theorem searchFrom_longest (t : RadixTrieNode τ) : ∀ q j, Siblings t.children →
    Junction (· ∈ wordsAmong t.children) j → j <+: q → j.length ≤ (searchFrom t q).1.length := by
  induction t using RadixTrieNode.induct with
  | h p l cs ih =>
    intro q j hs hj hjq
    by_cases hne : j = []
    · subst hne
      exact Nat.zero_le _
    obtain ⟨c, hc, j', rfl, hj'⟩ := hs.junction_inv hj hne
    have hcq : c.path <+: q := (List.prefix_append _ _).trans hjq
    have hq : q ≠ [] := fun h => (hs.compact c hc).edge (List.prefix_nil.mp (h ▸ hcq))
    rw [searchFrom_cons _ hq, children_mk]
    rcases searchAmong_cases cs q with ⟨_, hnone⟩ | ⟨d, hd, rest, rfl, he⟩
    · exact absurd hcq (hnone c hc)
    · -- the only child whose path can be a prefix of the query is the one of `j`
      have hcd : c = d := by
        apply hs.pick hc hd
        rw [hs.head_of_prefix hc hcq, hs.head_of_prefix hd (List.prefix_append _ _)]
      subst hcd
      rw [he, List.length_append, List.length_append]
      have hrest : j' <+: rest := (List.prefix_append_right_inj _).mp hjq
      rcases hj' with rfl | hj'
      · simp
      · exact Nat.add_le_add_left (ih c hc rest j' (hs.compact c hc).siblings hj' hrest) _

end PublicIntelligence.Node
