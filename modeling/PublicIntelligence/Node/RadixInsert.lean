import PublicIntelligence.Node.RadixSearch

namespace PublicIntelligence.Node
open RadixTrieNode Words

variable [DecidableEq τ]

/-- What inserting `w` below a node may do to it. `branches` is the case of a
node that was just split: it has one child and no prompt, and gains one of the
two here. -/
structure Inserted (t t' : RadixTrieNode τ) (w : List τ) : Prop where
  path : t'.path = t.path
  siblings : Siblings t'.children
  leaf : t.isLeaf = true → t'.isLeaf = true
  grows : t.children.length ≤ t'.children.length
  ends : w = [] → t'.isLeaf = true
  branches : w ≠ [] → (∀ c ∈ t.children, head c ≠ w.head?) →
    t'.children.length = t.children.length + 1
  words : ∀ x, x ∈ wordsBelow t' ↔ x = w ∨ x ∈ wordsBelow t

/-- The child that `_insert_node` descends into after a match of `common`
tokens: split when only a part of its path matched. -/
def prepared (c : RadixTrieNode τ) (common : Nat) : RadixTrieNode τ :=
  if common < c.path.length then split c common else c

omit [DecidableEq τ] in
theorem wordsBelow_split (c : RadixTrieNode τ) (n : Nat) :
    x ∈ wordsBelow (split c n) ↔ ∃ y ∈ wordsBelow c, x = c.path.drop n ++ y := by
  obtain ⟨p, l, cs⟩ := c
  simp only [split, mem_wordsBelow, isLeaf_mk, Bool.false_eq_true, false_and, children_mk, path_mk,
    false_or, @mem_wordsAmong _ _ [_], List.mem_singleton, exists_eq_left]

/-- Splitting moves no word: the shared part becomes the path, and the words of
the child stay where they were. -/
theorem prepared_spec {c : RadixTrieNode τ} (hc : Compact c) (w : List τ) :
    (prepared c (lcp c.path w).length).path = lcp c.path w ∧
    Siblings (prepared c (lcp c.path w).length).children ∧
    ∀ x, (∃ y ∈ wordsBelow (prepared c (lcp c.path w).length), x = lcp c.path w ++ y) ↔
      ∃ y ∈ wordsBelow c, x = c.path ++ y := by
  obtain ⟨a, b, ha, hb, -⟩ := lcp_rest c.path w
  unfold prepared
  split
  · rename_i hlt
    have htake := take_split ha
    have hdrop := drop_split ha
    have hane : a ≠ [] := by
      rintro rfl
      rw [List.append_nil] at ha
      exact absurd hlt (by rw [← ha]; exact Nat.lt_irrefl _)
    refine ⟨htake, ⟨List.nodup_singleton _, ?_⟩, fun x => ?_⟩
    · intro d hd
      rw [split, children_mk, List.mem_singleton] at hd
      subst hd
      exact Compact.of_parts (by rwa [path_mk, hdrop]) hc.kept hc.siblings
    · simp only [wordsBelow_split, hdrop]
      constructor
      · rintro ⟨_, ⟨y, hy, rfl⟩, rfl⟩
        exact ⟨y, hy, by rw [← List.append_assoc, ← ha]⟩
      · rintro ⟨y, hy, rfl⟩
        exact ⟨a ++ y, ⟨y, hy, rfl⟩, by rw [← List.append_assoc, ← ha]⟩
  · rename_i hlt
    have hfull : lcp c.path w = c.path := (lcp_spec c.path w).1.eq_of_length_le (by omega)
    exact ⟨hfull.symm, hc.siblings, fun x => by rw [hfull]⟩

/-- After the descent the matched child is compact again. -/
theorem prepared_compact {c c' : RadixTrieNode τ} (hc : Compact c) (hne : lcp c.path w ≠ [])
    (hi : Inserted (prepared c (lcp c.path w).length) c' (w.drop (lcp c.path w).length)) :
    Compact c' := by
  obtain ⟨hpath, -, -⟩ := prepared_spec hc w
  refine Compact.of_parts (by rw [hi.path, hpath]; exact hne) ?_ hi.siblings
  obtain ⟨a, b, ha, hb, hab⟩ := lcp_rest c.path w
  have hdrop := drop_split hb
  by_cases hlt : (lcp c.path w).length < c.path.length
  · have hprep : prepared c (lcp c.path w).length = split c (lcp c.path w).length := if_pos hlt
    have hdropc := drop_split ha
    by_cases hb0 : b = []
    · exact .inl (hi.ends (hdrop.trans hb0))
    · right
      have hane : a ≠ [] := by
        rintro rfl
        rw [List.append_nil] at ha
        rw [← ha] at hlt
        exact Nat.lt_irrefl _ hlt
      have hhead : a.head? ≠ b.head? := by
        rcases lcp_eq_nil.mp hab with h | h | h
        · exact absurd h hane
        · exact absurd h hb0
        · exact h
      have := hi.branches (by rwa [hdrop]) (by
        intro d hd
        rw [hprep, split, children_mk, List.mem_singleton] at hd
        subst hd
        rw [head, path_mk, hdropc, hdrop]
        exact hhead)
      rw [this, hprep]
      exact Nat.le_refl 2
  · have hprep : prepared c (lcp c.path w).length = c := if_neg hlt
    rw [hprep] at hi
    rcases hc.kept with hl | hk
    · exact .inl (hi.leaf hl)
    · exact .inr (Nat.le_trans hk hi.grows)

/-- What a pass over the siblings `cs` makes of them when it inserts `w`. -/
structure Spread (cs cs' : List (RadixTrieNode τ)) (w : List τ) : Prop where
  siblings : Siblings cs'
  grows : cs.length ≤ cs'.length
  branches : (∀ c ∈ cs, head c ≠ w.head?) → cs'.length = cs.length + 1
  heads : ∀ c ∈ cs', head c = w.head? ∨ ∃ d ∈ cs, head c = head d
  words : ∀ x, x ∈ wordsAmong cs' ↔ x = w ∨ x ∈ wordsAmong cs

theorem Siblings.rest (h : Siblings (c :: cs)) : Siblings cs :=
  ⟨(List.nodup_cons.mp h.apart).2, fun d hd => h.compact d (List.mem_cons_of_mem _ hd)⟩

/-- A word that shares no token with a child goes on behind it. -/
theorem Spread.past {c : RadixTrieNode τ} (hs : Siblings (c :: cs)) (hw : w ≠ []) (hnone : lcp c.path w = [])
    (h : Spread cs cs' w) :
    Spread (c :: cs) (c :: cs') w := by
  have hc := hs.compact c List.mem_cons_self
  have hhead : head c ≠ w.head? := by
    rcases lcp_eq_nil.mp hnone with hnil | hnil | hne
    · exact absurd hnil hc.edge
    · exact absurd hnil hw
    · exact hne
  have hfresh : head c ∉ cs'.map head := by
    intro hm
    obtain ⟨d, hdm, he⟩ := List.mem_map.mp hm
    rcases h.heads d hdm with hnew | ⟨e, hem, hold⟩
    · exact hhead (he.symm.trans hnew)
    · exact (List.nodup_cons.mp hs.apart).1 (he.symm.trans hold ▸ List.mem_map_of_mem hem)
  refine ⟨⟨List.nodup_cons.mpr ⟨hfresh, h.siblings.apart⟩, ?_⟩, by simpa using h.grows, ?_, ?_, fun x => ?_⟩
  · intro d hdm
    rcases List.mem_cons.mp hdm with rfl | hdm
    · exact hc
    · exact h.siblings.compact d hdm
  · intro hall
    simp [h.branches fun d hdm => hall d (List.mem_cons_of_mem _ hdm)]
  · intro d hdm
    rcases List.mem_cons.mp hdm with rfl | hdm
    · exact .inr ⟨d, List.mem_cons_self, rfl⟩
    · rcases h.heads d hdm with hnew | ⟨e, hem, hold⟩
      · exact .inl hnew
      · exact .inr ⟨e, List.mem_cons_of_mem _ hem, hold⟩
  · simp only [wordsAmong, List.mem_append, h.words x]
    tauto

/-- A word that shares a prefix with a child goes below it. -/
theorem Spread.into {c c' : RadixTrieNode τ} (hs : Siblings (c :: cs)) (hsome : lcp c.path w ≠ [])
    (hi : Inserted (prepared c (lcp c.path w).length) c' (w.drop (lcp c.path w).length)) :
    Spread (c :: cs) (c' :: cs) w := by
  have hc := hs.compact c List.mem_cons_self
  obtain ⟨hpath, _, hsame⟩ := prepared_spec hc w
  obtain ⟨a, b, _, hb, _⟩ := lcp_rest c.path w
  have hdrop := drop_split hb
  have hheadc : head c = w.head? := (lcp_ne_nil hsome).2.2
  have hheadnew : head c' = head c := by
    rw [head, hi.path, hpath, hheadc]
    exact Words.head_of_prefix hsome (lcp_spec c.path w).2
  refine ⟨⟨?_, ?_⟩, Nat.le_refl _, ?_, ?_, fun x => ?_⟩
  · rw [List.map_cons, hheadnew]
    exact hs.apart
  · intro d hdm
    rcases List.mem_cons.mp hdm with rfl | hdm
    · exact prepared_compact hc hsome hi
    · exact hs.rest.compact d hdm
  · intro hall
    exact absurd hheadc (hall c List.mem_cons_self)
  · intro d hdm
    rcases List.mem_cons.mp hdm with rfl | hdm
    · exact .inl (hheadnew.trans hheadc)
    · exact .inr ⟨d, List.mem_cons_of_mem _ hdm, rfl⟩
  · have hone : (∃ y ∈ wordsBelow c', x = lcp c.path w ++ y) ↔ x = w ∨ ∃ y ∈ wordsBelow c, x = c.path ++ y := by
      rw [← hsame x]
      constructor
      · rintro ⟨y, hy, rfl⟩
        rcases (hi.words y).mp hy with rfl | hy
        · exact .inl (by rw [hdrop, ← hb])
        · exact .inr ⟨y, hy, rfl⟩
      · rintro (rfl | ⟨y, hy, rfl⟩)
        · exact ⟨_, (hi.words _).mpr (.inl rfl), by rw [hdrop, ← hb]⟩
        · exact ⟨y, (hi.words y).mpr (.inr hy), rfl⟩
    simp only [@mem_wordsAmong _ _ (_ :: _), List.exists_mem_cons_iff, hi.path, hpath, hone,
      ← @mem_wordsAmong _ _ cs, or_assoc]

/-- One pass over the siblings, given what the recursive call does. -/
theorem insertAmong_spec {descend : RadixTrieNode τ → List τ → RadixTrieNode τ}
    {cs : List (RadixTrieNode τ)} (hs : Siblings cs) (hw : w ≠ [])
    (hd : ∀ c w', Siblings c.children → w'.length < w.length → Inserted c (descend c w') w') :
    Spread cs (insertAmong descend cs w) w := by
  induction cs with
  | nil =>
    have hnew : Compact (mk w true []) := .mk hw (.inl rfl) List.nodup_nil (by simp)
    refine ⟨⟨List.nodup_singleton _, ?_⟩, Nat.zero_le _, fun _ => rfl, ?_, fun x => ?_⟩
    · intro c hc
      rw [insertAmong, List.mem_singleton] at hc
      exact hc ▸ hnew
    · intro c hc
      rw [insertAmong, List.mem_singleton] at hc
      exact .inl (hc ▸ rfl)
    · simp [insertAmong, wordsAmong, wordsBelow]
  | cons c cs ih =>
    by_cases hnone : lcp c.path w = []
    · have hkeep : insertAmong descend (c :: cs) w = c :: insertAmong descend cs w := by
        simp [insertAmong, common_eq_lcp, hnone]
      rw [hkeep]
      exact (ih hs.rest).past hs hw hnone
    · have hpos : 0 < (lcp c.path w).length := List.length_pos_iff.mpr hnone
      have hgo : insertAmong descend (c :: cs) w =
          descend (prepared c (lcp c.path w).length) (w.drop (lcp c.path w).length) :: cs := by
        simp only [insertAmong, common_eq_lcp, gt_iff_lt, hpos, if_true, prepared]
      have hshort : (w.drop (lcp c.path w).length).length < w.length := by
        rw [List.length_drop]
        have hlength := List.length_pos_iff.mpr hw
        omega
      rw [hgo]
      exact Spread.into hs hnone (hd _ _ (prepared_spec (hs.compact c List.mem_cons_self) w).2.1 hshort)

/-- `_insert_node` adds the one word and keeps the trie compact; its recursion
never outlasts the word. -/
theorem insertNode_spec (n : Nat) : ∀ (t : RadixTrieNode τ) (w : List τ), w.length ≤ n →
    Siblings t.children → Inserted t (insertNode n t w) w := by
  induction n with
  | zero =>
    intro t w hw hs
    obtain rfl := List.length_eq_zero_iff.mp (Nat.le_zero.mp hw)
    obtain ⟨p, l, cs⟩ := t
    exact ⟨rfl, hs, fun _ => rfl, Nat.le_refl _, fun _ => rfl, fun h => absurd rfl h, fun x => by
      cases l <;> simp [insertNode, wordsBelow]⟩
  | succ n ih =>
    intro t w hw hs
    obtain ⟨p, l, cs⟩ := t
    cases w with
    | nil =>
      exact ⟨rfl, hs, fun _ => rfl, Nat.le_refl _, fun _ => rfl, fun h => absurd rfl h, fun x => by
        cases l <;> simp [insertNode, wordsBelow]⟩
    | cons a w =>
      have hspread := insertAmong_spec hs (List.cons_ne_nil a w) fun c w' hc hlt =>
        ih c w' (by simp at hlt hw; omega) hc
      refine ⟨rfl, hspread.siblings, fun h => h, hspread.grows, fun h => absurd h (List.cons_ne_nil a w),
        fun _ => hspread.branches, fun x => ?_⟩
      have hwords := hspread.words
      simp only [children_mk] at hwords
      simp only [insertNode, mem_wordsBelow, isLeaf_mk, children_mk, hwords x]
      tauto

/-- A root whose words are exactly the listed prompts. -/
structure Holds (root : RadixTrieNode τ) (prompts : List (List τ)) : Prop where
  path : root.path = []
  siblings : Siblings root.children
  words : ∀ x, x ∈ wordsBelow root ↔ x ∈ prompts

omit [DecidableEq τ] in
theorem holds_empty : Holds (emptyRoot : RadixTrieNode τ) [] :=
  ⟨rfl, ⟨List.nodup_nil, by simp [emptyRoot]⟩, by simp [emptyRoot, wordsBelow, wordsAmong]⟩

theorem Holds.insert {root : RadixTrieNode τ} (h : Holds root ps) (w : List τ)
    (hq : ∀ x, x ∈ qs ↔ x = w ∨ x ∈ ps) : Holds (insertIntoTrie root w) qs := by
  have hi := insertNode_spec w.length root w (Nat.le_refl _) h.siblings
  exact ⟨hi.path.trans h.path, hi.siblings, fun x => by
    rw [insertIntoTrie, hi.words, h.words, hq]⟩

theorem Holds.insert_all {root : RadixTrieNode τ} (h : Holds root ps) (ws : List (List τ)) :
    Holds (ws.foldl insertIntoTrie root) (ps ++ ws) := by
  induction ws generalizing root ps with
  | nil => simpa using h
  | cons w ws ih =>
    have := ih (h.insert w (fun x => show x ∈ ps ++ [w] ↔ _ by simp [or_comm]))
    rwa [List.append_assoc, List.singleton_append] at this

theorem holds_rebuild (ps : List (List τ)) : Holds (rebuildTrie ps) ps :=
  holds_empty.insert_all ps

theorem mem_moveToEnd {ps : List (List τ)} : x ∈ moveToEnd ps p ↔ x = p ∨ x ∈ ps := by
  by_cases h : x = p
  · simp [moveToEnd, h]
  · simp [moveToEnd, List.mem_erase_of_ne h, h]

theorem moveToEnd_perm {ps : List (List τ)} (h : p ∈ ps) : (moveToEnd ps p).Perm ps :=
  (List.perm_append_singleton p _).trans (List.perm_cons_erase h).symm

/-- Touching cached prompts only reorders them. -/
theorem touched_perm {ts ps : List (List τ)} (h : ∀ t ∈ ts, t ∈ ps) : (ts.foldl moveToEnd ps).Perm ps := by
  induction ts generalizing ps with
  | nil => exact .refl _
  | cons t ts ih =>
    obtain ⟨ht, hts⟩ := List.forall_mem_cons.mp h
    have hone := moveToEnd_perm ht
    exact (ih fun u hu => hone.symm.subset (hts u hu)).trans hone

end PublicIntelligence.Node
