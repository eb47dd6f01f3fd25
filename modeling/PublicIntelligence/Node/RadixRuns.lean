import PublicIntelligence.Node.RadixInsert

namespace PublicIntelligence.Node
open RadixTrieNode Words

section
variable {τ : Type}

/-- No word is spelled twice: siblings start apart, and no child spells the empty word. -/
theorem wordsAmong_nodup {cs : List (RadixTrieNode τ)} (h : Siblings cs)
    (hbelow : ∀ c ∈ cs, (wordsBelow c).Nodup) : (wordsAmong cs).Nodup := by
  induction cs with
  | nil => exact List.nodup_nil
  | cons c cs ih =>
    have hrest : Siblings cs :=
      ⟨(List.nodup_cons.mp h.apart).2, fun d hd => h.compact d (List.mem_cons_of_mem _ hd)⟩
    have hown : ((wordsBelow c).map (c.path ++ ·)).Nodup :=
      (hbelow c List.mem_cons_self).map fun x y hxy => List.append_cancel_left hxy
    refine hown.append (ih hrest fun d hd => hbelow d (List.mem_cons_of_mem _ hd)) ?_
    intro x hx hx'
    obtain ⟨y, _, rfl⟩ := List.mem_map.mp hx
    obtain ⟨d, hd, z, _, heq⟩ := mem_wordsAmong.mp hx'
    have hc : head c = (c.path ++ y).head? :=
      Words.head_of_prefix (h.compact c List.mem_cons_self).edge (List.prefix_append _ y)
    have hd' : head d = (c.path ++ y).head? :=
      Words.head_of_prefix (hrest.compact d hd).edge ⟨z, heq.symm⟩
    exact (List.nodup_cons.mp h.apart).1 (hc.trans hd'.symm ▸ List.mem_map_of_mem hd)

theorem wordsBelow_nodup (t : RadixTrieNode τ) : Siblings t.children → (wordsBelow t).Nodup := by
  induction t using RadixTrieNode.induct with
  | h p l cs ih =>
    intro hs
    have hwords := wordsAmong_nodup hs fun c hc => ih c hc (hs.compact c hc).siblings
    cases l with
    | false => simpa [wordsBelow] using hwords
    | true =>
      rw [wordsBelow]
      exact List.nodup_cons.mpr ⟨hs.nil_not_mem, hwords⟩

end

section
variable {τ : Type} [DecidableEq τ]

theorem moveToEnd_nodup {ps : List (List τ)} (h : ps.Nodup) (p : List τ) : (moveToEnd ps p).Nodup := by
  refine (h.erase p).append (List.nodup_singleton p) (List.disjoint_singleton.mpr ?_)
  exact h.not_mem_erase

theorem length_moveToEnd (ps : List (List τ)) (p : List τ) :
    (moveToEnd ps p).length ≤ ps.length + 1 := by
  rw [moveToEnd, List.length_append, List.length_singleton]
  exact Nat.add_le_add_right List.length_erase_le 1

end

namespace RadixTrieCache

/-- A call on the cache. -/
inductive Op (τ : Type) where
  | lookup (prompt : List τ)
  | insert (prompt : List τ)

variable {τ : Type}

/-- The trie spells the prompts, each at one node; they are bounded; and its shape away from the
root is compact: no empty edge, siblings start apart, a node without a prompt branches. -/
structure Represents (c : RadixTrieCache τ) : Prop where
  path : c.root.path = []
  siblings : Siblings c.root.children
  words : (wordsBelow c.root).Perm c.prompts
  distinct : c.prompts.Nodup
  bounded : (c.prompts.length : Int) ≤ c.capacity

theorem represents_of_holds {c : RadixTrieCache τ} (h : Holds c.root c.prompts) (hd : c.prompts.Nodup)
    (hb : (c.prompts.length : Int) ≤ c.capacity) : c.Represents :=
  ⟨h.path, h.siblings, (List.perm_ext_iff_of_nodup (wordsBelow_nodup _ h.siblings) hd).mpr h.words, hd, hb⟩

theorem Represents.holds {c : RadixTrieCache τ} (h : c.Represents) : Holds c.root c.prompts :=
  ⟨h.path, h.siblings, fun _ => h.words.mem_iff⟩

theorem represents_new {size : Int} (h : 0 ≤ size) : (new size : RadixTrieCache τ).Represents :=
  represents_of_holds holds_empty List.nodup_nil h

variable [DecidableEq τ]

def apply (c : RadixTrieCache τ) : Op τ → RadixTrieCache τ
  | .lookup prompt => (c.lookupPrefix prompt).1
  | .insert prompt => c.insertPrefix prompt

/-- A lookup only changes the order of the prompts. -/
theorem Represents.lookup {c : RadixTrieCache τ} (h : c.Represents) (q : List τ) : (c.lookupPrefix q).1.Represents := by
  have hperm : (c.lookupPrefix q).1.prompts.Perm c.prompts := by
    simp only [lookupPrefix]
    split
    · exact .refl _
    · exact touched_perm fun t ht => (List.mem_filter.mp ht).1
  exact ⟨h.path, h.siblings, h.words.trans hperm.symm, hperm.nodup_iff.mpr h.distinct,
    hperm.length_eq ▸ h.bounded⟩

theorem Represents.insert {c : RadixTrieCache τ} (h : c.Represents) (q : List τ) : (c.insertPrefix q).Represents := by
  have hnodup := moveToEnd_nodup h.distinct q
  have hlen := length_moveToEnd c.prompts q
  have hbounded := h.bounded
  unfold insertPrefix
  dsimp only
  split
  · -- the least recently used prompt goes, and the trie is built anew
    refine represents_of_holds (holds_rebuild _) hnodup.tail ?_
    simp only [List.length_tail]
    omega
  · rename_i hfits
    exact represents_of_holds (h.holds.insert q fun x => mem_moveToEnd) hnodup (Int.not_lt.mp hfits)

/-- Whatever is looked up and inserted, the trie stands for the prompts. -/
theorem run_represents {size : Int} (hsize : 1 ≤ size) (ops : List (Op τ)) :
    (ops.foldl apply (new size : RadixTrieCache τ)).Represents := by
  have hall : ∀ c : RadixTrieCache τ, c.Represents → (ops.foldl apply c).Represents := by
    induction ops with
    | nil => exact fun _ h => h
    | cons op ops ih =>
      intro c h
      cases op with
      | lookup q => exact ih _ (h.lookup q)
      | insert q => exact ih _ (h.insert q)
  exact hall _ (represents_new (by omega))

/-- Prompts of which one is a prefix of another, the empty one among them, and an eviction. -/
theorem run_represents_sample :
    ([.insert "ab".toList, .insert "a".toList, .lookup "abc".toList, .insert [], .insert "abc".toList].foldl apply
      (new 3 : RadixTrieCache Char)).Represents :=
  run_represents (by decide) _

end RadixTrieCache
end PublicIntelligence.Node
