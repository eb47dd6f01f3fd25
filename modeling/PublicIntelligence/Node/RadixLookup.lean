import PublicIntelligence.Node.Inference
import PublicIntelligence.Node.RadixRuns

namespace PublicIntelligence.Node
open RadixTrieNode Words

namespace RadixTrieCache
variable {τ : Type} [DecidableEq τ]

/-- A cache of the given capacity after some calls. -/
def after (size : Int) (ops : List (Op τ)) : RadixTrieCache τ := ops.foldl apply (new size)

theorem holds_apply {c : RadixTrieCache τ} (h : Holds c.root c.prompts) (op : Op τ) :
    Holds (c.apply op).root (c.apply op).prompts := by
  cases op with
  | lookup q => exact h.lookup q
  | insert q => exact h.insertPrefix q

/-- Whatever the capacity is, the trie spells the cached prompts. -/
theorem holds_after (size : Int) (ops : List (Op τ)) : Holds (after size ops).root (after size ops).prompts := by
  have hrun : ∀ c : RadixTrieCache τ, Holds c.root c.prompts →
      Holds (ops.foldl apply c).root (ops.foldl apply c).prompts := by
    induction ops with
    | nil => exact fun _ h => h
    | cons op ops ih => exact fun c h => ih _ (holds_apply h op)
  exact hrun (new size) holds_empty

/-- The walk ends where the prompts lead, also when it leaves the trie inside an edge. -/
theorem lookupPrefix_furthest {c : RadixTrieCache τ} (h : Holds c.root c.prompts) (q : List τ) :
    (c.lookupPrefix q).2.1 ++ (c.lookupPrefix q).2.2 = q ∧
      Furthest (· ∈ c.prompts) q (c.lookupPrefix q).2.1 := by
  change (searchFrom c.root q).1 ++ (searchFrom c.root q).2 = q ∧
    Furthest (· ∈ c.prompts) q (searchFrom c.root q).1
  obtain ⟨hsplit, hreached⟩ := searchFrom_sound c.root q h.siblings
  refine ⟨hsplit, ⟨_, hsplit⟩, ?_, ?_⟩
  · by_cases hnil : (searchFrom c.root q).1 = []
    · exact .inl hnil
    · exact .inr ((h.junction hnil).mp (hreached.resolve_left hnil))
  · intro j hj hpre
    by_cases hnil : j = []
    · subst hnil
      exact Nat.zero_le _
    · exact searchFrom_longest c.root q j h.siblings ((h.junction hnil).mpr hj) hpre

/-- Two tries that spell the same prompts answer alike. -/
theorem lookupPrefix_congr {c d : RadixTrieCache τ} (hc : Holds c.root c.prompts) (hd : Holds d.root d.prompts)
    (hsame : ∀ x, x ∈ d.prompts ↔ x ∈ c.prompts) (q : List τ) : (d.lookupPrefix q).2 = (c.lookupPrefix q).2 := by
  obtain ⟨hcsplit, hcfar⟩ := lookupPrefix_furthest hc q
  obtain ⟨hdsplit, hdfar⟩ := lookupPrefix_furthest hd q
  have hpre : (d.lookupPrefix q).2.1 = (c.lookupPrefix q).2.1 := hdfar.unique (hcfar.congr hsame)
  have hsuf : (d.lookupPrefix q).2.2 = (c.lookupPrefix q).2.2 := by
    have happ := hdsplit.trans hcsplit.symm
    rw [hpre] at happ
    exact List.append_cancel_left happ
  exact Prod.ext hpre hsuf

/-- After any calls, a lookup splits the query where the set of cached prompts says, and leaves that
set and the trie; any other history with the same set gives the same answer. -/
theorem lookup_prefix_specified (size : Int) (ops : List (Op τ)) (q : List τ) :
    ((after size ops).lookupPrefix q).2.1 ++ ((after size ops).lookupPrefix q).2.2 = q ∧
      Furthest (· ∈ (after size ops).prompts) q ((after size ops).lookupPrefix q).2.1 ∧
      ((after size ops).lookupPrefix q).1.root = (after size ops).root ∧
      (∀ x, x ∈ ((after size ops).lookupPrefix q).1.prompts ↔ x ∈ (after size ops).prompts) ∧
      ∀ (size' : Int) (ops' : List (Op τ)),
        (∀ x, x ∈ (after size' ops').prompts ↔ x ∈ (after size ops).prompts) →
          ((after size' ops').lookupPrefix q).2 = ((after size ops).lookupPrefix q).2 := by
  have hc := holds_after size ops
  obtain ⟨hsplit, hfar⟩ := lookupPrefix_furthest hc q
  refine ⟨hsplit, hfar, rfl, fun _ => mem_prompts_lookup _ q, ?_⟩
  intro size' ops' hsame
  exact lookupPrefix_congr hc (holds_after size' ops') hsame q

/-- A query that leaves the trie inside an edge, after an eviction: the two prompts left part after `a`. -/
example : ((after 2 [.insert "zz".toList, .insert "abc".toList, .insert "axy".toList]).lookupPrefix
    "abd".toList).2 = ("a".toList, "bd".toList) := by decide

end RadixTrieCache
end PublicIntelligence.Node
