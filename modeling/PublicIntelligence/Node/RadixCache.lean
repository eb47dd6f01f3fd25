import PublicIntelligence.Lib.Words

namespace PublicIntelligence.Node

/-- A node of the radix trie: the tokens of its edge, whether a prompt ends
here, and its children. Tokens are the characters of a prompt; the trie never
looks inside one. -/
inductive RadixTrieNode (τ : Type) where
  | mk (path : List τ) (isLeaf : Bool) (children : List (RadixTrieNode τ))

namespace RadixTrieNode

def path : RadixTrieNode τ → List τ
  | mk p _ _ => p

def isLeaf : RadixTrieNode τ → Bool
  | mk _ l _ => l

def children : RadixTrieNode τ → List (RadixTrieNode τ)
  | mk _ _ cs => cs

@[simp] theorem path_mk : path (mk p l cs : RadixTrieNode τ) = p := rfl
@[simp] theorem isLeaf_mk : isLeaf (mk p l cs : RadixTrieNode τ) = l := rfl
@[simp] theorem children_mk : children (mk p l cs : RadixTrieNode τ) = cs := rfl

mutual
/-- Induction over a trie: the hypothesis covers every child. -/
theorem induct {P : RadixTrieNode τ → Prop}
    (h : ∀ p l cs, (∀ c ∈ cs, P c) → P (mk p l cs)) : ∀ t, P t
  | mk p l cs => h p l cs (inductAll h cs)
theorem inductAll {P : RadixTrieNode τ → Prop}
    (h : ∀ p l cs, (∀ c ∈ cs, P c) → P (mk p l cs)) :
    ∀ cs : List (RadixTrieNode τ), ∀ c ∈ cs, P c
  | [], _, hc => absurd hc List.not_mem_nil
  | d :: ds, c, hc => (List.mem_cons.mp hc).elim (fun e => e ▸ induct h d) (inductAll h ds c)
end

end RadixTrieNode

open RadixTrieNode

/-- `RadixTrieNode([])`, the trie of no prompt. -/
def emptyRoot : RadixTrieNode τ := mk [] false []

section
variable [DecidableEq τ]

def getCommonPrefixLength : List τ → List τ → Nat
  | t1 :: path1, t2 :: path2 => if t1 = t2 then getCommonPrefixLength path1 path2 + 1 else 0
  | _, _ => 0

mutual
/-- The rest of `_search_trie` from `curr` on: the tokens matched below it and
the tokens that remain. -/
def searchFrom : RadixTrieNode τ → List τ → List τ × List τ
  | mk _ _ cs, remaining => if remaining = [] then ([], []) else searchAmong cs remaining
/-- The `for child in curr.children` loop: descend into the first child whose
whole path matches, stop if there is none. -/
def searchAmong : List (RadixTrieNode τ) → List τ → List τ × List τ
  | [], remaining => ([], remaining)
  | child :: rest, remaining =>
    if getCommonPrefixLength child.path remaining = child.path.length then
      let (matched, left) := searchFrom child (remaining.drop child.path.length)
      (child.path ++ matched, left)
    else searchAmong rest remaining
end

def searchTrie (root : RadixTrieNode τ) (prompt : List τ) : List τ × List τ :=
  searchFrom root prompt

/-- Split a compressed node after `common` tokens. -/
def split (child : RadixTrieNode τ) (common : Nat) : RadixTrieNode τ :=
  mk (child.path.take common) false [mk (child.path.drop common) child.isLeaf child.children]

/-- The `for child in parent.children` loop of `_insert_node`; `descend` is the
recursive call on the chosen child. -/
def insertAmong (descend : RadixTrieNode τ → List τ → RadixTrieNode τ) :
    List (RadixTrieNode τ) → List τ → List (RadixTrieNode τ)
  | [], tokens => [mk tokens true []]
  | child :: rest, tokens =>
    let common := getCommonPrefixLength child.path tokens
    if common > 0 then
      let child := if common < child.path.length then split child common else child
      descend child (tokens.drop common) :: rest
    else child :: insertAmong descend rest tokens

/-- `_insert_node`. Every level consumes a token, so the prompt's length bounds
the depth of the recursion. -/
def insertNode : Nat → RadixTrieNode τ → List τ → RadixTrieNode τ
  | _, mk p _ cs, [] => mk p true cs
  | 0, parent, _ => parent
  | n + 1, mk p l cs, tokens => mk p l (insertAmong (insertNode n) cs tokens)

def insertIntoTrie (root : RadixTrieNode τ) (prompt : List τ) : RadixTrieNode τ :=
  insertNode prompt.length root prompt

def rebuildTrie (prompts : List (List τ)) : RadixTrieNode τ :=
  prompts.foldl insertIntoTrie emptyRoot

/-- `OrderedDict.move_to_end` on the keys: least recently used first. -/
def moveToEnd (prompts : List (List τ)) (prompt : List τ) : List (List τ) :=
  prompts.erase prompt ++ [prompt]

structure RadixTrieCache (τ : Type) where
  capacity : Int
  root : RadixTrieNode τ
  prompts : List (List τ)

namespace RadixTrieCache

def defaultCapacity : Int := 500

def new (capacity : Int) : RadixTrieCache τ := ⟨capacity, emptyRoot, []⟩

/-- `lookup_prefix`: the cache with the matching prompts touched, the matched
prefix and the remaining suffix. -/
def lookupPrefix (c : RadixTrieCache τ) (prompt : List τ) :
    RadixTrieCache τ × List τ × List τ :=
  let (pre, suffix) := searchTrie c.root prompt
  let touched := c.prompts.filter (fun p => pre.isPrefixOf p)
  let prompts := if pre = [] then c.prompts else touched.foldl moveToEnd c.prompts
  ({ c with prompts := prompts }, pre, suffix)

def insertPrefix (c : RadixTrieCache τ) (prompt : List τ) : RadixTrieCache τ :=
  let prompts := moveToEnd c.prompts prompt
  if (prompts.length : Int) > c.capacity then
    { c with prompts := prompts.tail, root := rebuildTrie prompts.tail }
  else { c with prompts := prompts, root := insertIntoTrie c.root prompt }

end RadixTrieCache
end
end PublicIntelligence.Node
