import Mathlib.Data.List.Forall2
import Mathlib.Data.List.Infix

namespace PublicIntelligence.KeyExpr

/-- A segment of a key expression: itself, any one segment, or any number of them. -/
inductive Segment (κ : Type) where
  | literal (k : κ)
  | one
  | many

section
variable {κ : Type} [DecidableEq κ]

/-- The keys an expression stands for. -/
def accepts : List (Segment κ) → List κ → Bool
  | [], key => key.isEmpty
  | .literal k :: expr, key =>
    match key with
    | [] => false
    | x :: rest => decide (x = k) && accepts expr rest
  | .one :: expr, key =>
    match key with
    | [] => false
    | _ :: rest => accepts expr rest
  | .many :: expr, key => key.tails.any (accepts expr)

/-- Two expressions stand for a key in common. -/
def Intersects (p q : List (Segment κ)) : Prop := ∃ key, accepts p key = true ∧ accepts q key = true

@[simp] theorem accepts_nil {key : List κ} : accepts [] key = true ↔ key = [] := List.isEmpty_iff

@[simp] theorem accepts_literal {k : κ} {expr : List (Segment κ)} {key : List κ} :
    accepts (.literal k :: expr) key = true ↔ ∃ rest, key = k :: rest ∧ accepts expr rest = true := by
  cases key with
  | nil => simp [accepts]
  | cons x rest =>
    simp only [accepts, Bool.and_eq_true, decide_eq_true_eq, List.cons.injEq]
    constructor
    · rintro ⟨rfl, h⟩
      exact ⟨rest, ⟨rfl, rfl⟩, h⟩
    · rintro ⟨_, ⟨rfl, rfl⟩, h⟩
      exact ⟨rfl, h⟩

@[simp] theorem accepts_one {expr : List (Segment κ)} {key : List κ} :
    accepts (.one :: expr) key = true ↔ ∃ x rest, key = x :: rest ∧ accepts expr rest = true := by
  cases key <;> simp [accepts]

@[simp] theorem accepts_many {expr : List (Segment κ)} {key : List κ} :
    accepts (.many :: expr) key = true ↔ ∃ rest, rest <:+ key ∧ accepts expr rest = true := by
  simp only [accepts, List.any_eq_true, List.mem_tails]

/-- A wildcard of either kind stands for one segment, among others. -/
theorem accepts_wild {s : Segment κ} (hs : s = .one ∨ s = .many) {expr : List (Segment κ)} {x : κ} {rest : List κ}
    (h : accepts expr rest = true) : accepts (s :: expr) (x :: rest) = true := by
  rcases hs with rfl | rfl
  · exact accepts_one.mpr ⟨x, rest, rfl, h⟩
  · exact accepts_many.mpr ⟨rest, List.suffix_cons x rest, h⟩

/-- An expression without a wildcard stands for one key. -/
theorem accepts_literals {ks key : List κ} : accepts (ks.map .literal) key = true ↔ key = ks := by
  induction ks generalizing key with
  | nil => exact accepts_nil
  | cons k ks ih => simp [ih]

/-- An expression without `many` is compared with a key segment by segment. -/
theorem accepts_iff_forall₂ {expr : List (Segment κ)} (h : .many ∉ expr) {key : List κ} :
    accepts expr key = true ↔ List.Forall₂ (fun s k => accepts [s] [k] = true) expr key := by
  induction expr generalizing key with
  | nil => rw [accepts_nil, List.forall₂_nil_left_iff]
  | cons s expr ih =>
    obtain ⟨hs, hexpr⟩ := not_or.mp (mt List.mem_cons.mpr h)
    rw [List.forall₂_cons_left_iff]
    cases s with
    | literal k =>
      rw [accepts_literal]
      constructor
      · rintro ⟨rest, rfl, hrest⟩
        exact ⟨k, rest, by simp, (ih hexpr).mp hrest, rfl⟩
      · rintro ⟨x, rest, hx, hrest, rfl⟩
        obtain ⟨_, hk, _⟩ := accepts_literal.mp hx
        obtain rfl := (List.cons.inj hk).1
        exact ⟨rest, rfl, (ih hexpr).mpr hrest⟩
    | one =>
      rw [accepts_one]
      constructor
      · rintro ⟨x, rest, rfl, hrest⟩
        exact ⟨x, rest, by simp, (ih hexpr).mp hrest, rfl⟩
      · rintro ⟨x, rest, _, hrest, rfl⟩
        exact ⟨x, rest, rfl, (ih hexpr).mpr hrest⟩
    | many => exact absurd rfl hs

/-- A segment of the key may be exchanged for another that the expression takes there. -/
theorem accepts_set {expr : List (Segment κ)} (h : .many ∉ expr) {key : List κ} {s : Segment κ} {k : κ}
    (hkey : accepts expr key = true) (hs : expr[i]? = some s) (hk : accepts [s] [k] = true) :
    accepts expr (key.set i k) = true := by
  rw [accepts_iff_forall₂ h] at hkey ⊢
  clear h
  induction hkey generalizing i with
  | nil => cases hs
  | cons hfirst hrest ih =>
    cases i with
    | zero =>
      cases hs
      exact .cons hk hrest
    | succ i => exact .cons hfirst (ih hs)

theorem intersects_literals {ks ls : List κ} : Intersects (ks.map .literal) (ls.map .literal) ↔ ks = ls := by
  simp only [Intersects, accepts_literals]
  constructor
  · rintro ⟨key, rfl, h⟩
    exact h
  · rintro rfl
    exact ⟨ks, rfl, rfl⟩

end

end PublicIntelligence.KeyExpr
