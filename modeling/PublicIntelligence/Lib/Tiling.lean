import Mathlib.Algebra.Order.Ring.Int
import Mathlib.Data.List.Chain

namespace PublicIntelligence

/-- Intervals that follow one another without a gap, from `a` up to but not including `c`. -/
inductive Tiles (first last : β → Int) : Int → Int → List β → Prop
  | nil : Tiles first last a a []
  | cons (hfirst : first b = a) (hlast : a ≤ last b) (rest : Tiles first last (last b + 1) c bs) :
    Tiles first last a c (b :: bs)

namespace Tiles

variable {first last : β → Int}

theorem le (h : Tiles first last a c bs) : a ≤ c := by
  induction h with
  | nil => exact le_rfl
  | cons _ hlast _ ih => omega

theorem append (h : Tiles first last a b bs) (h' : Tiles first last b c cs) :
    Tiles first last a c (bs ++ cs) := by
  induction h with
  | nil => exact h'
  | cons hfirst hlast _ ih => exact .cons hfirst hlast (ih h')

/-- No interval reaches below the first point or beyond the last. -/
theorem bounds (h : Tiles first last a c bs) (hb : b ∈ bs) : a ≤ first b ∧ first b ≤ last b ∧ last b < c := by
  induction h with
  | nil => cases hb
  | cons hfirst hlast rest ih =>
    rcases List.mem_cons.mp hb with rfl | hb
    · have := rest.le
      omega
    · have := ih hb
      omega

/-- Every point is in one interval, and in no second. -/
theorem countP_eq_one (h : Tiles first last a c bs) (hk : a ≤ k) (hk' : k < c) :
    (bs.countP fun b => decide (first b ≤ k) && decide (k ≤ last b)) = 1 := by
  induction h with
  | nil => omega
  | @cons b a c bs hfirst hlast rest ih =>
    rcases Int.lt_or_le (last b) k with hlater | hhere
    · rw [List.countP_cons_of_neg, ih (by omega) hk']
      simp only [Bool.and_eq_true, decide_eq_true_eq, not_and]
      omega
    · rw [List.countP_cons_of_pos]
      · have hnone : (bs.countP fun b => decide (first b ≤ k) && decide (k ≤ last b)) = 0 := by
          refine List.countP_eq_zero.mpr fun d hd => ?_
          have := (rest.bounds hd).1
          simp only [Bool.and_eq_true, decide_eq_true_eq, not_and]
          omega
        rw [hnone]
      · simp only [Bool.and_eq_true, decide_eq_true_eq]
        omega

theorem adjacent (h : Tiles first last a c bs) : bs.IsChain fun b d => last b + 1 = first d := by
  induction h with
  | nil => exact .nil
  | cons _ _ rest ih =>
    cases rest with
    | nil => exact .singleton _
    | cons hfirst _ _ => exact .cons_cons hfirst.symm ih

theorem head (h : Tiles first last a c (b :: bs)) : first b = a := by
  cases h with
  | cons hfirst _ _ => exact hfirst

theorem getLast (h : Tiles first last a c bs) (hne : bs ≠ []) : last (bs.getLast hne) + 1 = c := by
  induction h with
  | nil => exact absurd rfl hne
  | @cons b a c bs hfirst hlast rest ih =>
    cases bs with
    | nil =>
      cases rest
      rfl
    | cons d ds => exact ih (List.cons_ne_nil d ds)

end Tiles
end PublicIntelligence
