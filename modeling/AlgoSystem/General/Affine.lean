import Mathlib.Algebra.Order.Field.Basic
import Mathlib.Algebra.Order.BigOperators.Group.List
import Mathlib.Data.Finset.Max
import Mathlib.Tactic.Linarith
import Mathlib.Tactic.LinearCombination
import Mathlib.Tactic.Ring

/-!
# Piecewise affine functions

A function that is affine between its breakpoints, and does not fall after the last of them, is
least at a breakpoint or at the start of its domain.
-/

namespace AlgoSystem.General

variable {K : Type*} [Field K] [LinearOrder K] {f g : K → K} {a b s : K}

/-- On the interval from `a` to `b` the function is the line through its values at the ends. -/
def AffineOn (f : K → K) (a b : K) : Prop :=
  ∀ s, a ≤ s → s ≤ b → (b - a) * f s = (b - s) * f a + (s - a) * f b

theorem AffineOn.add (hf : AffineOn f a b) (hg : AffineOn g a b) :
    AffineOn (fun s => f s + g s) a b := by
  intro s low high
  have left := hf s low high
  have right := hg s low high
  linear_combination left + right

theorem AffineOn.const_mul (hf : AffineOn f a b) (c : K) : AffineOn (fun s => c * f s) a b := by
  intro s low high
  have line := hf s low high
  linear_combination c * line

theorem affineOn_const (c : K) : AffineOn (fun _ => c) a b := by
  intro s _ _
  ring

theorem affineOn_id : AffineOn (fun s : K => s) a b := by
  intro s _ _
  ring

theorem AffineOn.congr (hf : AffineOn f a b) (same : ∀ s, a ≤ s → s ≤ b → g s = f s) :
    AffineOn g a b := by
  intro s low high
  have order := low.trans high
  rw [same s low high, same a le_rfl order, same b order le_rfl]
  exact hf s low high

theorem affineOn_max_sub [IsStrictOrderedRing K] {k : K} (outside : k ≤ a ∨ b ≤ k) :
    AffineOn (fun s => max (s - k) 0) a b := by
  rcases outside with low | high
  · apply (affineOn_id.add (affineOn_const (-k))).congr
    intro s mem _
    rw [max_eq_left (sub_nonneg.mpr (low.trans mem)), sub_eq_add_neg]
  · apply (affineOn_const 0).congr
    intro s _ mem
    exact max_eq_right (sub_nonpos.mpr (mem.trans high))

theorem affineOn_sub_max [IsStrictOrderedRing K] {k : K} (outside : k ≤ a ∨ b ≤ k) :
    AffineOn (fun s => max (k - s) 0) a b := by
  rcases outside with low | high
  · apply (affineOn_const 0).congr
    intro s mem _
    exact max_eq_right (sub_nonpos.mpr (low.trans mem))
  · apply ((affineOn_const k).add (affineOn_id.const_mul (-1))).congr
    intro s _ mem
    rw [max_eq_left (sub_nonneg.mpr (mem.trans high)), neg_one_mul, sub_eq_add_neg]

theorem affineOn_sum {ι : Type*} {l : List ι} {F : ι → K → K}
    (each : ∀ i ∈ l, AffineOn (F i) a b) : AffineOn (fun s => (l.map (F · s)).sum) a b := by
  induction l with
  | nil => exact affineOn_const 0
  | cons i l ih =>
    have rest := ih fun j mem => each j (List.mem_cons_of_mem i mem)
    simp only [List.map_cons, List.sum_cons]
    exact (each i List.mem_cons_self).add rest

variable [IsStrictOrderedRing K]

theorem AffineOn.min_le (hf : AffineOn f a b) (low : a ≤ s) (high : s ≤ b) (proper : a < b) :
    min (f a) (f b) ≤ f s := by
  have line := hf s low high
  have left : (b - s) * min (f a) (f b) ≤ (b - s) * f a :=
    mul_le_mul_of_nonneg_left (min_le_left _ _) (sub_nonneg.mpr high)
  have right : (s - a) * min (f a) (f b) ≤ (s - a) * f b :=
    mul_le_mul_of_nonneg_left (min_le_right _ _) (sub_nonneg.mpr low)
  have scaled : (b - a) * min (f a) (f b) ≤ (b - a) * f s := by
    rw [line]
    linarith
  exact le_of_mul_le_mul_left scaled (sub_pos.mpr proper)

theorem exists_breakpoint_le {points : List K} {start : K}
    (affine : ∀ a b, (∀ p ∈ points, p ≤ a ∨ b ≤ p) → AffineOn f a b)
    (rises : ∀ s t, (∀ p ∈ points, p ≤ s) → s ≤ t → f s ≤ f t) (mem : start ≤ s) :
    ∃ p ∈ start :: points, f p ≤ f s := by
  -- the last point up to `s`
  obtain ⟨a, member, last⟩ := Finset.exists_max_image
    ((start :: points).toFinset.filter (· ≤ s)) id ⟨start, by simp [mem]⟩
  simp only [Finset.mem_filter, List.mem_toFinset, id_eq] at member last
  by_cases beyond : ∃ p ∈ points, s < p
  · obtain ⟨later, laterInside, above⟩ := beyond
    -- the first point after `s`
    obtain ⟨b, memberB, first⟩ := Finset.exists_min_image
      (points.toFinset.filter (s < ·)) id ⟨later, by simp [laterInside, above]⟩
    simp only [Finset.mem_filter, List.mem_toFinset, id_eq] at memberB first
    have segment : AffineOn f a b := by
      apply affine
      intro p pInside
      by_cases early : p ≤ s
      · exact .inl (last p ⟨List.mem_cons_of_mem start pInside, early⟩)
      · exact .inr (first p ⟨pInside, not_le.mp early⟩)
    have bound := segment.min_le member.2 memberB.2.le (member.2.trans_lt memberB.2)
    rcases min_le_iff.mp bound with left | right
    · exact ⟨a, member.1, left⟩
    · exact ⟨b, List.mem_cons_of_mem start memberB.1, right⟩
  · simp only [not_exists, not_and, not_lt] at beyond
    refine ⟨a, member.1, rises a s ?_ member.2⟩
    intro p pInside
    exact last p ⟨List.mem_cons_of_mem start pInside, beyond p pInside⟩

end AlgoSystem.General
