import Mathlib.Data.List.Induction
import Mathlib.Order.Bounds.Basic
import Mathlib.Order.OrderDual
import Mathlib.Order.MinMax
import Mathlib.Data.List.ReduceOption

/-!
# Summaries of a sequence of observations

`IsOhlc` says what the open, high, low and close of a sequence of prices are, `lastReported` is the
last value reported at all. Both are extended by one observation at a time.
-/

namespace AlgoSystem.General
open List

variable {P V : Type*} [LinearOrder P]

structure IsOhlc (prices : List P) (opening high low close : P) : Prop where
  first : prices.head? = some opening
  greatest : IsGreatest {p | p ∈ prices} high
  least : IsLeast {p | p ∈ prices} low
  last : prices.getLast? = some close

def lastReported (values : List (Option V)) : Option V := values.reduceOption.getLast?

theorem IsOhlc.singleton (p : P) : IsOhlc [p] p p p p where
  first := rfl
  greatest := by simp [IsGreatest, upperBounds]
  least := by simp [IsLeast, lowerBounds]
  last := rfl

theorem IsOhlc.snoc {prices : List P} {o h l c : P} (summary : IsOhlc prices o h l c) (p : P) :
    IsOhlc (prices ++ [p]) o (max h p) (min l p) p where
  first := by
    have start := summary.first
    cases prices with
    | nil => simp at start
    | cons q prices => simpa using start
  greatest := by
    obtain ⟨member, bound⟩ := summary.greatest
    constructor
    · rcases max_choice h p with eq | eq
      · simpa [eq] using .inl member
      · simp [eq]
    · intro q hq
      rcases mem_append.mp hq with old | new
      · exact le_max_of_le_left (bound old)
      · exact le_max_of_le_right (mem_singleton.mp new).le
  least := by
    obtain ⟨member, bound⟩ := summary.least
    constructor
    · rcases min_choice l p with eq | eq
      · simpa [eq] using .inl member
      · simp [eq]
    · intro q hq
      rcases mem_append.mp hq with old | new
      · exact min_le_of_left_le (bound old)
      · exact min_le_of_right_le (mem_singleton.mp new).ge
  last := by simp

def SameOhlc (prices prices' : List P) : Prop :=
  ∀ o h l c, IsOhlc prices o h l c ↔ IsOhlc prices' o h l c

theorem IsOhlc.same_iff {prices prices' : List P} {o h l c : P} (summary : IsOhlc prices o h l c) :
    IsOhlc prices' o h l c ↔ SameOhlc prices prices' := by
  constructor
  · intro summary' o' h' l' c'
    have unique : ∀ {xs : List P}, IsOhlc xs o h l c → IsOhlc xs o' h' l' c' →
        o = o' ∧ h = h' ∧ l = l' ∧ c = c' := by
      intro xs one two
      exact ⟨Option.some.inj (one.first.symm.trans two.first), one.greatest.unique two.greatest,
        one.least.unique two.least, Option.some.inj (one.last.symm.trans two.last)⟩
    constructor
    · intro other
      obtain ⟨rfl, rfl, rfl, rfl⟩ := unique summary other
      exact summary'
    · intro other
      obtain ⟨rfl, rfl, rfl, rfl⟩ := unique summary' other
      exact summary
  · intro same
    exact (same o h l c).mp summary

theorem isGreatest_foldl_max {α : Type*} (f : α → P) (first : α) (rest : List α) :
    IsGreatest {x | ∃ a ∈ first :: rest, f a = x} (rest.foldl (fun m a => max m (f a)) (f first)) := by
  induction rest using reverseRecOn with
  | nil => simp [IsGreatest, upperBounds]
  | append_singleton rest last ih =>
    rw [foldl_concat]
    obtain ⟨⟨a, mem, same⟩, bound⟩ := ih
    constructor
    · rcases max_choice (rest.foldl (fun m a => max m (f a)) (f first)) (f last) with eq | eq
      · refine ⟨a, ?_, by rw [eq, same]⟩
        rw [← cons_append]
        exact mem_append_left _ mem
      · exact ⟨last, by simp, eq.symm⟩
    · rintro x ⟨b, member, rfl⟩
      rw [← cons_append, mem_append, mem_singleton] at member
      rcases member with old | rfl
      · exact le_max_of_le_left (bound ⟨b, old, rfl⟩)
      · exact le_max_right _ _

theorem foldl_max_end_iff {α : Type*} (f : α → P) {early : List α} {first first' : α}
    {rest rest' : List α} (split : first' :: rest' = early ++ first :: rest) :
    rest.foldl (fun m a => max m (f a)) (f first) = rest'.foldl (fun m a => max m (f a)) (f first') ↔
      ∀ a ∈ early, ∃ b ∈ first :: rest, f a ≤ f b := by
  obtain ⟨⟨b, inEnd, same⟩, bound⟩ := isGreatest_foldl_max f first rest
  obtain ⟨⟨a, mem, same'⟩, bound'⟩ := isGreatest_foldl_max f first' rest'
  rw [split] at mem bound'
  constructor
  · intro equal c before
    refine ⟨b, inEnd, ?_⟩
    rw [same, equal]
    exact bound' ⟨c, mem_append_left _ before, rfl⟩
  · intro covered
    apply le_antisymm
    · rw [← same]
      exact bound' ⟨b, mem_append_right _ inEnd, rfl⟩
    · rw [← same']
      rcases mem_append.mp mem with before | kept
      · obtain ⟨c, member, less⟩ := covered a before
        exact less.trans (bound ⟨c, member, rfl⟩)
      · exact bound ⟨a, kept, rfl⟩

theorem foldl_min_end_iff {α : Type*} (f : α → P) {early : List α} {first first' : α}
    {rest rest' : List α} (split : first' :: rest' = early ++ first :: rest) :
    rest.foldl (fun m a => min m (f a)) (f first) = rest'.foldl (fun m a => min m (f a)) (f first') ↔
      ∀ a ∈ early, ∃ b ∈ first :: rest, f b ≤ f a :=
  foldl_max_end_iff (P := Pᵒᵈ) f split

@[simp] theorem lastReported_singleton (value : Option V) : lastReported [value] = value := by
  cases value <;> rfl

theorem lastReported_snoc (values : List (Option V)) (value : Option V) :
    lastReported (values ++ [value]) = value.or (lastReported values) := by
  cases value <;> simp [lastReported, reduceOption_append]

end AlgoSystem.General
