import Mathlib.Order.Bounds.Basic
import Mathlib.Data.List.Dedup
import Mathlib.Data.List.MinMax
import Mathlib.Data.List.Sort

namespace AlgoSystem.General
open List

variable {α : Type*} {l : List α} {a : α}

theorem head?_eq_some_of_pairwise {r : α → α → Prop} (refl : ∀ a, r a a)
    (antisymm : ∀ a b, r a b → r b a → a = b) (sorted : l.Pairwise r) :
    l.head? = some a ↔ a ∈ l ∧ ∀ b ∈ l, r a b := by
  cases l with
  | nil => simp
  | cons x l =>
    obtain ⟨first, _⟩ := pairwise_cons.mp sorted
    rw [head?_cons, Option.some.injEq]
    constructor
    · rintro rfl
      refine ⟨mem_cons_self, ?_⟩
      intro b mem
      cases mem_cons.mp mem with
      | inl same =>
        rw [same]
        exact refl x
      | inr later => exact first b later
    · rintro ⟨mem, least⟩
      cases mem_cons.mp mem with
      | inl same => exact same.symm
      | inr later => exact antisymm x a (first a later) (least x mem_cons_self)

section Key
variable {β : Type*} [LinearOrder β] {f : α → β}

theorem insertionSort_lt_of_nodup [DecidableRel fun a b => f a ≤ f b]
    (distinct : (l.map f).Nodup) :
    (l.insertionSort fun a b => f a ≤ f b).Pairwise fun a b => f a < f b := by
  have : Std.Total fun a b => f a ≤ f b := ⟨fun a b => le_total (f a) (f b)⟩
  have : IsTrans α fun a b => f a ≤ f b := ⟨fun _ _ _ => le_trans⟩
  have sorted := pairwise_insertionSort (fun a b => f a ≤ f b) l
  have different : (l.insertionSort fun a b => f a ≤ f b).Pairwise fun a b => f a ≠ f b :=
    pairwise_map.mp (((perm_insertionSort _ l).map f).nodup_iff.mpr distinct)
  exact (sorted.and different).imp fun both => lt_of_le_of_ne both.1 both.2

theorem eq_of_pairwise_lt {k : List α} (left : k.Pairwise fun a b => f a < f b)
    (right : l.Pairwise fun a b => f a < f b) (same : ∀ a, a ∈ k ↔ a ∈ l) : k = l := by
  have nodup : ∀ {m : List α}, (m.Pairwise fun a b => f a < f b) → m.Nodup :=
    fun increasing => increasing.imp fun order equal => order.ne (congrArg f equal)
  refine List.Perm.eq_of_pairwise ?_ left right
    ((perm_ext_iff_of_nodup (nodup left) (nodup right)).mpr same)
  intro a b _ _ before after
  exact absurd before after.asymm

theorem getLast?_eq_some_of_increasing (increasing : l.Pairwise fun a b => f a < f b) :
    l.getLast? = some a ↔ a ∈ l ∧ ∀ b ∈ l, f b ≤ f a := by
  induction l using List.reverseRecOn with
  | nil => simp
  | append_singleton l last =>
    obtain ⟨-, -, before⟩ := pairwise_append.mp increasing
    have below : ∀ b ∈ l, f b < f last := fun b mem => before b mem last mem_cons_self
    rw [getLast?_concat, Option.some.injEq, forall_mem_append, forall_mem_singleton, mem_append,
      mem_singleton]
    constructor
    · rintro rfl
      exact ⟨.inr rfl, fun b mem => (below b mem).le, le_rfl⟩
    · rintro ⟨old | same, -, bound⟩
      · exact absurd bound (below a old).not_ge
      · exact same.symm

end Key

variable [LinearOrder α]

theorem dedup_insertionSort_lt (l : List α) :
    (l.dedup.insertionSort (· ≤ ·)).Pairwise (· < ·) :=
  insertionSort_lt_of_nodup (f := id) (by simpa using l.nodup_dedup)

theorem head?_insertionSort_eq_some :
    (l.insertionSort (· ≤ ·)).head? = some a ↔ a ∈ l ∧ ∀ b ∈ l, a ≤ b := by
  rw [head?_eq_some_of_pairwise le_refl (fun _ _ => le_antisymm) (pairwise_insertionSort _ l)]
  simp [mem_insertionSort]

theorem getLast?_insertionSort_eq_some :
    (l.insertionSort (· ≤ ·)).getLast? = some a ↔ a ∈ l ∧ ∀ b ∈ l, b ≤ a := by
  have sorted := pairwise_reverse.mpr (pairwise_insertionSort (α := α) (· ≤ ·) l)
  rw [← head?_reverse, head?_eq_some_of_pairwise (r := fun a b => b ≤ a) le_refl
    (fun _ _ before after => le_antisymm after before) sorted]
  simp [mem_insertionSort]

theorem insertionSort_append {k : List α} (before : ∀ a ∈ k, ∀ b ∈ l, a ≤ b) :
    (k ++ l).insertionSort (· ≤ ·) =
      k.insertionSort (· ≤ ·) ++ l.insertionSort (· ≤ ·) := by
  refine List.Perm.eq_of_pairwise (fun _ _ _ _ => le_antisymm)
    (pairwise_insertionSort _ _) ?_ ?_
  · refine pairwise_append.mpr
      ⟨pairwise_insertionSort _ _, pairwise_insertionSort _ _, ?_⟩
    intro a ha b hb
    exact before a (mem_insertionSort _ |>.mp ha) b (mem_insertionSort _ |>.mp hb)
  · exact (perm_insertionSort _ _).trans
      ((perm_insertionSort _ k).append (perm_insertionSort _ l)).symm

theorem isLeast_min? (mem : a ∈ l) (fallback : α) :
    IsLeast {b | b ∈ l} (l.min?.getD fallback) := by
  obtain ⟨least, found⟩ := Option.isSome_iff_exists.mp (isSome_min?_of_mem mem)
  obtain ⟨member, bound⟩ := min?_eq_some_iff.mp found
  rw [found, Option.getD_some]
  exact ⟨member, fun b => bound b⟩

theorem isGreatest_max? (mem : a ∈ l) (fallback : α) :
    IsGreatest {b | b ∈ l} (l.max?.getD fallback) := by
  obtain ⟨most, found⟩ := Option.isSome_iff_exists.mp (isSome_max?_of_mem mem)
  obtain ⟨member, bound⟩ := max?_eq_some_iff.mp found
  rw [found, Option.getD_some]
  exact ⟨member, fun b => bound b⟩

theorem le_of_argmin_eq {β : Type*} [LinearOrder β] {f : α → β} (sorted : l.Pairwise (· ≤ ·))
    {m : α} (least : l.argmin f = some m) (mem : a ∈ l) (same : f a = f m) : m ≤ a := by
  have first : l.idxOf m ≤ l.idxOf a := index_of_argmin least mem same.le
  have member : m ∈ l := argmin_mem least
  rcases first.lt_or_eq with before | equal
  · have bound : l.idxOf a < l.length := idxOf_lt_length_of_mem mem
    have ordered := pairwise_iff_getElem.mp sorted _ _ (before.trans bound) bound before
    rwa [getElem_idxOf, getElem_idxOf] at ordered
  · rw [idxOf_inj member |>.mp equal]

end AlgoSystem.General
