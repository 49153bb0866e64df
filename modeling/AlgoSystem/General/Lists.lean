import Mathlib.Algebra.Ring.Nat
import Mathlib.Data.List.Nodup

namespace AlgoSystem.General
open List

variable {α β : Type*} {l : List α}
variable {i k a b : Nat}
variable {f : α → β} {p q : α → Bool} {entries : List (α × β)} {R : α → β → Prop} {m : List β}

theorem getElem?_concat_eq_some {a b : α} :
    (l ++ [a])[i]? = some b ↔ l[i]? = some b ∨ i = l.length ∧ b = a := by
  by_cases old : i < l.length
  · rw [getElem?_append_left old]
    simp [Nat.ne_of_lt old]
  · rw [getElem?_append_right (Nat.not_lt.mp old), List.getElem?_eq_none (Nat.not_lt.mp old)]
    by_cases last : i = l.length
    · simp [last, eq_comm]
    · have beyond : i - l.length ≠ 0 := by omega
      simp [last, beyond]

theorem getElem?_set_eq_some {a b : α} :
    (l.set i a)[k]? = some b ↔ (k = i ∧ i < l.length ∧ b = a) ∨ k ≠ i ∧ l[k]? = some b := by
  by_cases same : k = i
  · subst same
    by_cases mem : k < l.length
    · simp [mem, eq_comm]
    · simp [mem]
  · simp [getElem?_set_ne (Ne.symm same), same]

theorem map_set_of_getElem? {a b : α} (found : l[i]? = some a) (same : f b = f a) :
    (l.set i b).map f = l.map f := by
  obtain ⟨mem, rfl⟩ := List.getElem?_eq_some_iff.mp found
  apply ext_getElem (by simp)
  intro k _ _
  rw [getElem_map, getElem_map, getElem_set]
  split_ifs with here
  · subst here
    exact same
  · rfl

theorem sum_map_set {f : α → Nat} {a b : α} (found : l[i]? = some a) :
    ((l.set i b).map f).sum + f a = (l.map f).sum + f b := by
  induction l generalizing i with
  | nil => cases found
  | cons x l ih =>
    cases i with
    | zero =>
      cases found
      simp only [set_cons_zero, map_cons, sum_cons]
      omega
    | succ i =>
      have rest := ih (i := i) (by simpa using found)
      simp only [set_cons_succ, map_cons, sum_cons]
      omega

theorem index_eq_of_key {key : α → β} {a b : α} (distinct : (l.map key).Nodup)
    (first : l[i]? = some a) (second : l[k]? = some b) (same : key a = key b) : i = k := by
  obtain ⟨mem, rfl⟩ := List.getElem?_eq_some_iff.mp first
  obtain ⟨mem', rfl⟩ := List.getElem?_eq_some_iff.mp second
  have bound : i < (l.map key).length := by simpa using mem
  have bound' : k < (l.map key).length := by simpa using mem'
  have equal : (l.map key)[i] = (l.map key)[k] := by simpa using same
  exact distinct.getElem_inj_iff.mp equal

theorem concat_sublist_concat {xs : List α} {a b : α} :
    (xs ++ [a]).Sublist (l ++ [b]) ↔ (xs ++ [a]).Sublist l ∨ xs.Sublist l ∧ a = b := by
  rw [← reverse_sublist, ← @reverse_sublist _ (xs ++ [a]) l, ← @reverse_sublist _ xs l]
  simp only [reverse_append, reverse_cons, reverse_nil, nil_append, singleton_append]
  rw [cons_sublist_cons']
  exact or_congr_right and_comm

theorem pair_sublist_concat {a b c : α} :
    [a, b].Sublist (l ++ [c]) ↔ [a, b].Sublist l ∨ a ∈ l ∧ b = c := by
  rw [← singleton_sublist (l := l)]
  exact @concat_sublist_concat α l [a] b c

theorem countP_le_one_iff {key : α → β} (distinct : (l.map key).Nodup) :
    l.countP p ≤ 1 ↔ ∀ a ∈ l, ∀ b ∈ l, p a = true → p b = true → key a = key b := by
  rw [countP_eq_length_filter]
  have nodup : ((l.filter p).map key).Nodup := distinct.sublist (filter_sublist.map key)
  have members : (∀ a ∈ l, ∀ b ∈ l, p a = true → p b = true → key a = key b) ↔
      ∀ a ∈ l.filter p, ∀ b ∈ l.filter p, key a = key b := by
    simp only [mem_filter]
    constructor
    · rintro equal a ⟨ha, pa⟩ b ⟨hb, pb⟩
      exact equal a ha b hb pa pb
    · intro equal a ha b hb pa pb
      exact equal a ⟨ha, pa⟩ b ⟨hb, pb⟩
  rw [members]
  match l.filter p, nodup with
  | [], _ => simp
  | [_], _ => simp
  | a :: b :: _, nodup =>
    have different : key a ≠ key b := by
      intro same
      simp [same] at nodup
    refine iff_of_false (by simp) ?_
    intro equal
    exact different (equal a (by simp) b (by simp))

theorem countP_add_countP_le {r : α → Bool} (left : ∀ a ∈ l, p a = true → r a = true)
    (right : ∀ a ∈ l, q a = true → r a = true) (disjoint : ∀ a ∈ l, p a = true → q a = true → False) :
    l.countP p + l.countP q ≤ l.countP r := by
  induction l with
  | nil => simp
  | cons a l ih =>
    have rest := ih (fun b mem => left b (mem_cons_of_mem a mem))
      (fun b mem => right b (mem_cons_of_mem a mem))
      (fun b mem => disjoint b (mem_cons_of_mem a mem))
    have first := left a (mem_cons_self ..)
    have second := right a (mem_cons_self ..)
    have never := disjoint a (mem_cons_self ..)
    simp only [countP_cons]
    split_ifs <;> first | omega | simp_all

theorem forall_of_countP_and_eq (same : (l.countP fun a => q a && p a) = l.countP p) :
    ∀ a ∈ l, p a = true → q a = true := by
  have all : (l.filter p).countP q = (l.filter p).length := by
    rw [countP_filter, same, countP_eq_length_filter]
  intro a mem chosen
  exact countP_eq_length.mp all a (mem_filter.mpr ⟨mem, chosen⟩)

theorem filter_length_le_one {key : α → β} (distinct : (l.map key).Nodup)
    (same : ∀ a ∈ l, ∀ b ∈ l, p a = true → p b = true → key a = key b) :
    (l.filter p).length ≤ 1 := by
  rw [← countP_eq_length_filter]
  exact (countP_le_one_iff distinct).mpr same

theorem nodup_map_of_filterMap {γ : Type*} [DecidableEq α] {f : β → γ}
    (each : ∀ k, ((entries.filterMap fun q => if q.1 = k then some q.2 else none).map f).Nodup) :
    (entries.map fun q => (q.1, f q.2)).Nodup := by
  induction entries with
  | nil => exact nodup_nil
  | cons q entries ih =>
    have tail : ∀ k, ((entries.filterMap fun q => if q.1 = k then some q.2 else none).map
        f).Nodup := by
      intro k
      refine (each k).sublist (List.Sublist.map f ?_)
      exact List.Sublist.filterMap _ (sublist_cons_self q entries)
    rw [map_cons, nodup_cons]
    refine ⟨?_, ih tail⟩
    intro again
    obtain ⟨p, mem, same⟩ := mem_map.mp again
    obtain ⟨sameKey, sameValue⟩ := Prod.mk.inj same
    have distinct := each q.1
    simp only [filterMap_cons, if_true, map_cons, nodup_cons] at distinct
    refine distinct.1 (mem_map.mpr ⟨p.2, ?_, sameValue⟩)
    exact mem_filterMap.mpr ⟨p, mem, by simp [sameKey]⟩

theorem filter_map_of_key {γ : Type*} [DecidableEq α] {row : α × β → γ} {p : γ → Bool}
    (visible : β → Bool) (a : α)
    (selects : ∀ entry ∈ entries, p (row entry) = (decide (entry.1 = a) && visible entry.2)) :
    (entries.map row).filter p =
      ((entries.filterMap fun entry => if entry.1 = a then some entry.2 else none).filter
        visible).map fun b => row (a, b) := by
  induction entries with
  | nil => rfl
  | cons entry entries ih =>
    have rest := ih fun other mem => selects other (mem_cons_of_mem _ mem)
    have first := selects entry mem_cons_self
    obtain ⟨key, b⟩ := entry
    by_cases same : key = a
    · subst same
      cases seen : visible b <;> simp [first, seen, rest]
    · simp [first, same, rest]

theorem nodup_map_concat {a : α} (nodup : (l.map f).Nodup) (fresh : ∀ b ∈ l, f b ≠ f a) :
    ((l ++ [a]).map f).Nodup := by
  rw [map_append, map_singleton]
  refine nodup.append (nodup_singleton _) ?_
  intro y old new
  obtain ⟨b, member, rfl⟩ := mem_map.mp old
  exact fresh b member (mem_singleton.mp new)

/-- A row numbered one more than the length keeps the numbers of a list distinct and bounded. -/
theorem numbered_concat {f : α → Nat} {a : α} (nodup : (l.map f).Nodup)
    (bound : ∀ b ∈ l, f b ≤ l.length) (next : f a = l.length + 1) :
    ((l ++ [a]).map f).Nodup ∧ ∀ b ∈ l ++ [a], f b ≤ (l ++ [a]).length := by
  constructor
  · apply nodup_map_concat nodup
    intro b member
    have := bound b member
    omega
  · rw [forall_mem_append, length_append, length_singleton]
    refine ⟨fun b member => Nat.le_succ_of_le (bound b member), ?_⟩
    simp [next]

theorem forall₂_snoc {a : α} {b : β} :
    List.Forall₂ R (l ++ [a]) (m ++ [b]) ↔ List.Forall₂ R l m ∧ R a b := by
  rw [← forall₂_reverse_iff, reverse_concat, reverse_concat, forall₂_cons,
    forall₂_reverse_iff, and_comm]

theorem exists_zip_of_forall₂ (related : List.Forall₂ R l m) {a : α} (mem : a ∈ l) :
    ∃ b, (a, b) ∈ l.zip m ∧ R a b := by
  induction related with
  | nil => cases mem
  | cons here rest ih =>
    rcases mem_cons.mp mem with rfl | later
    · exact ⟨_, mem_cons_self, here⟩
    · obtain ⟨b, pair, holds⟩ := ih later
      exact ⟨b, mem_cons_of_mem _ pair, holds⟩

section Groups
variable {κ : Type*} {keyOf : α → κ} {key : β → κ} {groups : List (List β)}

theorem exists_key_of_mem_flatten
    (own : List.Forall₂ (fun a g => ∀ b ∈ g, key b = keyOf a) l groups) {b : β}
    (mem : b ∈ groups.flatten) : ∃ a ∈ l, key b = keyOf a := by
  induction own with
  | nil => simp at mem
  | cons here rest ih =>
    rw [flatten_cons, mem_append] at mem
    rcases mem with first | later
    · exact ⟨_, mem_cons_self, here b first⟩
    · obtain ⟨a, member, same⟩ := ih later
      exact ⟨a, mem_cons_of_mem _ member, same⟩

theorem filter_flatten_of_key [DecidableEq κ]
    (own : List.Forall₂ (fun a g => ∀ b ∈ g, key b = keyOf a) l groups)
    (distinct : l.Pairwise fun a b => keyOf a ≠ keyOf b) {a : α} {g : List β}
    (pair : (a, g) ∈ l.zip groups) :
    groups.flatten.filter (fun b => decide (key b = keyOf a)) = g := by
  induction own with
  | nil => simp at pair
  | @cons x h l groups here rest ih =>
    rw [pairwise_cons] at distinct
    rw [zip_cons_cons, mem_cons] at pair
    rw [flatten_cons, filter_append]
    rcases pair with first | later
    · cases first
      have none : groups.flatten.filter (fun b => decide (key b = keyOf a)) = [] := by
        refine filter_eq_nil_iff.mpr fun b mem => ?_
        obtain ⟨a', member, same⟩ := exists_key_of_mem_flatten rest mem
        rw [decide_eq_true_eq, same]
        exact (distinct.1 a' member).symm
      rw [none, append_nil, filter_eq_self.mpr]
      exact fun b mem => decide_eq_true (here b mem)
    · have none : h.filter (fun b => decide (key b = keyOf a)) = [] := by
        refine filter_eq_nil_iff.mpr fun b mem => ?_
        rw [decide_eq_true_eq, here b mem]
        exact distinct.1 a (of_mem_zip later).1
      rw [none, nil_append, ih distinct.2 later]

end Groups

/-- A list in which nothing with the property follows something without it. -/
theorem exists_split (p : α → Prop) (downward : l.Pairwise fun a b => p b → p a) :
    ∃ front back, l = front ++ back ∧ (∀ a ∈ front, p a) ∧ ∀ b ∈ back, ¬ p b := by
  induction l with
  | nil => exact ⟨[], [], rfl, by simp, by simp⟩
  | cons x l ih =>
    rw [pairwise_cons] at downward
    by_cases holds : p x
    · obtain ⟨front, back, rfl, inFront, inBack⟩ := ih downward.2
      exact ⟨x :: front, back, rfl, forall_mem_cons.mpr ⟨holds, inFront⟩, inBack⟩
    · refine ⟨[], x :: l, rfl, by simp, forall_mem_cons.mpr ⟨holds, ?_⟩⟩
      exact fun b mem later => holds (downward.1 b mem later)

theorem mem_take_drop {x : α} : x ∈ (l.take b).drop a ↔ ∃ k, a ≤ k ∧ k < b ∧ l[k]? = some x := by
  simp only [mem_iff_getElem?, getElem?_drop, getElem?_take]
  constructor
  · rintro ⟨m, found⟩
    split_ifs at found with bound
    exact ⟨a + m, Nat.le_add_right a m, bound, found⟩
  · rintro ⟨k, low, high, found⟩
    refine ⟨k - a, ?_⟩
    rw [Nat.add_sub_cancel' low, if_pos high, found]

/-- A nonempty part of a list without duplicates lies in another part just if its ends do. -/
theorem take_drop_subset_iff (nodup : l.Nodup) {c d : Nat} (nonempty : a < b)
    (mem : a < l.length) :
    (l.take b).drop a ⊆ (l.take d).drop c ↔ c ≤ a ∧ min b l.length ≤ d := by
  constructor
  · intro subset
    have kept : ∀ k, a ≤ k → k < b → k < l.length → c ≤ k ∧ k < d := by
      intro k low high bound
      have member := mem_take_drop.mpr ⟨k, low, high, List.getElem?_eq_getElem bound⟩
      obtain ⟨k', low', high', found⟩ := mem_take_drop.mp (subset member)
      obtain ⟨_, value⟩ := List.getElem?_eq_some_iff.mp found
      have same : k' = k := nodup.getElem_inj_iff.mp value
      omega
    have first := kept a (Nat.le_refl a) nonempty mem
    have last := kept (min b l.length - 1) (by omega) (by omega) (by omega)
    omega
  · rintro ⟨low, high⟩ x member
    obtain ⟨k, above, below, found⟩ := mem_take_drop.mp member
    obtain ⟨bound, _⟩ := List.getElem?_eq_some_iff.mp found
    exact mem_take_drop.mpr ⟨k, by omega, by omega, found⟩

/-- Two selections of which one selects more are equal only if they select the same everywhere. -/
theorem filterMap_eq_iff {f g : α → Option β} (more : ∀ a ∈ l, (f a).isSome → (g a).isSome) :
    l.filterMap f = l.filterMap g ↔ ∀ a ∈ l, f a = g a := by
  induction l with
  | nil => simp
  | cons a l ih =>
    have tail : ∀ b ∈ l, (f b).isSome → (g b).isSome :=
      fun b mem => more b (mem_cons_of_mem a mem)
    have fewer : (l.filterMap f).length ≤ (l.filterMap g).length := by
      simp only [length_filterMap_eq_countP]
      exact countP_mono_left fun b mem => tail b mem
    have here := more a mem_cons_self
    rw [forall_mem_cons, ← ih tail, filterMap_cons, filterMap_cons]
    cases first : f a <;> cases second : g a <;> simp_all
    intro same
    rw [same, length_cons] at fewer
    omega

end AlgoSystem.General
