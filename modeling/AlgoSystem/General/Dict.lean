import Mathlib.Algebra.Ring.Nat
import Mathlib.Data.List.Induction
import Mathlib.Data.List.Nodup
import Mathlib.Data.List.Lookmap

/-!
# Insertion-ordered dictionaries

A `Dict` keeps its entries in the order in which their keys were first inserted; an update of an
existing key keeps its place.
-/

namespace AlgoSystem.General
open List

structure Dict (K V : Type*) where
  entries : List (K × V)
  nodup : (entries.map Prod.fst).Nodup

namespace Dict

variable {K V W : Type*} [DecidableEq K]

def empty : Dict K V := ⟨[], by simp⟩

def get? (d : Dict K V) (k : K) : Option V := d.entries.lookup k

def mapValues (d : Dict K V) (f : V → W) : Dict K W :=
  ⟨d.entries.map fun p => (p.1, f p.2), by simpa [map_map, Function.comp_def] using d.nodup⟩

def mapWithKey (d : Dict K V) (f : K → V → W) : Dict K W :=
  ⟨d.entries.map fun p => (p.1, f p.1 p.2), by simpa [map_map, Function.comp_def] using d.nodup⟩

def erase (d : Dict K V) (k : K) : Dict K V :=
  ⟨d.entries.filter fun p => p.1 ≠ k, d.nodup.sublist (filter_sublist.map Prod.fst)⟩

/-- `d.setdefault(k, fallback)`, followed by an update of the value in place. -/
def upsert (d : Dict K V) (k : K) (fallback : V) (f : V → V) : Dict K V :=
  if h : k ∈ d.entries.map Prod.fst then
    ⟨d.entries.map fun p => if p.1 = k then (p.1, f p.2) else p, by
      have keys : (d.entries.map fun p => if p.1 = k then (p.1, f p.2) else p).map Prod.fst =
          d.entries.map Prod.fst := by
        rw [map_map]
        apply map_congr_left
        intro p _
        by_cases hp : p.1 = k <;> simp [hp]
      rw [keys]
      exact d.nodup⟩
  else
    ⟨d.entries ++ [(k, f fallback)], by
      rw [map_append, nodup_append]
      refine ⟨d.nodup, by simp, ?_⟩
      rintro a member b hb rfl
      simp only [map_cons, map_nil, mem_singleton] at hb
      exact h (hb ▸ member)⟩

def set (d : Dict K V) (k : K) (v : V) : Dict K V := d.upsert k v fun _ => v

def ofList (pairs : List (K × V)) : Dict K V := pairs.foldl (fun d p => d.set p.1 p.2) empty

def modify (d : Dict K V) (k : K) (f : V → V) : Dict K V :=
  d.mapWithKey fun j v => if j = k then f v else v

/-- The values under each key, the keys in the order of their first value. -/
def group (pairs : List (K × V)) : Dict K (List V) :=
  pairs.foldl (fun d p => d.upsert p.1 [] (· ++ [p.2])) empty

variable (d : Dict K V) (k : K)

@[simp] theorem get?_empty : (empty : Dict K V).get? k = none := rfl

private theorem lookup_eq_none_of_not_mem {es : List (K × V)} {k : K}
    (absent : k ∉ es.map Prod.fst) : es.lookup k = none := by
  apply lookup_eq_none_iff.mpr
  intro p member
  have distinct : p.1 ≠ k := fun h => absent (h ▸ mem_map_of_mem member)
  simpa using distinct.symm

theorem get?_mapWithKey (f : K → V → W) (k : K) :
    (d.mapWithKey f).get? k = (d.get? k).map (f k) := by
  simp only [get?, mapWithKey]
  generalize d.entries = es
  induction es with
  | nil => rfl
  | cons p es ih =>
    obtain ⟨a, v⟩ := p
    by_cases same : k = a
    · subst same
      simp
    · have other : (k == a) = false := by simpa using same
      simp [lookup_cons, other, ih]

@[simp] theorem get?_mapValues (f : V → W) (k : K) : (d.mapValues f).get? k = (d.get? k).map f :=
  d.get?_mapWithKey (fun _ => f) k

theorem get?_modify (k j : K) (f : V → V) :
    (d.modify k f).get? j = if j = k then (d.get? j).map f else d.get? j := by
  rw [modify, get?_mapWithKey]
  split_ifs <;> simp

theorem keys_modify (f : V → V) : (d.modify k f).entries.map Prod.fst = d.entries.map Prod.fst := by
  simp [modify, mapWithKey, Function.comp_def]

theorem mem_keys_iff {k : K} : k ∈ d.entries.map Prod.fst ↔ ∃ v, d.get? k = some v := by
  constructor
  · intro mem
    obtain ⟨p, member, same⟩ := mem_map.mp mem
    cases found : d.get? k with
    | some v => exact ⟨v, rfl⟩
    | none =>
      have := lookup_eq_none_iff.mp found p member
      simp [same] at this
  · rintro ⟨v, found⟩
    by_contra absent
    have nothing : d.get? k = none := lookup_eq_none_of_not_mem absent
    rw [nothing] at found
    cases found

theorem entries_upsert_of_mem {k : K} (present : k ∈ d.entries.map Prod.fst) (fallback : V)
    (f : V → V) : (d.upsert k fallback f).entries = (d.modify k f).entries := by
  rw [upsert, dif_pos present]
  refine map_congr_left fun p _ => ?_
  split_ifs with same <;> simp [same]

theorem get?_upsert (k j : K) (fallback : V) (f : V → V) :
    (d.upsert k fallback f).get? j =
      if j = k then some (f ((d.get? k).getD fallback)) else d.get? j := by
  by_cases present : k ∈ d.entries.map Prod.fst
  · obtain ⟨v, found⟩ := d.mem_keys_iff.mp present
    rw [get?, d.entries_upsert_of_mem present, ← get?, get?_modify]
    split_ifs with same <;> simp [same, found]
  · have none : d.entries.lookup k = none := lookup_eq_none_of_not_mem present
    rw [upsert, dif_neg present]
    by_cases same : j = k
    · subst same
      simp [get?, lookup_append, none]
    · have other : (j == k) = false := by simpa using same
      simp [get?, lookup_append, lookup_cons, other, same]

theorem get?_set (k j : K) (v : V) : (d.set k v).get? j = if j = k then some v else d.get? j :=
  get?_upsert d k j v fun _ => v

theorem entries_set_new {k : K} (new : d.get? k = none) (v : V) :
    (d.set k v).entries = d.entries ++ [(k, v)] := by
  have absent : k ∉ d.entries.map Prod.fst := by
    simp [d.mem_keys_iff, new]
  rw [set, upsert, dif_neg absent]

theorem entries_ofList {pairs : List (K × V)} (distinct : (pairs.map Prod.fst).Nodup) :
    (ofList pairs).entries = pairs := by
  induction pairs using List.reverseRecOn with
  | nil => rfl
  | append_singleton pairs p ih =>
    rw [map_append, nodup_append] at distinct
    have new : (ofList pairs).get? p.1 = none := by
      rw [Option.eq_none_iff_forall_ne_some]
      intro v found
      have mem := (mem_keys_iff _).mpr ⟨v, found⟩
      rw [ih distinct.1] at mem
      exact distinct.2.2 _ mem _ (mem_singleton_self _) rfl
    rw [ofList, foldl_concat, ← ofList, entries_set_new _ new, ih distinct.1]

theorem exists_split {k : K} {v : V} (found : d.get? k = some v) :
    ∃ before after, d.entries = before ++ (k, v) :: after ∧
      (∀ p ∈ before, p.1 ≠ k) ∧ ∀ p ∈ after, p.1 ≠ k := by
  obtain ⟨es, nodup⟩ := d
  simp only [get?] at found ⊢
  induction es with
  | nil => cases found
  | cons p es ih =>
    obtain ⟨a, w⟩ := p
    rw [map_cons, nodup_cons] at nodup
    by_cases same : k = a
    · subst same
      obtain rfl : w = v := by simpa using found
      refine ⟨[], es, rfl, by simp, ?_⟩
      intro p member equal
      exact nodup.1 (mem_map.mpr ⟨p, member, equal⟩)
    · have other : (k == a) = false := by simpa using same
      rw [lookup_cons, other] at found
      obtain ⟨before, after, rfl, first, last⟩ := ih nodup.2 found
      refine ⟨(a, w) :: before, after, rfl, ?_, last⟩
      exact forall_mem_cons.mpr ⟨fun equal => same equal.symm, first⟩

theorem mem_entries_iff {k : K} {v : V} : (k, v) ∈ d.entries ↔ d.get? k = some v := by
  constructor
  · intro member
    obtain ⟨w, found⟩ := d.mem_keys_iff.mp (mem_map_of_mem member)
    obtain ⟨before, after, shape, first, last⟩ := d.exists_split found
    rw [shape, mem_append, mem_cons] at member
    rcases member with early | here | late
    · exact absurd rfl (first _ early)
    · cases here
      exact found
    · exact absurd rfl (last _ late)
  · intro found
    obtain ⟨before, after, shape, -, -⟩ := d.exists_split found
    simp [shape]

theorem entries_erase {k : K} {v : V} (found : d.get? k = some v) :
    ∃ before after, d.entries = before ++ (k, v) :: after ∧
      (d.erase k).entries = before ++ after := by
  obtain ⟨before, after, shape, first, last⟩ := d.exists_split found
  refine ⟨before, after, shape, ?_⟩
  show d.entries.filter _ = _
  rw [shape, filter_append, filter_cons_of_neg (by simp)]
  rw [filter_eq_self.mpr (by simpa using first), filter_eq_self.mpr (by simpa using last)]

theorem entries_modify {k : K} {v : V} (found : d.get? k = some v) (f : V → V) :
    ∃ before after, d.entries = before ++ (k, v) :: after ∧
      (d.modify k f).entries = before ++ (k, f v) :: after := by
  obtain ⟨before, after, shape, first, last⟩ := d.exists_split found
  refine ⟨before, after, shape, ?_⟩
  have unchanged : ∀ es : List (K × V), (∀ p ∈ es, p.1 ≠ k) →
      es.map (fun p => (p.1, if p.1 = k then f p.2 else p.2)) = es := by
    intro es other
    refine (map_congr_left fun p member => ?_).trans (map_id es)
    simp [other p member]
  simp [modify, mapWithKey, shape, unchanged before first, unchanged after last]

theorem countP_modify {k : K} {v : V} (found : d.get? k = some v) (f : V → V) (p : V → Bool) :
    (d.modify k f).entries.countP (fun e => p e.2) + (p v).toNat =
      d.entries.countP (fun e => p e.2) + (p (f v)).toNat := by
  obtain ⟨before, after, shape, changed⟩ := d.entries_modify found f
  rw [shape, changed]
  simp only [countP_append, countP_cons]
  cases p v <;> cases p (f v) <;> simp <;> omega

theorem sum_upsert (d : Dict K Nat) (k : K) :
    ((d.upsert k 0 (· + 1)).entries.map Prod.snd).sum = (d.entries.map Prod.snd).sum + 1 := by
  by_cases present : k ∈ d.entries.map Prod.fst
  · obtain ⟨n, found⟩ := d.mem_keys_iff.mp present
    obtain ⟨before, after, shape, changed⟩ := d.entries_modify found (· + 1)
    rw [d.entries_upsert_of_mem present, changed, shape]
    simp only [map_append, map_cons, sum_append, sum_cons]
    omega
  · rw [upsert, dif_neg present]
    simp

theorem group_concat (pairs : List (K × V)) (p : K × V) :
    group (pairs ++ [p]) = (group pairs).upsert p.1 [] (· ++ [p.2]) := by
  simp [group]

theorem get?_group (pairs : List (K × V)) (k : K) :
    (group pairs).get? k = if k ∈ pairs.map Prod.fst
      then some (pairs.filterMap fun p => if p.1 = k then some p.2 else none) else none := by
  induction pairs using List.reverseRecOn with
  | nil => rfl
  | append_singleton pairs p ih =>
    obtain ⟨a, v⟩ := p
    rw [group_concat, get?_upsert]
    by_cases same : k = a
    · subst same
      rw [ih]
      by_cases present : k ∈ pairs.map Prod.fst
      · simp [present]
      · have nothing : pairs.filterMap (fun p => if p.1 = k then some p.2 else none) = [] := by
          refine filterMap_eq_nil_iff.mpr fun p member => ?_
          exact if_neg fun equal => present (mem_map.mpr ⟨p, member, equal⟩)
        simp [present, nothing]
    · have other : a ≠ k := fun equal => same equal.symm
      have keys : k ∈ (pairs ++ [(a, v)]).map Prod.fst ↔ k ∈ pairs.map Prod.fst := by
        simp [same]
      simp only [keys]
      simp [same, other, ih]

theorem mem_group_iff {pairs : List (K × V)} {k : K} {vs : List V} :
    (k, vs) ∈ (group pairs).entries ↔ k ∈ pairs.map Prod.fst ∧
      vs = pairs.filterMap fun p => if p.1 = k then some p.2 else none := by
  rw [mem_entries_iff, get?_group]
  split_ifs with present <;> simp [present, eq_comm]

theorem filterMap_flatMap_entries {O : Type*} (out : K → V → List O) (k : K) :
    ((d.entries.flatMap fun p => (out p.1 p.2).map fun o => (p.1, o)).filterMap
      fun q => if q.1 = k then some q.2 else none) =
    ((d.get? k).map (out k)).getD [] := by
  obtain ⟨es, nodup⟩ := d
  induction es with
  | nil => rfl
  | cons p es ih =>
    obtain ⟨a, v⟩ := p
    rw [map_cons, nodup_cons] at nodup
    have rest := ih nodup.2
    simp only [get?, flatMap_cons, filterMap_append, filterMap_map] at rest ⊢
    by_cases h : a = k
    · subst h
      have absent : es.lookup a = none := lookup_eq_none_of_not_mem nodup.1
      simp [rest, absent]
    · have h' : (k == a) = false := by simpa using fun e => h e.symm
      simp [h, lookup_cons, h', rest]

end Dict

end AlgoSystem.General
