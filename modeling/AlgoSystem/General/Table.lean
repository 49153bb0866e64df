import AlgoSystem.General.Lists

/-!
# Tables with a unique key

A table is the list of its rows in the order of insertion. `addRow` inserts a row if its key is new,
`addRows` all rows at once or, if one of them is refused, each row by itself; `Added` says what any
insertion leaves that refuses only rows whose key is taken.
-/

namespace AlgoSystem.General
open List

variable {R K : Type*} [DecidableEq K]

def addRow (key : R → K) (admits : R → Bool) (table : List R) (row : R) : List R :=
  if admits row = true ∧ key row ∉ table.map key then table ++ [row] else table

def addRows (key : R → K) (admits : R → Bool) (table rows : List R) : List R :=
  if ((table ++ rows).map key).Nodup ∧ ∀ row ∈ rows, admits row = true then table ++ rows
  else rows.foldl (addRow key admits) table

def newRows (key : R → K) (table rows : List R) : List R :=
  rows.filter fun row => key row ∉ table.map key

structure Added (key : R → K) (admits : R → Bool) (table rows result : List R) : Prop where
  keeps : table <+: result
  origin : ∀ row ∈ result, row ∈ table ∨ row ∈ rows ∧ admits row = true
  nodup : (table.map key).Nodup → (result.map key).Nodup
  present : ∀ row ∈ rows, admits row = true → key row ∈ result.map key

namespace Added
variable {key : R → K} {admits : R → Bool} {table rows result : List R}

omit [DecidableEq K] in
theorem refl (table : List R) : Added key admits table [] table :=
  ⟨prefix_rfl, fun _ mem => .inl mem, id, by simp⟩

omit [DecidableEq K] in
theorem mem_keys (added : Added key admits table rows result) {k : K}
    (old : k ∈ table.map key) : k ∈ result.map key :=
  (added.keeps.map key).subset old

omit [DecidableEq K] in
theorem trans {rows' result' : List R} (first : Added key admits table rows result)
    (second : Added key admits result rows' result') :
    Added key admits table (rows ++ rows') result' where
  keeps := first.keeps.trans second.keeps
  origin := by
    intro row mem
    rcases second.origin row mem with before | new
    · exact (first.origin row before).imp_right (And.imp_left (mem_append_left rows'))
    · exact .inr (new.imp_left (mem_append_right rows))
  nodup := fun nodup => second.nodup (first.nodup nodup)
  present := by
    intro row mem admitted
    rcases mem_append.mp mem with before | new
    · exact second.mem_keys (first.present row before admitted)
    · exact second.present row new admitted

theorem single (row : R) : Added key admits table [row] (addRow key admits table row) := by
  unfold addRow
  split
  next fresh =>
    refine ⟨prefix_append _ _, ?_, ?_, ?_⟩
    · intro other mem
      refine (mem_append.mp mem).imp_right fun new => ⟨new, ?_⟩
      rw [mem_singleton.mp new]
      exact fresh.1
    · intro nodup
      rw [map_append, map_singleton]
      refine nodup.append (nodup_singleton _) ?_
      intro k old new
      exact fresh.2 (mem_singleton.mp new ▸ old)
    · intro other mem _
      rw [mem_singleton.mp mem]
      simp
  next refused =>
    refine ⟨prefix_rfl, fun _ mem => .inl mem, id, ?_⟩
    intro other mem admitted
    rw [mem_singleton.mp mem] at admitted ⊢
    by_contra absent
    exact refused ⟨admitted, absent⟩

theorem foldl (table rows : List R) :
    Added key admits table rows (rows.foldl (addRow key admits) table) := by
  induction rows generalizing table with
  | nil => exact .refl table
  | cons row rows ih => exact (single row).trans (ih (addRow key admits table row))

omit [DecidableEq K] in
theorem bulk (distinct : ((table ++ rows).map key).Nodup)
    (all : ∀ row ∈ rows, admits row = true) : Added key admits table rows (table ++ rows) where
  keeps := prefix_append _ _
  origin := fun row mem => (mem_append.mp mem).imp_right fun new => ⟨new, all row new⟩
  nodup := fun _ => distinct
  present := fun _ mem _ => mem_map_of_mem (mem_append_right _ mem)

omit [DecidableEq K] in
theorem of_subset {fresh : List R} (added : Added key admits table fresh result)
    (subset : fresh ⊆ rows)
    (missing : ∀ row ∈ rows, key row ∉ table.map key → row ∈ fresh) :
    Added key admits table rows result where
  keeps := added.keeps
  origin := fun row mem => (added.origin row mem).imp_right (And.imp_left fun new => subset new)
  nodup := added.nodup
  present := by
    intro row mem admitted
    by_cases old : key row ∈ table.map key
    · exact added.mem_keys old
    · exact added.present row (missing row mem old) admitted

theorem addRows (table rows : List R) :
    Added key admits table rows (addRows key admits table rows) := by
  unfold General.addRows
  split
  next all => exact bulk all.1 all.2
  · exact foldl table rows

theorem addRows_newRows (table rows : List R) :
    Added key admits table rows (General.addRows key admits table (newRows key table rows)) :=
  (addRows table _).of_subset (fun _ => mem_of_mem_filter) fun _ mem absent =>
    mem_filter.mpr ⟨mem, decide_eq_true absent⟩

omit [DecidableEq K] in
theorem of_admits (added : Added key admits table rows result)
    (all : ∀ row ∈ rows, admits row = true) : Added key (fun _ => true) table rows result :=
  { added with
    origin := fun row mem => (added.origin row mem).imp_right fun new => ⟨new.1, rfl⟩
    present := fun row mem _ => added.present row mem (all row mem) }

theorem filter_key (added : Added key (fun _ => true) table rows result)
    (distinct : (table.map key).Nodup) {row : R} (mem : row ∈ rows)
    (only : ∀ other ∈ rows, key other = key row → other = row) :
    ∃ stored, (result.filter fun other => key other = key row) = [stored] ∧
      (stored = row ∨ stored ∈ table) := by
  obtain ⟨stored, member, same⟩ := mem_map.mp (added.present row mem rfl)
  have filtered : stored ∈ result.filter fun other => key other = key row :=
    mem_filter.mpr ⟨member, by simpa using same⟩
  have atMost : (result.filter fun other => key other = key row).length ≤ 1 := by
    refine filter_length_le_one (added.nodup distinct) ?_
    intro a _ b _ keyA keyB
    exact (of_decide_eq_true keyA).trans (of_decide_eq_true keyB).symm
  obtain ⟨only', isOnly⟩ :=
    length_eq_one_iff.mp (Nat.le_antisymm atMost (length_pos_of_mem filtered))
  rw [isOnly, mem_singleton] at filtered
  refine ⟨stored, filtered ▸ isOnly, ?_⟩
  exact (added.origin stored member).symm.imp_left fun new => only stored new.1 same

end Added

theorem addRows_of_nodup {key : R → K} {admits : R → Bool} {table rows : List R}
    (distinct : ((table ++ rows).map key).Nodup) (all : ∀ row ∈ rows, admits row = true) :
    addRows key admits table (newRows key table rows) = table ++ rows := by
  have fresh : newRows key table rows = rows := by
    refine filter_eq_self.mpr fun row mem => decide_eq_true fun old => ?_
    rw [map_append, nodup_append'] at distinct
    exact distinct.2.2 old (mem_map_of_mem mem)
  rw [fresh, addRows, if_pos ⟨distinct, all⟩]

end AlgoSystem.General
