import AlgoSystem.General.Lists

/-!
# Checklists

The stages of a job in their order, each with its status. A stage that ends hands on to the stage
after it.
-/

namespace AlgoSystem.General
open List

inductive NodeStageStatus where
  | pending
  | running
  | completed
  | failed
  | skipped
  deriving DecidableEq

structure NodeStage where
  name : String
  status : NodeStageStatus := .pending
  deriving DecidableEq

namespace NodeStage

def isOpen (s : NodeStage) : Bool := s.status = .pending || s.status = .running

def withStatus (status : NodeStageStatus) (s : NodeStage) : NodeStage := { s with status }

end NodeStage

variable {stages : List NodeStage} {name : String} {i k : Nat} {s : NodeStage}

def openIndex (stages : List NodeStage) (name : String) : Option Nat :=
  stages.findIdx? fun s => s.name = name && s.isOpen

def handOn (begins : NodeStageStatus → Bool) (stages : List NodeStage) (i : Nat) : List NodeStage :=
  (stages.modify i (·.withStatus .completed)).modify (i + 1) fun s =>
    if begins s.status then s.withStatus .running else s

variable (begins : NodeStageStatus → Bool)

theorem getElem?_handOn :
    (handOn begins stages i)[k]? = (stages[k]?).map fun s =>
      if k = i then s.withStatus .completed
      else if k = i + 1 ∧ begins s.status = true then s.withStatus .running else s := by
  rw [handOn, getElem?_modify, getElem?_modify]
  cases stages[k]? with
  | none => simp
  | some s =>
    by_cases here : k = i
    · subst here
      simp
    · by_cases after : k = i + 1
      · subst after
        simp
      · have other : i ≠ k := fun same => here same.symm
        have other' : i + 1 ≠ k := fun same => after same.symm
        simp [here, after, other, other']

theorem names_handOn : (handOn begins stages i).map NodeStage.name = stages.map NodeStage.name := by
  apply ext_getElem?
  intro k
  rw [getElem?_map, getElem?_map, getElem?_handOn, Option.map_map]
  congr 1
  funext s
  simp only [Function.comp]
  split_ifs <;> rfl

theorem openIndex_eq_some (found : openIndex stages name = some i) :
    ∃ s, stages[i]? = some s ∧ s.name = name ∧ s.isOpen = true := by
  obtain ⟨bound, holds, -⟩ := findIdx?_eq_some_iff_getElem.mp found
  simp only [Bool.and_eq_true, decide_eq_true_eq] at holds
  exact ⟨stages[i], getElem?_eq_getElem bound, holds⟩

theorem openIndex_eq_none (missing : openIndex stages name = none) (mem : s ∈ stages)
    (own : s.name = name) : s.isOpen = false := by
  have refused := findIdx?_eq_none_iff.mp missing s mem
  simpa [own] using refused

def ClosedBelow (n : Nat) (stages : List NodeStage) : Prop :=
  ∀ k s, k < n → stages[k]? = some s → s.isOpen = false

theorem ClosedBelow.mono {m n : Nat} (closed : ClosedBelow n stages) (less : m ≤ n) :
    ClosedBelow m stages :=
  fun k s below found => closed k s (Nat.lt_of_lt_of_le below less) found

theorem closedBelow_of_forall (closed : ∀ s ∈ stages, s.isOpen = false) (n : Nat) :
    ClosedBelow n stages :=
  fun _ s _ found => closed s (mem_of_getElem? found)

theorem closedBelow_length : ClosedBelow stages.length stages ↔ ∀ s ∈ stages, s.isOpen = false := by
  constructor
  · intro closed s mem
    obtain ⟨k, bound, rfl⟩ := getElem_of_mem mem
    exact closed k _ bound (getElem?_eq_getElem bound)
  · intro closed
    exact closedBelow_of_forall closed stages.length

theorem closedBelow_handOn (closed : ClosedBelow i stages) :
    ClosedBelow (i + 1) (handOn begins stages i) := by
  intro k s below found
  rw [getElem?_handOn, Option.map_eq_some_iff] at found
  obtain ⟨old, before, rfl⟩ := found
  by_cases here : k = i
  · simp [here, NodeStage.isOpen, NodeStage.withStatus]
  · have earlier : k < i := by omega
    have notNext : ¬ (k = i + 1 ∧ begins old.status = true) := by omega
    rw [if_neg here, if_neg notNext]
    exact closed k old earlier before

end AlgoSystem.General
