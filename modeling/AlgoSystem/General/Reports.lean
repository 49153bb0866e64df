import Mathlib.Order.Basic
import Mathlib.Data.List.Basic

/-!
# Reports with a time stamp

Reports arrive in the order of a list, and each may carry a value. `latest` is the value that arrives
last, `Newest` says of a value that a report with the greatest stamp carries it.
-/

namespace AlgoSystem.General

variable {α β τ : Type*} {value : α → Option β} {l : List α}

def latest (value : α → Option β) (l : List α) : Option β := l.reverse.findSome? value

def Newest [LE τ] (stamp : α → τ) (value : α → Option β) (l : List α) (b : β) : Prop :=
  ∃ a ∈ l, value a = some b ∧ ∀ other ∈ l, value other ≠ none → stamp other ≤ stamp a

def UpToDate [LE τ] (stamp : α → τ) (value : α → Option β) (l : List α) : Prop :=
  ∀ b, latest value l = some b → Newest stamp value l b

@[simp] theorem latest_nil : latest value [] = none := rfl

@[simp] theorem latest_cons (a : α) (l : List α) :
    latest value (a :: l) = (latest value l).or (value a) := by
  simp [latest, List.findSome?_append]

theorem latest_eq_none : latest value l = none ↔ ∀ a ∈ l, value a = none := by
  simp [latest]

theorem latest_ne_none_of_total (total : ∀ a, value a ≠ none) (nonempty : l ≠ []) :
    ∃ b, latest value l = some b := by
  obtain ⟨a, mem⟩ := List.exists_mem_of_ne_nil l nonempty
  apply Option.ne_none_iff_exists'.mp
  intro nothing
  exact total a (latest_eq_none.mp nothing a mem)

theorem upToDate_of_pairwise [Preorder τ] {stamp : α → τ}
    (sorted : l.Pairwise fun a b => stamp a ≤ stamp b) : UpToDate stamp value l := by
  induction l with
  | nil =>
    intro b nothing
    cases nothing
  | cons a l ih =>
    obtain ⟨later, sorted⟩ := List.pairwise_cons.mp sorted
    intro b last
    rw [latest_cons] at last
    cases rest : latest value l with
    | some b' =>
      rw [rest] at last
      cases last
      obtain ⟨a', mem, carries, newest⟩ := ih sorted b rest
      refine ⟨a', List.mem_cons_of_mem a mem, carries, ?_⟩
      intro other among reports
      cases List.mem_cons.mp among with
      | inl same =>
        rw [same]
        exact later a' mem
      | inr among => exact newest other among reports
    | none =>
      rw [rest] at last
      refine ⟨a, List.mem_cons_self, last, ?_⟩
      intro other among reports
      cases List.mem_cons.mp among with
      | inl same => rw [same]
      | inr among => exact absurd (latest_eq_none.mp rest other among) reports

end AlgoSystem.General
