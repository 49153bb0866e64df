import Mathlib.Logic.Basic

/-!
# Programs that call an environment

A `Prog` is a terminating program whose calls `c : C` are answered with a reply in `R c`, and which
may raise. `Runs p trace result`: answered as in the trace, the program makes exactly its calls and
ends with the result.
-/

namespace AlgoSystem.General

inductive Prog (C : Type) (R : C → Type) (E α : Type) where
  | ret (a : α)
  | raise (e : E)
  | call (c : C) (next : R c → Prog C R E α)

namespace Prog

variable {C : Type} {R : C → Type} {E α β : Type}

def bind : Prog C R E α → (α → Prog C R E β) → Prog C R E β
  | .ret a, f => f a
  | .raise e, _ => .raise e
  | .call c next, f => .call c fun r => (next r).bind f

instance : Monad (Prog C R E) where
  pure := .ret
  bind := bind

def attempt (caught : E → Bool) : Prog C R E α → Prog C R E (Except E α)
  | .ret a => .ret (.ok a)
  | .raise e => if caught e then .ret (.error e) else .raise e
  | .call c next => .call c fun r => (next r).attempt caught

abbrev Trace (C : Type) (R : C → Type) := List ((c : C) × R c)

inductive Runs : Prog C R E α → Trace C R → Except E α → Prop where
  | ret (a : α) : Runs (.ret a) [] (.ok a)
  | raise (e : E) : Runs (.raise e) [] (.error e)
  | call {c : C} {next : R c → Prog C R E α} {trace : Trace C R} {result : Except E α} (r : R c)
      (rest : Runs (next r) trace result) : Runs (.call c next) (⟨c, r⟩ :: trace) result

variable {p : Prog C R E α} {f : α → Prog C R E β} {trace : Trace C R} {a : α} {e : E}

theorem runs_ret {result : Except E α} :
    Runs (.ret a : Prog C R E α) trace result ↔ trace = [] ∧ result = .ok a := by
  constructor
  · rintro ⟨⟩
    exact ⟨rfl, rfl⟩
  · rintro ⟨rfl, rfl⟩
    exact .ret a

theorem runs_pure {result : Except E α} :
    Runs (pure a : Prog C R E α) trace result ↔ trace = [] ∧ result = .ok a := runs_ret

theorem runs_raise {result : Except E α} :
    Runs (.raise e : Prog C R E α) trace result ↔ trace = [] ∧ result = .error e := by
  constructor
  · rintro ⟨⟩
    exact ⟨rfl, rfl⟩
  · rintro ⟨rfl, rfl⟩
    exact .raise e

theorem runs_call {c : C} {next : R c → Prog C R E α} {result : Except E α} :
    Runs (.call c next) trace result ↔
      ∃ r rest, trace = ⟨c, r⟩ :: rest ∧ Runs (next r) rest result := by
  constructor
  · rintro ⟨⟩
    rename_i rest r run
    exact ⟨r, rest, rfl, run⟩
  · rintro ⟨r, rest, rfl, run⟩
    exact .call r run

theorem runs_bind {result : Except E β} :
    Runs (p >>= f) trace result ↔
      (∃ first second a, trace = first ++ second ∧ Runs p first (.ok a) ∧
        Runs (f a) second result) ∨
      ∃ e, Runs p trace (.error e) ∧ result = .error e := by
  show Runs (p.bind f) trace result ↔ _
  induction p generalizing trace with
  | ret a =>
    simp only [bind, runs_ret]
    constructor
    · intro run
      exact .inl ⟨[], trace, a, rfl, ⟨rfl, rfl⟩, run⟩
    · rintro (⟨first, second, b, rfl, ⟨rfl, same⟩, run⟩ | ⟨e, ⟨_, impossible⟩, _⟩)
      · cases same
        exact run
      · cases impossible
  | raise e =>
    simp only [bind, runs_raise]
    constructor
    · rintro ⟨rfl, rfl⟩
      exact .inr ⟨e, ⟨rfl, rfl⟩, rfl⟩
    · rintro (⟨first, second, b, rfl, ⟨_, impossible⟩, _⟩ | ⟨e', ⟨rfl, same⟩, rfl⟩)
      · cases impossible
      · cases same
        exact ⟨rfl, rfl⟩
  | call c next ih =>
    simp only [bind, runs_call, ih]
    constructor
    · rintro ⟨r, rest, rfl, ⟨first, second, b, rfl, run, after⟩ | ⟨e, run, rfl⟩⟩
      · exact .inl ⟨⟨c, r⟩ :: first, second, b, rfl, ⟨r, first, rfl, run⟩, after⟩
      · exact .inr ⟨e, ⟨r, rest, rfl, run⟩, rfl⟩
    · rintro (⟨first, second, b, rfl, ⟨r, rest, rfl, run⟩, after⟩ | ⟨e, ⟨r, rest, rfl, run⟩, rfl⟩)
      · exact ⟨r, rest ++ second, rfl, .inl ⟨rest, second, b, rfl, run, after⟩⟩
      · exact ⟨r, rest, rfl, .inr ⟨e, run, rfl⟩⟩

theorem runs_bind_ok {b : β} :
    Runs (p >>= f) trace (.ok b) ↔
      ∃ first second a, trace = first ++ second ∧ Runs p first (.ok a) ∧
        Runs (f a) second (.ok b) := by
  simp [runs_bind]

theorem runs_attempt {caught : E → Bool} {result : Except E (Except E α)} :
    Runs (p.attempt caught) trace result ↔
      (∃ a, Runs p trace (.ok a) ∧ result = .ok (.ok a)) ∨
      ∃ e, Runs p trace (.error e) ∧
        result = if caught e then .ok (.error e) else .error e := by
  induction p generalizing trace with
  | ret a =>
    simp only [attempt, runs_ret]
    constructor
    · rintro ⟨rfl, rfl⟩
      exact .inl ⟨a, ⟨rfl, rfl⟩, rfl⟩
    · rintro (⟨b, ⟨rfl, same⟩, rfl⟩ | ⟨e, ⟨_, impossible⟩, _⟩)
      · cases same
        exact ⟨rfl, rfl⟩
      · cases impossible
  | raise e =>
    constructor
    · intro run
      unfold attempt at run
      split at run <;> cases run
      · rename_i yes
        exact .inr ⟨e, .raise e, by rw [if_pos yes]⟩
      · rename_i no
        exact .inr ⟨e, .raise e, by rw [if_neg no]⟩
    · rintro (⟨b, run, _⟩ | ⟨e', run, rfl⟩)
      · cases run
      · cases run
        unfold attempt
        split
        · exact .ret _
        · exact .raise e
  | call c next ih =>
    simp only [attempt, runs_call, ih]
    constructor
    · rintro ⟨r, rest, rfl, ⟨a, run, rfl⟩ | ⟨e, run, rfl⟩⟩
      · exact .inl ⟨a, ⟨r, rest, rfl, run⟩, rfl⟩
      · exact .inr ⟨e, ⟨r, rest, rfl, run⟩, rfl⟩
    · rintro (⟨a, ⟨r, rest, rfl, run⟩, rfl⟩ | ⟨e, ⟨r, rest, rfl, run⟩, rfl⟩)
      · exact ⟨r, rest, rfl, .inl ⟨a, run, rfl⟩⟩
      · exact ⟨r, rest, rfl, .inr ⟨e, run, rfl⟩⟩

def Calls (P : (c : C) × R c → Prop) (p : Prog C R E α) : Prop :=
  ∀ trace result, Runs p trace result → ∀ entry ∈ trace, P entry

/-- A run raises exactly if one of its calls gets a fatal reply. -/
def RaisesIff (fatal : (c : C) × R c → Prop) (p : Prog C R E α) : Prop :=
  ∀ trace result, Runs p trace result →
    ((∃ e, result = .error e) ↔ ∃ entry ∈ trace, fatal entry)

variable {P fatal : (c : C) × R c → Prop}

theorem calls_pure : Calls P (pure a : Prog C R E α) := by
  intro trace result run entry member
  obtain ⟨rfl, -⟩ := runs_pure.mp run
  cases member

theorem Calls.bind (first : Calls P p) (second : ∀ a, Calls P (f a)) : Calls P (p >>= f) := by
  intro trace result run entry member
  rcases runs_bind.mp run with ⟨t, u, a, rfl, one, two⟩ | ⟨e, one, -⟩
  · rcases List.mem_append.mp member with left | right
    · exact first t _ one entry left
    · exact second a u result two entry right
  · exact first trace _ one entry member

theorem calls_call {c : C} {next : R c → Prog C R E α} (here : ∀ r, P ⟨c, r⟩)
    (rest : ∀ r, Calls P (next r)) : Calls P (.call c next) := by
  intro trace result run entry member
  obtain ⟨r, u, rfl, after⟩ := runs_call.mp run
  rcases List.mem_cons.mp member with rfl | later
  · exact here r
  · exact rest r u result after entry later

theorem raisesIff_pure : RaisesIff fatal (pure a : Prog C R E α) := by
  intro trace result run
  obtain ⟨rfl, rfl⟩ := runs_pure.mp run
  simp

theorem RaisesIff.bind (first : RaisesIff fatal p) (second : ∀ a, RaisesIff fatal (f a)) :
    RaisesIff fatal (p >>= f) := by
  intro trace result run
  rcases runs_bind.mp run with ⟨t, u, a, rfl, one, two⟩ | ⟨e, one, rfl⟩
  · have safe : ¬ ∃ entry ∈ t, fatal entry := by
      rw [← first t _ one]
      rintro ⟨e, impossible⟩
      cases impossible
    simp only [second a u result two, List.mem_append, or_and_right, exists_or]
    exact (or_iff_right safe).symm
  · rw [← first trace _ one]
    simp

theorem raisesIff_call {c : C} {next : R c → Prog C R E α}
    (harmless : ∀ r, ¬ fatal ⟨c, r⟩) (rest : ∀ r, RaisesIff fatal (next r)) :
    RaisesIff fatal (.call c next) := by
  intro trace result run
  obtain ⟨r, u, rfl, after⟩ := runs_call.mp run
  rw [rest r u result after]
  simp [harmless r]

end Prog

end AlgoSystem.General
