import AlgoSystem.General.Lists
import AlgoSystem.General.Runs

/-!
# Threads over a shared state

Threads with a local state enter at any time, an enabled thread acts on its own and the shared
state, the environment changes the shared one, and a reset drops all threads. A run is any
interleaving.
-/

namespace AlgoSystem.General

structure ThreadSystem (G L κ χ η : Type*) where
  enter : G → κ → L
  act : Nat → G → L → χ → Option (G × L)
  env : G → η → Option G
  reset : G → G

namespace ThreadSystem

structure State (G L : Type*) where
  shared : G
  threads : List L := []

inductive Event (κ χ η : Type*) where
  | enter (entry : κ)
  | act (thread : Nat) (choice : χ)
  | env (event : η)
  | reset

variable {G L κ χ η : Type*} (sys : ThreadSystem G L κ χ η)

def step (s : State G L) : Event κ χ η → Option (State G L)
  | .enter entry => some { s with threads := s.threads ++ [sys.enter s.shared entry] }
  | .act i choice =>
    s.threads[i]?.bind fun here =>
      (sys.act i s.shared here choice).map fun next =>
        { shared := next.1, threads := s.threads.set i next.2 }
  | .env event => (sys.env s.shared event).map fun g => { s with shared := g }
  | .reset => some { shared := sys.reset s.shared, threads := [] }

structure Holds (I : Nat → G → Prop) (A : Nat → G → L → Prop) (s : State G L) : Prop where
  shared : I s.threads.length s.shared
  threads : ∀ i l, s.threads[i]? = some l → A i s.shared l

variable {sys} {s t : State G L} {I : Nat → G → Prop} {A : Nat → G → L → Prop}

theorem step_act_eq_some {i : Nat} {choice : χ} (stepped : sys.step s (.act i choice) = some t) :
    ∃ here g there, s.threads[i]? = some here ∧
      sys.act i s.shared here choice = some (g, there) ∧
      t = { shared := g, threads := s.threads.set i there } := by
  obtain ⟨here, found, moved⟩ := Option.bind_eq_some_iff.mp stepped
  obtain ⟨⟨g, there⟩, acted, rfl⟩ := Option.map_eq_some_iff.mp moved
  exact ⟨here, g, there, found, acted, rfl⟩

theorem run_alone {i : Nat} {here there : L} {g : G} {choices : List χ}
    (found : s.threads[i]? = some here)
    (alone : run (fun own choice => sys.act i own.1 own.2 choice) (s.shared, here) choices =
      some (g, there)) :
    run sys.step s (choices.map fun choice => .act i choice) =
      some { shared := g, threads := s.threads.set i there } := by
  have mem : i < s.threads.length := (List.getElem?_eq_some_iff.mp found).1
  induction choices generalizing s here with
  | nil =>
    cases alone
    obtain ⟨_, rfl⟩ := List.getElem?_eq_some_iff.mp found
    rw [List.map_nil, run_nil, List.set_getElem_self]
  | cons choice choices ih =>
    obtain ⟨⟨g', here'⟩, acted, rest⟩ := run_cons_eq_some.mp alone
    refine run_cons_eq_some.mpr ⟨{ shared := g', threads := s.threads.set i here' }, ?_, ?_⟩
    · simp [step, found, acted]
    · have later := @ih { shared := g', threads := s.threads.set i here' } here'
        (List.getElem?_set_self mem) rest (by simpa using mem)
      rw [later, List.set_set]

theorem Holds.append (holds : Holds I A s) {here : L} (count : I (s.threads.length + 1) s.shared)
    (asserted : A s.threads.length s.shared here) :
    Holds I A { s with threads := s.threads ++ [here] } := by
  refine ⟨by simpa using count, ?_⟩
  intro i l found
  obtain old | ⟨rfl, rfl⟩ := getElem?_concat_eq_some.mp found
  · exact holds.threads i l old
  · exact asserted

theorem Holds.of_set {i : Nat} {here there : L} {g : G} (found : s.threads[i]? = some here)
    (shared : I s.threads.length g) (own : A i g there)
    (others : ∀ j l, j ≠ i → s.threads[j]? = some l → A j g l) :
    Holds I A { shared := g, threads := s.threads.set i there } := by
  have mem : i < s.threads.length := (List.getElem?_eq_some_iff.mp found).1
  refine ⟨by simpa using shared, ?_⟩
  intro j l present
  by_cases same : j = i
  · subst same
    rw [List.getElem?_set_self mem] at present
    cases present
    exact own
  · rw [List.getElem?_set_ne (Ne.symm same)] at present
    exact others j l same present

theorem step_holds (guard : State G L → Event κ χ η → Prop)
    (enters : ∀ n g entry, I n g → I (n + 1) g ∧ A n g (sys.enter g entry))
    (acts : ∀ s i here choice g there, Holds I A s → s.threads[i]? = some here →
      guard s (.act i choice) → sys.act i s.shared here choice = some (g, there) →
      I s.threads.length g ∧ A i g there ∧
        ∀ j l, j ≠ i → s.threads[j]? = some l → A j s.shared l → A j g l)
    (envs : ∀ s event g, Holds I A s → guard s (.env event) → sys.env s.shared event = some g →
      I s.threads.length g ∧ ∀ i l, s.threads[i]? = some l → A i s.shared l → A i g l)
    (resets : ∀ n g, I n g → I 0 (sys.reset g))
    (s : State G L) (event : Event κ χ η) (t : State G L) (holds : Holds I A s)
    (allowed : guard s event) (stepped : sys.step s event = some t) : Holds I A t := by
  cases event with
  | enter entry =>
    cases stepped
    obtain ⟨count, asserted⟩ := enters _ _ entry holds.shared
    exact holds.append count asserted
  | act i choice =>
    obtain ⟨here, g, there, found, acted, rfl⟩ := step_act_eq_some stepped
    obtain ⟨shared, own, stable⟩ := acts s i here choice g there holds found allowed acted
    exact Holds.of_set found shared own
      fun j l other present => stable j l other present (holds.threads j l present)
  | env event =>
    obtain ⟨g, changed, rfl⟩ := Option.map_eq_some_iff.mp stepped
    obtain ⟨shared, stable⟩ := envs s event g holds allowed changed
    exact ⟨shared, fun i l present => stable i l present (holds.threads i l present)⟩
  | reset =>
    cases stepped
    exact ⟨resets _ _ holds.shared, by simp⟩

end ThreadSystem

end AlgoSystem.General
