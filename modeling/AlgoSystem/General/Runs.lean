import Mathlib.Order.Basic
import Mathlib.Data.List.Basic

/-!
# Runs of partial step functions

A system is a function `step : σ → ε → Option σ`, where `none` is a disabled event. `run` performs a
list of events, `Meets` says that a guard holds of every event of a run, and the rules lift facts
about one step to runs.
-/

namespace AlgoSystem.General

variable {σ ε : Type*} {step : σ → ε → Option σ} {guard : σ → ε → Prop}
variable {s u t : σ} {e : ε} {es fs : List ε} {Q : σ → Prop}
variable {guard' : σ → ε → Prop} {I P : σ → Prop}

def run (step : σ → ε → Option σ) : σ → List ε → Option σ
  | s, [] => some s
  | s, e :: es => (step s e).bind fun t => run step t es

/-- Events after a disabled one do not matter: such a list is not a run. -/
def Meets (step : σ → ε → Option σ) (guard : σ → ε → Prop) : σ → List ε → Prop
  | _, [] => True
  | s, e :: es => guard s e ∧ match step s e with
      | some t => Meets step guard t es
      | none => True

instance Meets.decidable (step : σ → ε → Option σ) (guard : σ → ε → Prop)
    [∀ s e, Decidable (guard s e)] : ∀ s es, Decidable (Meets step guard s es)
  | _, [] => .isTrue trivial
  | s, e :: es =>
    have : Decidable (match step s e with
        | some t => Meets step guard t es
        | none => True) :=
      match step s e with
      | some t => Meets.decidable step guard t es
      | none => .isTrue trivial
    inferInstanceAs (Decidable (_ ∧ _))

def Always (step : σ → ε → Option σ) (Q : σ → Prop) (s : σ) (es : List ε) : Prop :=
  ∀ before t, before <+: es → run step s before = some t → Q t

/-- Any two states that a run passes through, one after the other, are related. -/
def Between (step : σ → ε → Option σ) (R : σ → σ → Prop) (s : σ) (es : List ε) : Prop :=
  ∀ before between t u, before ++ between <+: es → run step s before = some t →
    run step t between = some u → R t u

def Reachable (step : σ → ε → Option σ) (start s : σ) : Prop :=
  ∃ events, run step start events = some s

@[simp] theorem run_nil (s : σ) : run step s [] = some s := rfl

theorem run_cons_eq_some :
    run step s (e :: es) = some u ↔ ∃ t, step s e = some t ∧ run step t es = some u :=
  Option.bind_eq_some_iff

theorem run_append_eq_some :
    run step s (es ++ fs) = some u ↔ ∃ t, run step s es = some t ∧ run step t fs = some u := by
  induction es generalizing s with
  | nil => simp
  | cons e es ih =>
    simp only [List.cons_append, run_cons_eq_some, ih]
    constructor
    · rintro ⟨t, hstep, v, hrun, rest⟩
      exact ⟨v, ⟨t, hstep, hrun⟩, rest⟩
    · rintro ⟨v, ⟨t, hstep, hrun⟩, rest⟩
      exact ⟨t, hstep, v, hrun, rest⟩

theorem run_snoc_eq_some :
    run step s (es ++ [e]) = some u ↔ ∃ t, run step s es = some t ∧ step t e = some u := by
  simp [run_append_eq_some, run_cons_eq_some]

@[simp] theorem meets_nil : Meets step guard s [] := trivial

theorem meets_cons :
    Meets step guard s (e :: es) ↔
      guard s e ∧ ∀ t, step s e = some t → Meets step guard t es := by
  change (guard s e ∧ match step s e with | some t => Meets step guard t es | none => True) ↔ _
  cases step s e <;> simp

theorem meets_append (path : run step s es = some t) :
    Meets step guard s (es ++ fs) ↔ Meets step guard s es ∧ Meets step guard t fs := by
  induction es generalizing s with
  | nil =>
    cases path
    simp
  | cons e es ih =>
    obtain ⟨u, hstep, rest⟩ := run_cons_eq_some.mp path
    simp [meets_cons, hstep, ih rest, and_assoc]

theorem meets_imp {s : σ} {es : List ε} (weaker : ∀ e ∈ es, ∀ s, guard s e → guard' s e)
    (meets : Meets step guard s es) : Meets step guard' s es := by
  induction es generalizing s with
  | nil => trivial
  | cons e es ih =>
    obtain ⟨here, later⟩ := meets_cons.mp meets
    refine meets_cons.mpr ⟨weaker e List.mem_cons_self s here, ?_⟩
    intro t hstep
    exact ih (fun e' mem => weaker e' (List.mem_cons_of_mem e mem)) (later t hstep)

theorem run_invariant_of_meets (keeps : ∀ s e t, I s → guard s e → step s e = some t → I t)
    {s t : σ} {es : List ε} (path : run step s es = some t) (meets : Meets step guard s es)
    (start : I s) : I t := by
  induction es generalizing s with
  | nil =>
    cases path
    exact start
  | cons e es ih =>
    obtain ⟨u, hstep, rest⟩ := run_cons_eq_some.mp path
    obtain ⟨here, later⟩ := meets_cons.mp meets
    exact ih rest (later u hstep) (keeps s e u start here hstep)

theorem meets_of_invariant (keeps : ∀ s e t, I s → guard s e → step s e = some t → I t)
    (weaker : ∀ s e, I s → guard s e → guard' s e) {s : σ} {es : List ε} (start : I s)
    (meets : Meets step guard s es) : Meets step guard' s es := by
  induction es generalizing s with
  | nil => trivial
  | cons e es ih =>
    obtain ⟨here, later⟩ := meets_cons.mp meets
    refine meets_cons.mpr ⟨weaker s e start here, ?_⟩
    intro t hstep
    exact ih (keeps s e t start here hstep) (later t hstep)

theorem meets_true (s : σ) (es : List ε) : Meets step (fun _ _ => True) s es := by
  induction es generalizing s with
  | nil => trivial
  | cons e es ih => exact meets_cons.mpr ⟨trivial, fun t _ => ih t⟩

theorem run_invariant (keeps : ∀ s e t, I s → step s e = some t → I t) {s t : σ} {es : List ε}
    (path : run step s es = some t) (start : I s) : I t :=
  run_invariant_of_meets (fun s e t hs _ => keeps s e t hs) path (meets_true s es) start

theorem reachable_invariant (keeps : ∀ s e t, I s → step s e = some t → I t) {start s : σ}
    (initial : I start) (reachable : Reachable step start s) : I s := by
  obtain ⟨events, path⟩ := reachable
  exact run_invariant keeps path initial

theorem run_monotone {α : Type*} [Preorder α] {measure : σ → α}
    (grows : ∀ s e t, step s e = some t → measure s ≤ measure t) {s t : σ} {es : List ε}
    (path : run step s es = some t) : measure s ≤ measure t :=
  run_invariant (I := fun u => measure s ≤ measure u)
    (fun u e v bound hstep => bound.trans (grows u e v hstep)) path le_rfl

theorem run_countP_le {measure : σ → Nat} {counted : ε → Bool}
    (keeps : ∀ s e t, I s → step s e = some t → I t)
    (falls : ∀ s e t, I s → step s e = some t → measure t + (counted e).toNat ≤ measure s) {s t : σ}
    {es : List ε} (path : run step s es = some t) (start : I s) :
    es.countP counted + measure t ≤ measure s := by
  induction es generalizing s with
  | nil =>
    cases path
    simp
  | cons e es ih =>
    obtain ⟨u, hstep, rest⟩ := run_cons_eq_some.mp path
    have first := falls s e u start hstep
    have later := ih rest (keeps s e u start hstep)
    rw [List.countP_cons]
    cases this : counted e <;> simp [this] at first ⊢ <;> omega

/-- A measure that grows at every step, and strictly where the guard fails, is unchanged exactly by
the runs that meet the guard. -/
theorem run_measure_eq_iff {α : Type*} [PartialOrder α] {measure : σ → α}
    (keeps : ∀ s e t, I s → step s e = some t → I t)
    (grows : ∀ s e t, I s → step s e = some t →
      measure s ≤ measure t ∧ (measure t = measure s ↔ guard s e))
    {s t : σ} {es : List ε} (path : run step s es = some t) (start : I s) :
    measure s ≤ measure t ∧ (measure t = measure s ↔ Meets step guard s es) := by
  induction es generalizing s with
  | nil =>
    cases path
    exact ⟨le_rfl, by simp⟩
  | cons e es ih =>
    obtain ⟨u, hstep, rest⟩ := run_cons_eq_some.mp path
    obtain ⟨first, here⟩ := grows s e u start hstep
    obtain ⟨second, later⟩ := ih rest (keeps s e u start hstep)
    refine ⟨first.trans second, ?_⟩
    simp only [meets_cons, hstep, Option.some.injEq, forall_eq', ← here, ← later]
    constructor
    · intro same
      have middle : measure u = measure s := le_antisymm (second.trans_eq same) first
      exact ⟨middle, same.trans middle.symm⟩
    · rintro ⟨middle, same⟩
      exact same.trans middle

/-- A property that a step keeps exactly when the guard holds, and never brings back, holds after
exactly those runs that start with it and meet the guard. -/
theorem run_property_iff (keeps : ∀ s e t, I s → step s e = some t → I t)
    (loses : ∀ s e t, I s → step s e = some t → (P t ↔ P s ∧ guard s e)) {s t : σ} {es : List ε}
    (path : run step s es = some t) (start : I s) : P t ↔ P s ∧ Meets step guard s es := by
  induction es generalizing s with
  | nil =>
    cases path
    simp
  | cons e es ih =>
    obtain ⟨u, hstep, rest⟩ := run_cons_eq_some.mp path
    rw [ih rest (keeps s e u start hstep), loses s e u start hstep]
    simp [meets_cons, hstep, and_assoc]

theorem exists_first_violation (path : run step s es = some t) (violated : ¬ Meets step guard s es) :
    ∃ before e after u v, es = before ++ e :: after ∧ run step s before = some u ∧
      Meets step guard s before ∧ ¬ guard u e ∧ step u e = some v ∧ run step v after = some t := by
  induction es generalizing s with
  | nil => exact absurd trivial violated
  | cons e es ih =>
    obtain ⟨u, hstep, rest⟩ := run_cons_eq_some.mp path
    by_cases here : guard s e
    · have later : ¬ Meets step guard u es := by simpa [meets_cons, hstep, here] using violated
      obtain ⟨before, f, after, x, y, rfl, hrun, meets, bad, hf, tail⟩ := ih rest later
      refine ⟨e :: before, f, after, x, y, rfl, ?_, ?_, bad, hf, tail⟩
      · exact run_cons_eq_some.mpr ⟨u, hstep, hrun⟩
      · simpa [meets_cons, hstep, here] using meets
    · exact ⟨[], e, es, s, u, rfl, rfl, trivial, here, hstep, rest⟩

theorem always_of_invariant (keeps : ∀ s e t, I s → guard s e → step s e = some t → I t)
    (holds : ∀ s, I s → Q s) (start : I s) (meets : Meets step guard s es) :
    Always step Q s es := by
  rintro before t ⟨after, rfl⟩ path
  exact holds t (run_invariant_of_meets keeps path ((meets_append path).mp meets).1 start)

/-- If `P` gives the property and is kept by guarded steps, and an unguarded step from it loses the
property at once, the property holds throughout exactly the runs that meet the guard. -/
theorem always_iff_meets (holds : ∀ s, P s → Q s)
    (keeps : ∀ s e t, P s → guard s e → step s e = some t → P t)
    (loses : ∀ s e t, P s → ¬ guard s e → step s e = some t → ¬ Q t)
    (path : run step s es = some t) (start : P s) : Always step Q s es ↔ Meets step guard s es := by
  refine ⟨fun always => ?_, always_of_invariant keeps holds start⟩
  by_contra violated
  obtain ⟨before, e, after, u, v, rfl, hrun, meets, bad, hstep, -⟩ :=
    exists_first_violation path violated
  refine loses u e v (run_invariant_of_meets keeps hrun meets start) bad hstep ?_
  exact always (before ++ [e]) v (by simp) (run_snoc_eq_some.mpr ⟨u, hrun, hstep⟩)

theorem throughout_iff_meets (holds : ∀ s, P s → Q s)
    (keeps : ∀ s e t, P s → guard s e → step s e = some t → P t)
    (loses : ∀ s e t, P s → ¬ guard s e → step s e = some t → ¬ Q t)
    (path : run step s es = some t) (start : P s) :
    (∀ before after u, es = before ++ after → run step s before = some u → Q u) ↔
      Meets step guard s es := by
  rw [← always_iff_meets holds keeps loses path start]
  exact ⟨fun each before u ⟨after, split⟩ => each before after u split.symm,
    fun always before after u split => always before u ⟨after, split.symm⟩⟩

/-- `always_iff_meets` for a relation between the states of a run. -/
theorem between_iff_meets {R : σ → σ → Prop} (refl : ∀ s, P s → R s s)
    (trans : ∀ s t u, R s t → R t u → R s u)
    (keeps : ∀ s e t, P s → guard s e → step s e = some t → P t ∧ R s t)
    (loses : ∀ s e t, P s → ¬ guard s e → step s e = some t → ¬ R s t) {s t : σ} {es : List ε}
    (path : run step s es = some t) (start : P s) :
    Between step R s es ↔ Meets step guard s es := by
  have kept : ∀ s e t, P s → guard s e → step s e = some t → P t :=
    fun s e t hs here hstep => (keeps s e t hs here hstep).1
  constructor
  · intro related
    by_contra violated
    obtain ⟨before, e, after, u, v, rfl, hrun, meets, bad, hstep, -⟩ :=
      exists_first_violation path violated
    refine loses u e v (run_invariant_of_meets kept hrun meets start) bad hstep ?_
    apply related before [e] u v
    · simp
    · exact hrun
    · exact run_cons_eq_some.mpr ⟨v, hstep, rfl⟩
  · rintro meets before between u v ⟨after, rfl⟩ first second
    rw [List.append_assoc, meets_append first, meets_append second] at meets
    obtain ⟨early, late, -⟩ := meets
    have middle := run_invariant_of_meets kept first early start
    -- the states after `u` are related to it and still satisfy `P`
    refine (run_invariant_of_meets (I := fun w => P w ∧ R u w) ?_ second late
      ⟨middle, refl u middle⟩).2
    rintro w e x ⟨hw, soFar⟩ here hstep
    obtain ⟨hx, last⟩ := keeps w e x hw here hstep
    exact ⟨hx, trans u w x soFar last⟩

end AlgoSystem.General
