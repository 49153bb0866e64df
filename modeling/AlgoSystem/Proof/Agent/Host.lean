import AlgoSystem.Agent.Processes

namespace AlgoSystem.Proof.Agent
open AlgoSystem.Agent General List

def Alive (h : Host) (i : Nat) (p : Process) : Prop :=
  h.procs[i]? = some p ∧ p.aliveAlgo = true

variable {h h' : Host} {i j : Nat} {p q : Process}

theorem Alive.life (alive : Alive h i p) : p.life.alive = true := by
  have := alive.2
  simp only [Process.aliveAlgo, Bool.and_eq_true] at this
  exact this.2

theorem Alive.unique (first : Alive h i p) (second : Alive h i q) : p = q :=
  Option.some.inj (first.1.symm.trans second.1)

theorem Alive.present (alive : Alive h i p) : h.present p.pid = true := by
  have life := alive.life
  simp only [Host.present, any_eq_true, Bool.and_eq_true, decide_eq_true_eq]
  refine ⟨p, mem_of_getElem? alive.1, rfl, ?_⟩
  intro gone
  simp [gone, Life.alive] at life

theorem Alive.isProcessRunning (alive : Alive h i p) (positive : 0 < p.pid) :
    isProcessRunning h p.pid = true := by
  simp [Agent.isProcessRunning, positive, alive.present]

theorem getElem?_spawn {new : Process} (found : (h.spawn new).procs[j]? = some q) :
    h.procs[j]? = some q ∨ (j = h.procs.length ∧ q = new) :=
  getElem?_concat_eq_some.mp found

theorem Alive.of_spawn {new : Process} (alive : Alive (h.spawn new) j q) :
    Alive h j q ∨ (j = h.procs.length ∧ q = new) :=
  (getElem?_spawn alive.1).imp_left fun found => ⟨found, alive.2⟩

def Named (h : Host) (p : Process) : Prop :=
  h.pidFile = some p.pid ∨ p.role = .algo .leaving

structure Quiet (h h' : Host) : Prop where
  length : h.procs.length ≤ h'.procs.length
  back : ∀ i q, Alive h' i q → ∃ p, Alive h i p ∧ p.pid = q.pid ∧ p.parent = q.parent
  named : ∀ i p q, Alive h i p → Alive h' i q → Named h p → Named h' q

structure Ages (g : Nat → Process → Process) (h h' : Host) : Prop where
  procs : ∀ j, h'.procs[j]? = h.procs[j]?.map (g j)
  pid : ∀ j p, (g j p).pid = p.pid
  parent : ∀ j p, (g j p).parent = p.parent
  life : ∀ j p, h.procs[j]? = some p → (g j p).aliveAlgo = true → p.aliveAlgo = true

variable {g : Nat → Process → Process}

section
variable (ages : Ages g h h')
include ages

theorem Ages.alive (living : Alive h' j q) : ∃ p, Alive h j p ∧ q = g j p := by
  obtain ⟨found, alive⟩ := living
  rw [ages.procs, Option.map_eq_some_iff] at found
  obtain ⟨p, old, rfl⟩ := found
  exact ⟨p, ⟨old, ages.life j p old alive⟩, rfl⟩

theorem Ages.length : h'.procs.length = h.procs.length := by
  have same : ∀ j, h'.procs.length ≤ j ↔ h.procs.length ≤ j := by
    intro j
    rw [← List.getElem?_eq_none_iff, ← List.getElem?_eq_none_iff, ages.procs,
      Option.map_eq_none_iff]
  exact Nat.le_antisymm ((same _).mpr (Nat.le_refl _)) ((same _).mp (Nat.le_refl _))

theorem Ages.positive (positive : ∀ p ∈ h.procs, 0 < p.pid) : ∀ p ∈ h'.procs, 0 < p.pid := by
  intro q member
  obtain ⟨j, found⟩ := mem_iff_getElem?.mp member
  rw [ages.procs, Option.map_eq_some_iff] at found
  obtain ⟨p, old, rfl⟩ := found
  rw [ages.pid]
  exact positive p (mem_of_getElem? old)

theorem Ages.quiet (named : ∀ j p, Alive h j p → Named h p → Named h' (g j p)) : Quiet h h' where
  length := Nat.le_of_eq ages.length.symm
  back j q living := by
    obtain ⟨p, alive, rfl⟩ := ages.alive living
    exact ⟨p, alive, (ages.pid j p).symm, (ages.parent j p).symm⟩
  named j p q old living stays := by
    obtain ⟨p', alive, rfl⟩ := ages.alive living
    cases old.unique alive
    exact named j p old stays

end

theorem ages_refl (procs : h'.procs = h.procs) : Ages (fun _ p => p) h h' where
  procs j := by simp [procs]
  pid _ _ := rfl
  parent _ _ := rfl
  life _ _ _ alive := alive

theorem ages_update {f : Process → Process} (procs : h'.procs = (h.update i f).procs)
    (pid : ∀ p, (f p).pid = p.pid) (parent : ∀ p, (f p).parent = p.parent)
    (life : ∀ p, h.procs[i]? = some p → (f p).aliveAlgo = true → p.aliveAlgo = true) :
    Ages (fun j p => if i = j then f p else p) h h' where
  procs j := by
    simp only [procs, Host.update, getElem?_modify]
    rfl
  pid j p := by split <;> simp [pid]
  parent j p := by split <;> simp [parent]
  life j p found alive := by
    split at alive
    case isTrue same => exact life p (same ▸ found) alive
    case isFalse => exact alive

theorem ages_signal (n : Nat) :
    Ages (fun _ p => if p.pid = n && p.life = .running then { p with life := .killed } else p)
      h (h.signal n) where
  procs j := by simp [Host.signal]
  pid j p := by split <;> rfl
  parent j p := by split <;> rfl
  life j p found alive := by
    split at alive
    case isTrue running =>
      simp only [Bool.and_eq_true, decide_eq_true_eq] at running
      simpa [Process.aliveAlgo, Process.isAlgo, running.2, Life.alive] using alive
    case isFalse => exact alive

theorem Quiet.of_eq (procs : h'.procs = h.procs) (file : h'.pidFile = h.pidFile) : Quiet h h' :=
  (ages_refl procs).quiet fun _ _ _ named => by rwa [Named, file]

structure Fades (f : Process → Process) : Prop where
  pid : ∀ p, (f p).pid = p.pid
  parent : ∀ p, (f p).parent = p.parent
  role : ∀ p, (f p).role = p.role
  life : ∀ p, (f p).aliveAlgo = true → p.aliveAlgo = true

theorem fades_exited : Fades Process.exited where
  pid _ := rfl
  parent _ := rfl
  role _ := rfl
  life p alive := by simp [Process.exited, Process.aliveAlgo, Life.alive] at alive

theorem fades_reaped : Fades Process.reaped := by
  constructor
  case life =>
    intro p alive
    unfold Process.reaped at alive
    split at alive
    · simp [Process.aliveAlgo, Life.alive] at alive
    · exact alive
  all_goals
    intro p
    unfold Process.reaped
    split <;> rfl

variable {f : Process → Process}

section
variable (fades : Fades f) (procs : h'.procs = (h.update i f).procs)
include fades procs

theorem Fades.ages : Ages (fun j p => if i = j then f p else p) h h' :=
  ages_update procs fades.pid fades.parent fun p _ => fades.life p

theorem Fades.role_eq (old : Alive h j p) (new : Alive h' j q) : q.role = p.role := by
  obtain ⟨p', alive, rfl⟩ := (fades.ages procs).alive new
  cases old.unique alive
  split
  · exact fades.role p
  · rfl

theorem Fades.quiet (file : h'.pidFile = h.pidFile) : Quiet h h' := by
  apply (fades.ages procs).quiet
  rintro j p alive (written | leaving)
  · left
    rw [file, (fades.ages procs).pid j p]
    exact written
  · right
    split
    · exact (fades.role p).trans leaving
    · exact leaving

end

end AlgoSystem.Proof.Agent
