import AlgoSystem.Proof.Agent.Host

namespace AlgoSystem.Proof.Agent
open AlgoSystem.Agent General List

structure Exclusive (s : State) : Prop where
  alone : ∀ i j p q, Alive s.shared i p → Alive s.shared j q → i = j
  stopped : ∀ call ∈ s.threads, call.pc = .done .stopped →
    ∀ i p, i < call.since → ¬ Alive s.shared i p

def everyAlive (h : Host) (f : Process → Bool) : Bool :=
  h.procs.all fun p => !p.aliveAlgo || f p

/-- START and RESTART do not read the PID file while a process that has removed it is about to exit,
and their wait ends with the launched process. STOP reads the file when it names the live process,
and the kill takes effect in time. STOP and STATUS do not remove the file of a live process. -/
def orderlyCall (h : Host) (call : Call) (late : Bool) : Bool :=
  match call.pc with
  | .startRead => everyAlive h fun p => p.role ≠ .algo .leaving
  | .waitRead proc => !late || h.procs[proc]?.all fun p => !p.aliveAlgo
  | .waitCheck proc childPid =>
    childPid.all fun n => !h.present n || h.procs[proc]?.all fun p => p.pid = n
  | .stopRead => call.command = .restartAlgo || everyAlive h fun p => h.pidFile = some p.pid
  | .killWait pid => !late || !h.present pid
  | .remove | .statusRemove => everyAlive h fun p => h.pidFile ≠ some p.pid
  | _ => true

def orderly (s : State) : Event → Bool
  | .act c (.tick late) => s.threads[c]?.all fun call => orderlyCall s.shared call late
  | _ => true

variable {h h' : Host} {i j : Nat} {p q : Process}

theorem everyAlive_iff {f : Process → Bool} :
    everyAlive h f = true ↔ ∀ i p, Alive h i p → f p = true := by
  simp only [everyAlive, all_eq_true, Bool.or_eq_true, Bool.not_eq_true']
  constructor
  · rintro every i p ⟨found, alive⟩
    rcases every p (mem_of_getElem? found) with dead | holds
    · rw [alive] at dead
      cases dead
    · exact holds
  · intro every p member
    obtain ⟨i, found⟩ := mem_iff_getElem?.mp member
    cases alive : p.aliveAlgo with
    | false => exact .inl rfl
    | true => exact .inr (every i p ⟨found, alive⟩)

structure Shared (n : Nat) (h : Host) : Prop where
  positive : ∀ p ∈ h.procs, 0 < p.pid
  parent : ∀ i p c, Alive h i p → p.parent = some c → c < n
  alone : ∀ i j p q, Alive h i p → Alive h j q → i = j
  covered : ∀ i p, Alive h i p →
    Named h p ∨ (p.role = .algo .starting ∧ ∃ c, p.parent = some c ∧ h.lock = some c)

def holdsLock (call : Call) : Bool :=
  match call.pc with
  | .startRead | .startCheck _ | .launch | .waitRead _ | .waitCheck _ _ | .waitPoll _ => true
  | .stopRead | .stopCheck _ | .grace _ | .recheck _ | .kill _ | .killWait _ | .remove =>
    call.command = .restartAlgo
  | .entry | .statusRead | .statusCheck _ | .statusRemove | .done _ => false

def MayBeChild : Pc → Nat → Prop
  | .waitRead proc, i | .waitCheck proc _, i | .waitPoll proc, i => i = proc
  | .done _, _ => True
  | _, _ => False

def Local (h : Host) (call : Call) : Prop :=
  match call.pc with
  | .startCheck existingPid => ∀ i p, Alive h i p → existingPid = some p.pid
  | .launch => ∀ i p, ¬ Alive h i p
  | .waitCheck proc childPid =>
    ∀ p, Alive h proc p → childPid = some p.pid → Named h p
  | .stopCheck pid => call.command ≠ .restartAlgo →
      ∀ i p, i < call.since → Alive h i p → pid = some p.pid
  | .grace n | .recheck n | .kill n | .killWait n => call.command ≠ .restartAlgo →
      ∀ i p, i < call.since → Alive h i p → n = p.pid
  | .remove => call.command ≠ .restartAlgo → ∀ i p, i < call.since → ¬ Alive h i p
  | .done .stopped => ∀ i p, i < call.since → ¬ Alive h i p
  | _ => True

structure Asserted (c : Nat) (h : Host) (call : Call) : Prop where
  locked : holdsLock call = true → h.lock = some c
  since : call.since ≤ h.procs.length
  child : ∀ i p, Alive h i p → p.parent = some c → MayBeChild call.pc i
  here : Local h call

variable {n c : Nat} {call : Call}

theorem Quiet.not_alive (quiet : Quiet h h') (dead : ∀ p, ¬ Alive h i p) : ¬ Alive h' i q := by
  intro living
  obtain ⟨p, alive, _⟩ := quiet.back i q living
  exact dead p alive

theorem Local.quiet (here : Local h call) (quiet : Quiet h h') : Local h' call := by
  obtain ⟨command, pc, since⟩ := call
  cases pc with
  | startCheck existingPid =>
    intro i q living
    obtain ⟨p, alive, pid, _⟩ := quiet.back i q living
    exact pid ▸ here i p alive
  | launch => exact fun i q => quiet.not_alive (here i)
  | waitCheck proc childPid =>
    intro q living written
    obtain ⟨p, alive, pid, _⟩ := quiet.back proc q living
    exact quiet.named proc p q alive living (here p alive (pid ▸ written))
  | stopCheck pid | grace n | recheck n | kill n | killWait n =>
    intro stop i q old living
    obtain ⟨p, alive, same, _⟩ := quiet.back i q living
    exact same ▸ here stop i p old alive
  | remove => exact fun stop i q old => quiet.not_alive fun p => here stop i p old
  | done answer =>
    cases answer with
    | stopped => exact fun i q old => quiet.not_alive fun p => here i p old
    | _ => trivial
  | _ => trivial

theorem Asserted.quiet (asserted : Asserted c h call) (quiet : Quiet h h')
    (lock : holdsLock call = true → h'.lock = some c) : Asserted c h' call where
  locked := lock
  since := Nat.le_trans asserted.since quiet.length
  child i q living launched := by
    obtain ⟨p, alive, _, parent⟩ := quiet.back i q living
    exact asserted.child i p alive (parent.trans launched)
  here := asserted.here.quiet quiet

theorem Shared.quiet (shared : Shared n h) (quiet : Quiet h h')
    (positive : ∀ p ∈ h'.procs, 0 < p.pid)
    (kept : ∀ i p q c, Alive h i p → Alive h' i q → p.role = .algo .starting →
      p.parent = some c → h.lock = some c →
      Named h' q ∨ (q.role = .algo .starting ∧ h'.lock = some c)) : Shared n h' where
  positive := positive
  parent i q c living launched := by
    obtain ⟨p, alive, _, parent⟩ := quiet.back i q living
    exact shared.parent i p c alive (parent.trans launched)
  alone i j p q first second := by
    obtain ⟨p', first', _⟩ := quiet.back i p first
    obtain ⟨q', second', _⟩ := quiet.back j q second
    exact shared.alone i j p' q' first' second'
  covered i q living := by
    obtain ⟨p, alive, _, parent⟩ := quiet.back i q living
    rcases shared.covered i p alive with named | ⟨starting, c, launched, lock⟩
    · exact .inl (quiet.named i p q alive living named)
    · rcases kept i p q c alive living starting launched lock with named | ⟨still, lock'⟩
      · exact .inl named
      · exact .inr ⟨still, c, parent ▸ launched, lock'⟩

structure Moves (n c : Nat) (h h' : Host) (call' : Call) : Prop where
  shared : Shared n h'
  own : Asserted c h' call'
  others : ∀ j call, j ≠ c → Asserted j h call → Asserted j h' call

section

variable {pc : Pc} (shared : Shared n h) (asserted : Asserted c h call)

include shared asserted

theorem Moves.of_quiet (quiet : Quiet h h') (lock : h'.lock = h.lock)
    (positive : ∀ p ∈ h'.procs, 0 < p.pid)
    (role : ∀ i p q, Alive h i p → Alive h' i q → q.role = p.role)
    (holds : holdsLock (call.goto pc) = true → holdsLock call = true)
    (child : ∀ i, MayBeChild call.pc i → MayBeChild pc i) (here : Local h' (call.goto pc)) :
    Moves n c h h' (call.goto pc) where
  shared := shared.quiet quiet positive fun i p q d old new starting _ locked =>
    .inr ⟨(role i p q old new).trans starting, lock.trans locked⟩
  own := {
    locked := fun held => lock.trans (asserted.locked (holds held))
    since := Nat.le_trans asserted.since quiet.length
    child := by
      intro i q living launched
      obtain ⟨p, alive, _, parent⟩ := quiet.back i q living
      exact child i (asserted.child i p alive (parent.trans launched))
    here }
  others _ _ _ other := other.quiet quiet fun held => lock.trans (other.locked held)

theorem Moves.goto (holds : holdsLock (call.goto pc) = true → holdsLock call = true)
    (child : ∀ i, MayBeChild call.pc i → MayBeChild pc i) (here : Local h (call.goto pc)) :
    Moves n c h h (call.goto pc) :=
  Moves.of_quiet shared asserted (.of_eq rfl rfl) rfl shared.positive
    (fun _ _ _ old new => by rw [old.unique new]) holds child here

theorem Moves.acquire (free : h.lock = none) (child : ∀ i, ¬ MayBeChild call.pc i)
    (here : Local h (call.goto pc)) :
    Moves n c h { h with lock := some c } (call.goto pc) := by
  have quiet : Quiet h { h with lock := some c } := .of_eq rfl rfl
  constructor
  · apply shared.quiet quiet shared.positive
    intro i p q d _ _ _ _ locked
    rw [free] at locked
    cases locked
  · exact {
      locked := fun _ => rfl
      since := asserted.since
      child := fun i p living launched =>
        absurd (asserted.child i p living launched) (child i)
      here := here.quiet quiet }
  · intro j other _ others
    apply others.quiet quiet
    intro held
    cases free.symm.trans (others.locked held)

theorem Moves.release {answer : Answer} (locked : holdsLock call = true) (quiet : Quiet h h')
    (positive : ∀ p ∈ h'.procs, 0 < p.pid)
    (settled : ∀ i p, Alive h i p → p.parent = some c → Named h p)
    (started : answer ≠ .stopped) :
    Moves n c h h' (call.goto (.done answer)) := by
  have lock := asserted.locked locked
  constructor
  · apply shared.quiet quiet positive
    intro i p q d old new _ launched held
    cases lock.symm.trans held
    exact .inl (quiet.named i p q old new (settled i p old launched))
  · exact {
      locked := fun held => by cases held
      since := Nat.le_trans asserted.since quiet.length
      child := fun _ _ _ _ => trivial
      here := by cases answer <;> trivial }
  · intro j other different others
    apply others.quiet quiet
    intro held
    cases lock.symm.trans (others.locked held)
    exact absurd rfl different

end

theorem Moves.removeFile {pc : Pc} (shared : Shared n h) (asserted : Asserted c h call)
    (unnamed : everyAlive h (fun p => h.pidFile ≠ some p.pid) = true)
    (holds : holdsLock (call.goto pc) = true → holdsLock call = true)
    (child : ∀ i, MayBeChild call.pc i → MayBeChild pc i) (here : Local h (call.goto pc)) :
    Moves n c h { h with pidFile := none } (call.goto pc) := by
  have ages : Ages (fun _ p => p) h { h with pidFile := none } := ages_refl rfl
  have quiet : Quiet h { h with pidFile := none } := by
    apply ages.quiet
    rintro j p alive (written | leaving)
    · exact absurd written (by simpa using everyAlive_iff.mp unnamed j p alive)
    · exact .inr leaving
  exact Moves.of_quiet shared asserted quiet rfl shared.positive
    (fun _ _ _ old new => by rw [old.unique new]) holds child (here.quiet quiet)

theorem Moves.signal {m : Nat} (shared : Shared n h) (asserted : Asserted c h call)
    (pc : call.pc = .kill m) : Moves n c h (h.signal m) (call.goto (.killWait m)) := by
  have ages := @ages_signal h m
  have quiet : Quiet h (h.signal m) := by
    apply ages.quiet
    rintro j p alive (written | leaving)
    · left
      rw [ages.pid j p]
      exact written
    · right
      split <;> exact leaving
  refine Moves.of_quiet shared asserted quiet rfl (ages.positive shared.positive) ?_ ?_ ?_ ?_
  · intro i p q old new
    obtain ⟨p', alive, rfl⟩ := ages.alive new
    cases old.unique alive
    split <;> rfl
  · intro held
    simp only [holdsLock, pc, Call.goto] at held ⊢
    exact held
  · intro i mayBe
    rw [pc] at mayBe
    exact mayBe
  · have here := asserted.here
    simp only [Local, pc] at here
    have after : Local h (call.goto (.killWait m)) := here
    exact after.quiet quiet

/-! ### Launching

START launches only when no process of the algo is alive, so the new one is the only one. -/

section

variable {new : Process} (none : ∀ i p, ¬ Alive h i p)

include none

theorem alive_launched (living : Alive (h.spawn new) i q) : i = h.procs.length ∧ q = new :=
  living.of_spawn.resolve_left (none i q)

theorem Shared.launch (shared : Shared n h) (positive : 0 < new.pid)
    (starting : new.role = .algo .starting) (parent : new.parent = some c) (mem : c < n)
    (lock : h.lock = some c) : Shared n (h.spawn new) := by
  constructor
  · intro p member
    simp only [Host.spawn, mem_append, mem_singleton] at member
    rcases member with old | rfl
    · exact shared.positive p old
    · exact positive
  · intro i p d living launched
    rw [(alive_launched none living).2, parent] at launched
    cases launched
    exact mem
  · intro i j p q first second
    exact (alive_launched none first).1.trans (alive_launched none second).1.symm
  · intro i p living
    rw [(alive_launched none living).2]
    exact .inr ⟨starting, c, parent, lock⟩

theorem Local.beside_launch (unlocked : holdsLock call = false)
    (since : call.since ≤ h.procs.length) : Local (h.spawn new) call := by
  have old : ∀ i p, i < call.since → ¬ Alive (h.spawn new) i p := by
    intro i p before living
    have last := (alive_launched none living).1
    omega
  obtain ⟨command, pc, since⟩ := call
  cases pc with
  | startCheck | launch | waitCheck => cases unlocked
  | stopCheck pid => exact fun _ i p before living => absurd living (old i p before)
  | grace m | recheck m | kill m | killWait m =>
    exact fun _ i p before living => absurd living (old i p before)
  | remove => exact fun _ i p before => old i p before
  | done answer =>
    cases answer with
    | stopped => exact old
    | _ => trivial
  | _ => trivial

end

theorem Moves.launch {pid : Nat} (shared : Shared n h) (asserted : Asserted c h call)
    (mem : c < n) (pc : call.pc = .launch) (free : h.free pid = true) :
    Moves n c h (h.spawn { role := .algo .starting, pid, parent := some c })
      (call.goto (.waitRead h.procs.length)) := by
  have lock : h.lock = some c := asserted.locked (by simp [holdsLock, pc])
  have none : ∀ i p, ¬ Alive h i p := by simpa [Local, pc] using asserted.here
  have positive : 0 < pid := by
    simp only [Host.free, Bool.and_eq_true, decide_eq_true_eq] at free
    exact free.1
  constructor
  · exact shared.launch none positive rfl rfl mem lock
  · exact {
      locked := fun _ => lock
      since := by simpa [Call.goto, Host.spawn] using Nat.le_succ_of_le asserted.since
      child := fun i p living _ => (alive_launched none living).1
      here := trivial }
  · intro j other different others
    have unlocked : holdsLock other = false := by
      by_contra held
      cases lock.symm.trans (others.locked (by simpa using held))
      exact different rfl
    refine ⟨?_, ?_, ?_, Local.beside_launch none unlocked others.since⟩
    · intro held
      rw [unlocked] at held
      cases held
    · simpa [Host.spawn] using Nat.le_succ_of_le others.since
    · intro i p living launched
      rw [(alive_launched none living).2] at launched
      cases launched
      exact absurd rfl different

end AlgoSystem.Proof.Agent
