import AlgoSystem.Proof.Agent.Assertions

namespace AlgoSystem.Proof.Agent
open AlgoSystem.Agent General List

variable {h h' : Host} {i j : Nat} {p q : Process} {n c : Nat} {call : Call}

/-- A tick at this place keeps what all invocations rely on. -/
def TickMoves (n c : Nat) (h : Host) (command : Command) (since : Nat) (late : Bool) (pc : Pc) :
    Prop :=
  ∀ {h' call'}, Asserted c h ⟨command, pc, since⟩ →
    orderlyCall h ⟨command, pc, since⟩ late = true →
    act c h ⟨command, pc, since⟩ (.tick late) = some (h', call') → Moves n c h h' call'

section

variable {command : Command} {since : Nat} {call' : Call} {late : Bool} (shared : Shared n h)

include shared

theorem ne_pid_of_not_running {pid : Option Nat}
    (stopped : ¬ pid.any (isProcessRunning h) = true) (alive : Alive h i p) : pid ≠ some p.pid := by
  rintro rfl
  have positive := shared.positive p (mem_of_getElem? alive.1)
  exact stopped (by simpa using alive.isProcessRunning positive)

theorem moves_entry : TickMoves n c h command since late .entry := by
  intro h' call' asserted _ acted
  cases command with
  | startAlgo | restartAlgo =>
    simp only [act, Option.ite_none_right_eq_some] at acted
    obtain ⟨free, result⟩ := acted
    cases result
    exact Moves.acquire shared asserted free (fun _ no => no) trivial
  | stopAlgo | status =>
    cases acted
    exact Moves.goto shared asserted (fun held => by cases held) (fun _ no => no) trivial

theorem moves_startRead : TickMoves n c h command since late .startRead := by
  intro h' call' asserted allowed acted
  cases acted
  refine Moves.goto shared asserted (fun _ => rfl) (fun _ no => no) ?_
  intro i p alive
  rcases shared.covered i p alive with (written | leaving) | ⟨_, d, launched, lock⟩
  · exact written
  · simpa [leaving] using everyAlive_iff.mp allowed i p alive
  · -- the launcher of an unregistered process holds the lock, which is ours
    cases (asserted.locked rfl).symm.trans lock
    exact (asserted.child i p alive launched).elim

theorem moves_startCheck (existingPid : Option Nat) :
    TickMoves n c h command since late (.startCheck existingPid) := by
  intro h' call' asserted _ acted
  simp only [act] at acted
  split at acted
  case isTrue =>
    cases acted
    refine Moves.release shared asserted rfl (.of_eq rfl rfl) shared.positive ?_ (by decide)
    intro i p alive launched
    exact (asserted.child i p alive launched).elim
  case isFalse stopped =>
    cases acted
    refine Moves.goto shared asserted (fun _ => rfl) (fun _ no => no) ?_
    intro i p alive
    exact ne_pid_of_not_running shared stopped alive (asserted.here i p alive)

theorem moves_waitRead (proc : Nat) : TickMoves n c h command since late (.waitRead proc) := by
  intro h' call' asserted allowed acted
  simp only [act] at acted
  split at acted
  case isTrue expired =>
    cases acted
    refine Moves.release shared asserted rfl (.of_eq rfl rfl) shared.positive ?_ (by decide)
    intro i p alive launched
    cases asserted.child i p alive launched
    simp [orderlyCall, expired, alive.1, alive.2] at allowed
  case isFalse =>
    cases acted
    refine Moves.goto shared asserted (fun _ => rfl) (fun _ same => same) ?_
    intro p _ written
    exact .inl written

theorem moves_waitCheck (proc : Nat) (childPid : Option Nat) :
    TickMoves n c h command since late (.waitCheck proc childPid) := by
  intro h' call' asserted allowed acted
  simp only [act] at acted
  split at acted
  case isTrue running =>
    cases acted
    refine Moves.release shared asserted rfl (.of_eq rfl rfl) shared.positive ?_ (by decide)
    intro i p alive launched
    cases asserted.child i p alive launched
    cases childPid with
    | none => cases running
    | some m =>
      -- the process found running is the one that was launched
      have present : h.present m = true := by
        simp only [Option.any_some, isProcessRunning, Bool.and_eq_true] at running
        exact running.2
      have same : p.pid = m := by simpa [orderlyCall, present, alive.1] using allowed
      exact asserted.here p alive (by rw [same])
  case isFalse =>
    cases acted
    exact Moves.goto shared asserted (fun _ => rfl) (fun _ same => same) trivial

theorem moves_waitPoll (proc : Nat) : TickMoves n c h command since late (.waitPoll proc) := by
  intro h' call' asserted _ acted
  simp only [act] at acted
  split at acted
  case isTrue =>
    cases acted
    exact Moves.goto shared asserted (fun _ => rfl) (fun _ same => same) trivial
  case isFalse exited =>
    cases acted
    refine Moves.release shared asserted rfl (fades_reaped.quiet rfl rfl)
      ((fades_reaped.ages rfl).positive shared.positive) ?_ (by decide)
    intro i p alive launched
    cases asserted.child i p alive launched
    simp [alive.1, alive.life] at exited

theorem moves_stopRead : TickMoves n c h command since late .stopRead := by
  intro h' call' asserted allowed acted
  cases acted
  refine Moves.goto shared asserted (fun held => held) (fun _ no => no) ?_
  intro stop i p _ alive
  have stop' : command ≠ .restartAlgo := stop
  simp only [orderlyCall, stop', decide_false, Bool.false_or] at allowed
  simpa using everyAlive_iff.mp allowed i p alive

theorem not_alive_of_gone {m : Nat} (stopped : ¬ isProcessRunning h m = true)
    (read : ∀ i p, i < since → Alive h i p → m = p.pid) (i : Nat) (p : Process)
    (before : i < since) : ¬ Alive h i p := by
  intro alive
  have unread : some m ≠ some p.pid :=
    ne_pid_of_not_running shared (by simpa using stopped) alive
  exact unread (congrArg some (read i p before alive))

theorem moves_stopCheck (pid : Option Nat) :
    TickMoves n c h command since late (.stopCheck pid) := by
  intro h' call' asserted _ acted
  cases pid with
  | none =>
    cases acted
    refine Moves.goto shared asserted (fun held => held) (fun _ no => no) ?_
    intro stop i p before alive
    cases asserted.here stop i p before alive
  | some m =>
    have read : command ≠ .restartAlgo → ∀ i p, i < since → Alive h i p → m = p.pid :=
      fun stop i p before alive => Option.some.inj (asserted.here stop i p before alive)
    simp only [act] at acted
    split at acted
    case isTrue =>
      cases acted
      exact Moves.goto shared asserted (fun held => held) (fun _ no => no) read
    case isFalse stopped =>
      cases acted
      exact Moves.goto shared asserted (fun held => held) (fun _ no => no)
        fun stop => not_alive_of_gone shared stopped (read stop)

theorem moves_grace (m : Nat) : TickMoves n c h command since late (.grace m) := by
  intro h' call' asserted _ acted
  simp only [act] at acted
  split at acted <;> cases acted
  · exact ⟨shared, asserted, fun _ _ _ other => other⟩
  · exact Moves.goto shared asserted (fun held => held) (fun _ no => no) asserted.here

theorem moves_recheck (m : Nat) : TickMoves n c h command since late (.recheck m) := by
  intro h' call' asserted _ acted
  simp only [act] at acted
  split at acted
  case isTrue =>
    cases acted
    exact Moves.goto shared asserted (fun held => held) (fun _ no => no) asserted.here
  case isFalse stopped =>
    cases acted
    exact Moves.goto shared asserted (fun held => held) (fun _ no => no)
      fun stop => not_alive_of_gone shared stopped (asserted.here stop)

theorem moves_killWait (m : Nat) : TickMoves n c h command since late (.killWait m) := by
  intro h' call' asserted allowed acted
  simp only [act] at acted
  split at acted
  case isTrue =>
    cases acted
    exact ⟨shared, asserted, fun _ _ _ other => other⟩
  case isFalse finished =>
    cases acted
    have stopped : ¬ isProcessRunning h m = true := by
      intro running
      have expired : late = true := by simpa [running] using finished
      simp only [isProcessRunning, Bool.and_eq_true] at running
      simp [orderlyCall, expired, running.2] at allowed
    exact Moves.goto shared asserted (fun held => held) (fun _ no => no)
      fun stop => not_alive_of_gone shared stopped (asserted.here stop)

theorem moves_remove : TickMoves n c h command since late .remove := by
  intro h' call' asserted allowed acted
  simp only [act] at acted
  split at acted
  case isTrue restart =>
    cases acted
    refine Moves.removeFile shared asserted allowed (fun _ => ?_) (fun _ no => no) trivial
    simpa [holdsLock] using restart
  case isFalse stop =>
    cases acted
    exact Moves.removeFile shared asserted allowed (fun held => by cases held)
      (fun _ no => no.elim) (asserted.here stop)

theorem moves_statusCheck (pid : Option Nat) :
    TickMoves n c h command since late (.statusCheck pid) := by
  intro h' call' asserted _ acted
  simp only [act] at acted
  split at acted <;> cases acted
  · exact Moves.goto shared asserted (fun held => held) (fun _ no => no) trivial
  · exact Moves.goto shared asserted (fun held => held) (fun _ no => no.elim) trivial

theorem moves_tick (asserted : Asserted c h call) (allowed : orderlyCall h call late = true)
    (acted : act c h call (.tick late) = some (h', call')) : Moves n c h h' call' := by
  obtain ⟨command, pc, since⟩ := call
  cases pc with
  | entry => exact moves_entry shared asserted allowed acted
  | startRead => exact moves_startRead shared asserted allowed acted
  | startCheck existingPid => exact moves_startCheck shared existingPid asserted allowed acted
  | waitRead proc => exact moves_waitRead shared proc asserted allowed acted
  | waitCheck proc childPid => exact moves_waitCheck shared proc childPid asserted allowed acted
  | waitPoll proc => exact moves_waitPoll shared proc asserted allowed acted
  | stopRead => exact moves_stopRead shared asserted allowed acted
  | stopCheck pid => exact moves_stopCheck shared pid asserted allowed acted
  | grace m => exact moves_grace shared m asserted allowed acted
  | recheck m => exact moves_recheck shared m asserted allowed acted
  | killWait m => exact moves_killWait shared m asserted allowed acted
  | remove => exact moves_remove shared asserted allowed acted
  | statusRead =>
    cases acted
    exact Moves.goto shared asserted (fun held => held) (fun _ no => no) trivial
  | statusCheck pid => exact moves_statusCheck shared pid asserted allowed acted
  | statusRemove =>
    cases acted
    exact Moves.removeFile shared asserted allowed (fun held => held) (fun _ no => no.elim)
      trivial
  | launch | kill m | done answer => cases acted

theorem moves_launched {pid : Nat} (mem : c < n) (asserted : Asserted c h call)
    (acted : act c h call (.launched pid) = some (h', call')) : Moves n c h h' call' := by
  simp only [act] at acted
  split at acted
  case h_1 pc =>
    obtain ⟨free, result⟩ := Option.ite_none_right_eq_some.mp acted
    cases result
    exact Moves.launch shared asserted mem pc free
  case h_2 => cases acted

theorem moves_signalled {delivered : Bool} (asserted : Asserted c h call)
    (acted : act c h call (.signalled delivered) = some (h', call')) : Moves n c h h' call' := by
  simp only [act] at acted
  split at acted
  case h_1 m pc =>
    cases delivered with
    | true =>
      cases acted
      exact Moves.signal shared asserted pc
    | false =>
      cases acted
      obtain ⟨command, _, since⟩ := call
      cases pc
      exact Moves.goto shared asserted (fun held => held) (fun _ no => no) asserted.here
  case h_2 => cases acted

end

structure Passes (n : Nat) (h h' : Host) : Prop where
  shared : Shared n h'
  quiet : Quiet h h'
  lock : h'.lock = h.lock

theorem alive_of_running {phase : Phase} (found : h.procs[i]? = some p)
    (role : p.role = .algo phase) (running : p.life = .running) : Alive h i p :=
  ⟨found, by simp [Process.aliveAlgo, Process.isAlgo, role, running, Life.alive]⟩

section

variable (shared : Shared n h)

include shared

theorem Fades.passes {f : Process → Process} (fades : Fades f) (i : Nat) :
    Passes n h (h.update i f) where
  shared := shared.quiet (fades.quiet rfl rfl) ((fades.ages rfl).positive shared.positive)
    fun _ _ _ _ old new starting _ lock => .inr ⟨(fades.role_eq rfl old new).trans starting, lock⟩
  quiet := fades.quiet rfl rfl
  lock := rfl

theorem passes_spawnOther {pid : Nat} (free : h.free pid = true) :
    Passes n h (h.spawn { role := .other, pid }) := by
  have old : ∀ i q, Alive (h.spawn { role := .other, pid }) i q → Alive h i q := by
    intro i q living
    refine living.of_spawn.resolve_right ?_
    rintro ⟨-, rfl⟩
    cases living.2
  have same : ∀ i p q, Alive h i p → Alive (h.spawn { role := .other, pid }) i q → p = q :=
    fun i p q first second => first.unique (old i q second)
  have quiet : Quiet h (h.spawn { role := .other, pid }) := by
    constructor
    · simp [Host.spawn]
    · intro i q living
      exact ⟨q, old i q living, rfl, rfl⟩
    · intro i p q first second named
      exact same i p q first second ▸ named
  refine ⟨shared.quiet quiet ?_ ?_, quiet, rfl⟩
  · intro p member
    simp only [Host.spawn, mem_append, mem_singleton] at member
    rcases member with before | rfl
    · exact shared.positive p before
    · simp only [Host.free, Bool.and_eq_true, decide_eq_true_eq] at free
      exact free.1
  · intro i p q c first second starting _ lock
    exact .inr ⟨same i p q first second ▸ starting, lock⟩

theorem passes_setPhase {phase : Phase} {file : Option Nat} (alive : Alive h i p)
    (named : Named { h with pidFile := file } (p.setPhase phase)) :
    Passes n h { h.update i (Process.setPhase phase) with pidFile := file } := by
  have ages : Ages (fun j q => if i = j then q.setPhase phase else q) h
      { h.update i (Process.setPhase phase) with pidFile := file } := by
    refine ages_update rfl (fun _ => rfl) (fun _ => rfl) ?_
    intro q found _
    cases alive.1.symm.trans found
    exact alive.2
  have after : ∀ j q, Alive h j q →
      Named { h.update i (Process.setPhase phase) with pidFile := file }
        (if i = j then q.setPhase phase else q) := by
    intro j q living
    cases shared.alone i j p q alive living
    cases alive.unique living
    rw [if_pos rfl]
    exact named
  have quiet := ages.quiet fun j q living _ => after j q living
  refine ⟨shared.quiet quiet (ages.positive shared.positive) ?_, quiet, rfl⟩
  intro j q q' c old new _ _ _
  obtain ⟨q'', living, rfl⟩ := ages.alive new
  exact .inl (after j q'' living)

theorem passes_env {event : EnvEvent} (changed : env h event = some h') : Passes n h h' := by
  cases event with
  | spawnOther pid =>
    obtain ⟨free, result⟩ := Option.ite_none_right_eq_some.mp changed
    cases result
    exact passes_spawnOther shared free
  | writePidFile i =>
    simp only [env, Option.bind_eq_some_iff, Option.ite_none_right_eq_some] at changed
    obtain ⟨p, found, ⟨starting, running⟩, result⟩ := changed
    cases result
    exact passes_setPhase shared (alive_of_running found starting running) (.inl rfl)
  | removePidFile i =>
    simp only [env, Option.bind_eq_some_iff, Option.ite_none_right_eq_some] at changed
    obtain ⟨p, found, ⟨registered, running⟩, result⟩ := changed
    cases result
    exact passes_setPhase shared (alive_of_running found registered running) (.inr rfl)
  | exit i =>
    simp only [env, Option.bind_eq_some_iff, Option.ite_none_right_eq_some] at changed
    obtain ⟨p, found, alive, result⟩ := changed
    cases result
    exact fades_exited.passes shared i
  | reap i =>
    cases changed
    exact fades_reaped.passes shared i

end

theorem shared_of_idle (idle : ∀ p ∈ h.procs, 0 < p.pid ∧ p.aliveAlgo = false) :
    Shared n h := by
  have dead : ∀ i p, ¬ Alive h i p := by
    rintro i p ⟨found, alive⟩
    rw [(idle p (mem_of_getElem? found)).2] at alive
    cases alive
  exact ⟨fun p member => (idle p member).1, fun i p _ alive => absurd alive (dead i p),
    fun i _ p _ alive => absurd alive (dead i p), fun i p alive => absurd alive (dead i p)⟩

theorem holds_step (s : State) (event : Event) (t : State)
    (holds : ThreadSystem.Holds Shared Asserted s) (allowed : orderly s event = true)
    (stepped : agent.step s event = some t) : ThreadSystem.Holds Shared Asserted t := by
  refine ThreadSystem.step_holds (fun s event => orderly s event = true) ?_ ?_ ?_ ?_ s event t holds
    allowed stepped
  · intro n h command shared
    refine ⟨⟨shared.positive, ?_, shared.alone, shared.covered⟩, ?_⟩
    · intro i p c alive launched
      exact Nat.lt_succ_of_lt (shared.parent i p c alive launched)
    · refine ⟨(fun held => by cases held), Nat.le_refl _, ?_, trivial⟩
      intro i p alive launched
      exact absurd (shared.parent i p n alive launched) (Nat.lt_irrefl n)
  · intro s c call choice h' call' holds found allowed acted
    have asserted := holds.threads c call found
    have moves : Moves s.threads.length c s.shared h' call' := by
      cases choice with
      | tick late =>
        refine moves_tick holds.shared asserted ?_ acted
        simpa [orderly, found] using allowed
      | launched pid =>
        have mem := (List.getElem?_eq_some_iff.mp found).1
        exact moves_launched holds.shared mem asserted acted
      | signalled delivered => exact moves_signalled holds.shared asserted acted
    exact ⟨moves.shared, moves.own, fun j other different _ => moves.others j other different⟩
  · intro s event h' holds _ changed
    have passes := passes_env holds.shared changed
    refine ⟨passes.shared, ?_⟩
    intro c call _ asserted
    exact asserted.quiet passes.quiet fun held => passes.lock.trans (asserted.locked held)
  · intro n h shared
    apply shared_of_idle
    intro p member
    obtain ⟨p', old, rfl⟩ := mem_map.mp member
    exact ⟨shared.positive p' old, by simp [Process.aliveAlgo, Life.alive]⟩

theorem exclusive_of_orderly (start : Host)
    (idle : ∀ p ∈ start.procs, 0 < p.pid ∧ p.aliveAlgo = false) (events : List Event) (t : State)
    (path : run agent.step { shared := start } events = some t)
    (meets : Meets agent.step (fun s event => orderly s event = true) { shared := start } events) :
    Exclusive t := by
  have initial : ThreadSystem.Holds Shared Asserted { shared := start } :=
    ⟨shared_of_idle idle, by simp⟩
  have holds := run_invariant_of_meets holds_step path meets initial
  refine ⟨holds.shared.alone, ?_⟩
  intro call member stopped i p before
  obtain ⟨c, found⟩ := mem_iff_getElem?.mp member
  have here := (holds.threads c call found).here
  simp only [Local, stopped] at here
  exact here i p before

def startedAndStopped : List Event :=
  [.enter .startAlgo, .act 0 (.tick false), .act 0 (.tick false), .act 0 (.tick false),
    .act 0 (.launched 100), .env (.writePidFile 0), .act 0 (.tick false), .act 0 (.tick false),
    .enter .stopAlgo, .act 1 (.tick false), .act 1 (.tick false), .act 1 (.tick false),
    .env (.removePidFile 0), .env (.exit 0), .env (.reap 0),
    .act 1 (.tick false), .act 1 (.tick false), .act 1 (.tick false)]

theorem exclusive_startedAndStopped :
    ∃ t, run agent.step { shared := {} } startedAndStopped = some t ∧ Exclusive t ∧
      t.threads.map Call.pc = [.done .running, .done .stopped] :=
  ⟨_, rfl, exclusive_of_orderly {} (by simp) startedAndStopped _ rfl (by decide), rfl⟩

/-- The launched process takes longer than START waits. STOP finds no PID file and reports STOPPED,
and a second START launches another process. -/
def slowStart : List Event :=
  [.enter .startAlgo, .act 0 (.tick false), .act 0 (.tick false), .act 0 (.tick false),
    .act 0 (.launched 100), .act 0 (.tick true),
    .enter .stopAlgo, .act 1 (.tick false), .act 1 (.tick false), .act 1 (.tick false),
    .act 1 (.tick false),
    .enter .startAlgo, .act 2 (.tick false), .act 2 (.tick false), .act 2 (.tick false),
    .act 2 (.launched 101)]

theorem slowStart_not_exclusive :
    ∃ t, run agent.step { shared := {} } slowStart = some t ∧
      t.shared.procs.map Process.aliveAlgo = [true, true] ∧
      t.threads[1]? = some { command := .stopAlgo, pc := .done .stopped, since := 1 } ∧
      ¬ Exclusive t := by
  refine ⟨_, rfl, by decide, by decide, ?_⟩
  intro exclusive
  have same := exclusive.alone 0 1 _ _ ⟨rfl, rfl⟩ ⟨rfl, rfl⟩
  cases same

end AlgoSystem.Proof.Agent
