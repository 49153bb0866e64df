import AlgoSystem.Proof.Agent.Host

namespace AlgoSystem.Proof.Agent
open AlgoSystem.Agent General List

/-- What an event must respect: a signal goes to a process of the algo, and "already running" is
answered while one is alive. -/
structure Truthful (s : State) (event : Event) : Prop where
  signals : ∀ c call pid q, event = .act c (.signalled true) → s.threads[c]? = some call →
    call.pc = .kill pid → q ∈ s.shared.procs → q.pid = pid → q.life ≠ .gone → q.isAlgo = true
  answers : ∀ c choice call h' call', event = .act c choice → s.threads[c]? = some call →
    act c s.shared call choice = some (h', call') → call'.pc = .done .alreadyRunning →
    ∃ i p, Alive s.shared i p

def held : Pc → Option Nat
  | .startCheck pid | .stopCheck pid => pid
  | .grace pid | .recheck pid | .kill pid => some pid
  | _ => none

/-- No other program gets the number in the PID file, or one that an invocation has read from it,
and START does not check a process whose exit nobody has collected yet. -/
def unreused (s : State) : Event → Bool
  | .env (.spawnOther pid) =>
    s.shared.pidFile ≠ some pid && s.threads.all fun call => held call.pc ≠ some pid
  | .act c (.tick _) => s.threads[c]?.all fun call =>
    match call.pc with
    | .startCheck (some pid) =>
      s.shared.procs.all fun q => q.pid ≠ pid || q.life ≠ .zombie
    | _ => true
  | _ => true

def Present (h : Host) (i : Nat) (p : Process) : Prop :=
  h.procs[i]? = some p ∧ p.life ≠ .gone

def Owned (h : Host) (pid : Nat) : Prop :=
  ∀ i p, Present h i p → p.pid = pid → p.isAlgo = true

structure Numbered (h : Host) : Prop where
  distinct : ∀ i j p q, Present h i p → Present h j q → p.pid = q.pid → i = j
  file : ∀ pid, h.pidFile = some pid → Owned h pid

def Inherits (h h' : Host) : Prop :=
  ∀ i q, Present h' i q → ∃ p, Present h i p ∧ p.pid = q.pid ∧ (p.isAlgo = true → q.isAlgo = true)

variable {h h' : Host} {i : Nat} {p q : Process} {pid : Nat}

theorem Inherits.owned (inherits : Inherits h h') (owned : Owned h pid) : Owned h' pid := by
  intro i q present same
  obtain ⟨p, before, number, algo⟩ := inherits i q present
  exact algo (owned i p before (number.trans same))

theorem Inherits.numbered (inherits : Inherits h h') (numbered : Numbered h)
    (file : ∀ pid, h'.pidFile = some pid → Owned h pid) : Numbered h' where
  distinct i j p q first second same := by
    obtain ⟨p', before, number, _⟩ := inherits i p first
    obtain ⟨q', before', number', _⟩ := inherits j q second
    exact numbered.distinct i j p' q' before before' ((number.trans same).trans number'.symm)
  file pid named := inherits.owned (file pid named)

theorem inherits_of_procs (procs : h'.procs = h.procs) : Inherits h h' := by
  intro i q present
  rw [Present, procs] at present
  exact ⟨q, present, rfl, id⟩

theorem inherits_update {f : Process → Process} (procs : h'.procs = (h.update i f).procs)
    (number : ∀ p, (f p).pid = p.pid)
    (life : ∀ p, h.procs[i]? = some p → (f p).life ≠ .gone → p.life ≠ .gone)
    (algo : ∀ p, p.isAlgo = true → (f p).isAlgo = true) : Inherits h h' := by
  rintro j q ⟨found, here⟩
  simp only [procs, Host.update, getElem?_modify] at found
  obtain ⟨p, before, rfl⟩ := Option.map_eq_some_iff.mp found
  split at here
  case isTrue same =>
    rw [if_pos same]
    exact ⟨p, ⟨before, life p (same ▸ before) here⟩, (number p).symm, algo p⟩
  case isFalse other =>
    rw [if_neg other]
    exact ⟨p, ⟨before, here⟩, rfl, id⟩

theorem inherits_signal (m : Nat) : Inherits h (h.signal m) := by
  rintro j q ⟨found, here⟩
  simp only [Host.signal, getElem?_map, Option.map_eq_some_iff] at found
  obtain ⟨p, before, rfl⟩ := found
  refine ⟨p, ⟨before, ?_⟩, ?_, ?_⟩
  · intro gone
    simp [gone] at here
  · split <;> rfl
  · split <;> exact id

theorem inherits_reaped (procs : h'.procs = (h.update i Process.reaped).procs) : Inherits h h' := by
  refine inherits_update procs fades_reaped.pid ?_ ?_
  · intro p _ here gone
    simp [Process.reaped, gone] at here
  · intro p algo
    simpa [Process.isAlgo, fades_reaped.role] using algo

theorem present_spawn {new : Process} (present : Present (h.spawn new) i q) :
    Present h i q ∨ (i = h.procs.length ∧ q = new) := by
  obtain ⟨found, here⟩ := present
  rcases getElem?_spawn found with old | new
  · exact .inl ⟨old, here⟩
  · exact .inr new

theorem Owned.spawn {new : Process} (owned : Owned h pid)
    (mine : new.pid = pid → new.isAlgo = true) : Owned (h.spawn new) pid := by
  intro i q present same
  rcases present_spawn present with old | ⟨-, rfl⟩
  · exact owned i q old same
  · exact mine same

theorem Numbered.spawn {new : Process} (numbered : Numbered h) (free : h.free new.pid = true)
    (mine : h.pidFile = some new.pid → new.isAlgo = true) : Numbered (h.spawn new) := by
  have fresh : ∀ i p, Present h i p → p.pid ≠ new.pid := by
    rintro i p ⟨found, here⟩ same
    simp only [Host.free, Bool.and_eq_true, Bool.not_eq_true'] at free
    have absent := free.2
    simp only [Host.present, any_eq_false, Bool.and_eq_true, not_and, decide_eq_true_eq] at absent
    exact absent p (mem_of_getElem? found) same here
  constructor
  · intro i j p q first second same
    rcases present_spawn first with old | ⟨rfl, rfl⟩ <;>
      rcases present_spawn second with old' | ⟨rfl, rfl⟩
    · exact numbered.distinct i j p q old old' same
    · exact absurd same (fresh i p old)
    · exact absurd same.symm (fresh j q old')
    · rfl
  · intro pid named
    exact (numbered.file pid named).spawn fun same => mine (same ▸ named)

variable {c : Nat} {call call' : Call} {choice : Choice}

/-- An action launches the algo, or it leaves every process what it was and writes no number to the
PID file; it holds a number that it held before or reads from the file; only the check of START
answers "already running". -/
structure Acts (c : Nat) (h : Host) (call : Call) (choice : Choice) (h' : Host) (call' : Call) :
    Prop where
  host : (∃ pid, h.free pid = true ∧
      h' = h.spawn { role := .algo .starting, pid, parent := some c }) ∨
    (Inherits h h' ∧ ∀ pid, h'.pidFile = some pid → h.pidFile = some pid)
  holds : ∀ pid, held call'.pc = some pid → held call.pc = some pid ∨ h.pidFile = some pid
  answer : call'.pc = .done .alreadyRunning → ∃ late pid, choice = .tick late ∧
    call.pc = .startCheck (some pid) ∧ isProcessRunning h pid = true

theorem Acts.of_inherits (inherits : Inherits h h')
    (file : ∀ pid, h'.pidFile = some pid → h.pidFile = some pid)
    (holds : held call'.pc = none ∨ held call'.pc = held call.pc ∨ held call'.pc = h.pidFile)
    (silent : call'.pc ≠ .done .alreadyRunning) : Acts c h call choice h' call' where
  host := .inr ⟨inherits, file⟩
  holds pid now := by
    rcases holds with none | same | read
    · cases none.symm.trans now
    · exact .inl (same.symm.trans now)
    · exact .inr (read.symm.trans now)
  answer answered := absurd answered silent

theorem Acts.of_eq (procs : h'.procs = h.procs) (file : h'.pidFile = h.pidFile)
    (holds : held call'.pc = none ∨ held call'.pc = held call.pc ∨ held call'.pc = h.pidFile)
    (silent : call'.pc ≠ .done .alreadyRunning) : Acts c h call choice h' call' :=
  .of_inherits (inherits_of_procs procs) (fun _ named => file ▸ named) holds silent

theorem acts_tick {late : Bool} (acted : act c h call (.tick late) = some (h', call')) :
    Acts c h call (.tick late) h' call' := by
  obtain ⟨command, pc, since⟩ := call
  cases pc with
  | entry =>
    cases command <;> simp only [act, Option.ite_none_right_eq_some] at acted
    case startAlgo | restartAlgo =>
      obtain ⟨_, result⟩ := acted
      cases result
      exact .of_eq rfl rfl (.inl rfl) nofun
    case stopAlgo | status =>
      cases acted
      exact .of_eq rfl rfl (.inl rfl) nofun
  | startRead | stopRead =>
    cases acted
    exact .of_eq rfl rfl (.inr (.inr rfl)) nofun
  | startCheck read =>
    simp only [act] at acted
    split at acted
    case isTrue running =>
      cases acted
      refine ⟨.inr ⟨inherits_of_procs rfl, fun _ named => named⟩, ?_, ?_⟩
      · intro pid holds
        cases holds
      · intro _
        cases read with
        | none => cases running
        | some pid => exact ⟨late, pid, rfl, rfl, by simpa using running⟩
    case isFalse =>
      cases acted
      exact .of_eq rfl rfl (.inl rfl) nofun
  | waitPoll proc =>
    simp only [act] at acted
    split at acted <;> cases acted
    · exact .of_eq rfl rfl (.inl rfl) nofun
    · exact .of_inherits (inherits_reaped rfl) (fun _ named => named) (.inl rfl) nofun
  | stopCheck read =>
    cases read with
    | none =>
      cases acted
      exact .of_eq rfl rfl (.inl rfl) nofun
    | some m =>
      simp only [act] at acted
      split at acted <;> cases acted
      · exact .of_eq rfl rfl (.inr (.inl rfl)) nofun
      · exact .of_eq rfl rfl (.inl rfl) nofun
  | grace m =>
    simp only [act] at acted
    split at acted <;> cases acted <;>
      exact .of_eq rfl rfl (.inr (.inl rfl)) nofun
  | recheck m =>
    simp only [act] at acted
    split at acted <;> cases acted
    · exact .of_eq rfl rfl (.inr (.inl rfl)) nofun
    · exact .of_eq rfl rfl (.inl rfl) nofun
  | remove =>
    simp only [act] at acted
    split at acted <;> cases acted <;>
      exact .of_inherits (inherits_of_procs rfl) nofun (.inl rfl)
        nofun
  | statusRemove =>
    cases acted
    exact .of_inherits (inherits_of_procs rfl) nofun (.inl rfl)
      nofun
  | statusRead =>
    cases acted
    exact .of_eq rfl rfl (.inl rfl) nofun
  | waitRead proc | waitCheck proc pid | killWait m | statusCheck pid =>
    simp only [act] at acted
    split at acted <;> cases acted <;>
      exact .of_eq rfl rfl (.inl rfl) nofun
  | launch | kill m | done answer => cases acted

theorem acts_of_act (acted : act c h call choice = some (h', call')) :
    Acts c h call choice h' call' := by
  cases choice with
  | tick late => exact acts_tick acted
  | launched pid =>
    simp only [act] at acted
    split at acted
    · obtain ⟨free, result⟩ := Option.ite_none_right_eq_some.mp acted
      cases result
      exact ⟨.inl ⟨pid, free, rfl⟩, nofun, nofun⟩
    · cases acted
  | signalled delivered =>
    simp only [act] at acted
    split at acted
    · cases acted
      cases delivered with
      | true =>
        exact .of_inherits (inherits_signal _) (fun _ named => named) (.inl rfl)
          nofun
      | false => exact .of_eq rfl rfl (.inl rfl) nofun
    · cases acted

def Holder (_ : Nat) (h : Host) (call : Call) : Prop :=
  ∀ pid, held call.pc = some pid → Owned h pid

theorem numbered_act (numbered : Numbered h) (own : Holder c h call)
    (acted : act c h call choice = some (h', call')) :
    Numbered h' ∧ Holder c h' call' ∧ ∀ j other, j ≠ c → Holder j h other → Holder j h' other := by
  obtain ⟨host, holds, _⟩ := acts_of_act acted
  have stays : ∀ pid, Owned h pid → Owned h' pid := by
    intro pid owned
    rcases host with ⟨new, free, rfl⟩ | ⟨inherits, _⟩
    · exact owned.spawn fun _ => rfl
    · exact inherits.owned owned
  refine ⟨?_, ?_, ?_⟩
  · rcases host with ⟨new, free, rfl⟩ | ⟨inherits, file⟩
    · exact numbered.spawn free fun _ => rfl
    · exact inherits.numbered numbered fun pid named => numbered.file pid (file pid named)
  · intro pid now
    rcases holds pid now with before | read
    · exact stays pid (own pid before)
    · exact stays pid (numbered.file pid read)
  · intro j other _ asserted pid holds
    exact stays pid (asserted pid holds)

theorem numbered_env {event : EnvEvent} (numbered : Numbered h)
    (unreused : ∀ pid, event = .spawnOther pid → h.pidFile ≠ some pid)
    (changed : env h event = some h') :
    Numbered h' ∧ ∀ pid, Owned h pid → (event ≠ .spawnOther pid) → Owned h' pid := by
  cases event with
  | spawnOther number =>
    obtain ⟨free, result⟩ := Option.ite_none_right_eq_some.mp changed
    cases result
    refine ⟨numbered.spawn free fun named => absurd named (unreused number rfl), ?_⟩
    intro pid owned other
    exact owned.spawn fun same => absurd (by rw [← same]) other
  | writePidFile i =>
    simp only [env, Option.bind_eq_some_iff, Option.ite_none_right_eq_some] at changed
    obtain ⟨p, found, ⟨starting, running⟩, result⟩ := changed
    cases result
    have inherits : Inherits h
        { h.update i (Process.setPhase .registered) with pidFile := some p.pid } :=
      inherits_update rfl (fun _ => rfl) (fun _ _ here => here) (fun _ _ => rfl)
    refine ⟨inherits.numbered numbered ?_, fun pid owned _ => inherits.owned owned⟩
    -- the writer is there, so nobody else has its number
    intro pid named j q present same
    cases named
    have here : Present h i p := ⟨found, by simp [running]⟩
    cases numbered.distinct j i q p present here same
    cases present.1.symm.trans found
    simp [Process.isAlgo, starting]
  | removePidFile i =>
    simp only [env, Option.bind_eq_some_iff, Option.ite_none_right_eq_some] at changed
    obtain ⟨p, found, _, result⟩ := changed
    cases result
    have inherits : Inherits h
        { h.update i (Process.setPhase .leaving) with pidFile := none } :=
      inherits_update rfl (fun _ => rfl) (fun _ _ here => here) (fun _ _ => rfl)
    exact ⟨inherits.numbered numbered (fun _ named => by cases named),
      fun pid owned _ => inherits.owned owned⟩
  | exit i =>
    simp only [env, Option.bind_eq_some_iff, Option.ite_none_right_eq_some] at changed
    obtain ⟨p, found, alive, result⟩ := changed
    cases result
    have inherits : Inherits h (h.update i Process.exited) := by
      refine inherits_update rfl (fun _ => rfl) ?_ (fun _ algo => algo)
      rintro q found' _ gone
      cases found.symm.trans found'
      simp [gone, Life.alive] at alive
    exact ⟨inherits.numbered numbered numbered.file, fun pid owned _ => inherits.owned owned⟩
  | reap i =>
    cases changed
    have inherits : Inherits h (h.update i Process.reaped) := inherits_reaped rfl
    exact ⟨inherits.numbered numbered numbered.file, fun pid owned _ => inherits.owned owned⟩

theorem numbered_reboot : Numbered (reboot h) := by
  have gone : ∀ i p, ¬ Present (reboot h) i p := by
    rintro i p ⟨found, here⟩
    simp only [reboot, getElem?_map, Option.map_eq_some_iff] at found
    obtain ⟨q, -, rfl⟩ := found
    exact here rfl
  exact ⟨fun i _ p _ present => absurd present (gone i p),
    fun _ _ i p present => absurd present (gone i p)⟩

theorem holds_step_unreused (s : State) (event : Event) (t : State)
    (holds : ThreadSystem.Holds (fun _ => Numbered) Holder s) (allowed : unreused s event = true)
    (stepped : agent.step s event = some t) :
    ThreadSystem.Holds (fun _ => Numbered) Holder t := by
  refine ThreadSystem.step_holds (fun s event => unreused s event = true) ?_ ?_ ?_ ?_ s event t
    holds allowed stepped
  · intro n h command numbered
    exact ⟨numbered, fun pid holds => by cases holds⟩
  · intro s c call choice h' call' holds found _ acted
    obtain ⟨shared, own, others⟩ := numbered_act holds.shared (holds.threads c call found) acted
    exact ⟨shared, own, fun j other different _ => others j other different⟩
  · intro s event h' holds allowed changed
    have unread : ∀ pid, event = .spawnOther pid →
        s.shared.pidFile ≠ some pid ∧ ∀ call ∈ s.threads, held call.pc ≠ some pid := by
      rintro pid rfl
      simpa [unreused] using allowed
    obtain ⟨numbered, stays⟩ :=
      numbered_env holds.shared (fun pid spawned => (unread pid spawned).1) changed
    refine ⟨numbered, ?_⟩
    intro c call found asserted pid holding
    refine stays pid (asserted pid holding) ?_
    intro spawned
    exact (unread pid spawned).2 call (mem_of_getElem? found) holding
  · intro _ h _
    exact numbered_reboot

theorem truthful_of_holds (s : State) (event : Event)
    (holds : ThreadSystem.Holds (fun _ => Numbered) Holder s) (allowed : unreused s event = true) :
    Truthful s event := by
  constructor
  · intro c call pid q _ found killing member same here
    obtain ⟨i, at'⟩ := mem_iff_getElem?.mp member
    have holding : held call.pc = some pid := by rw [killing]; rfl
    exact holds.threads c call found pid holding i q ⟨at', here⟩ same
  · rintro c choice call h' call' rfl found acted answered
    obtain ⟨late, pid, rfl, checking, running⟩ := (acts_of_act acted).answer answered
    have holding : held call.pc = some pid := by rw [checking]; rfl
    simp only [isProcessRunning, Host.present, Bool.and_eq_true, any_eq_true,
      decide_eq_true_eq] at running
    obtain ⟨_, q, member, same, here⟩ := running
    obtain ⟨i, at'⟩ := mem_iff_getElem?.mp member
    have algo := holds.threads c call found pid holding i q ⟨at', here⟩ same
    have collected : q.life ≠ .zombie := by
      simp only [unreused, found, Option.all_some, checking, all_eq_true, Bool.or_eq_true,
        decide_eq_true_eq] at allowed
      exact (allowed q member).resolve_left fun other => other same
    refine ⟨i, q, at', ?_⟩
    cases life : q.life <;> simp_all [Process.aliveAlgo, Life.alive]

theorem truthful_of_unreused (events : List Event)
    (meets : Meets agent.step (fun s event => unreused s event = true) { shared := {} } events) :
    Meets agent.step Truthful { shared := {} } events := by
  have start : ThreadSystem.Holds (fun _ => Numbered) Holder { shared := {} } := by
    refine ⟨⟨?_, ?_⟩, ?_⟩
    · rintro i j p q ⟨found, _⟩
      simp at found
    · intro pid named
      cases named
    · intro c call found
      simp at found
  exact meets_of_invariant holds_step_unreused truthful_of_holds start meets

def registered : List Event :=
  [.enter .startAlgo, .act 0 (.tick false), .act 0 (.tick false), .act 0 (.tick false),
    .act 0 (.launched 100), .env (.writePidFile 0), .act 0 (.tick false), .act 0 (.tick false)]

def crashed : List Event :=
  registered ++
    [.env (.spawnOther 200), .enter .startAlgo, .act 1 (.tick false), .act 1 (.tick false),
      .act 1 (.tick false), .env (.exit 0), .env (.reap 0),
      .enter .stopAlgo, .act 2 (.tick false), .act 2 (.tick false), .act 2 (.tick false),
      .act 2 (.tick false)]

theorem truthful_crashed :
    (run agent.step { shared := {} } crashed).map (fun t => t.threads.map Call.pc) =
      some [.done .running, .done .alreadyRunning, .done .stopped] ∧
    Meets agent.step Truthful { shared := {} } crashed :=
  ⟨by decide, truthful_of_unreused crashed (by decide)⟩

def reused : List Event :=
  registered ++ [.env (.exit 0), .env (.reap 0), .env (.spawnOther 100)]

def stopUpToKill : List Event :=
  [.enter .stopAlgo, .act 1 (.tick false), .act 1 (.tick false), .act 1 (.tick false),
    .act 1 (.tick true), .act 1 (.tick false)]

def startUpToCheck : List Event :=
  [.enter .startAlgo, .act 1 (.tick false), .act 1 (.tick false)]

theorem reused_not_truthful :
    ¬ Meets agent.step Truthful { shared := {} }
      (reused ++ stopUpToKill ++ [.act 1 (.signalled true)]) ∧
    ¬ Meets agent.step Truthful { shared := {} }
      (reused ++ startUpToCheck ++ [.act 1 (.tick false)]) := by
  constructor
  · intro meets
    have last := ((meets_append rfl).mp meets).2.1
    have algo := last.signals 1 _ 100 ⟨.other, 100, none, .running⟩ rfl rfl rfl (by decide) rfl
      (by decide)
    cases algo
  · intro meets
    have last := ((meets_append rfl).mp meets).2.1
    obtain ⟨i, p, found, alive⟩ := last.answers 1 _ _ _ _ rfl rfl rfl rfl
    have living : ∃ q ∈ _, Process.aliveAlgo q = true := ⟨p, mem_of_getElem? found, alive⟩
    revert living
    decide

end AlgoSystem.Proof.Agent
