import AlgoSystem.Alerts.Telegram

namespace AlgoSystem.Proof.Alerts
open AlgoSystem.Alerts General List

/-- The key was delivered at this time and has not been cleared since. -/
def Fresh (key : String) (time : Nat) : List Entry → Prop
  | [] => False
  | e :: log => e = .delivered key time ∨ e ≠ .cleared key ∧ Fresh key time log

/-- Every delivery comes a whole window after those before it that were not cleared. -/
def OncePerWindow (window : Nat) : List Entry → Prop
  | [] => True
  | e :: log => OncePerWindow window log ∧
      ∀ key time, e = .delivered key time → ∀ earlier, Fresh key earlier log →
        earlier + window ≤ time

/-- Only delivered alerts leave a mark, and an alert is suppressed only by a mark of its key that is
less than a window old. -/
def Justified (window : Nat) : List Entry → Prop
  | [] => True
  | e :: log => Justified window log ∧
      (∀ key sent time, e = .marked key sent time → .delivered key sent ∈ log) ∧
      ∀ key time, e = .suppressed key time →
        ∃ sent last, .marked key sent last ∈ log ∧ time - last < window

def sending : Stage → Option String
  | .attempting key _ | .marking key _ => some key
  | _ => none

def lost : Reply → Bool
  | .again arrived | .raised arrived => arrived
  | _ => false

/-- No alert passes its check while another with its key is on its way, and no answer to a
delivered message is lost. -/
def Careful (cfg : Config) (s : State) : Event → Prop
  | .act thread reply =>
    match s.stage thread with
    | .starting [] key => s.isDuplicate cfg key = true ∨ ∀ other, sending (s.stage other) ≠ some key
    | .attempting _ _ => lost reply = false
    | _ => True
  | _ => True

variable {cfg : Config} {s t : State} {thread : Nat} {stage : Stage}

/-- A mark goes back to a delivery; in a careful run every delivery that was not cleared is marked
or about to be, and is a whole window old when the next one is attempted. -/
structure Inv (careful : Prop) (cfg : Config) (s : State) : Prop where
  justified : Justified cfg.dedupSeconds s.log
  cached : ∀ key last, s.cache key = some last → ∃ sent, .marked key sent last ∈ s.log
  marking : ∀ i key sent, s.stage i = .marking key sent → .delivered key sent ∈ s.log
  window : careful → OncePerWindow cfg.dedupSeconds s.log
  alone : careful → ∀ i j key, sending (s.stage i) = some key → sending (s.stage j) = some key →
    i = j
  past : ∀ key time, Fresh key time s.log → time ≤ s.clock
  marked : careful → ∀ key time, Fresh key time s.log →
    (∃ last, s.cache key = some last ∧ time ≤ last) ∨ ∃ i sent, s.stage i = .marking key sent
  quiet : careful → ∀ i key attempt, s.stage i = .attempting key attempt →
    ∀ time, Fresh key time s.log → time + cfg.dedupSeconds ≤ s.clock

section Log
variable {key key' : String} {time time' sent : Nat} {log : List Entry}

@[simp] theorem fresh_delivered : Fresh key time (.delivered key' time' :: log) ↔
    key' = key ∧ time' = time ∨ Fresh key time log := by
  simp [Fresh]

@[simp] theorem fresh_marked :
    Fresh key time (.marked key' sent time' :: log) ↔ Fresh key time log := by
  simp [Fresh]

@[simp] theorem fresh_cleared :
    Fresh key time (.cleared key' :: log) ↔ key' ≠ key ∧ Fresh key time log := by
  simp [Fresh]

@[simp] theorem fresh_suppressed :
    Fresh key time (.suppressed key' time' :: log) ↔ Fresh key time log := by
  simp [Fresh]

end Log

@[grind =] theorem log_goto (s : State) (thread : Nat) (next : Stage) :
    (s.goto thread next).log = s.log := rfl

@[grind =] theorem stage_goto (s : State) (thread : Nat) (next : Stage) (i : Nat) :
    (s.goto thread next).stage i = if i = thread then next else s.stage i :=
  Function.update_apply _ _ _ _

/-- What the thread is about to mark is in the cache. -/
def Kept (careful : Prop) (s : State) (thread : Nat) : Prop :=
  careful → ∀ key sent, s.stage thread = .marking key sent →
    ∃ last, s.cache key = some last ∧ ∀ time, Fresh key time s.log → time ≤ last

theorem Kept.of_stage {careful : Prop} (here : s.stage thread = stage)
    (unmarked : ∀ key sent, stage ≠ .marking key sent) : Kept careful s thread :=
  fun _ key sent own => absurd (here.symm.trans own) (unmarked key sent)

@[grind =] theorem stage_record (s : State) (key : String) (arrived : Bool) (i : Nat) :
    (s.record key arrived).stage i = s.stage i := by
  cases arrived <;> rfl

section Inv
variable {careful : Prop} {key : String} {attempt sent : Nat} (inv : Inv careful cfg s)
include inv

theorem Inv.goto {next : Stage} (kept : Kept careful s thread)
    (ends : ∀ key sent, next ≠ .marking key sent)
    (alone : careful → ∀ key, sending next = some key →
      ∀ other, sending (s.stage other) = some key → other = thread)
    (quiet : careful → ∀ key attempt, next = .attempting key attempt →
      ∀ time, Fresh key time s.log → time + cfg.dedupSeconds ≤ s.clock) :
    Inv careful cfg (s.goto thread next) where
  justified := inv.justified
  cached := inv.cached
  marking := by grind [inv.marking]
  window := inv.window
  alone := by grind [inv.alone]
  past := inv.past
  marked := by
    intro isCareful key time fresh
    obtain cached | ⟨i, sent, here⟩ := inv.marked isCareful key time fresh
    · exact .inl cached
    obtain rfl | other := eq_or_ne i thread
    · obtain ⟨last, found, recent⟩ := kept isCareful key sent here
      exact .inl ⟨last, found, recent time fresh⟩
    · exact .inr ⟨i, sent, by grind⟩
  quiet := by
    intro isCareful i key attempt here
    rw [stage_goto] at here
    split at here
    · exact quiet isCareful key attempt here
    · exact inv.quiet isCareful i key attempt here

theorem Inv.goto_of_silent {next : Stage} (silent : sending next = none)
    (kept : Kept careful s thread) : Inv careful cfg (s.goto thread next) := by
  apply inv.goto kept <;> grind [sending]

theorem Inv.cons {e : Entry} (justified : Justified cfg.dedupSeconds (e :: s.log))
    (window : careful → OncePerWindow cfg.dedupSeconds (e :: s.log))
    (kept : ∀ key time, Fresh key time (e :: s.log) →
      Fresh key time s.log ∨ ¬ careful ∧ time ≤ s.clock) :
    Inv careful cfg { s with log := e :: s.log } := by
  have old (isCareful : careful) {key : String} {time : Nat}
      (fresh : Fresh key time (e :: s.log)) : Fresh key time s.log :=
    (kept key time fresh).resolve_right fun lost => lost.1 isCareful
  exact {
    justified := justified
    cached := fun key last found => (inv.cached key last found).imp fun _ => mem_cons_of_mem _
    marking := fun i key sent here => mem_cons_of_mem _ (inv.marking i key sent here)
    window := window
    alone := inv.alone
    past := fun key time fresh => (kept key time fresh).elim (inv.past key time) And.right
    marked := fun isCareful key time fresh => inv.marked isCareful key time (old isCareful fresh)
    quiet := fun isCareful i key attempt here time fresh =>
      inv.quiet isCareful i key attempt here time (old isCareful fresh) }

/-- A message whose answer is lost reaches the chat without a mark, in no careful run. -/
theorem Inv.record {arrived : Bool} (heard : careful → arrived = false) (key : String) :
    Inv careful cfg (s.record key arrived) := by
  cases arrived with
  | false => exact inv
  | true =>
    have careless : ¬ careful := fun isCareful => nomatch heard isCareful
    refine inv.cons ⟨inv.justified, by simp, by simp⟩ (fun isCareful => absurd isCareful careless) ?_
    intro key' time fresh
    obtain ⟨-, rfl⟩ | fresh := fresh_delivered.mp fresh
    · exact .inr ⟨careless, Nat.le_refl _⟩
    · exact .inl fresh

theorem Inv.forget (gone : ∀ time, ¬ Fresh key time s.log) :
    Inv careful cfg { s with cache := Function.update s.cache key none } where
  __ := inv
  cached := by
    intro key' last found
    obtain ⟨-, found⟩ : key' ≠ key ∧ s.cache key' = some last := by
      simpa [Function.update_apply] using found
    exact inv.cached key' last found
  marked := by
    intro isCareful key' time fresh
    have other : key' ≠ key := by
      rintro rfl
      exact gone time fresh
    simpa [Function.update_of_ne other] using inv.marked isCareful key' time fresh

theorem Inv.remember (marked : .marked key sent s.clock ∈ s.log) :
    Inv careful cfg { s with cache := Function.update s.cache key (some s.clock) } where
  __ := inv
  cached := by
    intro key' last found
    obtain rfl | other := eq_or_ne key' key
    · cases (Function.update_self ..).symm.trans found
      exact ⟨sent, marked⟩
    · exact inv.cached key' last ((Function.update_of_ne other ..).symm.trans found)
  marked := by
    intro isCareful key' time fresh
    obtain rfl | other := eq_or_ne key' key
    · exact .inl ⟨s.clock, Function.update_self .., inv.past key' time fresh⟩
    · simpa [Function.update_of_ne other] using inv.marked isCareful key' time fresh

theorem Inv.delivered (here : s.stage thread = .attempting key attempt) :
    Inv careful cfg ((s.record key true).goto thread (.marking key s.clock)) where
  justified := ⟨inv.justified, by simp, by simp⟩
  cached := fun key last found => (inv.cached key last found).imp fun _ => mem_cons_of_mem _
  marking := by grind [State.record, inv.marking]
  window := by
    refine fun isCareful => ⟨inv.window isCareful, ?_⟩
    rintro _ _ ⟨⟩
    exact inv.quiet isCareful thread key attempt here
  alone := by
    intro isCareful i j key' first second
    apply inv.alone isCareful i j key' <;> grind [sending]
  past := by
    intro key time fresh
    obtain ⟨-, rfl⟩ | fresh := fresh_delivered.mp fresh
    · exact Nat.le_refl _
    · exact inv.past key time fresh
  marked := by
    intro isCareful key' time fresh
    obtain ⟨rfl, -⟩ | fresh := fresh_delivered.mp fresh
    · exact .inr ⟨thread, s.clock, by grind⟩
    · refine (inv.marked isCareful key' time fresh).imp_right ?_
      rintro ⟨i, sent, own⟩
      exact ⟨i, sent, by grind⟩
  quiet := by
    intro isCareful i key' attempt' own time fresh
    obtain ⟨other, own⟩ : i ≠ thread ∧ s.stage i = .attempting key' attempt' := by grind
    obtain ⟨rfl, -⟩ | fresh := fresh_delivered.mp fresh
    · -- no other thread is about to send this key
      have same := inv.alone isCareful i thread key
      exact absurd (same (congrArg sending own) (congrArg sending here)) other
    · exact inv.quiet isCareful i key' attempt' own time fresh

end Inv

theorem act_inv {careful : Prop} {reply : Reply} (inv : Inv careful cfg s)
    (guard : careful → Careful cfg s (.act thread reply))
    (acted : s.act cfg thread reply = some t) : Inv careful cfg t := by
  unfold State.act at acted
  split at acted
  · cases acted
  · cases acted
  next old clears key here =>
    cases acted
    have cleared := inv.cons (e := .cleared old) ⟨inv.justified, by simp, by simp⟩
      (fun isCareful => ⟨inv.window isCareful, by simp⟩) (by simp +contextual)
    exact (cleared.forget (by simp)).goto_of_silent rfl (.of_stage here (by simp))
  next key here =>
    have unmarked : Kept careful s thread := .of_stage here (by simp)
    split at acted
    next duplicate =>
      cases acted
      have mark : ∃ sent last, .marked key sent last ∈ s.log ∧ s.clock - last < cfg.dedupSeconds := by
        unfold State.isDuplicate at duplicate
        split at duplicate
        · cases duplicate
        next last found =>
          obtain ⟨sent, marked⟩ := inv.cached key last found
          exact ⟨sent, last, marked, of_decide_eq_true duplicate⟩
      have suppressed := inv.cons (e := .suppressed key s.clock)
        ⟨inv.justified, by simp, by rintro _ _ ⟨⟩; exact mark⟩
        (fun isCareful => ⟨inv.window isCareful, by simp⟩) (by simp +contextual)
      exact suppressed.goto_of_silent rfl (.of_stage here (by simp))
    next new =>
      split at acted <;> cases acted
      · simp only [Careful, here] at guard
        have unsent (isCareful : careful) := (guard isCareful).resolve_left new
        refine inv.goto unmarked (by simp) ?_ ?_
        · rintro isCareful _ ⟨⟩ other sends
          exact absurd sends (unsent isCareful other)
        · rintro isCareful _ _ ⟨⟩ time fresh
          obtain ⟨last, found, recent⟩ | ⟨i, sent, own⟩ := inv.marked isCareful key time fresh
          · have past := inv.past key time fresh
            simp only [State.isDuplicate, found, decide_eq_true_eq] at new
            omega
          · exact absurd (congrArg sending own) (unsent isCareful i)
      · exact inv.goto_of_silent rfl unmarked
  next key attempt here =>
    simp only [Careful, here] at guard
    cases reply with
    | ok =>
      cases acted
      exact inv.delivered here
    | refused =>
      cases acted
      exact inv.goto_of_silent rfl (.of_stage here (by simp))
    | again arrived =>
      cases acted
      have recorded := inv.record guard key
      have stays := (stage_record s key arrived thread).trans here
      split
      · refine recorded.goto (.of_stage stays (by simp)) (by simp) ?_ ?_
        · rintro isCareful _ ⟨⟩ other sends
          exact recorded.alone isCareful other thread key sends (congrArg sending stays)
        · rintro isCareful _ _ ⟨⟩
          exact recorded.quiet isCareful thread key attempt stays
      · exact recorded.goto_of_silent rfl (.of_stage stays (by simp))
    | raised arrived =>
      cases acted
      have stays := (stage_record s key arrived thread).trans here
      exact (inv.record guard key).goto_of_silent rfl (.of_stage stays (by simp))
  next key sent here =>
    cases acted
    have logged := inv.cons (e := .marked key sent s.clock)
      ⟨inv.justified, by rintro _ _ _ ⟨⟩; exact inv.marking thread key sent here, by simp⟩
      (fun isCareful => ⟨inv.window isCareful, by simp⟩) (by simp +contextual)
    refine (logged.remember mem_cons_self).goto_of_silent rfl ?_
    intro _ key' sent' own
    cases here.symm.trans own
    exact ⟨s.clock, Function.update_self .., fun time fresh =>
      inv.past key time (fresh_marked.mp fresh)⟩

theorem step_inv {careful : Prop} (s : State) (e : Event) (t : State) (inv : Inv careful cfg s)
    (guard : careful → Careful cfg s e) (stepped : step cfg s e = some t) : Inv careful cfg t := by
  cases e with
  | call thread kind strategy server =>
    simp only [step] at stepped
    split at stepped
    next here =>
      cases stepped
      exact inv.goto_of_silent rfl (.of_stage here (by simp))
    next here =>
      cases stepped
      exact inv.goto_of_silent rfl (.of_stage here (by simp))
    · cases stepped
  | act thread reply => exact act_inv inv guard stepped
  | pass seconds =>
    cases stepped
    exact { inv with
      past := fun key time fresh => Nat.le_add_right_of_le (inv.past key time fresh)
      quiet := fun isCareful i key attempt here time fresh =>
        Nat.le_add_right_of_le (inv.quiet isCareful i key attempt here time fresh) }

theorem inv_start (careful : Prop) (cfg : Config) : Inv careful cfg {} := by
  constructor <;> simp [Justified, OncePerWindow, sending, Fresh]

/-- Alerts that were not delivered suppress nothing. In a careful run the deliveries of one key are a
whole window apart, unless the key is cleared in between. -/
theorem once_per_window {events : List Event} (path : run (step cfg) {} events = some s) :
    Justified cfg.dedupSeconds s.log ∧
      (Meets (step cfg) (Careful cfg) {} events → OncePerWindow cfg.dedupSeconds s.log) := by
  constructor
  · exact (run_invariant (fun s e t inv => step_inv s e t inv False.elim) path
      (inv_start False cfg)).justified
  · intro careful
    exact (run_invariant_of_meets (fun s e t inv guard => step_inv s e t inv fun _ => guard) path
      careful (inv_start True cfg)).window trivial

def crash (thread : Nat) : Event := .call thread .crashed "arb_v2" "ec2-1"

def crashKey : String := dedupKey .crashed "arb_v2" "ec2-1"

theorem alerts_apart :
    ∃ s, run (step {}) {} ([crash 0, .act 0 .ok, .act 0 .ok, .act 0 .ok, .pass 130, crash 0,
        .act 0 .ok, .act 0 .ok]) = some s ∧
      s.log = [.delivered crashKey 130, .marked crashKey 0 0, .delivered crashKey 0] ∧
      OncePerWindow 120 s.log := by
  have careful : Meets (step {}) (Careful {}) {} [crash 0, .act 0 .ok, .act 0 .ok, .act 0 .ok,
      .pass 130, crash 0, .act 0 .ok, .act 0 .ok] := by
    simp [Meets, step, crash, State.act, State.goto, alertStage, Careful, sending, lost,
      State.isDuplicate, State.record]
    intro other
    cases other <;> simp [Function.update]
  refine ⟨_, rfl, ?_, ?_⟩
  · rfl
  · exact (@once_per_window {} _ _ rfl).2 careful

/-- Two threads pass the check before either of them has marked the key. -/
theorem alert_delivered_twice :
    ∃ s, run (step {}) {} [crash 0, crash 1, .act 0 .ok, .act 1 .ok, .act 0 .ok, .act 1 .ok] =
        some s ∧ ¬ OncePerWindow 120 s.log := by
  refine ⟨_, rfl, ?_⟩
  intro once
  have apart : 0 + 120 ≤ 0 := once.2 crashKey 0 rfl 0 (.inl rfl)
  omega

end AlgoSystem.Proof.Alerts
