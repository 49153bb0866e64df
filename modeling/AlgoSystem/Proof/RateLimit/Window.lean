import AlgoSystem.RateLimit.Consume

namespace AlgoSystem.Proof.RateLimit
open AlgoSystem.RateLimit General

def stored (table : Table) (key : Key) : Nat := (table.counts.get? key).getD 0

def current (limits : Limits) (key : Key) (s : State) : Event → Bool
  | .act i .proceed => s.threads[i]?.all fun call =>
    match call.pc with
    | .update count => call.key limits ≠ key || s.shared.counts.get? key = some count
    | _ => true
  | _ => true

section

variable {limits : Limits} {key : Key} {table table' : Table} {call call' : Consume}
  {choice : Choice}

theorem get?_save (table : Table) (key other : Key) (count : Nat) :
    (table.save key count).counts.get? other =
      if other = key then some count else table.counts.get? other :=
  Dict.get?_upsert table.counts key other count fun _ => count

theorem count_save (table : Table) (key other : Key) (count : Nat) :
    (table.save key count).allowed.count other =
      if other = key then table.allowed.count other + 1 else table.allowed.count other := by
  by_cases same : other = key
  · simp [Table.save, same]
  · simp [Table.save, same, Ne.symm same]

structure Bounded (limits : Limits) (key : Key) (table : Table) : Prop where
  absent : table.counts.get? key = none → table.allowed.count key = 0
  present : ∀ count, table.counts.get? key = some count →
    count ≤ limits.maxRequests ∧ count ≤ table.allowed.count key

structure Read (limits : Limits) (key : Key) (table : Table) (count : Nat) : Prop where
  room : count < limits.maxRequests
  present : table.counts.get? key ≠ none
  behind : count ≤ table.allowed.count key
  recent : count = table.allowed.count key → table.counts.get? key = some count

def Asserted (limits : Limits) (key : Key) (table : Table) (call : Consume) : Prop :=
  ∀ count, call.pc = .update count → call.key limits = key → Read limits key table count

inductive Move (limits : Limits) (table : Table) (call : Consume) (choice : Choice) (table' : Table)
    (call' : Consume) : Prop where
  | keeps (same : table' = table) (idle : ∀ count, call'.pc ≠ .update count)
      (unwritten : ∀ count, call.pc = .update count → choice = .proceed →
        table.counts.get? (call.key limits) = none)
  | reads (count : Nat) (same : table' = table) (key : call'.key limits = call.key limits)
      (found : table.counts.get? (call.key limits) = some count)
      (judged : call'.pc = judge limits call.now count)
      (reading : ∀ count, call.pc ≠ .update count)
  | inserts (unused : table.counts.get? (call.key limits) = none)
      (saved : table' = table.save (call.key limits) 1) (done : call'.pc = .allowed)
      (inserting : ∀ count, call.pc ≠ .update count)
  | updates (count old : Nat) (writing : call.pc = .update count) (proceeds : choice = .proceed)
      (found : table.counts.get? (call.key limits) = some old)
      (saved : table' = table.save (call.key limits) (count + 1)) (done : call'.pc = .allowed)

theorem move_act
    (acted : act limits table call choice = some (table', call')) :
    Move limits table call choice table' call' := by
  cases choice with
  | proceed =>
    cases pc : call.pc with
    | entry | reread =>
      simp only [act, pc] at acted
      split at acted
      · cases acted
        exact .keeps rfl (by simp [Consume.goto]) (by simp [pc])
      · next count found =>
        cases acted
        exact .reads count rfl rfl found rfl (by simp [pc])
    | insert =>
      simp only [act, pc] at acted
      split at acted
      · next unused =>
        cases acted
        exact .inserts unused rfl rfl (by simp [pc])
      · cases acted
        exact .keeps rfl (by simp [Consume.goto]) (by simp [pc])
    | update count =>
      simp only [act, pc] at acted
      split at acted
      · next missing =>
        cases acted
        exact .keeps rfl (by simp [Consume.goto]) fun _ _ _ => missing
      · next old found =>
        cases acted
        exact .updates count old pc rfl found rfl rfl
    | allowed | denied _ | failed => simp [act, pc] at acted
  | abort =>
    simp only [act] at acted
    split at acted <;> cases acted
    exact .keeps rfl (by simp [Consume.goto]) (by simp)

theorem judge_eq_update {now count count' : Nat} (judged : judge limits now count = .update count') :
    count' = count ∧ count < limits.maxRequests := by
  unfold judge at judged
  split_ifs at judged with full
  cases judged
  exact ⟨rfl, Nat.lt_of_not_le full⟩

theorem Bounded.save {other : Key} {count : Nat} (bounded : Bounded limits key table)
    (room : other = key → count ≤ limits.maxRequests ∧ count ≤ table.allowed.count key + 1) :
    Bounded limits key (table.save other count) := by
  by_cases same : key = other
  · subst same
    obtain ⟨fits, behind⟩ := room rfl
    constructor
    · simp [get?_save]
    · simpa [get?_save, count_save] using ⟨fits, behind⟩
  · constructor
    · simpa [get?_save, count_save, same] using bounded.absent
    · simpa [get?_save, count_save, same] using bounded.present

theorem Read.save {other : Key} {count new : Nat} (read : Read limits key table count) :
    Read limits key (table.save other new) count := by
  by_cases same : key = other
  · subst same
    refine ⟨read.room, by simp [get?_save], ?_, ?_⟩
    · rw [count_save, if_pos rfl]
      exact Nat.le_succ_of_le read.behind
    · rw [count_save, if_pos rfl]
      intro last
      have behind := read.behind
      omega
  · refine ⟨read.room, ?_, ?_, ?_⟩
    · simpa [get?_save, same] using read.present
    · simpa [count_save, same] using read.behind
    · simpa [get?_save, count_save, same] using read.recent

section
variable (move : Move limits table call choice table' call')
include move

theorem Move.bounded (positive : 1 ≤ limits.maxRequests) (bounded : Bounded limits key table)
    (asserted : Asserted limits key table call) : Bounded limits key table' := by
  cases move with
  | keeps same _ _ | reads _ same _ _ _ _ => exact same ▸ bounded
  | inserts unused saved _ _ =>
    subst saved
    apply bounded.save
    intro _
    exact ⟨positive, Nat.le_add_left 1 _⟩
  | updates count old writing _ found saved _ =>
    subst saved
    apply bounded.save
    intro same
    have read := asserted count writing same
    exact ⟨read.room, Nat.succ_le_succ read.behind⟩

theorem Move.asserted (bounded : Bounded limits key table) : Asserted limits key table' call' := by
  intro count writing own
  cases move with
  | keeps _ idle _ => exact absurd writing (idle count)
  | reads read same sameKey found judged _ =>
    subst same
    obtain ⟨rfl, room⟩ := judge_eq_update (judged.symm.trans writing)
    rw [← sameKey, own] at found
    exact ⟨room, by simp [found], (bounded.present count found).2, fun _ => found⟩
  | inserts _ _ done _ | updates _ _ _ _ _ _ done =>
    rw [done] at writing
    cases writing

theorem Move.others {other : Consume} (asserted : Asserted limits key table other) :
    Asserted limits key table' other := by
  intro count writing own
  have read := asserted count writing own
  cases move with
  | keeps same _ _ | reads _ same _ _ _ _ => exact same ▸ read
  | inserts _ saved _ _ | updates _ _ _ _ _ saved _ =>
    subst saved
    exact read.save

end

theorem stored_save (table : Table) (key other : Key) (count : Nat) :
    stored (table.save key count) other = if other = key then count else stored table other := by
  unfold stored
  rw [get?_save]
  split_ifs <;> rfl

theorem Move.stored_iff (move : Move limits table call choice table' call')
    (bounded : Bounded limits key table) (asserted : Asserted limits key table call) :
    stored table' key = table'.allowed.count key ↔
      stored table key = table.allowed.count key ∧
        ∀ count, call.pc = .update count → choice = .proceed → call.key limits = key →
          table.counts.get? key = some count := by
  cases move with
  | keeps same _ unwritten =>
    subst same
    refine (and_iff_left ?_).symm
    intro count writing proceeds own
    have missing := unwritten count writing proceeds
    exact absurd (own ▸ missing) (asserted count writing own).present
  | reads _ same _ _ _ reading =>
    subst same
    refine (and_iff_left ?_).symm
    intro count writing
    exact absurd writing (reading count)
  | inserts unused saved _ inserting =>
    subst saved
    have idle : ∀ count, call.pc = .update count → choice = .proceed → call.key limits = key →
        table.counts.get? key = some count := by
      intro count writing
      exact absurd writing (inserting count)
    rw [and_iff_left idle, stored_save, count_save]
    by_cases own : key = call.key limits
    · subst own
      simp [stored, unused, bounded.absent unused]
    · simp [own]
  | updates count old writing proceeds found saved _ =>
    subst saved
    rw [stored_save, count_save]
    by_cases own : key = call.key limits
    · subst own
      have read := asserted count writing rfl
      have behind := read.behind
      have guard : (∀ other, call.pc = .update other → choice = .proceed →
          call.key limits = call.key limits → table.counts.get? (call.key limits) = some other) ↔
          old = count := by
        rw [found]
        constructor
        · intro agrees
          exact Option.some.inj (agrees count writing proceeds rfl)
        · rintro rfl other writing' _ _
          cases writing.symm.trans writing'
          rfl
      rw [guard, if_pos rfl, if_pos rfl, stored, found, Option.getD_some]
      constructor
      · intro exact
        have recent := read.recent (by omega)
        rw [found] at recent
        cases recent
        exact ⟨by omega, rfl⟩
      · rintro ⟨exact, rfl⟩
        omega
    · have foreign : ∀ other, call.pc = .update other → choice = .proceed →
          call.key limits = key → table.counts.get? key = some other := by
        intro _ _ _ same
        exact absurd same.symm own
      rw [and_iff_left foreign, if_neg own, if_neg own]

abbrev Holds (limits : Limits) (key : Key) : State → Prop :=
  ThreadSystem.Holds (fun _ => Bounded limits key) fun _ => Asserted limits key

theorem holds_step (positive : 1 ≤ limits.maxRequests) (s : State) (event : Event) (t : State)
    (holds : Holds limits key s) (stepped : (limiter limits).step s event = some t) :
    Holds limits key t := by
  refine ThreadSystem.step_holds (fun _ _ => True) ?_ ?_ ?_ ?_ s event t holds trivial stepped
  · intro _ table entry bounded
    exact ⟨bounded, nofun⟩
  · intro s i call choice table call' holds found _ acted
    have move := move_act acted
    have asserted := holds.threads i call found
    refine ⟨move.bounded positive holds.shared asserted, move.asserted holds.shared, ?_⟩
    intro j other _ _ before
    exact move.others before
  · intro s event
    cases event
  · intro _ table bounded
    exact bounded

theorem stored_step (s : State) (event : Event) (t : State)
    (holds : Holds limits key s) (stepped : (limiter limits).step s event = some t) :
    stored t.shared key = t.shared.allowed.count key ↔
      stored s.shared key = s.shared.allowed.count key ∧ current limits key s event = true := by
  cases event with
  | enter entry =>
    cases stepped
    simp [current]
  | act i choice =>
    obtain ⟨call, table, call', found, acted, rfl⟩ := ThreadSystem.step_act_eq_some stepped
    rw [(move_act acted).stored_iff holds.shared (holds.threads i call found)]
    refine and_congr_right fun _ => ?_
    cases choice with
    | proceed =>
      cases pc : call.pc with
      | update count => simp [current, found, pc, or_iff_not_imp_left]
      | entry | insert | reread | allowed | denied _ | failed => simp [current, found, pc]
    | abort => simp [current]
  | env event => cases event
  | reset =>
    cases stepped
    exact (and_iff_left rfl).symm

theorem allowed_eq_stored_iff (limits : Limits) (positive : 1 ≤ limits.maxRequests) (key : Key)
    (events : List Event) (t : State)
    (path : run (limiter limits).step { shared := {} } events = some t) :
    (t.shared.allowed.count key ≤ limits.maxRequests ∧
        stored t.shared key = t.shared.allowed.count key) ↔
      Meets (limiter limits).step (fun s event => current limits key s event = true)
        { shared := {} } events := by
  have start : Holds limits key { shared := {} } := by
    refine ⟨⟨fun _ => rfl, nofun⟩, by simp⟩
  have holds : Holds limits key t := run_invariant (holds_step positive) path start
  have exact : stored t.shared key = t.shared.allowed.count key ↔ _ ∧ _ :=
    run_property_iff (holds_step positive) stored_step path start
  have bound : stored t.shared key ≤ limits.maxRequests := by
    unfold stored
    cases found : t.shared.counts.get? key with
    | none => exact Nat.zero_le _
    | some count => exact (holds.shared.present count found).1
  rw [and_iff_right_of_imp fun same => same ▸ bound, exact]
  exact and_iff_right rfl

def Earned (limits : Limits) (table : Table) (call : Consume) : Prop :=
  ∀ seconds, call.pc = .denied seconds →
    limits.maxRequests ≤ table.allowed.count (call.key limits)

theorem earned_act (bounded : Bounded limits (call.key limits) table)
    (acted : act limits table call choice = some (table', call')) : Earned limits table' call' := by
  have behind := bounded.present
  intro seconds denied
  cases choice with
  | abort => grind [act, Consume.goto]
  | proceed => grind [act, judge, Consume.goto, Consume.key]

theorem Move.allowed_le (move : Move limits table call choice table' call') (key : Key) :
    table.allowed.count key ≤ table'.allowed.count key := by
  cases move with
  | keeps same _ _ | reads _ same _ _ _ _ => rw [same]
  | inserts _ saved _ _ | updates _ _ _ _ _ saved _ =>
    rw [saved, count_save]
    split <;> omega

theorem earned_step (positive : 1 ≤ limits.maxRequests) (s : State) (event : Event) (t : State)
    (inv : (∀ key, Holds limits key s) ∧ ∀ call ∈ s.threads, Earned limits s.shared call)
    (stepped : (limiter limits).step s event = some t) :
    (∀ key, Holds limits key t) ∧ ∀ call ∈ t.threads, Earned limits t.shared call := by
  obtain ⟨holds, earned⟩ := inv
  refine ⟨fun key => holds_step positive s event t (holds key) stepped, ?_⟩
  cases event with
  | enter entry =>
    cases stepped
    intro call mem
    rcases List.mem_append.mp mem with old | new
    · exact earned call old
    · cases List.mem_singleton.mp new
      exact nofun
  | act i choice =>
    obtain ⟨call, table, call', found, acted, rfl⟩ := ThreadSystem.step_act_eq_some stepped
    intro other mem seconds denied
    rcases List.mem_or_eq_of_mem_set mem with old | rfl
    · exact (earned other old seconds denied).trans ((move_act acted).allowed_le _)
    · exact earned_act (holds _).shared acted seconds denied
  | env event => cases event
  | reset =>
    cases stepped
    simp

/-- Lost updates make the limiter too generous, never too strict. -/
theorem refused_when_full (limits : Limits) (events : List Event) :
    Always (limiter limits).step (fun s => ∀ call ∈ s.threads, Earned limits s.shared call)
      { shared := {} } events := by
  intro before s _ path call mem
  rcases Nat.eq_zero_or_pos limits.maxRequests with zero | positive
  · simp [Earned, zero]
  · refine (run_invariant (earned_step positive) path ⟨fun key => ?_, by simp⟩).2 call mem
    exact ⟨⟨fun _ => rfl, nofun⟩, by simp⟩

end

def twoAMinute : Limits := { maxRequests := 2, windowSeconds := 60 }

def peer : Call := { subjectHash := "user:7", now := 90000000 }

def minute : Key := { subjectHash := "user:7", windowStart := 60 }

def proceeds (i count : Nat) : List Event := List.replicate count (.act i .proceed)

def raceToInsert : List Event :=
  [.enter peer, .enter peer, .act 0 .proceed, .act 1 .proceed, .act 0 .proceed] ++ proceeds 1 3 ++
    [.enter peer] ++ proceeds 2 1

theorem allowed_raceToInsert :
    ∃ t, run (limiter twoAMinute).step { shared := {} } raceToInsert = some t ∧
      t.threads.map Consume.pc = [.allowed, .allowed, .denied 30] ∧
      t.shared.allowed.count minute ≤ 2 ∧
      stored t.shared minute = t.shared.allowed.count minute := by
  have outcome : (run (limiter twoAMinute).step { shared := {} } raceToInsert).map
      (fun t => t.threads.map Consume.pc) = some [.allowed, .allowed, .denied 30] := by
    decide +kernel
  obtain ⟨t, path, answers⟩ := Option.map_eq_some_iff.mp outcome
  exact ⟨t, path, answers,
    (allowed_eq_stored_iff twoAMinute (by decide) minute raceToInsert t path).mpr
      (by decide +kernel)⟩

def raceToUpdate : List Event :=
  [.enter peer] ++ proceeds 0 2 ++ [.enter peer, .enter peer, .act 1 .proceed, .act 2 .proceed,
    .act 1 .proceed, .act 2 .proceed]

theorem raceToUpdate_overruns :
    ∃ t, run (limiter twoAMinute).step { shared := {} } raceToUpdate = some t ∧
      t.shared.allowed.count minute = 3 ∧ stored t.shared minute = 2 := by
  have outcome : (run (limiter twoAMinute).step { shared := {} } raceToUpdate).map
      (fun t => (t.shared.allowed.count minute, stored t.shared minute)) = some (3, 2) := by
    decide +kernel
  obtain ⟨t, path, seen⟩ := Option.map_eq_some_iff.mp outcome
  obtain ⟨allowed, kept⟩ := Prod.mk.inj seen
  exact ⟨t, path, allowed, kept⟩

end AlgoSystem.Proof.RateLimit
