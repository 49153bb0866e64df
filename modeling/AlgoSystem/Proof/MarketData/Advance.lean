import AlgoSystem.Proof.MarketData.Sessions

namespace AlgoSystem.Proof.MarketData.StraddlePulse
open AlgoSystem.MarketData AlgoSystem.MarketData.StraddlePulse General

structure Ready (settings : Settings) (db : Db) (call : Call) : Prop where
  listed : ∃ x ∈ expiries call, today settings call ≤ x
  free : ∀ c ∈ db.cycles, c.underlying = call.underlying → c.status = .active →
    today settings call ≤ c.cycleEndDate → Listed settings call c.expiryDate

variable {settings : Settings} {db : Db} {call : Call} {c : ExpiryCycle}

theorem mem_past :
    c ∈ (past settings db call).cycles ↔
      ∃ old ∈ db.cycles, complete call.underlying (today settings call) old = c :=
  List.mem_map

theorem mem_past_of_active (own : c.underlying = call.underlying) (active : c.status = .active) :
    c ∈ (past settings db call).cycles ↔ c ∈ db.cycles ∧ today settings call ≤ c.cycleEndDate := by
  refine mem_past.trans ?_
  constructor
  · rintro ⟨old, member, rfl⟩
    have same := complete_active active
    rw [same] at own active ⊢
    refine ⟨member, ?_⟩
    by_contra ended
    rw [complete, if_pos ⟨own, active, not_le.mp ended⟩] at same
    rw [← same] at active
    cases active
  · rintro ⟨member, open_⟩
    refine ⟨c, member, if_neg ?_⟩
    rintro ⟨_, _, ended⟩
    exact absurd open_ (not_le.mpr ended)

theorem past_sound (sound : Sound settings (today settings call) db) :
    Sound settings (today settings call) (past settings db call) :=
  (sound_of_writes sound writes_past).1

variable {day : Int}

section
variable (sound : Sound settings day db) (underlying : Underlying)
include sound underlying

theorem cycles_unambiguous (e : Int) :
    (db.cycles.filter fun c => c.underlying = underlying ∧ c.expiryDate = e).length ≤ 1 := by
  apply filter_length_le_one sound.cycles.keys
  intro a _ b _ pa pb
  obtain ⟨ownA, expiryA⟩ := of_decide_eq_true pa
  obtain ⟨ownB, expiryB⟩ := of_decide_eq_true pb
  rw [ownA, ownB, expiryA, expiryB]

theorem sessions_unambiguous (date : Int) :
    (db.sessions.filter fun s => s.underlying = underlying ∧ s.tradingDate = date).length ≤ 1 := by
  apply filter_length_le_one sound.sessions.keys
  intro a _ b _ pa pb
  obtain ⟨ownA, dateA⟩ := of_decide_eq_true pa
  obtain ⟨ownB, dateB⟩ := of_decide_eq_true pb
  rw [sessionKey, sessionKey, ownA, ownB, dateA, dateB]

theorem snapshots_unambiguous (expiry date ts : Int) :
    (db.oiSnapshots.filter fun row => row.underlying = underlying ∧ row.expiryDate = expiry ∧
      row.tradingDate = date ∧ row.timestamp = ts).length ≤ 1 := by
  apply filter_length_le_one sound.snapshots
  intro a _ b _ pa pb
  obtain ⟨ownA, expiryA, dateA, tsA⟩ := of_decide_eq_true pa
  obtain ⟨ownB, expiryB, dateB, tsB⟩ := of_decide_eq_true pb
  rw [snapshotKey, snapshotKey, ownA, ownB, expiryA, expiryB, dateA, dateB, tsA, tsB]

end

theorem openCycle_unique (sound : Sound settings day db) {c' : ExpiryCycle} (member : c ∈ db.cycles)
    (member' : c' ∈ db.cycles) (own : c.underlying = c'.underlying) (due : day ≤ c.expiryDate)
    (due' : day ≤ c'.expiryDate) : c = c' := by
  have active : ∀ c ∈ db.cycles, day ≤ c.expiryDate → c.status = .active := by
    intro c member due
    cases status : c.status with
    | active => rfl
    | completed => exact absurd (sound.cycles.completed c member status) (not_lt.mpr due)
  exact sound.cycles.oneActive c member c' member' own (active c member due)
    (active c' member' due')

theorem openCycle_of_ready (sound : Sound settings (today settings call) db)
    (ready : Ready settings db call) :
    ∃ db' c, openCycle settings db call = (db', .ok (some c)) := by
  have opened := openCycle_opened settings db call
  generalize openCycle settings db call = out at opened ⊢
  cases opened with
  | unlisted none_listed =>
    obtain ⟨x, listed, later⟩ := ready.listed
    exact absurd (none_listed x listed) (not_lt.mpr later)
  | existing | created => exact ⟨_, _, rfl⟩
  | refused listed fresh other own active =>
    obtain ⟨member, open_⟩ := (mem_past_of_active own active).mp other
    have nearest := ready.free _ member own active open_
    exact absurd (nearest.unique listed) (fresh _ other own)
  | @ambiguous e twice =>
    have once := cycles_unambiguous (past_sound sound) call.underlying e
    omega

theorem ready_of_openCycle (sound : Sound settings (today settings call) db) {db' : Db}
    (opened : openCycle settings db call = (db', .ok (some c))) :
    Ready settings db call := by
  obtain ⟨_, _, listed⟩ := openCycle_returned opened
  refine ⟨⟨c.expiryDate, listed.1, listed.2.1⟩, ?_⟩
  intro c' member own active open_
  have mem := (mem_past_of_active own active).mpr ⟨member, open_⟩
  have described := openCycle_opened settings db call
  rw [opened] at described
  cases described with
  | existing nearest found own' expiry =>
    have due : today settings call ≤ c'.expiryDate := by
      rw [← sound.cycles.ends c' member]
      exact open_
    rw [openCycle_unique (past_sound sound) mem found (own.trans own'.symm) due
      (expiry ▸ nearest.2.1), expiry]
    exact nearest
  | created nearest fresh => exact absurd active (fresh c' mem own).2

theorem openCycle_past (without : ∀ c, (openCycle settings db call).2 ≠ .ok (some c)) :
    (openCycle settings db call).1 = past settings db call := by
  have opened := openCycle_opened settings db call
  generalize openCycle settings db call = out at opened without ⊢
  cases opened with
  | created | existing => exact absurd rfl (without _)
  | unlisted | refused | ambiguous => rfl

theorem advance_of_not_ready (sound : Sound settings (today settings call) db)
    (stuck : ¬ Ready settings db call) :
    (advance settings db call).1 = past settings db call ∧
      ∀ advanced, (advance settings db call).2 = .ok advanced → advanced = {} := by
  have without : ∀ c, (openCycle settings db call).2 ≠ .ok (some c) := by
    intro c returned
    exact stuck (ready_of_openCycle sound (Prod.ext rfl returned))
  have same := openCycle_past without
  unfold advance lockSession openSession
  generalize openCycle settings db call = out at without same ⊢
  obtain ⟨db', result⟩ := out
  match result with
  | .error fault => exact ⟨same, by simp⟩
  | .ok none => exact ⟨same, by simp [eq_comm]⟩
  | .ok (some c) => exact absurd rfl (without c)

structure InSession (settings : Settings) (db : Db) (call : Call) (db' : Db) (c : ExpiryCycle)
    (s : DailySession) : Prop where
  opened : openSession settings db call = (db', .ok { cycle := some c, session := some s })
  sound : Sound settings (today settings call) db'
  member : s ∈ db'.sessions
  own : s.underlying = call.underlying
  date : s.tradingDate = today settings call
  cycle : cycleOf db' s = some c
  listed : Listed settings call c.expiryDate
  cycles : db'.cycles = (openCycle settings db call).1.cycles
  grown : s ∈ db.sessions ∧ db'.sessions = db.sessions ∨
    (∀ s' ∈ db.sessions, s'.underlying = call.underlying →
      s'.tradingDate ≠ today settings call) ∧ s.status = .pending ∧ db'.sessions = db.sessions ++ [s]

theorem openCycle_sessions : (openCycle settings db call).1.sessions = db.sessions := by
  have opened := openCycle_opened settings db call
  generalize openCycle settings db call = out at opened ⊢
  cases opened <;> rfl

theorem openSession_eq {db₁ db' : Db} {session : Option DailySession}
    (opened : openCycle settings db call = (db₁, .ok (some c)))
    (got : getOrCreateToday db₁ call.underlying c (today settings call) settings.holidays =
      (db', .ok session)) :
    openSession settings db call = (db', .ok { cycle := some c, session }) := by
  unfold openSession
  rw [opened]
  simp only [got]

theorem openSession_of_openCycle (sound : Sound settings (today settings call) db) {db₁ : Db}
    (openedCycle : openCycle settings db call = (db₁, .ok (some c)))
    (trading : isTradingDay (today settings call) settings.holidays = true) :
    ∃ db' s, InSession settings db call db' c s := by
  obtain ⟨member, own, listed⟩ := openCycle_returned openedCycle
  have sound₁ := (sound_of_writes sound (openCycle_writes openedCycle)).1
  have sessions : db₁.sessions = db.sessions := by
    rw [← @openCycle_sessions settings db call, openedCycle]
  have opened := getOrCreateToday_opened db₁ call.underlying c (today settings call)
    settings.holidays
  generalize got : getOrCreateToday db₁ call.underlying c (today settings call)
    settings.holidays = out at opened
  cases opened with
  | closed holiday =>
    rw [holiday] at trading
    cases trading
  | @existing s _ found own' date =>
    obtain ⟨x, mem, cycle, same, due⟩ := exists_cycleOf sound₁ found
    have equal : x = c := openCycle_unique sound₁ mem member
      (same.trans (own'.trans own.symm)) (date ▸ due) listed.2.1
    exact ⟨db₁, s, openSession_eq openedCycle got, sound₁, found, own', date, equal ▸ cycle,
      listed, by rw [openedCycle], .inl ⟨sessions ▸ found, sessions⟩⟩
  | created _ fresh =>
    have opened := openSession_eq openedCycle got
    have sound' := (sound_of_writes sound (@openSession_writes settings db call)).1
    rw [opened] at sound'
    refine ⟨_, _, opened, sound', List.mem_append_right _ (List.mem_singleton_self _), rfl, rfl,
      cycleOf_eq_some sound' member rfl, listed, by rw [openedCycle], .inr ⟨?_, rfl, ?_⟩⟩
    · rw [← sessions]
      exact fresh
    · rw [← sessions]
  | ambiguous twice =>
    have once := sessions_unambiguous sound₁ call.underlying (today settings call)
    omega

theorem advance_tables :
    (advance settings db call).1.sessions = (lockSession settings db call).1.sessions ∧
      (advance settings db call).1.cycles = (lockSession settings db call).1.cycles := by
  unfold advance
  split
  next db' cycle session locked =>
    have taken := snapshot_taken settings db' call session
    rw [locked]
    split
    all_goals
      next got =>
        rw [got] at taken
        cases taken <;> exact ⟨rfl, rfl⟩
  next => exact ⟨rfl, rfl⟩

end AlgoSystem.Proof.MarketData.StraddlePulse
