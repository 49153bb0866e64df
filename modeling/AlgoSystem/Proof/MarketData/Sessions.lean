import AlgoSystem.General.Runs
import AlgoSystem.Proof.MarketData.StraddlePulse

namespace AlgoSystem.Proof.MarketData.StraddlePulse
open AlgoSystem.MarketData AlgoSystem.MarketData.StraddlePulse General List

variable {underlying : Underlying} {cycles : List ExpiryCycle} {holidays : List Int}
  {pulse' : Pulse} {events : List Event}

structure SameCycle (c c' : ExpiryCycle) : Prop where
  id : c'.id = c.id
  underlying : c'.underlying = c.underlying
  expiryDate : c'.expiryDate = c.expiryDate
  cycleStartDate : c'.cycleStartDate = c.cycleStartDate
  cycleEndDate : c'.cycleEndDate = c.cycleEndDate

theorem SameCycle.refl (c : ExpiryCycle) : SameCycle c c := ⟨rfl, rfl, rfl, rfl, rfl⟩

variable {c : ExpiryCycle}

theorem SameCycle.trans {a b : ExpiryCycle} (ab : SameCycle a b) (bc : SameCycle b c) :
    SameCycle a c where
  id := bc.id.trans ab.id
  underlying := bc.underlying.trans ab.underlying
  expiryDate := bc.expiryDate.trans ab.expiryDate
  cycleStartDate := bc.cycleStartDate.trans ab.cycleStartDate
  cycleEndDate := bc.cycleEndDate.trans ab.cycleEndDate

structure CyclesSound (day : Int) (cycles : List ExpiryCycle) : Prop where
  ids : (cycles.map ExpiryCycle.id).Nodup
  numbers : ∀ c ∈ cycles, c.id ≤ cycles.length
  keys : (cycles.map fun c => (c.underlying, c.expiryDate)).Nodup
  ends : ∀ c ∈ cycles, c.cycleEndDate = c.expiryDate
  starts : ∀ c ∈ cycles, c.cycleStartDate ≤ c.expiryDate
  completed : ∀ c ∈ cycles, c.status = .completed → c.expiryDate < day
  oneActive : ∀ c ∈ cycles, ∀ c' ∈ cycles, c.underlying = c'.underlying →
    c.status = .active → c'.status = .active → c = c'

def sessionKey (s : DailySession) : Underlying × Int := (s.underlying, s.tradingDate)

structure SessionsSound (holidays : List Int) (sessions : List DailySession) : Prop where
  ids : (sessions.map DailySession.id).Nodup
  numbers : ∀ s ∈ sessions, s.id ≤ sessions.length
  keys : (sessions.map sessionKey).Nodup
  trading : ∀ s ∈ sessions, isTradingDay s.tradingDate holidays = true

def snapshotKey (row : OISnapshot) : Underlying × Int × Int × Int :=
  (row.underlying, row.expiryDate, row.tradingDate, row.timestamp)

structure Sound (settings : Settings) (day : Int) (db : Db) : Prop where
  cycles : CyclesSound day db.cycles
  sessions : SessionsSound settings.holidays db.sessions
  reference : ∀ s ∈ db.sessions, ∃ c ∈ db.cycles, c.id = s.cycleId ∧
    c.underlying = s.underlying ∧ s.tradingDate ≤ c.expiryDate
  snapshots : (db.oiSnapshots.map snapshotKey).Nodup

theorem Sound.mono {settings : Settings} {day day' : Int} {db : Db} (sound : Sound settings day db)
    (later : day ≤ day') : Sound settings day' db :=
  { sound with
    cycles := { sound.cycles with
      completed := fun c member completed =>
        (sound.cycles.completed c member completed).trans_le later } }

theorem sound_empty (settings : Settings) (day : Int) : Sound settings day {} := by
  refine ⟨⟨?_, ?_, ?_, ?_, ?_, ?_, ?_⟩, ⟨?_, ?_, ?_, ?_⟩, ?_, ?_⟩ <;> simp

variable {settings : Settings} {day : Int} {db db' : Db}

def complete (underlying : Underlying) (day : Int) (c : ExpiryCycle) : ExpiryCycle :=
  if c.underlying = underlying ∧ c.status = .active ∧ c.cycleEndDate < day then
    { c with status := .completed }
  else c

theorem sameCycle_complete (underlying : Underlying) (day : Int) (c : ExpiryCycle) :
    SameCycle c (complete underlying day c) := by
  unfold complete
  split_ifs <;> exact ⟨rfl, rfl, rfl, rfl, rfl⟩

theorem complete_active (active : (complete underlying day c).status = .active) :
    complete underlying day c = c := by
  unfold complete at active ⊢
  split_ifs with done
  · rw [if_pos done] at active
    cases active
  · rfl

theorem complete_completed (completed : (complete underlying day c).status = .completed) :
    c.status = .completed ∨ c.cycleEndDate < day := by
  unfold complete at completed
  split_ifs at completed with done
  · exact .inr done.2.2
  · exact .inl completed

theorem CyclesSound.complete (sound : CyclesSound day cycles) (underlying : Underlying) :
    CyclesSound day (cycles.map (complete underlying day)) := by
  have same := sameCycle_complete underlying day
  constructor
  · simpa only [map_map, Function.comp_def, (same _).id] using sound.ids
  · simp only [mem_map, forall_exists_index, and_imp, forall_apply_eq_imp_iff₂,
      length_map, (same _).id]
    exact sound.numbers
  · simpa only [map_map, Function.comp_def, (same _).underlying, (same _).expiryDate]
      using sound.keys
  · simp only [mem_map, forall_exists_index, and_imp, forall_apply_eq_imp_iff₂,
      (same _).cycleEndDate, (same _).expiryDate]
    exact sound.ends
  · simp only [mem_map, forall_exists_index, and_imp, forall_apply_eq_imp_iff₂,
      (same _).cycleStartDate, (same _).expiryDate]
    exact sound.starts
  · intro c' member completed
    obtain ⟨c, old, rfl⟩ := mem_map.mp member
    rw [(same c).expiryDate]
    cases complete_completed completed with
    | inl before => exact sound.completed c old before
    | inr ended =>
      rw [← sound.ends c old]
      exact ended
  · intro c' member d' member' own active active'
    obtain ⟨c, old, rfl⟩ := mem_map.mp member
    obtain ⟨d, old', rfl⟩ := mem_map.mp member'
    rw [complete_active active, complete_active active'] at own ⊢
    rw [complete_active active] at active
    rw [complete_active active'] at active'
    exact sound.oneActive c old d old' own active active'

theorem CyclesSound.concat (sound : CyclesSound day cycles) (number : c.id = cycles.length + 1)
    (active : c.status = .active) (starts : c.cycleStartDate ≤ c.expiryDate)
    (ends : c.cycleEndDate = c.expiryDate)
    (fresh : ∀ other ∈ cycles, other.underlying = c.underlying →
      other.expiryDate ≠ c.expiryDate ∧ other.status ≠ .active) :
    CyclesSound day (cycles ++ [c]) := by
  obtain ⟨ids, numbers⟩ := numbered_concat sound.ids sound.numbers number
  refine ⟨ids, numbers, ?_, ?_, ?_, ?_, ?_⟩
  · apply nodup_map_concat sound.keys
    intro other member same
    obtain ⟨own, expiry⟩ := Prod.mk.inj same
    exact (fresh other member own).1 expiry
  · rw [forall_mem_append]
    exact ⟨sound.ends, by simpa using ends⟩
  · rw [forall_mem_append]
    exact ⟨sound.starts, by simpa using starts⟩
  · rw [forall_mem_append]
    exact ⟨sound.completed, by simp [active]⟩
  · intro a ha b hb own activeA activeB
    rcases mem_append.mp ha with oldA | newA <;> rcases mem_append.mp hb with oldB | newB
    · exact sound.oneActive a oldA b oldB own activeA activeB
    · rw [mem_singleton.mp newB] at own
      exact absurd activeA (fresh a oldA own).2
    · rw [mem_singleton.mp newA] at own
      exact absurd activeB (fresh b oldB own.symm).2
    · rw [mem_singleton.mp newA, mem_singleton.mp newB]

variable {s : DailySession}

theorem SessionsSound.concat {sessions : List DailySession}
    (sound : SessionsSound holidays sessions) (number : s.id = sessions.length + 1)
    (trading : isTradingDay s.tradingDate holidays = true)
    (fresh : ∀ other ∈ sessions, other.underlying = s.underlying →
      other.tradingDate ≠ s.tradingDate) :
    SessionsSound holidays (sessions ++ [s]) := by
  obtain ⟨ids, numbers⟩ := numbered_concat sound.ids sound.numbers number
  refine ⟨ids, numbers, ?_, ?_⟩
  · apply nodup_map_concat sound.keys
    intro other member same
    obtain ⟨own, date⟩ := Prod.mk.inj same
    exact fresh other member own date
  · rw [forall_mem_append]
    exact ⟨sound.trading, by simpa using trading⟩

section
variable (ids : (db.sessions.map DailySession.id).Nodup) (member : s ∈ db.sessions)
  (status : SessionStatus)
include ids member status

theorem map_saveSession {γ : Type} {f : DailySession → γ} (same : f { s with status } = f s) :
    (saveSession db { s with status }).sessions.map f = db.sessions.map f := by
  unfold saveSession
  rw [map_map]
  apply map_congr_left
  intro other mem
  simp only [Function.comp_apply]
  split_ifs with own
  · rw [same, inj_on_of_nodup_map ids mem member own]
  · rfl

theorem mem_saveSession {other : DailySession} :
    other ∈ (saveSession db { s with status }).sessions ↔
      other = { s with status } ∨ other ∈ db.sessions ∧ other ≠ s := by
  unfold saveSession
  rw [mem_map]
  constructor
  · rintro ⟨old, mem, rfl⟩
    split_ifs with own
    · exact .inl rfl
    · refine .inr ⟨mem, ?_⟩
      rintro rfl
      exact own rfl
  · rintro (rfl | ⟨mem, different⟩)
    · exact ⟨s, member, if_pos rfl⟩
    · refine ⟨other, mem, if_neg ?_⟩
      intro own
      exact different (inj_on_of_nodup_map ids mem member own)

end

theorem SessionsSound.save (sound : SessionsSound holidays db.sessions) (member : s ∈ db.sessions)
    (status : SessionStatus) :
    SessionsSound holidays (saveSession db { s with status }).sessions := by
  constructor
  · rw [map_saveSession sound.ids member status (by rfl)]
    exact sound.ids
  · intro other mem
    have length : (saveSession db { s with status }).sessions.length = db.sessions.length :=
      length_map ..
    rw [length]
    rcases (mem_saveSession sound.ids member status).mp mem with rfl | ⟨old, _⟩
    · exact sound.numbers s member
    · exact sound.numbers other old
  · rw [map_saveSession sound.ids member status (by rfl)]
    exact sound.keys
  · intro other mem
    rcases (mem_saveSession sound.ids member status).mp mem with rfl | ⟨old, _⟩
    · exact sound.trading s member
    · exact sound.trading other old

theorem sound_of_write (sound : Sound settings day db) (write : Write settings day db db') :
    Sound settings day db' := by
  cases write with
  | complete underlying =>
    refine { sound with cycles := sound.cycles.complete underlying, reference := ?_ }
    intro s member
    obtain ⟨c, found, id, own, due⟩ := sound.reference s member
    have same := sameCycle_complete underlying day c
    refine ⟨complete underlying day c, mem_map_of_mem found, ?_, ?_, ?_⟩
    · rw [same.id, id]
    · rw [same.underlying, own]
    · rw [same.expiryDate]
      exact due
  | cycle c number active due starts ends fresh =>
    refine { sound with cycles := sound.cycles.concat number active starts ends fresh, reference := ?_ }
    intro s member
    obtain ⟨old, found, rest⟩ := sound.reference s member
    exact ⟨old, mem_append_left _ found, rest⟩
  | session s c number member reference own pending date due trading fresh =>
    refine { sound with
      sessions := sound.sessions.concat number (date ▸ trading) fresh, reference := ?_ }
    rw [forall_mem_append]
    refine ⟨sound.reference, ?_⟩
    intro other new
    rw [mem_singleton.mp new]
    exact ⟨c, member, reference.symm, own.symm, date ▸ due⟩
  | lock s atm member pending =>
    refine { sound with sessions := sound.sessions.save member (.locked atm), reference := ?_ }
    intro other mem
    rcases (mem_saveSession sound.sessions.ids member (.locked atm)).mp mem with rfl | ⟨old, _⟩
    · exact sound.reference s member
    · exact sound.reference other old
  | snapshot row fresh =>
    refine { sound with snapshots := nodup_map_concat sound.snapshots ?_ }
    intro other mem same
    simp only [snapshotKey, Prod.mk.injEq] at same
    exact fresh other mem same.1 same.2.1 same.2.2.1 same.2.2.2

structure Keeps (db db' : Db) : Prop where
  locked : ∀ s ∈ db.sessions, ∀ atm, s.status = .locked atm → s ∈ db'.sessions
  cycles : ∀ c ∈ db.cycles, ∃ c' ∈ db'.cycles, SameCycle c c'

theorem Keeps.refl (db : Db) : Keeps db db :=
  ⟨fun _ member _ _ => member, fun c member => ⟨c, member, .refl c⟩⟩

theorem Keeps.trans {a b c : Db} (ab : Keeps a b) (bc : Keeps b c) : Keeps a c where
  locked s member atm locked := bc.locked s (ab.locked s member atm locked) atm locked
  cycles x member := by
    obtain ⟨y, mem, same⟩ := ab.cycles x member
    obtain ⟨z, mem', same'⟩ := bc.cycles y mem
    exact ⟨z, mem', same.trans same'⟩

theorem keeps_of_write (sound : Sound settings day db) (write : Write settings day db db') :
    Keeps db db' := by
  cases write with
  | complete underlying =>
    refine ⟨fun _ member _ _ => member, ?_⟩
    intro c member
    exact ⟨complete underlying day c, mem_map_of_mem member, sameCycle_complete underlying day c⟩
  | cycle c =>
    exact ⟨fun _ member _ _ => member, fun c member =>
      ⟨c, mem_append_left _ member, .refl c⟩⟩
  | session s =>
    exact ⟨fun _ member _ _ => mem_append_left _ member, (Keeps.refl db).cycles⟩
  | lock s atm member pending =>
    refine ⟨?_, (Keeps.refl db).cycles⟩
    intro other mem atm' locked
    refine (mem_saveSession sound.sessions.ids member (.locked atm)).mpr (.inr ⟨mem, ?_⟩)
    rintro rfl
    rw [pending] at locked
    cases locked
  | snapshot row => exact ⟨fun _ member _ _ => member, (Keeps.refl db).cycles⟩

theorem sound_of_writes (sound : Sound settings day db) (writes : Writes settings day db db') :
    Sound settings day db' ∧ Keeps db db' := by
  induction writes with
  | refl => exact ⟨sound, .refl db⟩
  | tail _ write ih =>
    obtain ⟨before, kept⟩ := ih
    exact ⟨sound_of_write before write, kept.trans (keeps_of_write before write)⟩

theorem localDate_mono (tz : Int) {now now' : Int} (later : now ≤ now') :
    localDate tz now ≤ localDate tz now' :=
  Int.ediv_le_ediv (by decide) (by omega)

theorem perform_writes (settings : Settings) (pulse : Pulse) (event : Event) :
    (pulse.perform settings event).clock = event.now ∧
      Writes settings (localDate settings.tz event.now) pulse.db
        (pulse.perform settings event).db := by
  cases event with
  | finished => exact ⟨rfl, advance_writes⟩
  | killed _ point => exact ⟨rfl, interrupted_writes point⟩

variable {pulse : Pulse}

theorem step_sound {event : Event}
    (sound : Sound settings (localDate settings.tz pulse.clock) pulse.db)
    (stepped : pulse.step settings event = some pulse') :
    Sound settings (localDate settings.tz pulse'.clock) pulse'.db ∧ Keeps pulse.db pulse'.db := by
  unfold Pulse.step at stepped
  split_ifs at stepped with back
  cases stepped
  obtain ⟨clock, writes⟩ := perform_writes settings pulse event
  rw [clock]
  exact sound_of_writes (sound.mono (localDate_mono settings.tz (not_lt.mp back))) writes

theorem run_sound {start : Int}
    (path : run (Pulse.step settings) { clock := start } events = some pulse) :
    Sound settings (localDate settings.tz pulse.clock) pulse.db :=
  run_invariant (I := fun pulse => Sound settings (localDate settings.tz pulse.clock) pulse.db)
    (fun _ _ _ sound stepped => (step_sound sound stepped).1) path (sound_empty settings _)

theorem tables_stay_sound (settings : Settings) (start : Int) (events : List Event) :
    Always (Pulse.step settings)
      (fun pulse => Sound settings (localDate settings.tz pulse.clock) pulse.db)
      { clock := start } events :=
  fun _ _ _ path => run_sound path

theorem run_keeps (sound : Sound settings (localDate settings.tz pulse.clock) pulse.db)
    (path : run (Pulse.step settings) pulse events = some pulse') : Keeps pulse.db pulse'.db := by
  refine (run_invariant (I := fun u => Sound settings (localDate settings.tz u.clock) u.db ∧
    Keeps pulse.db u.db) ?_ path ⟨sound, .refl pulse.db⟩).2
  rintro u event v ⟨before, kept⟩ stepped
  obtain ⟨after, keeps⟩ := step_sound before stepped
  exact ⟨after, kept.trans keeps⟩

theorem cycleOf_eq_some (sound : Sound settings day db) (member : c ∈ db.cycles)
    (id : c.id = s.cycleId) : cycleOf db s = some c := by
  unfold cycleOf
  cases found : db.cycles.find? fun c => c.id = s.cycleId with
  | none =>
    have absent := find?_eq_none.mp found c member
    simp [id] at absent
  | some c' =>
    have same : c'.id = s.cycleId := by simpa using find?_some found
    rw [inj_on_of_nodup_map sound.cycles.ids (mem_of_find?_eq_some found) member
      (same.trans id.symm)]

theorem exists_cycleOf (sound : Sound settings day db) (member : s ∈ db.sessions) :
    ∃ c ∈ db.cycles, cycleOf db s = some c ∧ c.underlying = s.underlying ∧
      s.tradingDate ≤ c.expiryDate := by
  obtain ⟨c, found, id, own, due⟩ := sound.reference s member
  exact ⟨c, found, cycleOf_eq_some sound found id, own, due⟩

structure Immutable (settings : Settings) (before after : Db) : Prop where
  locked : ∀ s ∈ before.sessions, ∀ atm, s.status = .locked atm →
    s ∈ after.sessions ∧ ∀ s' ∈ after.sessions, s'.id = s.id → s' = s
  cycle : ∀ s ∈ before.sessions, ∀ atm, s.status = .locked atm →
    ∃ c c', cycleOf before s = some c ∧ cycleOf after s = some c' ∧ SameCycle c c'
  one : ∀ s ∈ after.sessions, ∀ s' ∈ after.sessions, s.underlying = s'.underlying →
    s.tradingDate = s'.tradingDate → s = s'
  trading : ∀ s ∈ after.sessions, isTradingDay s.tradingDate settings.holidays = true

theorem locked_sessions_immutable {start : Int} {before after : Pulse} {first rest : List Event}
    (begun : run (Pulse.step settings) { clock := start } first = some before)
    (continued : run (Pulse.step settings) before rest = some after) :
    Immutable settings before.db after.db := by
  have sound := run_sound begun
  have sound' : Sound settings (localDate settings.tz after.clock) after.db :=
    run_sound (run_append_eq_some.mpr ⟨before, begun, continued⟩)
  have kept := run_keeps sound continued
  constructor
  · intro s member atm locked
    have mem := kept.locked s member atm locked
    refine ⟨mem, ?_⟩
    intro s' mem' same
    exact inj_on_of_nodup_map sound'.sessions.ids mem' mem same
  · intro s member atm locked
    obtain ⟨c, found, id, _⟩ := sound.reference s member
    obtain ⟨c', found', same⟩ := kept.cycles c found
    exact ⟨c, c', cycleOf_eq_some sound found id,
      cycleOf_eq_some sound' found' (same.id.trans id), same⟩
  · intro s mem s' mem' own date
    apply inj_on_of_nodup_map sound'.sessions.keys mem mem'
    rw [sessionKey, sessionKey, own, date]
  · exact sound'.sessions.trading

/-! A Monday in a week that ends with an expiry on Thursday. -/

def sample : Settings where
  strikeRange _ := 1
  formats := { isoformat := fun _ => "", strike := fun _ => "" }

def monday : Int := 20003

def listing (expiry : Int) (strikes : List ℚ) : InstrumentMaster :=
  ⟨strikes.flatMap fun strike =>
    [⟨"CE", .nfo, "NIFTY", expiry, strike, .ce, none⟩,
      ⟨"PE", .nfo, "NIFTY", expiry, strike, .pe, none⟩]⟩

def candleOf (interval : String) (day : Int) (close : ℚ) : IndexKey × Candle ℚ :=
  (("NIFTY", "NSE"),
    ⟨"NIFTY", interval, combine ist day candleMinute, close, close, close, close, none, none⟩)

def callAt (minute : Int) (master : InstrumentMaster) (candles : List (MarketCandle ℚ))
    (day : Int := monday) : Call where
  underlying := .nifty
  now := combine ist day minute
  master
  candles
  contractIds := .empty
  openInterest _ := none
  utcNow := combine ist day minute

def lockingCall : Event :=
  .finished (callAt 560 (listing (monday + 3) [100, 150, 200])
    (persistIndexCandles [] [candleOf "1minute" monday 130]))

def laterCall : Event :=
  .finished (callAt 600 (listing (monday + 3) [100, 140])
    (persistIndexCandles [] [candleOf "1minute" monday 100]))

theorem locked_sample_immutable : ∃ before after,
    run (Pulse.step sample) { clock := 0 } [lockingCall] = some before ∧
      run (Pulse.step sample) before [laterCall] = some after ∧
      Immutable sample before.db after.db ∧
      ∃ s ∈ before.db.sessions, ∃ atm, s.status = .locked atm ∧ atm.atmStrike = 150 := by
  have begun : (run (Pulse.step sample) { clock := 0 } [lockingCall]).map
      (fun pulse => (pulse.db.sessions.map DailySession.status, pulse.clock)) =
      some ([.locked ⟨130, 150, "CE", "PE", none, none⟩], combine ist monday 560) := by
    decide +kernel
  obtain ⟨before, path, seen⟩ := Option.map_eq_some_iff.mp begun
  obtain ⟨statuses, clock⟩ := Prod.mk.inj seen
  obtain ⟨s, member, locked⟩ := mem_map.mp (statuses ▸ mem_singleton_self _)
  have continued : run (Pulse.step sample) before [laterCall] =
      some (before.perform sample laterCall) := by
    refine run_cons_eq_some.mpr ⟨_, ?_, rfl⟩
    rw [Pulse.step, clock]
    exact if_neg (by decide)
  exact ⟨before, _, path, continued, locked_sessions_immutable path continued, s, member, _,
    locked, rfl⟩

end AlgoSystem.Proof.MarketData.StraddlePulse
