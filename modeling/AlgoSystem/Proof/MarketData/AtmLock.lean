import AlgoSystem.Proof.MarketData.Advance
import AlgoSystem.Proof.MarketData.Strikes

namespace AlgoSystem.Proof.MarketData.StraddlePulse
open AlgoSystem.MarketData AlgoSystem.MarketData.StraddlePulse General List

variable (settings : Settings) (db : Db) (call : Call)

def Due : Prop := combine settings.tz (today settings call) lockTime ≤ call.now

def candlesAt : List (MarketCandle ℚ) :=
  lockCandles settings call call.underlying (today settings call)

structure OneMinuteCandle (c : MarketCandle ℚ) : Prop where
  stored : c ∈ candlesAt settings call
  interval : c.interval = "1minute"

def Today (db' : Db) (s : DailySession) : Prop :=
  s ∈ db'.sessions ∧ s.underlying = call.underlying ∧ s.tradingDate = today settings call

def Unlocked (db' : Db) : Prop := ∀ s, Today settings call db' s → s.status = .pending

def LockedOn (db' : Db) (c : MarketCandle ℚ) : Prop :=
  ∃ s atm cycle, Today settings call db' s ∧ s.status = .locked atm ∧
    cycleOf db' s = some cycle ∧ atm.spot0916 = c.close ∧
    IsAtm (call.master.listStrikes call.underlying.symbol cycle.expiryDate) c.close atm.atmStrike

/-- A call locks the session on the one-minute candle once that is stored, and on nothing else. -/
structure LocksRight : Prop where
  locks : ∀ c, OneMinuteCandle settings call c → Due settings call →
    LockedOn settings call (advance settings db call).1 c
  spot : ∀ s atm, Today settings call (advance settings db call).1 s → s.status = .locked atm →
    ∃ c, OneMinuteCandle settings call c ∧ LockedOn settings call (advance settings db call).1 c

structure Unmistakable : Prop where
  alone : ∀ c, Due settings call → OneMinuteCandle settings call c →
    Ready settings db call ∧ candlesAt settings call = [c]
  own : ∀ c, Due settings call → Ready settings db call → candlesAt settings call = [c] →
    c.interval = "1minute"

variable {settings db call}

variable {db' : Db}

theorem not_unlocked_of_lockedOn {c : MarketCandle ℚ} (locked : LockedOn settings call db' c) :
    ¬ Unlocked settings call db' := by
  intro unlocked
  obtain ⟨s, atm, _, session, status, _⟩ := locked
  rw [unlocked s session] at status
  cases status

variable {c : ExpiryCycle} {s : DailySession}

section
variable (mem : InSession settings db call db' c s)
include mem

theorem InSession.unlocked (pending : s.status = .pending) : Unlocked settings call db' := by
  rintro s' ⟨member, own, date⟩
  have same : s' = s := by
    apply inj_on_of_nodup_map mem.sound.sessions.keys member mem.member
    rw [sessionKey, sessionKey, own, date, mem.own, mem.date]
  rw [same]
  exact pending

theorem InSession.lockSession_eq :
    lockSession settings db call =
      ((lockIfDue settings db' s call).1, (lockIfDue settings db' s call).2.map fun session =>
        { cycle := some c, session := some session }) := by
  unfold lockSession
  rw [mem.opened]
  simp only
  split
  next got => simp only [got, Except.map]
  next got => simp only [got, Except.map]

theorem InSession.lockCandles_eq :
    lockCandles settings call s.underlying s.tradingDate = candlesAt settings call := by
  rw [mem.own, mem.date, candlesAt]

end

inductive LockResult (settings : Settings) (call : Call) (db' : Db) (c : ExpiryCycle)
    (s : DailySession) : Outcome DailySession → Prop
  | already {atm : AtmLock} (locked : s.status = .locked atm) :
      LockResult settings call db' c s (db', .ok s)
  | early (early : ¬ Due settings call) : LockResult settings call db' c s (db', .ok s)
  | missing (none_found : candlesAt settings call = []) :
      LockResult settings call db' c s (db', .ok s)
  | ambiguous (pending : s.status = .pending) (due : Due settings call)
      (twice : 2 ≤ (candlesAt settings call).length) :
      LockResult settings call db' c s (db', .error .multipleResultsFound)
  | locked {candle : MarketCandle ℚ} {atm : ℚ} (due : Due settings call)
      (candles : candlesAt settings call = [candle])
      (nearest : nearestStrike (call.master.listStrikes call.underlying.symbol c.expiryDate)
        candle.close = some atm) {lock : AtmLock}
      (spot : lock.spot0916 = candle.close) (strike : lock.atmStrike = atm) :
      LockResult settings call db' c s
        (saveSession db' { s with status := .locked lock }, .ok { s with status := .locked lock })

theorem InSession.lock_result (mem : InSession settings db call db' c s) :
    LockResult settings call db' c s (lockIfDue settings db' s call) := by
  have candles := mem.lockCandles_eq
  unfold lockIfDue
  split
  next atm locked => exact .already locked
  next pending =>
    rw [mem.date]
    split_ifs with early
    · exact .early (not_le.mpr early)
    have due : Due settings call := not_lt.mp early
    rw [← mem.date]
    obtain ⟨none_found, looked⟩ | ⟨candle, one, looked⟩ | ⟨twice, looked⟩ :=
      scalarOneOrNone_cases (lockCandles settings call s.underlying s.tradingDate)
    · simp only [looked]
      exact .missing (candles ▸ none_found)
    · simp only [looked, mem.cycle]
      cases nearest : nearestStrike
          (call.master.listStrikes s.underlying.symbol c.expiryDate) candle.close with
      | none =>
        rw [nearestStrike, argmin_eq_none, mem.own] at nearest
        exact absurd nearest (listStrikes_ne_nil mem.listed.1)
      | some atm => exact .locked due (candles ▸ one) (mem.own ▸ nearest) rfl rfl
    · simp only [looked]
      exact .ambiguous pending due (candles ▸ twice)

theorem InSession.lock_cases (mem : InSession settings db call db' c s)
    (pending : s.status = .pending) :
    Unlocked settings call (advance settings db call).1 ∧
        (¬ Due settings call ∨ candlesAt settings call = [] ∨
          2 ≤ (candlesAt settings call).length) ∨
      Due settings call ∧ ∃ candle, candlesAt settings call = [candle] ∧
        LockedOn settings call (advance settings db call).1 candle := by
  obtain ⟨sessions, cycles⟩ := @advance_tables settings db call
  rw [mem.lockSession_eq] at sessions cycles
  have unlocked (kept : (advance settings db call).1.sessions = db'.sessions) :
      Unlocked settings call (advance settings db call).1 := by
    rintro s' ⟨member, own, date⟩
    rw [kept] at member
    exact mem.unlocked pending s' ⟨member, own, date⟩
  have result := mem.lock_result
  generalize lockIfDue settings db' s call = out at result sessions cycles
  cases result with
  | already locked =>
    rw [pending] at locked
    cases locked
  | early early => exact .inl ⟨unlocked sessions, .inl early⟩
  | missing none_found => exact .inl ⟨unlocked sessions, .inr (.inl none_found)⟩
  | ambiguous _ _ twice => exact .inl ⟨unlocked sessions, .inr (.inr twice)⟩
  | @locked candle _ due candles nearest lock spot strike =>
    refine .inr ⟨due, candle, candles, { s with status := .locked lock }, lock, c,
      ⟨?_, mem.own, mem.date⟩, rfl, ?_, spot, ?_⟩
    · rw [sessions]
      exact (mem_saveSession mem.sound.sessions.ids mem.member _).mpr (.inl rfl)
    · have same : cycleOf (advance settings db call).1 s = cycleOf db' s := by
        unfold cycleOf
        rw [cycles]
        rfl
      exact same.trans mem.cycle
    · rw [strike]
      exact isAtm_of_nearestStrike listStrikes_pairwise nearest

section
variable (sound : Sound settings (today settings call) db)
  (trading : isTradingDay (today settings call) settings.holidays = true)
  (pending : Unlocked settings call db)
include sound trading pending

theorem advance_lock_cases :
    Unlocked settings call (advance settings db call).1 ∧
        (¬ Ready settings db call ∨ ¬ Due settings call ∨ candlesAt settings call = [] ∨
          2 ≤ (candlesAt settings call).length) ∨
      Ready settings db call ∧ Due settings call ∧ ∃ candle, candlesAt settings call = [candle] ∧
        LockedOn settings call (advance settings db call).1 candle := by
  by_cases ready : Ready settings db call
  · obtain ⟨db₁, c, opened⟩ := openCycle_of_ready sound ready
    obtain ⟨db', s, mem⟩ := openSession_of_openCycle sound opened trading
    have status : s.status = .pending := by
      rcases mem.grown with ⟨member, _⟩ | ⟨_, new, _⟩
      · exact pending s ⟨member, mem.own, mem.date⟩
      · exact new
    rcases mem.lock_cases status with ⟨unlocked, reason⟩ | locked
    · exact .inl ⟨unlocked, .inr reason⟩
    · exact .inr ⟨ready, locked⟩
  · refine .inl ⟨?_, .inl ready⟩
    rw [Unlocked, (advance_of_not_ready sound ready).1]
    exact pending

theorem advance_lockedOn (ready : Ready settings db call) (due : Due settings call)
    {c : MarketCandle ℚ} (alone : candlesAt settings call = [c]) :
    LockedOn settings call (advance settings db call).1 c := by
  rcases advance_lock_cases sound trading pending with
    ⟨_, stuck | early | none_found | twice⟩ | ⟨_, _, other, alone', locked⟩
  · exact absurd ready stuck
  · exact absurd due early
  · rw [alone] at none_found
    cases none_found
  · simp [alone] at twice
  · rw [alone] at alone'
    cases alone'
    exact locked

end

theorem locksRight_iff_unmistakable {start : Int} {pulse : Pulse} {events : List Event}
    (path : run (Pulse.step settings) { clock := start } events = some pulse)
    (clock : pulse.clock ≤ call.now)
    (trading : isTradingDay (today settings call) settings.holidays = true)
    (pending : Unlocked settings call pulse.db) :
    LocksRight settings pulse.db call ↔ Unmistakable settings pulse.db call := by
  have sound : Sound settings (today settings call) pulse.db :=
    (run_sound path).mono (localDate_mono settings.tz clock)
  have cases_ := advance_lock_cases sound trading pending
  constructor
  · intro right
    constructor
    · intro c due candle
      rcases cases_ with ⟨unlocked, _⟩ | ⟨ready, _, other, alone, _⟩
      · exact absurd unlocked (not_unlocked_of_lockedOn (right.locks c candle due))
      · have same := candle.stored
        rw [alone] at same
        rw [mem_singleton.mp same]
        exact ⟨ready, alone⟩
    · intro c due ready alone
      obtain ⟨s, atm, _, session, status, _⟩ :=
        advance_lockedOn sound trading pending ready due alone
      obtain ⟨c', candle, _⟩ := right.spot s atm session status
      have same := candle.stored
      rw [alone] at same
      rw [← mem_singleton.mp same]
      exact candle.interval
  · intro clear
    constructor
    · intro c candle due
      obtain ⟨ready, alone⟩ := clear.alone c due candle
      exact advance_lockedOn sound trading pending ready due alone
    · intro s atm session status
      rcases cases_ with ⟨unlocked, _⟩ | ⟨ready, due, candle, alone, locked⟩
      · rw [unlocked s session] at status
        cases status
      · refine ⟨candle, ⟨?_, clear.own candle due ready alone⟩, locked⟩
        rw [alone]
        exact mem_singleton_self candle

def weekListing : InstrumentMaster := listing (monday + 3) [100, 150, 200]

def oneMinute130 : MarketCandle ℚ := indexRow (candleOf "1minute" monday 130)

theorem lockedOn_oneMinute130 :
    LockedOn sample (callAt 560 weekListing [oneMinute130])
      (advance sample {} (callAt 560 weekListing [oneMinute130])).1 oneMinute130 := by
  have path : run (Pulse.step sample) { clock := 0 } [] = some { clock := 0 } := rfl
  have single : candlesAt sample (callAt 560 weekListing [oneMinute130]) = [oneMinute130] := by
    decide +kernel
  have clear : Unmistakable sample {} (callAt 560 weekListing [oneMinute130]) := by
    constructor
    · intro c _ candle
      have same := candle.stored
      rw [single] at same
      rw [mem_singleton.mp same]
      refine ⟨⟨⟨monday + 3, by decide +kernel, by decide⟩, ?_⟩, single⟩
      intro c member
      cases member
    · intro c _ _ alone
      rw [single] at alone
      cases alone
      rfl
  have right := (locksRight_iff_unmistakable path (by decide) (by decide) (by
    rintro s ⟨member, _⟩
    cases member)).mpr clear
  exact right.locks oneMinute130 ⟨by rw [single]; exact mem_singleton_self _, rfl⟩
    (by unfold Due; decide)

def twoWriters : List (MarketCandle ℚ) :=
  persistIndexCandles (persistIndexCandles [] [candleOf "1minute" monday 130])
    [candleOf "5minute" monday 180]

theorem twoWriters_not_locked :
    (advance sample {} (callAt 560 weekListing twoWriters)).2 = .error .multipleResultsFound ∧
      (advance sample {} (callAt 560 weekListing
        (persistIndexCandles [] [candleOf "5minute" monday 180]))).1.sessions.map
          DailySession.status = [.locked ⟨180, 200, "CE", "PE", none, none⟩] ∧
      ¬ LocksRight sample {} (callAt 560 weekListing twoWriters) := by
  refine ⟨by rfl, by decide +kernel, ?_⟩
  intro right
  have stored : oneMinute130 ∈ candlesAt sample (callAt 560 weekListing twoWriters) := by
    decide +kernel
  obtain ⟨s, atm, _, ⟨member, _⟩, locked, _⟩ :=
    right.locks oneMinute130 ⟨stored, rfl⟩ (by unfold Due; decide)
  have statuses : (advance sample {} (callAt 560 weekListing twoWriters)).1.sessions.map
      DailySession.status = [.pending] := by
    decide +kernel
  have status := mem_map_of_mem (f := DailySession.status) member
  rw [statuses, locked] at status
  cases mem_singleton.mp status

end AlgoSystem.Proof.MarketData.StraddlePulse
