import AlgoSystem.MarketData.MarketHours

namespace AlgoSystem.Proof.MarketData.NextStart
open AlgoSystem.MarketData MarketHours

variable {hours : MarketHours} {now t : Int}

theorem marketIsOpen_iff : hours.marketIsOpen t = true ↔ ∃ day,
    isTradingDay day hours.holidays = true ∧ (hours.sessionWindow day).1 ≤ t ∧
      t < (hours.sessionWindow day).2 := by
  simp only [marketIsOpen, Bool.and_eq_true, decide_eq_true_eq, and_assoc]
  constructor
  · intro isOpen
    exact ⟨_, isOpen⟩
  · rintro ⟨day, trading, opened, before⟩
    have same : localDate hours.tz t = day := by
      have := hours.start.2.1
      have := hours.stop.2.2
      simp only [sessionWindow, localDate, oneDay, oneMinute] at *
      omega
    rw [same]
    exact ⟨trading, opened, before⟩

/-- The day has a session that begins at `now` or later. -/
def Starts (hours : MarketHours) (now day : Int) : Prop :=
  isTradingDay day hours.holidays = true ∧ now ≤ (hours.sessionWindow day).1

theorem startFrom_spec (hours : MarketHours) (now first : Int) (days : Nat) :
    match hours.startFrom now first days with
    | some s => ∃ day, s = (hours.sessionWindow day).1 ∧ Starts hours now day ∧
        ∀ d, first ≤ d → d < day → ¬ Starts hours now d
    | none => ∀ d, first ≤ d → d < first + days → ¬ Starts hours now d := by
  induction days generalizing first with
  | zero =>
    intro d low high
    omega
  | succ days ih =>
    rw [startFrom]
    split_ifs with starts
    · simp only [Bool.and_eq_true, decide_eq_true_eq] at starts
      exact ⟨first, rfl, starts, fun d low high => absurd high low.not_gt⟩
    · simp only [Bool.and_eq_true, decide_eq_true_eq] at starts
      have rest := ih (first + 1)
      have skip {d : Int} (low : first ≤ d) : d = first ∨ first + 1 ≤ d := by omega
      cases found : hours.startFrom now (first + 1) days with
      | some s =>
        rw [found] at rest
        obtain ⟨day, isStart, starting, before⟩ := rest
        refine ⟨day, isStart, starting, fun d low high => ?_⟩
        obtain rfl | later := skip low
        · exact starts
        · exact before d later high
      | none =>
        rw [found] at rest
        intro d low high
        obtain rfl | later := skip low
        · exact starts
        · exact rest d later (by omega)

theorem le_localDate {day : Int} (begun : (hours.sessionWindow day).1 ≤ t) :
    day ≤ localDate hours.tz t := by
  have := hours.start.2.1
  simp only [sessionWindow, localDate, oneDay, oneMinute] at *
  omega

/-- A session that began before `now`, when the market is closed, is over, so that a later instant
lies in a session that starts at `now` or later. -/
theorem closed_of_not_starts (closed : hours.marketIsOpen now = false) (later : now ≤ t)
    (none : ∀ day, localDate hours.tz now ≤ day → (hours.sessionWindow day).1 ≤ t →
      ¬ Starts hours now day) : hours.marketIsOpen t = false := by
  rw [Bool.eq_false_iff] at closed ⊢
  intro isOpen
  obtain ⟨day, trading, begun, before⟩ := marketIsOpen_iff.mp isOpen
  apply closed
  apply marketIsOpen_iff.mpr ⟨day, trading, ?_, by omega⟩
  by_contra early
  have upcoming : localDate hours.tz now ≤ day := by
    have := hours.start.2.2
    simp only [sessionWindow, localDate, oneDay, oneMinute] at *
    omega
  exact none day upcoming begun ⟨trading, (not_le.mp early).le⟩

theorem nextMarketStart_spec (ordered : hours.start < hours.stop)
    (closed : hours.marketIsOpen now = false) (maxLookaheadDays : Nat) :
    match hours.nextMarketStart now maxLookaheadDays with
    | some s => (∀ t, now ≤ t → t < s → hours.marketIsOpen t = false) ∧
        hours.marketIsOpen s = true
    | none => ∀ t, now ≤ t →
        localDate hours.tz t ≤ localDate hours.tz now + maxLookaheadDays →
        hours.marketIsOpen t = false := by
  have spec := startFrom_spec hours now (localDate hours.tz now) (maxLookaheadDays + 1)
  rw [nextMarketStart]
  cases found : hours.startFrom now (localDate hours.tz now) (maxLookaheadDays + 1) with
  | some s =>
    rw [found] at spec
    obtain ⟨day, rfl, starts, before⟩ := spec
    constructor
    · intro t later early
      apply closed_of_not_starts closed later
      intro d low begun
      apply before d low
      simp only [sessionWindow, oneDay, oneMinute] at begun early
      omega
    · apply marketIsOpen_iff.mpr ⟨day, starts.1, le_rfl, ?_⟩
      have : (hours.start : Int) < hours.stop := ordered
      simp only [sessionWindow]
      omega
  | none =>
    rw [found] at spec
    intro t later within
    apply closed_of_not_starts closed later
    intro d low begun
    apply spec d low
    have := le_localDate begun
    omega

def weekdays : MarketHours where
  start := ⟨9 * 60 * oneMinute, by decide⟩
  stop := ⟨15 * 60 * oneMinute, by decide⟩
  tz := ist
  holidays := []

/-- Day 2 is a Saturday. -/
theorem monday_after_friday :
    weekdays.nextMarketStart (2 * oneDay) = some (4 * oneDay + 210 * oneMinute) ∧
    ∀ t, 2 * oneDay ≤ t → t < 4 * oneDay + 210 * oneMinute → weekdays.marketIsOpen t = false := by
  have next : weekdays.nextMarketStart (2 * oneDay) = some (4 * oneDay + 210 * oneMinute) := by
    decide
  have spec := @nextMarketStart_spec weekdays (2 * oneDay) (by decide) (by decide) 14
  rw [next] at spec
  exact ⟨next, spec.1⟩

end AlgoSystem.Proof.MarketData.NextStart
