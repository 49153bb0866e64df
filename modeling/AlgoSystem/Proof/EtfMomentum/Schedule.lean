import AlgoSystem.EtfMomentum.Runner
import AlgoSystem.General.Runs
import AlgoSystem.Proof.EtfMomentum.Rebalance
import Mathlib.Data.List.Chain

namespace AlgoSystem.Proof.EtfMomentum.Schedule
open AlgoSystem.EtfMomentum General List

variable {config : Config} {s t : Session} {p : Portfolio} {day : Date}
variable {u : Session} {closes : Closes} {now : Clock} {event : SessionEvent}

theorem sameMonth_iff {a b : Date} : sameMonth a b = true ↔ a.monthIndex = b.monthIndex := by
  have := a.valid
  have := b.valid
  simp only [sameMonth, Date.monthIndex, Bool.and_eq_true, decide_eq_true_eq]
  omega

def Increasing (signals : List Date) : Prop :=
  signals.Pairwise fun a b => a.monthIndex < b.monthIndex

def Separate (credited : List (Nat × Nat)) : Prop :=
  credited.Pairwise fun a b => ∀ day, ¬ ((a.1 < day ∧ day ≤ a.2) ∧ b.1 < day ∧ day ≤ b.2)

theorem increasing_concat {signals : List Date} {last : Option Date}
    (recent : signals.getLast? = last) (apart : ¬ last.any (sameMonth · day) = true) :
    Increasing (signals ++ [day]) ↔
      Increasing signals ∧ ∀ date ∈ last, date.monthIndex ≤ day.monthIndex := by
  subst recent
  rw [Increasing, pairwise_append]
  simp only [pairwise_singleton, true_and, mem_singleton, forall_eq]
  refine and_congr_right fun increasing => ?_
  constructor
  · intro before date final
    exact (before date (mem_of_getLast? final)).le
  · intro ordered date mem
    obtain ⟨final, found⟩ := Option.isSome_iff_exists.mp
      (getLast?_isSome.mpr (ne_nil_of_mem mem))
    have other : final.monthIndex ≠ day.monthIndex := by
      intro same
      exact apart (by simp [found, sameMonth_iff.mpr same])
    have least : final.monthIndex < day.monthIndex := lt_of_le_of_ne (ordered final found) other
    obtain ⟨front, rfl⟩ := getLast?_eq_some_iff.mp found
    rcases mem_append.mp mem with earlier | latest
    · have order := (pairwise_append.mp increasing).2.2 date earlier final
        (mem_singleton_self _)
      exact order.trans least
    · cases mem_singleton.mp latest
      exact least

theorem accrueInterest_fst (rate : ℚ) : (p.accrueInterest day rate).1 =
    match Session.creditedDays p day with
    | some (first, last) => p.cash * rate / 365 * ((last : ℤ) - (first : ℤ) : ℤ)
    | none => 0 := by
  unfold Portfolio.accrueInterest Session.creditedDays
  cases p.lastAccrual with
  | none => rfl
  | some last =>
    have days : 0 < daysBetween last day ↔ last.toordinal < day.toordinal := by
      unfold daysBetween
      omega
    simp only [Option.bind_some, days]
    split <;> rfl

def signalDay (config : Config) (s : Session) (now : Clock) (closes : Closes) : Option Date :=
  if s.runner.rebalanceDue config now then
    let closes := Runner.completedCloses config closes now
    closes.index.getLast?.filter fun day =>
      (Runner.kindOf config s.runner.portfolio closes day).isSome
  else none

/-- A table with which a tick rebalances does not end in a month before the last rebalance. -/
def Current (config : Config) (s : Session) : SessionEvent → Prop
  | .tick now closes _ _ => ∀ day ∈ signalDay config s now closes,
      ∀ last ∈ s.runner.portfolio.lastRebalance, last.monthIndex ≤ day.monthIndex
  | .restart _ _ => True

def Stored (s : Session) : Prop :=
  ∀ capital, (loadOrNew s.file capital).lastRebalance = s.runner.portfolio.lastRebalance ∧
    (loadOrNew s.file capital).lastAccrual = s.runner.portfolio.lastAccrual

structure Keeps (s t : Session) : Prop where
  signals : t.signals = s.signals
  credited : t.credited = s.credited
  lastRebalance : t.runner.portfolio.lastRebalance = s.runner.portfolio.lastRebalance
  lastAccrual : t.runner.portfolio.lastAccrual = s.runner.portfolio.lastAccrual
  stored : Stored s → Stored t

structure Rebalances (s t : Session) (day : Date) : Prop where
  apart : ¬ s.runner.portfolio.lastRebalance.any (sameMonth · day) = true
  signals : t.signals = s.signals ++ [day]
  credited : t.credited = s.credited ++ (Session.creditedDays s.runner.portfolio day).toList
  lastRebalance : t.runner.portfolio.lastRebalance = some day
  lastAccrual : t.runner.portfolio.lastAccrual = some day
  stored : Stored t

theorem Keeps.refl (s : Session) : Keeps s s := ⟨rfl, rfl, rfl, rfl, id⟩

theorem keeps_of_portfolio {runner : Runner} (same : runner.portfolio = s.runner.portfolio) :
    Keeps s { s with runner } where
  signals := rfl
  credited := rfl
  lastRebalance := congrArg Portfolio.lastRebalance same
  lastAccrual := congrArg Portfolio.lastAccrual same
  stored := by
    intro stored capital
    dsimp only
    rw [same]
    exact stored capital

theorem scheduleNextCheck_portfolio (r : Runner) (now : Clock) (retry : Bool) :
    (r.scheduleNextCheck config now retry).portfolio = r.portfolio := by
  rw [Runner.scheduleNextCheck]

theorem Keeps.trans (first : Keeps s t) (second : Keeps t u) : Keeps s u where
  signals := second.signals.trans first.signals
  credited := second.credited.trans first.credited
  lastRebalance := second.lastRebalance.trans first.lastRebalance
  lastAccrual := second.lastAccrual.trans first.lastAccrual
  stored stored := second.stored (first.stored stored)

theorem Rebalances.trans (first : Rebalances s t day) (second : Keeps t u) :
    Rebalances s u day where
  apart := first.apart
  signals := second.signals.trans first.signals
  credited := second.credited.trans first.credited
  lastRebalance := second.lastRebalance.trans first.lastRebalance
  lastAccrual := second.lastAccrual.trans first.lastAccrual
  stored := second.stored first.stored

theorem refreshPrices_keeps (s : Session) (now : Clock) (marks : Closes) (tradingDay : Bool) :
    Keeps s (s.refreshPrices config now marks tradingDay) := by
  unfold Session.refreshPrices
  dsimp only
  split
  · exact keeps_of_portfolio rfl
  · exact ⟨rfl, rfl, rfl, rfl, fun _ _ => ⟨rfl, rfl⟩⟩

theorem kindOf_apart {kind : Runner.Kind} (found : Runner.kindOf config p closes day = some kind) :
    ¬ p.lastRebalance.any (sameMonth · day) = true := by
  intro same
  rw [Runner.kindOf, if_pos same] at found
  cases found

theorem tryRebalance_cases (due : s.runner.rebalanceDue config now = true)
    (tried : s.tryRebalance config now closes = some t) :
    (signalDay config s now closes = none ∧ Keeps s t) ∨
      ∃ day, signalDay config s now closes = some day ∧ Rebalances s t day := by
  unfold Session.tryRebalance at tried
  unfold signalDay
  rw [if_pos due]
  dsimp only at tried ⊢
  generalize Runner.completedCloses config closes now = table at tried ⊢
  cases ends : table.rows.getLast? with
  | none =>
    have empty : table.index.getLast? = none := by rw [Closes.index, getLast?_map, ends]; rfl
    simp only [empty, Option.filter_none, Option.some.injEq] at tried ⊢
    subst tried
    exact .inl ⟨trivial, keeps_of_portfolio (scheduleNextCheck_portfolio _ _ _)⟩
  | some last =>
    have final : table.index.getLast? = some last.date := by
      rw [Closes.index, getLast?_map, ends]
      rfl
    simp only [final] at tried ⊢
    cases kind : Runner.kindOf config s.runner.portfolio table last.date with
    | none =>
      simp only [kind] at tried
      cases tried
      exact .inl ⟨by simp [kind], keeps_of_portfolio (scheduleNextCheck_portfolio _ _ _)⟩
    | some reason =>
      obtain ⟨q, result, done, rebalanced, accrued⟩ := rebalance_ok s.runner.portfolio ends
      simp only [kind, done] at tried
      cases tried
      exact .inr ⟨last.date, by simp [kind], kindOf_apart kind, rfl, rfl, rebalanced, accrued,
        fun _ => ⟨rfl, rfl⟩⟩

theorem onTick_cases {marks : Closes} {tradingDay : Bool}
    (ticked : s.onTick config now closes marks tradingDay = some t) :
    (signalDay config s now closes = none ∧ Keeps s t) ∨
      ∃ day, signalDay config s now closes = some day ∧ Rebalances s t day := by
  obtain ⟨middle, first, rfl⟩ := Option.map_eq_some_iff.mp ticked
  have refreshed : Keeps middle (if middle.runner.nextPriceRefresh ≤ now.instant then
      middle.refreshPrices config now marks tradingDay else middle) := by
    split
    · exact refreshPrices_keeps middle now marks tradingDay
    · exact Keeps.refl middle
  by_cases due : s.runner.rebalanceDue config now = true
  · rw [if_pos due] at first
    rcases tryRebalance_cases due first with ⟨quiet, keeps⟩ | ⟨day, signal, rebalances⟩
    · exact .inl ⟨quiet, keeps.trans refreshed⟩
    · exact .inr ⟨day, signal, rebalances.trans refreshed⟩
  · rw [if_neg due] at first
    cases first
    exact .inl ⟨by rw [signalDay, if_neg due], refreshed⟩

theorem step_cases (stored : Stored s) (stepped : s.step config event = some t) :
    (Current config s event ∧ Keeps s t) ∨
      ∃ day, Rebalances s t day ∧ (Current config s event ↔
        ∀ last ∈ s.runner.portfolio.lastRebalance, last.monthIndex ≤ day.monthIndex) := by
  cases event with
  | tick now closes marks tradingDay =>
    rcases onTick_cases stepped with ⟨quiet, keeps⟩ | ⟨day, signal, rebalances⟩
    · exact .inl ⟨by simp [Current, quiet], keeps⟩
    · exact .inr ⟨day, rebalances, by simp [Current, signal]⟩
  | restart stopped capital =>
    cases stepped
    cases stopped with
    | true => exact .inl ⟨trivial, rfl, rfl, rfl, rfl, fun _ _ => ⟨rfl, rfl⟩⟩
    | false =>
      refine .inl ⟨trivial, rfl, rfl, (stored capital).1, (stored capital).2, fun stored other => ?_⟩
      exact ⟨(stored other).1.trans (stored capital).1.symm,
        (stored other).2.trans (stored capital).2.symm⟩

structure Dated (s : Session) : Prop where
  stored : Stored s
  accrual : s.runner.portfolio.lastAccrual = s.runner.portfolio.lastRebalance
  recent : s.signals.getLast? = s.runner.portfolio.lastRebalance
  bounded : Increasing s.signals → ∀ days ∈ s.credited, ∃ last ∈ s.runner.portfolio.lastRebalance,
    days.2 ≤ last.toordinal

def Orderly (s : Session) : Prop := Increasing s.signals ∧ Separate s.credited

theorem creditedDays_eq_some {days : Nat × Nat} (found : Session.creditedDays p day = some days) :
    ∃ last ∈ p.lastAccrual, days = (last.toordinal, day.toordinal) := by
  obtain ⟨last, accrued, range⟩ := Option.bind_eq_some_iff.mp found
  split at range
  · exact ⟨last, accrued, (Option.some.inj range).symm⟩
  · cases range

theorem Rebalances.separate (rebalances : Rebalances s t day) (dated : Dated s)
    (increasing : Increasing s.signals) : Separate t.credited ↔ Separate s.credited := by
  rw [rebalances.credited, Separate, pairwise_append]
  refine ⟨fun separate => separate.1, fun separate => ⟨separate, ?_, ?_⟩⟩
  · cases Session.creditedDays s.runner.portfolio day <;> simp
  · -- The new days begin where the last accrual ended, after all days credited before.
    intro days mem new fresh
    obtain ⟨accrued, before, rfl⟩ := creditedDays_eq_some (Option.mem_toList.mp fresh)
    obtain ⟨last, rebalanced, bound⟩ := dated.bounded increasing days mem
    rw [dated.accrual] at before
    cases Option.mem_unique before rebalanced
    rintro day ⟨⟨-, upper⟩, lower, -⟩
    exact absurd (upper.trans bound) (Nat.not_le_of_lt lower)

theorem dated_step (dated : Dated s) (stepped : s.step config event = some t) : Dated t := by
  rcases step_cases dated.stored stepped with ⟨-, keeps⟩ | ⟨day, rebalances, -⟩
  · refine ⟨keeps.stored dated.stored, ?_, ?_, ?_⟩
    · rw [keeps.lastAccrual, keeps.lastRebalance, dated.accrual]
    · rw [keeps.signals, keeps.lastRebalance, dated.recent]
    · rw [keeps.signals, keeps.credited, keeps.lastRebalance]
      exact dated.bounded
  · refine ⟨rebalances.stored, ?_, ?_, ?_⟩
    · rw [rebalances.lastAccrual, rebalances.lastRebalance]
    · rw [rebalances.signals, rebalances.lastRebalance, getLast?_concat]
    · rw [rebalances.signals, rebalances.credited, rebalances.lastRebalance]
      intro increasing days mem
      refine ⟨day, rfl, ?_⟩
      obtain ⟨earlier, -, before⟩ := pairwise_append.mp increasing
      rcases mem_append.mp mem with old | fresh
      · obtain ⟨last, rebalanced, bound⟩ := dated.bounded earlier days old
        have inSignals : last ∈ s.signals := mem_of_getLast? (dated.recent.trans rebalanced)
        have order := before last inSignals day (mem_singleton_self _)
        exact bound.trans (Date.toordinal_lt_of_monthIndex order).le
      · obtain ⟨accrued, -, rfl⟩ := creditedDays_eq_some (Option.mem_toList.mp fresh)
        exact Nat.le_refl _

theorem orderly_step (dated : Dated s) (stepped : s.step config event = some t) :
    Orderly t ↔ Orderly s ∧ Current config s event := by
  rcases step_cases dated.stored stepped with ⟨current, keeps⟩ | ⟨day, rebalances, current⟩
  · rw [Orderly, Orderly, keeps.signals, keeps.credited, and_iff_left current]
  · rw [Orderly, Orderly, current, rebalances.signals,
      increasing_concat dated.recent rebalances.apart]
    constructor
    · rintro ⟨⟨increasing, ordered⟩, separate⟩
      exact ⟨⟨increasing, (rebalances.separate dated increasing).mp separate⟩, ordered⟩
    · rintro ⟨⟨increasing, separate⟩, ordered⟩
      exact ⟨⟨increasing, ordered⟩, (rebalances.separate dated increasing).mpr separate⟩

def started (capital : ℚ) : Session where
  runner := { portfolio := Portfolio.new capital }

theorem started_dated (capital : ℚ) : Dated (started capital) where
  stored _ := ⟨rfl, rfl⟩
  accrual := rfl
  recent := rfl
  bounded := by simp [started]

theorem orderly_iff_current (config : Config) (capital : ℚ) {events : List SessionEvent}
    (path : run (Session.step config) (started capital) events = some t) :
    Increasing t.signals ∧ Separate t.credited ↔
      Meets (Session.step config) (Current config) (started capital) events := by
  have iff := run_property_iff (I := Dated) (P := Orderly)
    (fun _ _ _ dated stepped => dated_step dated stepped)
    (fun _ _ _ dated stepped => orderly_step dated stepped) path (started_dated capital)
  have start : Orderly (started capital) := ⟨List.Pairwise.nil, List.Pairwise.nil⟩
  exact iff.trans (and_iff_right start)

/-- Also where a stale table takes the schedule back, no two rebalances in a row are of one month. -/
theorem signals_change_month (config : Config) (capital : ℚ) (events : List SessionEvent) :
    Always (Session.step config) (fun s => s.signals.IsChain fun last day => ¬ sameMonth last day)
      (started capital) events := by
  intro before t _ path
  refine (run_invariant (I := fun s => Dated s ∧ s.signals.IsChain _) ?_ path
    ⟨started_dated capital, .nil⟩).2
  rintro s event t ⟨dated, apart⟩ stepped
  refine ⟨dated_step dated stepped, ?_⟩
  rcases step_cases dated.stored stepped with ⟨-, keeps⟩ | ⟨day, rebalances, -⟩
  · rwa [keeps.signals]
  · rw [rebalances.signals, isChain_append, dated.recent]
    refine ⟨apart, .singleton day, ?_⟩
    rintro last rebalanced _ ⟨⟩ same
    exact rebalances.apart (by rwa [Option.mem_def.mp rebalanced])

def closesOn (dates : List Date) : Closes where
  columns := ["NIFTYBEES"]
  rows := dates.map fun date =>
    ⟨date, fun symbol => if symbol = "NIFTYBEES" then some ⟨250, by norm_num⟩ else none⟩
  filled symbol := List.pairwise_map.mpr (List.pairwise_of_forall fun _ _ => id)

def feb3 : Date := ⟨2025, 2, 3, by decide⟩
def feb28 : Date := ⟨2025, 2, 28, by decide⟩
def mar3 : Date := ⟨2025, 3, 3, by decide⟩
def apr1 : Date := ⟨2025, 4, 1, by decide⟩

def tickOn (day : Date) (minute : Nat) (dates : List Date) : SessionEvent :=
  .tick ⟨day, minute * minuteMicros⟩ (closesOn dates) (closesOn dates) true

def twoMonths : List SessionEvent :=
  [tickOn feb3 990 [feb3], .restart true 1000000, tickOn mar3 990 [feb3, feb28, mar3]]

theorem one_rebalance_in_each_month :
    Meets (Session.step {}) (Current {}) (started 1000000) twoMonths ∧
      (run (Session.step {}) (started 1000000) twoMonths).map (fun t => (t.signals, t.credited)) =
        some ([feb3, mar3], [(739285, 739313)]) := by
  have observed : (run (Session.step {}) (started 1000000) twoMonths).map
      (fun t => (t.signals, t.credited)) = some ([feb3, mar3], [(739285, 739313)]) := by
    decide +kernel
  obtain ⟨t, path, values⟩ := Option.map_eq_some_iff.mp observed
  obtain ⟨signals, credited⟩ := Prod.mk.inj values
  refine ⟨(orderly_iff_current {} 1000000 path).mp ⟨?_, ?_⟩, observed⟩
  · rw [signals]
    simp [Increasing, Date.monthIndex, feb3, mar3]
  · rw [credited]
    exact pairwise_singleton _ _

theorem stale_table_goes_back :
    (run (Session.step {}) (started 1000000)
        [tickOn feb3 990 [feb3], tickOn mar3 990 [feb3, feb28, mar3], tickOn apr1 545 [feb3, feb28],
          tickOn apr1 990 [feb3, feb28, mar3, apr1]]).map (fun t => (t.signals, t.credited)) =
      some ([feb3, mar3, feb28, apr1], [(739285, 739313), (739310, 739342)]) := by
  decide +kernel

end AlgoSystem.Proof.EtfMomentum.Schedule
