import AlgoSystem.General.Lists
import AlgoSystem.General.Runs
import AlgoSystem.General.Summary
import AlgoSystem.SupertrendPivot.TickStream
import Mathlib.Algebra.BigOperators.Group.List.Basic
import Mathlib.Tactic.Linarith

namespace AlgoSystem.Proof.SupertrendPivot.Candles
open General AlgoSystem.SupertrendPivot List
open AlgoSystem.MarketData (oneMinute)

structure AcceptedTick where
  bucket : Int
  price : ℚ
  volume : Option ℚ

def accept? (agg : CandleAggregator) (tick : Tick) (now : Int) : Option AcceptedTick :=
  match tick.price with
  | none => none
  | some price =>
    let bucket := floorToBucket (tick.timestamp.getD now) agg.interval
    if agg.rejects bucket then none else some ⟨bucket, price, tick.cumulativeVolume⟩

structure Session where
  agg : CandleAggregator
  built : List (List AcceptedTick) := []
  forming : List AcceptedTick := []

namespace Session

def begin (interval : Nat) : Session := { agg := .create interval }

variable (s : Session)

def candles : List Candle := s.agg.completed ++ s.agg.current.toList

def groups : List (List AcceptedTick) :=
  s.built ++ (s.agg.current.map fun _ => s.forming).toList

def accepted : List AcceptedTick := s.groups.flatten

def volumes : List ℚ := s.accepted.filterMap AcceptedTick.volume

def close : Session where
  agg := { s.agg.finalizeLocked with current := none }
  built := s.built ++ [s.forming]
  forming := []

def start (tick : AcceptedTick) : Session :=
  { s with
    agg := { s.agg with current := some (newCandle tick.bucket tick.price) }.updateCandle
      tick.price tick.volume
    forming := [tick] }

def absorb (tick : AcceptedTick) : Session :=
  { s with
    agg := s.agg.updateCandle tick.price tick.volume
    forming := s.forming ++ [tick] }

def take (tick : AcceptedTick) : Session :=
  match s.agg.current with
  | none => s.start tick
  | some c => if c.datetime < tick.bucket then s.close.start tick else s.absorb tick

def taken : StreamEvent → Option AcceptedTick
  | .addTick tick now => accept? s.agg tick now
  | .finalizeDue _ => none

def step : StreamEvent → Session
  | .addTick tick now =>
    match accept? s.agg tick now with
    | none => s
    | some tick => s.take tick
  | .finalizeDue now =>
    match s.agg.current with
    | none => s
    | some c => if c.datetime + s.agg.interval * oneMinute ≤ now then s.close else s

end Session

theorem take_agg (s : Session) (tick : AcceptedTick) :
    (s.take tick).agg =
      (s.agg.openCandle tick.bucket tick.price).updateCandle tick.price tick.volume := by
  unfold Session.take CandleAggregator.openCandle
  cases s.agg.current with
  | none => rfl
  | some c =>
    dsimp only
    split <;> rfl

theorem step_agg (s : Session) (event : StreamEvent) : (s.step event).agg = s.agg.step event := by
  cases event with
  | addTick tick now =>
    simp only [Session.step, CandleAggregator.step, CandleAggregator.addTick, accept?]
    cases tick.price with
    | none => rfl
    | some price =>
      dsimp only
      split
      next none =>
        split at none
        · rw [if_pos (by assumption)]
        · cases none
      next some =>
        split at some
        · cases some
        · cases some
          rw [if_neg (by assumption), take_agg]
  | finalizeDue now =>
    simp only [Session.step, CandleAggregator.step, CandleAggregator.finalizeDue]
    cases s.agg.current with
    | none => rfl
    | some c =>
      dsimp only
      split <;> rfl


theorem accept?_not_rejected {agg : CandleAggregator} {raw : Tick} {now : Int} {tick : AcceptedTick}
    (taken : accept? agg raw now = some tick) : agg.rejects tick.bucket = false := by
  unfold accept? at taken
  split at taken
  · cases taken
  · dsimp only at taken
    split at taken
    · cases taken
    next fresh =>
      cases taken
      exact Bool.eq_false_iff.mpr fresh

inductive Change (s : Session) : StreamEvent → Session → Prop where
  | unchanged (event : StreamEvent) : Change s event s
  | close {c : Candle} {now : Int} (forming : s.agg.current = some c)
      (due : c.datetime + s.agg.interval * oneMinute ≤ now) : Change s (.finalizeDue now) s.close
  | start {event : StreamEvent} {tick : AcceptedTick} (taken : s.taken event = some tick)
      (idle : s.agg.current = none) (fresh : s.agg.rejects tick.bucket = false) :
      Change s event (s.start tick)
  | roll {event : StreamEvent} {tick : AcceptedTick} {c : Candle}
      (taken : s.taken event = some tick) (forming : s.agg.current = some c)
      (later : c.datetime < tick.bucket) : Change s event (s.close.start tick)
  | absorb {event : StreamEvent} {tick : AcceptedTick} {c : Candle}
      (taken : s.taken event = some tick) (forming : s.agg.current = some c)
      (notLater : tick.bucket ≤ c.datetime) : Change s event (s.absorb tick)

theorem step_change (s : Session) (event : StreamEvent) : Change s event (s.step event) := by
  cases event with
  | addTick raw now =>
    simp only [Session.step]
    cases taken : accept? s.agg raw now with
    | none => exact .unchanged _
    | some tick =>
      simp only [Session.take]
      cases forming : s.agg.current with
      | none => exact .start taken forming (accept?_not_rejected taken)
      | some c =>
        dsimp only
        split
        next later => exact .roll taken forming later
        next notLater => exact .absorb taken forming (not_lt.mp notLater)
  | finalizeDue now =>
    simp only [Session.step]
    cases forming : s.agg.current with
    | none => exact .unchanged _
    | some c =>
      dsimp only
      split
      next due => exact .close forming due
      next => exact .unchanged _

section Moves
variable {s : Session} {tick : AcceptedTick} {c : Candle}

def firstCandle (s : Session) (tick : AcceptedTick) : Candle :=
  { newCandle tick.bucket tick.price with volume := s.agg.volumeDelta tick.volume }

def grown (s : Session) (c : Candle) (tick : AcceptedTick) : Candle :=
  { c with
    high := max c.high tick.price
    low := min c.low tick.price
    close := tick.price
    volume := c.volume + s.agg.volumeDelta tick.volume }

theorem candles_close (forming : s.agg.current = some c) : s.close.candles = s.candles := by
  simp [Session.candles, Session.close, CandleAggregator.finalizeLocked, forming]

theorem groups_close (forming : s.agg.current = some c) : s.close.groups = s.groups := by
  simp [Session.groups, Session.close, CandleAggregator.finalizeLocked, forming]

theorem candles_start (idle : s.agg.current = none) :
    (s.start tick).candles = s.candles ++ [firstCandle s tick] := by
  simp [Session.candles, Session.start, CandleAggregator.updateCandle, idle, newCandle, firstCandle,
    CandleAggregator.volumeDelta]

theorem groups_start (idle : s.agg.current = none) :
    (s.start tick).groups = s.groups ++ [[tick]] := by
  simp [Session.groups, Session.start, CandleAggregator.updateCandle, idle]

section
variable (forming : s.agg.current = some c)
include forming

theorem candles_absorb : (s.absorb tick).candles = s.agg.completed ++ [grown s c tick] := by
  simp [Session.candles, Session.absorb, CandleAggregator.updateCandle, forming, grown]

theorem groups_absorb : (s.absorb tick).groups = s.built ++ [s.forming ++ [tick]] := by
  simp [Session.groups, Session.absorb, CandleAggregator.updateCandle, forming]

theorem candles_forming : s.candles = s.agg.completed ++ [c] := by
  simp [Session.candles, forming]

theorem groups_forming : s.groups = s.built ++ [s.forming] := by
  simp [Session.groups, forming]

end

end Moves

def Summarizes (c : Candle) (ticks : List AcceptedTick) : Prop :=
  IsOhlc (ticks.map AcceptedTick.price) c.opening c.high c.low c.close

structure Tracks (s : Session) : Prop where
  made : List.Forall₂ Summarizes s.candles s.groups
  increasing : s.candles.Pairwise fun a b => a.datetime < b.datetime
  finalized : s.agg.lastFinalizedBucket = s.agg.completed.getLast?.map Candle.datetime

variable {s : Session}

theorem Tracks.completed (tracks : Tracks s) :
    List.Forall₂ Summarizes s.agg.completed s.built := by
  have made := tracks.made
  unfold Session.candles Session.groups at made
  cases current : s.agg.current with
  | none => simpa [current] using made
  | some c =>
    rw [current] at made
    exact (forall₂_snoc.mp made).1

variable {c : Candle}

theorem Tracks.close (tracks : Tracks s) (forming : s.agg.current = some c) : Tracks s.close where
  made := by
    rw [candles_close forming, groups_close forming]
    exact tracks.made
  increasing := by
    rw [candles_close forming]
    exact tracks.increasing
  finalized := by simp [Session.close, CandleAggregator.finalizeLocked, forming]

theorem Tracks.before {bucket : Int} (tracks : Tracks s) (fresh : s.agg.rejects bucket = false) :
    ∀ c ∈ s.agg.completed, c.datetime < bucket := by
  intro c mem
  rcases eq_nil_or_concat s.agg.completed with none | ⟨front, last, completed⟩
  · simp [none] at mem
  · have newest := tracks.finalized
    rw [completed, concat_eq_append, getLast?_concat] at newest
    have beyond : last.datetime < bucket := by
      simpa [CandleAggregator.rejects, newest] using fresh
    have increasing := (pairwise_append.mp tracks.increasing).1
    rw [completed, concat_eq_append, pairwise_append] at increasing
    rw [completed, concat_eq_append, mem_append, mem_singleton] at mem
    rcases mem with old | rfl
    · exact (increasing.2.2 c old last mem_cons_self).trans beyond
    · exact beyond

variable {tick : AcceptedTick}

theorem Tracks.start (tracks : Tracks s) (idle : s.agg.current = none)
    (fresh : s.agg.rejects tick.bucket = false) :
    Tracks (s.start tick) where
  made := by
    rw [candles_start idle, groups_start idle]
    exact forall₂_snoc.mpr ⟨tracks.made, IsOhlc.singleton tick.price⟩
  increasing := by
    rw [candles_start idle]
    refine pairwise_append.mpr ⟨tracks.increasing, pairwise_singleton _ _, ?_⟩
    intro a mem b last
    rw [mem_singleton.mp last]
    rw [Session.candles, idle] at mem
    exact tracks.before fresh a (by simpa using mem)
  finalized := tracks.finalized

theorem Tracks.absorb (tracks : Tracks s) (forming : s.agg.current = some c) :
    Tracks (s.absorb tick) where
  made := by
    have made := tracks.made
    rw [candles_forming forming, groups_forming forming, forall₂_snoc] at made
    rw [candles_absorb forming, groups_absorb forming]
    refine forall₂_snoc.mpr ⟨made.1, ?_⟩
    have longer := made.2.snoc tick.price
    rwa [← map_singleton, ← map_append] at longer
  increasing := by
    have increasing := tracks.increasing
    rw [candles_forming forming, pairwise_append] at increasing
    rw [candles_absorb forming, pairwise_append]
    refine ⟨increasing.1, pairwise_singleton _ _, ?_⟩
    intro a mem b last
    rw [mem_singleton.mp last]
    exact increasing.2.2 a mem c mem_cons_self
  finalized := tracks.finalized

variable {t : Session} {event : StreamEvent}

theorem Tracks.change (tracks : Tracks s) (change : Change s event t) : Tracks t := by
  cases change with
  | unchanged => exact tracks
  | close forming => exact tracks.close forming
  | start taken idle fresh => exact tracks.start idle fresh
  | roll taken forming later =>
    refine (tracks.close forming).start rfl ?_
    simp [CandleAggregator.rejects, Session.close, CandleAggregator.finalizeLocked, forming, later]
  | absorb taken forming => exact tracks.absorb forming

theorem tracks_begin (interval : Nat) : Tracks (.begin interval) where
  made := .nil
  increasing := .nil
  finalized := rfl

/-- An accepted tick is not older than the forming candle. -/
def InOrder (s : Session) (event : StreamEvent) : Prop :=
  ∀ tick ∈ s.taken event, ∀ c ∈ s.agg.current, c.datetime ≤ tick.bucket

def Own (s : Session) : Prop :=
  List.Forall₂ (fun c ticks => ∀ tick ∈ ticks, tick.bucket = c.datetime) s.candles s.groups

theorem own_start (own : Own s) (idle : s.agg.current = none) : Own (s.start tick) := by
  rw [Own, candles_start idle, groups_start idle, forall₂_snoc]
  exact ⟨own, by simp [firstCandle, newCandle]⟩

theorem own_close (own : Own s) (forming : s.agg.current = some c) :
    Own s.close := by
  rwa [Own, candles_close forming, groups_close forming]

theorem own_change (own : Own s) (inOrder : InOrder s event) (change : Change s event t) :
    Own t := by
  cases change with
  | unchanged => exact own
  | close forming => exact own_close own forming
  | start taken idle => exact own_start own idle
  | roll taken forming => exact own_start (own_close own forming) rfl
  | absorb taken forming notLater =>
    have same := le_antisymm notLater (inOrder _ taken _ forming)
    rw [Own, candles_forming forming, groups_forming forming, forall₂_snoc] at own
    rw [Own, candles_absorb forming, groups_absorb forming, forall₂_snoc]
    refine ⟨own.1, forall_mem_append.mpr ⟨own.2, ?_⟩⟩
    simpa [grown] using same

/-- An accepted tick does not report less volume than the one before. -/
def Rising (s : Session) (event : StreamEvent) : Prop :=
  ∀ tick ∈ s.taken event, ∀ volume ∈ tick.volume, ∀ last ∈ s.agg.lastVolume, last ≤ volume

def candleVolume (s : Session) : ℚ := (s.candles.map Candle.volume).sum

structure Accounts (s : Session) : Prop where
  last : s.agg.lastVolume = s.volumes.getLast?
  total : candleVolume s = s.volumes.getLast?.getD 0 - s.volumes.head?.getD 0

theorem Accounts.close (accounts : Accounts s) (forming : s.agg.current = some c) :
    Accounts s.close := by
  have same : s.close.volumes = s.volumes := by
    rw [Session.volumes, Session.accepted, groups_close forming]
    rfl
  refine ⟨?_, ?_⟩
  · rw [same, ← accounts.last]
    simp [Session.close, CandleAggregator.finalizeLocked, forming]
  · rw [same, candleVolume, candles_close forming]
    exact accounts.total

theorem Accounts.take (accounts : Accounts s)
    (rising : ∀ volume ∈ tick.volume, ∀ last ∈ s.agg.lastVolume, last ≤ volume)
    (accepted : t.accepted = s.accepted ++ [tick])
    (last : t.agg.lastVolume = tick.volume.or s.agg.lastVolume)
    (total : candleVolume t = candleVolume s + s.agg.volumeDelta tick.volume) : Accounts t := by
  have volumes : t.volumes = s.volumes ++ tick.volume.toList := by
    rw [Session.volumes, accepted, filterMap_append]
    cases tick with
    | mk bucket price volume => cases volume <;> rfl
  have reports := accounts.last
  rw [accounts.total] at total
  cases reported : tick.volume with
  | none =>
    simp only [reported, Option.toList_none, append_nil, Option.none_or] at volumes last
    simp only [reported, CandleAggregator.volumeDelta, add_zero] at total
    exact ⟨by rw [volumes, last, reports], by rw [volumes, total]⟩
  | some volume =>
    simp only [reported, Option.toList_some, Option.some_or] at volumes last
    refine ⟨by rw [volumes, last, getLast?_concat], ?_⟩
    cases old : s.volumes with
    | nil =>
      simp only [old, getLast?_nil] at reports
      simp [volumes, old, total, reported, CandleAggregator.volumeDelta, reports]
    | cons first rest =>
      rw [old, getLast?_eq_some_getLast (cons_ne_nil first rest)] at reports
      have bound := rising volume reported _ reports
      simp only [reported, CandleAggregator.volumeDelta, reports, if_pos bound] at total
      rw [volumes, total, old]
      simp [getLast?_eq_some_getLast]

theorem accepted_start (idle : s.agg.current = none) :
    (s.start tick).accepted = s.accepted ++ [tick] := by
  simp [Session.accepted, groups_start idle]

theorem accepted_absorb (forming : s.agg.current = some c) :
    (s.absorb tick).accepted = s.accepted ++ [tick] := by
  simp [Session.accepted, groups_absorb forming, groups_forming forming]

section
variable (accounts : Accounts s)
  (rising : ∀ volume ∈ tick.volume, ∀ last ∈ s.agg.lastVolume, last ≤ volume)
include accounts rising

theorem Accounts.start (idle : s.agg.current = none) : Accounts (s.start tick) := by
  refine accounts.take rising (accepted_start idle) rfl ?_
  simp [candleVolume, candles_start idle, firstCandle]

theorem Accounts.absorb (forming : s.agg.current = some c) : Accounts (s.absorb tick) := by
  refine accounts.take rising (accepted_absorb forming) rfl ?_
  simp [candleVolume, candles_absorb forming, candles_forming forming, grown, add_assoc]

end

theorem Accounts.change (accounts : Accounts s) (rising : Rising s event)
    (change : Change s event t) : Accounts t := by
  cases change with
  | unchanged => exact accounts
  | close forming => exact accounts.close forming
  | start taken idle => exact accounts.start (rising _ taken) idle
  | roll taken forming =>
    refine (accounts.close forming).start ?_ rfl
    have same : s.close.agg.lastVolume = s.agg.lastVolume := by
      simp [Session.close, CandleAggregator.finalizeLocked, forming]
    rw [same]
    exact rising _ taken
  | absorb taken forming => exact accounts.absorb (rising _ taken) forming

instance (s : Session) (event : StreamEvent) : Decidable (InOrder s event) :=
  inferInstanceAs (Decidable (∀ tick ∈ s.taken event, ∀ c ∈ s.agg.current, _))

instance (s : Session) (event : StreamEvent) : Decidable (Rising s event) :=
  inferInstanceAs (Decidable (∀ tick ∈ s.taken event, ∀ volume ∈ tick.volume,
    ∀ last ∈ s.agg.lastVolume, _))

def stepped (s : Session) (event : StreamEvent) : Option Session := some (s.step event)

theorem change_of_stepped (taken : stepped s event = some t) :
    Change s event t := by
  cases taken
  exact step_change s event

section Run
variable {interval : Nat} {events : List StreamEvent} {s t : Session}

theorem agg_run (path : run stepped s events = some t) :
    t.agg = events.foldl CandleAggregator.step s.agg := by
  induction events generalizing s with
  | nil =>
    cases path
    rfl
  | cons event events ih =>
    obtain ⟨u, first, rest⟩ := run_cons_eq_some.mp path
    cases first
    rw [foldl_cons, ← step_agg]
    exact ih rest

section
variable (path : run stepped (.begin interval) events = some s)
include path

theorem tracks_run : Tracks s :=
  run_invariant (fun _ _ _ tracks taken => tracks.change (change_of_stepped taken)) path
    (tracks_begin interval)

theorem accounts_run (rising : Meets stepped Rising (.begin interval) events) : Accounts s :=
  run_invariant_of_meets
    (fun _ _ _ accounts here taken => accounts.change here (change_of_stepped taken)) path rising
    ⟨rfl, (sub_zero (0 : ℚ)).symm⟩

theorem own_run (inOrder : Meets stepped InOrder (.begin interval) events) : Own s :=
  run_invariant_of_meets (fun _ _ _ own here taken => own_change own here (change_of_stepped taken))
    path inOrder .nil

end

theorem summarizes_own_ticks (tracks : Tracks s) (own : Own s) {c : Candle} (mem : c ∈ s.candles) :
    Summarizes c (s.accepted.filter fun tick => tick.bucket = c.datetime) := by
  obtain ⟨ticks, pair, made⟩ := exists_zip_of_forall₂ tracks.made mem
  rwa [Session.accepted, filter_flatten_of_key own (tracks.increasing.imp ne_of_lt) pair]

/-- The datetimes increase and all volume is accounted for. A completed candle has the prices of the
ticks of its bucket if no tick was added to a candle of a later bucket. -/
theorem completed_of_own_ticks (path : run stepped (.begin interval) events = some s)
    (rising : Meets stepped Rising (.begin interval) events) :
    s.agg = events.foldl CandleAggregator.step (.create interval) ∧
      (s.agg.completed.Pairwise fun a b => a.datetime < b.datetime) ∧
      ((s.agg.snapshot true).map Candle.volume).sum =
        s.volumes.getLast?.getD 0 - s.volumes.head?.getD 0 ∧
      (Meets stepped InOrder (.begin interval) events → ∀ c ∈ s.agg.completed,
        IsOhlc ((s.accepted.filter fun tick => tick.bucket = c.datetime).map AcceptedTick.price)
          c.opening c.high c.low c.close) := by
  have tracks := tracks_run path
  refine ⟨agg_run path, (pairwise_append.mp tracks.increasing).1,
    (accounts_run path rising).total, ?_⟩
  intro inOrder c mem
  exact summarizes_own_ticks tracks (own_run path inOrder) (mem_append_left _ mem)

end Run

def clock (hour minute : Int) : Int := (hour * 60 + minute) * oneMinute

def traded (minute : Int) (price volume : ℚ) : StreamEvent :=
  .addTick ⟨some price, some (clock 9 minute), some volume⟩ (clock 9 minute)

def quietMorning : List StreamEvent :=
  [traded 16 100 10, traded 18 104 25, traded 21 101 40, .finalizeDue (clock 9 25)]

theorem completed_on_a_quiet_morning :
    ∃ s, run stepped (.begin 5) quietMorning = some s ∧
      s.agg.completed =
        [⟨clock 9 15, 100, 104, 100, 104, 15⟩, ⟨clock 9 20, 101, 101, 101, 101, 15⟩] ∧
      ∀ c ∈ s.agg.completed,
        IsOhlc ((s.accepted.filter fun tick => tick.bucket = c.datetime).map AcceptedTick.price)
          c.opening c.high c.low c.close := by
  have path : run stepped (.begin 5) quietMorning =
      some (quietMorning.foldl Session.step (.begin 5)) := rfl
  refine ⟨_, path, by decide +kernel, ?_⟩
  exact (completed_of_own_ticks path (by decide +kernel)).2.2.2 (by decide +kernel)

def lateTick : List StreamEvent :=
  [traded 16 100 10, traded 26 100 20, traded 21 150 30, .finalizeDue (clock 9 30)]

theorem late_tick_in_later_candle :
    ∃ s, run stepped (.begin 5) lateTick = some s ∧ Meets stepped Rising (.begin 5) lateTick ∧
      s.agg.completed.map (fun c => (c.datetime, c.high)) = [(clock 9 15, 100), (clock 9 25, 150)] ∧
      (s.accepted.filter fun tick => tick.bucket = clock 9 25).map AcceptedTick.price = [100] :=
  ⟨_, rfl, by decide +kernel, by decide +kernel, by decide +kernel⟩

end AlgoSystem.Proof.SupertrendPivot.Candles
