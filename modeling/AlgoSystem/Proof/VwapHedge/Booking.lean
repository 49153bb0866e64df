import AlgoSystem.General.Runs
import AlgoSystem.VwapHedge.Manager

namespace AlgoSystem.Proof.VwapHedge
open AlgoSystem.VwapHedge VwapHedge.Trader General List

structure Booked (t : Trader) : Prop where
  ended : t.ended = true
  hedgeSold : .hedgeSell ∈ t.orders
  flat : t.isInTrade = false

def EvenMinute (candle : Candle) : Prop := candle.datetime.minute % 2 = 0

theorem EvenMinute.ne_booking {candle : Candle} (even : EvenMinute candle) :
    candle.datetime ≠ bookingLabel := by
  intro same
  rw [EvenMinute, same] at even
  cases even

theorem aggregate_even (bin : Nat) (first : RawCandle) (rest : List RawCandle) :
    EvenMinute (aggregate bin first rest) := by
  show bin * 120 / 60 % 60 % 2 = 0
  omega

theorem resample_even (rows : List RawCandle) : ∀ candle ∈ resample rows, EvenMinute candle := by
  intro candle member
  obtain ⟨bin, -, made⟩ := mem_filterMap.mp member
  split at made
  · cases made
  · rename_i first rest _
    cases made
    exact aggregate_even bin first rest

theorem convert2min_even (raw : Option (List RawCandle)) :
    ∀ candle ∈ (convert2min raw).getD [], EvenMinute candle := by
  intro candle member
  unfold convert2min at member
  split at member
  · cases member
  · cases member
  · exact resample_even _ candle member

theorem liveCandle_even {dt : DateTime} (flushed : flushes dt = true) (ohlc : List Candle)
    (ticks : List Tick) : EvenMinute (liveCandle ohlc ticks dt) := by
  have minute : dt.minute % 2 = 0 := by
    simp only [flushes, Bool.and_eq_true, decide_eq_true_eq] at flushed
    exact flushed.1.1
  unfold liveCandle EvenMinute
  dsimp only
  split <;> exact minute

structure GoesOn (u t : Trader) : Prop where
  ended : u.ended = t.ended
  ohlc : u.ohlc = t.ohlc
  orders : ∀ order ∈ u.orders,
    order ∈ t.orders ∨ order = .shortSell ∨ ∃ trigger, order = .stoploss trigger

theorem GoesOn.of_eq {u t : Trader} (ended : u.ended = t.ended) (ohlc : u.ohlc = t.ohlc)
    (orders : u.orders = t.orders) : GoesOn u t :=
  ⟨ended, ohlc, fun _ member => .inl (orders ▸ member)⟩

theorem GoesOn.trans {v u t : Trader} (second : GoesOn v u) (first : GoesOn u t) : GoesOn v t where
  ended := second.ended.trans first.ended
  ohlc := second.ohlc.trans first.ohlc
  orders := by
    intro order member
    rcases second.orders order member with before | new
    · exact first.orders order before
    · exact .inr new

section Round

variable (t : Trader) (candle : Candle) (vwap : Option ℚ) (a : Answer)

theorem checkTimeUp_goesOn : GoesOn (t.checkTimeUp candle) t := by
  unfold checkTimeUp
  split <;> exact .of_eq rfl rfl rfl

theorem cancelTrigger_goesOn : GoesOn (t.cancelTrigger candle vwap) t := by
  unfold cancelTrigger
  split <;> exact .of_eq rfl rfl rfl

theorem checkStoploss_goesOn : GoesOn t.checkStoploss t := by
  unfold checkStoploss
  split <;> exact .of_eq rfl rfl rfl

theorem execute_goesOn : GoesOn (t.execute candle a) t where
  ended := rfl
  ohlc := rfl
  orders := by
    intro order member
    simp only [execute, submit, List.append_assoc, mem_append, mem_cons,
      not_mem_nil, or_false] at member
    rcases member with before | rfl | rfl
    · exact .inl before
    · exact .inr (.inl rfl)
    · exact .inr (.inr ⟨_, rfl⟩)

theorem vwapTrigger_goesOn (sameCandle : Bool) :
    GoesOn (t.vwapTrigger candle vwap sameCandle) t := by
  unfold vwapTrigger
  split <;> exact .of_eq rfl rfl rfl

variable {candle}

theorem booking_goesOn (other : candle.datetime ≠ bookingLabel) :
    GoesOn (t.booking candle a) t := by
  rw [booking, if_neg other]
  exact .of_eq rfl rfl rfl

theorem round_goesOn (other : candle.datetime ≠ bookingLabel) :
    GoesOn (t.round candle vwap a) t := by
  have checked : GoesOn ((t.checkTimeUp candle).cancelTrigger candle vwap).checkStoploss t :=
    ((checkStoploss_goesOn _).trans (cancelTrigger_goesOn _ candle vwap)).trans
      (checkTimeUp_goesOn t candle)
  unfold Trader.round
  dsimp only
  split
  · exact ⟨checked.ended, checked.ohlc, checked.orders⟩
  · refine (booking_goesOn _ a other).trans ((vwapTrigger_goesOn _ candle vwap _).trans ?_)
    split
    · exact (execute_goesOn _ candle a).trans checked
    · exact checked

theorem evaluate_goesOn (ta : TaVwap) (even : ∀ candle ∈ t.ohlc, EvenMinute candle) :
    GoesOn (t.evaluate ta a) t := by
  unfold evaluate
  split
  · exact .of_eq rfl rfl rfl
  · rename_i candle last
    dsimp only
    split
    · exact .of_eq rfl rfl rfl
    · exact round_goesOn t _ a (even candle (mem_of_getLast? last)).ne_booking

end Round

structure Unbooked (t : Trader) : Prop where
  even : ∀ candle ∈ t.ohlc, EvenMinute candle
  running : t.ended = false
  hedged : .hedgeSell ∉ t.orders
  unbought : .buyBack ∉ t.orders

theorem Unbooked.goesOn {u t : Trader} (unbooked : Unbooked t) (on : GoesOn u t) : Unbooked u where
  even := by
    rw [on.ohlc]
    exact unbooked.even
  running := on.ended.trans unbooked.running
  hedged := by
    intro member
    rcases on.orders _ member with before | new | ⟨trigger, new⟩
    · exact unbooked.hedged before
    · cases new
    · cases new
  unbought := by
    intro member
    rcases on.orders _ member with before | new | ⟨trigger, new⟩
    · exact unbooked.unbought before
    · cases new
    · cases new

theorem step_unbooked (ta : TaVwap) (t : Trader) (e : Event) (u : Trader) (unbooked : Unbooked t)
    (moved : step ta t e = some u) : Unbooked u := by
  cases e with
  | tick tick =>
    cases moved
    exact unbooked.goesOn (.of_eq rfl rfl rfl)
  | flush dt =>
    simp only [step, Option.ite_none_right_eq_some, Option.some.injEq] at moved
    obtain ⟨flushed, rfl⟩ := moved
    refine ⟨?_, unbooked.running, unbooked.hedged, unbooked.unbought⟩
    intro candle member
    rcases mem_append.mp member with before | new
    · exact unbooked.even candle before
    · rw [mem_singleton.mp new]
      exact liveCandle_even flushed t.ohlc t.tlv
  | evaluate dt a =>
    simp only [step, Option.ite_none_right_eq_some, Option.some.injEq] at moved
    obtain ⟨-, rfl⟩ := moved
    exact unbooked.goesOn (evaluate_goesOn t a ta unbooked.even)
  | stoplossFilled | stoplossGone =>
    simp only [step, Option.ite_none_right_eq_some, Option.some.injEq] at moved
    obtain ⟨-, rfl⟩ := moved
    exact unbooked.goesOn (.of_eq rfl rfl rfl)

theorem never_booked (ta : TaVwap) (raw : Option (List RawCandle)) (events : List Event)
    (t : Trader) (path : run (step ta) (Trader.begin raw) events = some t) :
    ¬ Booked t ∧ t.ended = false ∧ .hedgeSell ∉ t.orders ∧ .buyBack ∉ t.orders := by
  have initial : Unbooked (Trader.begin raw) :=
    ⟨convert2min_even raw, rfl, by simp [Trader.begin], by simp [Trader.begin]⟩
  have unbooked := run_invariant (step_unbooked ta) path initial
  refine ⟨?_, unbooked.running, unbooked.hedged, unbooked.unbought⟩
  intro booked
  exact unbooked.hedged booked.hedgeSold

def vwap100 : TaVwap := fun candles => some (candles.map fun _ => some 100)

def candleAt (minute : Nat) : List Event :=
  [.flush ⟨minute / 60, minute % 60, 59, 800000⟩,
    .evaluate ⟨minute / 60, minute % 60 + 1, 0, 0⟩ { slOrderid := some 1 }]

def fallingMorning : List Event :=
  [.tick ⟨20, 100, 0⟩, .tick ⟨20, 100, 100⟩] ++ candleAt 560 ++
  [.tick ⟨22, 98, 100⟩, .tick ⟨22, 96, 100⟩] ++ candleAt 562 ++
  [.tick ⟨24, 94, 100⟩, .tick ⟨24, 92, 100⟩] ++ candleAt 564

def fallingDay : List Event :=
  fallingMorning ++ (List.range 176).flatMap fun k => candleAt (566 + 2 * k)

def evaluatedEach : List Event → Bool
  | [] => true
  | .flush _ :: .evaluate _ _ :: events => evaluatedEach events
  | .flush _ :: _ => false
  | _ :: events => evaluatedEach events

def outcome (events : List Event) : Option (Option Label × Bool × Bool × List Order) :=
  (run (step vwap100) (Trader.begin none) events).map fun t =>
    (t.ohlc.getLast?.map Candle.datetime, t.isInTrade, t.ended, t.orders)

theorem never_booked_fallingMorning :
    ∃ t, run (step vwap100) (Trader.begin none) fallingMorning = some t ∧ ¬ Booked t ∧
      t.ended = false ∧ .hedgeSell ∉ t.orders ∧ .buyBack ∉ t.orders := by
  have path : (run (step vwap100) (Trader.begin none) fallingMorning).isSome = true := by
    decide +kernel
  obtain ⟨t, path⟩ := Option.isSome_iff_exists.mp path
  exact ⟨t, path, never_booked vwap100 none fallingMorning t path⟩

set_option maxRecDepth 10000 in
theorem fallingDay_not_booked :
    evaluatedEach fallingDay = true ∧
    ∃ t, run (step vwap100) (Trader.begin none) fallingDay = some t ∧
      t.ohlc.getLast?.map Candle.datetime = some ⟨15, 16, 0⟩ ∧ t.isInTrade = true ∧
      t.orders = [.hedgeBuy, .shortSell, .stoploss 102] ∧ ¬ Booked t := by
  have day : outcome fallingDay =
      some (some ⟨15, 16, 0⟩, true, false, [.hedgeBuy, .shortSell, .stoploss 102]) := by
    decide +kernel
  obtain ⟨t, path, result⟩ := Option.map_eq_some_iff.mp day
  obtain ⟨label, inTrade, running, orders⟩ : _ ∧ _ ∧ _ ∧ _ := by simpa using result
  refine ⟨by decide +kernel, t, path, by simpa using label, inTrade, orders, ?_⟩
  intro booked
  have flat := booked.flat
  rw [inTrade] at flat
  cases flat

end AlgoSystem.Proof.VwapHedge
