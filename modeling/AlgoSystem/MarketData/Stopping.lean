import AlgoSystem.General.Runs
import AlgoSystem.MarketData.Aggregator

/-!
The tick thread, the flush loop and the thread that runs `force_close_all` share one aggregator.
Each section below is under its lock, which `force_close_all` releases between `beginForceClose` and
`endForceClose`.
-/

namespace AlgoSystem.MarketData
open General

inductive Section (P : Type) where
  | onIndexTick (symbol exchange : String) (tick : Tick P)
  | onOptionTick (contractId : Int) (tick : Tick P)
  | flush (now : Int)
  | beginForceClose (now : Int)
  | endForceClose

structure Feed (P : Type) where
  agg : CandleAggregator P
  closing : Option Int := none  -- the `now` of a `force_close_all` between its sections
  emitted : Emitted P := {}

variable {P : Type} [LinearOrder P]

def Section.target : Section P → Option (SeriesKey × Tick P)
  | .onIndexTick symbol exchange tick => some (.index symbol exchange, tick)
  | .onOptionTick contractId tick => some (.option contractId, tick)
  | .flush _ => none
  | .beginForceClose _ => none
  | .endForceClose => none

def Feed.flush (feed : Feed P) (now : Int) : Feed P :=
  { feed with agg := (feed.agg.flush now).2, emitted := feed.emitted.append (feed.agg.flush now).1 }

def Feed.step (feed : Feed P) : Section P → Option (Feed P)
  | .onIndexTick symbol exchange tick =>
    some { feed with agg := feed.agg.onIndexTick symbol exchange tick }
  | .onOptionTick contractId tick =>
    some { feed with agg := feed.agg.onOptionTick contractId tick }
  | .flush now => some (feed.flush now)
  | .beginForceClose now => match feed.closing with
      | none => some { feed with agg := feed.agg.finishCurrent, closing := some now }
      | some _ => none
  | .endForceClose => match feed.closing with
      | none => none
      | some now => some { feed.flush (now + oneMinute) with closing := none }

end AlgoSystem.MarketData
