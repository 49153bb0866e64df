import AlgoSystem.Intraday.Strategy

/-!
`tick`, `_open` and `_close` of `main.py`, the same in `VWAP_Reclaim` and `EMA20_Pullback`. Saving,
logging and the dashboard heartbeat do not change the ledger and are left out.
-/

namespace AlgoSystem.Intraday
open MarketData

/-- What one tick reads from outside: the clock, the calendar, the minute candles of the day and the
quotes of the open leg and of the contract that it proposes to buy. -/
structure Market where
  now : Int
  isTradingDay : Bool
  spot : List Bar
  mark : Option ℚ
  ltp : Option ℚ
  nextWeeklyExpiry : Int

def Market.today (market : Market) : Int := market.now / oneDay

section Tick
variable (config : Config)

def inWindow (now : Int) : Bool :=
  config.marketOpen / oneMinute ≤ timeOfDay now / oneMinute &&
    timeOfDay now / oneMinute ≤ config.marketClose / oneMinute

def markLeg (p : Portfolio) (market : Market) : Option ℚ := p.openLeg.bind fun _ => market.mark

def refresh (p : Portfolio) (market : Market) : Portfolio :=
  let equity := p.totalValue (markLeg p market)
  let p := p.rollSession market.today equity
  if p.weeklyDdPct equity ≤ -config.weeklyDdHaltPct && !p.isHalted then p.haltThisWeek else p

def bookTarget (p : Portfolio) (leg : OpenLeg) (mark : ℚ) : Portfolio :=
  if !leg.bookedHalf && leg.target1Price ≤ mark then p.bookHalf leg.target1Price else p

def closeLeg (p : Portfolio) (decision : ExitDecision) (now : Int) : Portfolio :=
  match p.close config.algo
      ⟨decision.price, now, decision.reason, config.brokeragePerLeg, config.costTurnoverPct⟩ with
  | .ok (closed, _) => closed
  | .error _ => p

def exits (p : Portfolio) (market : Market) : Portfolio :=
  match p.openLeg, market.mark with
  | some leg, some mark =>
    let p := bookTarget p leg mark
    -- `leg` is the object that `book_half` has changed
    match p.openLeg.bind fun leg => evaluateExit config leg mark market.spot market.now with
    | some decision => closeLeg config p decision market.now
    | none => p
  | _, _ => p

def settled (p : Portfolio) (market : Market) : Option Portfolio :=
  if market.isTradingDay && inWindow config market.now && !market.spot.isEmpty then
    some (exits config (refresh config p market) market)
  else none

def entryGate (p : Portfolio) (market : Market) : Bool :=
  decide (timeOfDay market.now < config.hardExitTime) && p.openLeg.isNone && !p.isHalted &&
    isTradableDay market.today [market.nextWeeklyExpiry] config.skipExpiryDay &&
    decide (p.lossesToday < config.maxLossesPerDay)

def newLeg (p : Portfolio) (proposal : SignalDecision) (market : Market) : Option OpenLeg :=
  if 7 < market.nextWeeklyExpiry - market.today then none
  else match market.ltp with
    | none => none
    | some ltp =>
      let qty := config.lotSize * config.quantityLots
      if ltp ≤ 1 || 2000 < ltp then none
      else if p.cash < qty * ltp then none
      else some {
        direction := proposal.direction
        strike := proposal.strike
        expiry := market.nextWeeklyExpiry
        qty := qty
        entryPrice := ltp
        entryDt := market.now
        spotAtEntry := proposal.spot
        slPrice := ltp * (1 - config.slPct)
        target1Price := ltp * (1 + config.target1Pct) }

def entry (p : Portfolio) (market : Market) : Option (SignalDecision × OpenLeg) :=
  if entryGate config p market then
    (detect config market.spot market.now).bind fun proposal =>
      (newLeg config p proposal market).map fun leg => (proposal, leg)
  else none

def enter (p : Portfolio) : Option (SignalDecision × OpenLeg) → Portfolio
  | none => p
  | some (_, leg) =>
    match p.open leg with
    | .ok opened => opened
    | .error _ => p

def tick (p : Portfolio) (market : Market) : Portfolio :=
  match settled config p market with
  | none => p
  | some p => enter p (entry config p market)

end Tick

end AlgoSystem.Intraday
