import AlgoSystem.General.Rounding
import AlgoSystem.MarketData.MarketHours

/-!
`portfolio.py` of `VWAP_Reclaim` and of `EMA20_Pullback`, which differ in the name of the signal.
Amounts are rational, a date is the days since 1970-01-01 and a datetime the microseconds, in local
time.
-/

namespace AlgoSystem.Intraday
open General MarketData

inductive Algo where
  | vwapReclaim
  | ema20Pullback

def Algo.signal : Algo → String
  | .vwapReclaim => "VWAP_Reclaim"
  | .ema20Pullback => "EMA20_Pullback"

inductive Direction where
  | ce
  | pe
  deriving DecidableEq

structure OpenLeg where
  direction : Direction
  strike : Int
  expiry : Int
  qty : Int
  entryPrice : ℚ
  entryDt : Int
  spotAtEntry : ℚ
  slPrice : ℚ
  target1Price : ℚ
  bookedHalf : Bool := false
  bookedHalfPrice : Option ℚ := none
  deriving DecidableEq

def OpenLeg.entryCost (leg : OpenLeg) : ℚ := leg.qty * leg.entryPrice

structure Trade where
  tradeId : Nat
  signal : String
  direction : Direction
  strike : Int
  expiry : Int
  entryDt : Int
  exitDt : Int
  exitDate : Int
  entryPrice : ℚ
  exitPrice : ℚ
  qty : Int
  bookedHalf : Bool
  bookedHalfPrice : Option ℚ
  spotAtEntry : ℚ
  pnlInr : ℚ
  pnlPct : ℚ
  exitReason : String
  costs : ℚ
  deriving DecidableEq

structure Portfolio where
  initialCapital : ℚ
  cash : ℚ
  openLeg : Option OpenLeg := none
  closedTrades : List Trade := []
  sessionDate : Option Int := none
  lossesToday : Nat := 0
  weekStartValue : Option ℚ := none
  weekStartDate : Option Int := none
  haltedUntil : Option Int := none
  nextTradeId : Nat := 1
  deriving DecidableEq

inductive ValueError where
  | alreadyOpen
  | cannotOpen
  | noOpenLeg
  deriving DecidableEq

def isoWeek (day : Int) : Int := (day + 3) / 7

section Figures
variable (leg : OpenLeg) (exitPrice : ℚ)

def avgExit : ℚ :=
  match leg.bookedHalf, leg.bookedHalfPrice with
  | true, some price => 1 / 2 * price + 1 / 2 * exitPrice
  | _, _ => exitPrice

def fullQtyEntry : Int :=
  match leg.bookedHalf, leg.bookedHalfPrice with
  | true, some _ => leg.qty * 2
  | _, _ => leg.qty

def gross : ℚ := (avgExit leg exitPrice - leg.entryPrice) * fullQtyEntry leg

def turnover : ℚ := (leg.entryPrice + avgExit leg exitPrice) * fullQtyEntry leg

def costs (brokeragePerLeg costTurnoverPct : ℚ) : ℚ :=
  2 * brokeragePerLeg + turnover leg exitPrice * costTurnoverPct

def pnl (brokeragePerLeg costTurnoverPct : ℚ) : ℚ :=
  gross leg exitPrice - costs leg exitPrice brokeragePerLeg costTurnoverPct

def pnlPct : ℚ :=
  if 0 < leg.entryPrice then (avgExit leg exitPrice / leg.entryPrice - 1) * 100 else 0

end Figures

namespace Portfolio

def new (initialCapital : ℚ) : Portfolio := { initialCapital, cash := initialCapital }

def totalValue (p : Portfolio) (markPrice : Option ℚ := none) : ℚ :=
  match p.openLeg with
  | none => p.cash
  | some leg => p.cash + leg.qty * markPrice.getD leg.entryPrice

def rollSession (p : Portfolio) (today : Int) (equity : ℚ) : Portfolio :=
  let p := if p.sessionDate ≠ some today then { p with sessionDate := some today, lossesToday := 0 }
    else p
  let week := some (isoWeek today)
  if p.weekStartDate ≠ week then
    { p with
      weekStartDate := week
      weekStartValue := some equity
      haltedUntil := if p.haltedUntil = week then none else p.haltedUntil }
  else p

def registerLoss (p : Portfolio) : Portfolio := { p with lossesToday := p.lossesToday + 1 }

def weeklyDdPct (p : Portfolio) (equity : ℚ) : ℚ :=
  match p.weekStartValue with
  | none => 0
  | some value => if value ≤ 0 then 0 else equity / value - 1

def haltThisWeek (p : Portfolio) : Portfolio := { p with haltedUntil := p.weekStartDate }

def isHalted (p : Portfolio) : Bool := p.haltedUntil = p.weekStartDate

def «open» (p : Portfolio) (leg : OpenLeg) : Except ValueError Portfolio :=
  match p.openLeg with
  | some _ => .error .alreadyOpen
  | none =>
    if p.cash + 1 / 1000000 < leg.entryCost then .error .cannotOpen
    else .ok { p with cash := p.cash - leg.entryCost, openLeg := some leg }

def bookHalf (p : Portfolio) (price : ℚ) : Portfolio :=
  match p.openLeg with
  | none => p
  | some leg =>
    if leg.bookedHalf then p
    else
      let halfQty := leg.qty / 2
      { p with
        cash := p.cash + halfQty * price
        openLeg := some { leg with
          qty := leg.qty - halfQty, bookedHalf := true, bookedHalfPrice := some price } }

structure Closing where
  exitPrice : ℚ
  exitDt : Int
  reason : String
  brokeragePerLeg : ℚ
  costTurnoverPct : ℚ

def trade (algo : Algo) (p : Portfolio) (leg : OpenLeg) (c : Closing) : Trade where
  tradeId := p.nextTradeId
  signal := algo.signal
  direction := leg.direction
  strike := leg.strike
  expiry := leg.expiry
  entryDt := leg.entryDt
  exitDt := c.exitDt
  exitDate := c.exitDt / oneDay
  entryPrice := leg.entryPrice
  exitPrice := avgExit leg c.exitPrice
  qty := fullQtyEntry leg
  bookedHalf := leg.bookedHalf
  bookedHalfPrice := leg.bookedHalfPrice
  spotAtEntry := leg.spotAtEntry
  pnlInr := roundTo 2 (pnl leg c.exitPrice c.brokeragePerLeg c.costTurnoverPct)
  pnlPct := roundTo 2 (pnlPct leg c.exitPrice)
  exitReason := c.reason
  costs := roundTo 2 (costs leg c.exitPrice c.brokeragePerLeg c.costTurnoverPct)

def close (algo : Algo) (p : Portfolio) (c : Closing) : Except ValueError (Portfolio × Trade) :=
  match p.openLeg with
  | none => .error .noOpenLeg
  | some leg =>
    let closed := { p with
      cash := p.cash + leg.qty * c.exitPrice
      closedTrades := p.closedTrades ++ [trade algo p leg c]
      nextTradeId := p.nextTradeId + 1
      openLeg := none }
    .ok (if pnl leg c.exitPrice c.brokeragePerLeg c.costTurnoverPct < 0 then closed.registerLoss
      else closed, trade algo p leg c)

end Portfolio

end AlgoSystem.Intraday
