import AlgoSystem.General.Calendar
import AlgoSystem.General.Dict
import Mathlib.Data.Rat.Floor

/-!
`trading/algos/ETF_Momentum/portfolio.py`. Amounts and prices are rationals, dates are dates of the
calendar; the source keeps them as ISO strings. A holding was bought at a positive price: `sell`
divides by it.
-/

namespace AlgoSystem.EtfMomentum
open General

structure Holding where
  symbol : String
  category : String
  qty : Nat
  entryPrice : { price : ℚ // 0 < price }
  entryDate : Date
  peak : ℚ
  lastPrice : ℚ
  prevClose : ℚ
  scoreAtEntry : ℚ

namespace Holding

def cost (h : Holding) : ℚ := h.qty * h.entryPrice.val
def value (h : Holding) : ℚ := h.qty * h.lastPrice

end Holding

inductive ExitReason where
  | sl
  | trail
  | rotation
  deriving DecidableEq

structure Trade where
  tradeId : Nat
  symbol : String
  category : String
  entryDate : Date
  exitDate : Date
  entryPrice : ℚ
  exitPrice : ℚ
  qty : Nat
  cost : ℚ
  proceeds : ℚ
  pnlInr : ℚ
  pnlPct : ℚ
  holdDays : ℤ
  peakPrice : ℚ
  exitReason : ExitReason
  momentumScoreAtEntry : ℚ

structure Portfolio where
  initialCapital : ℚ
  cash : ℚ
  holdings : Dict String Holding := Dict.empty
  closedTrades : List Trade := []
  lastRebalance : Option Date := none
  lastAccrual : Option Date := none
  nextTradeId : Nat := 1

inductive PortfolioError where
  | cannotBuy (qty : ℤ) (symbol : String) (price cash : ℚ)
  | notANumber (symbol : String)
  | noClose (asOf : Date)

def daysBetween (first last : Date) : ℤ := (last.toordinal : ℤ) - first.toordinal

namespace Portfolio

def new (initialCapital : ℚ) : Portfolio where
  initialCapital
  cash := initialCapital

def holdingsValue (p : Portfolio) : ℚ := (p.holdings.entries.map fun entry => entry.2.value).sum

def totalValue (p : Portfolio) : ℚ := p.cash + p.holdingsValue

def accrueInterest (p : Portfolio) (asOf : Date) (rate : ℚ) : ℚ × Portfolio :=
  match p.lastAccrual with
  | none => (0, { p with lastAccrual := some asOf })
  | some last =>
    let days := daysBetween last asOf
    if 0 < days then
      let interest := p.cash * rate / 365 * days
      (interest, { p with cash := p.cash + interest, lastAccrual := some asOf })
    else (0, { p with lastAccrual := some asOf })

def buy (p : Portfolio) (symbol category : String) (qty : ℤ) (price : { price : ℚ // 0 < price })
    (asOf : Date) (score : ℚ) : Except PortfolioError Portfolio :=
  let cost := qty * price.val
  if qty ≤ 0 ∨ p.cash + 1 / 1000000 < cost then .error (.cannotBuy qty symbol price.val p.cash)
  else
    .ok { p with
      cash := p.cash - cost
      holdings := p.holdings.set symbol
        { symbol, category, qty := qty.toNat, entryPrice := price, entryDate := asOf
          peak := price.val, lastPrice := price.val, prevClose := price.val
          scoreAtEntry := score } }

def sell (p : Portfolio) (symbol : String) (price : ℚ) (asOf : Date) (reason : ExitReason) :
    Option (Trade × Portfolio) :=
  (p.holdings.get? symbol).map fun h =>
    let proceeds := h.qty * price
    let trade : Trade :=
      { tradeId := p.nextTradeId, symbol, category := h.category, entryDate := h.entryDate
        exitDate := asOf, entryPrice := h.entryPrice.val, exitPrice := price, qty := h.qty
        cost := h.cost, proceeds, pnlInr := proceeds - h.cost
        pnlPct := (price / h.entryPrice.val - 1) * 100
        holdDays := daysBetween h.entryDate asOf, peakPrice := h.peak, exitReason := reason
        momentumScoreAtEntry := h.scoreAtEntry }
    (trade, { p with
      holdings := p.holdings.erase symbol
      cash := p.cash + proceeds
      closedTrades := p.closedTrades ++ [trade]
      nextTradeId := p.nextTradeId + 1 })

end Portfolio

end AlgoSystem.EtfMomentum
