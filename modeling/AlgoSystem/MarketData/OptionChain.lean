import AlgoSystem.MarketData.Instruments
import Mathlib.Algebra.Order.Group.Abs
import Mathlib.Data.List.MinMax

/-!
`nearest_strike`, `select_strike_window` and `resolve_expiry` of
`trading/market_data/option_chain.py`. Prices and strikes are rational numbers.
-/

namespace AlgoSystem.MarketData

def nearestStrike (strikes : List ℚ) (spot : ℚ) : Option ℚ :=
  strikes.argmin fun s => |s - spot|

def selectStrikeWindow (sortedStrikes : List ℚ) (atm : Option ℚ) (n : Nat) : List ℚ :=
  match atm with
  | none => []
  | some atm =>
    match if atm ∈ sortedStrikes then some atm else nearestStrike sortedStrikes atm with
    | none => []
    | some atm =>
      let i := sortedStrikes.idxOf atm
      (sortedStrikes.take (i + n + 1)).drop (i - n)

def resolveExpiry (master : InstrumentMaster) (underlying : String) (today : Int) : Option Int :=
  let expiries := master.listExpiries underlying
  match expiries.filter (today ≤ ·) with
  | upcoming :: _ => some upcoming
  | [] => expiries.getLast?

end AlgoSystem.MarketData
