import AlgoSystem.MarketData.ChainSnapshots
import Mathlib.Algebra.Field.Rat
import Mathlib.Algebra.Order.Group.Unbundled.Abs

/-!
`calculate_max_pain` and `implied_volatility` of `trading/market_data/options_intelligence.py`, the
second for any number type and before its rounding; `black_scholes_price` is a parameter.
-/

namespace AlgoSystem.MarketData
open General

structure MaxPainResult where
  maxPainStrike : Option ℚ
  payouts : List (ℚ × ℚ)

def openInterest (quote : Option OptionQuote) : Int := (quote.bind OptionQuote.oi).getD 0

def oiByStrike (chain : OptionChain) : Dict ℚ (Int × Int) :=
  .ofList (chain.rows.map fun row => (row.strike, openInterest row.call, openInterest row.put))

def candidatePayout (oi : Dict ℚ (Int × Int)) (candidate : ℚ) : ℚ :=
  (oi.entries.map fun (strike, callOi, putOi) =>
    max (candidate - strike) 0 * callOi + max (strike - candidate) 0 * putOi).sum

def calculateMaxPain (chain : OptionChain) : MaxPainResult :=
  let strikes := (chain.rows.map OptionChainRow.strike).insertionSort (· ≤ ·)
  if strikes = [] then ⟨none, []⟩
  else
    let payouts := strikes.map fun candidate =>
      (candidate, candidatePayout (oiByStrike chain) candidate)
    let minPayout := (payouts.map Prod.snd).min?.getD 0
    ⟨((payouts.filter fun p => p.2 = minPayout).map Prod.fst).min?, payouts⟩

section ImpliedVolatility
variable {K : Type} [Field K] [LinearOrder K]

def intrinsic (spot strike : K) : OptionType → K
  | .ce => max (spot - strike) 0
  | .pe => max (strike - spot) 0

def bisect (price : K → K) (target tolerance : K) : Nat → K → K → K
  | 0, lo, hi => (lo + hi) / 2
  | n + 1, lo, hi =>
    let mid := (lo + hi) / 2
    if |price mid - target| < tolerance then mid
    else if price mid > target then bisect price target tolerance n lo mid
    else bisect price target tolerance n mid hi

def impliedVolatility (blackScholesPrice : K → K → K → K → K → OptionType → K)
    (optionPrice spot strike t r : K) (optionType : OptionType) (lo hi tolerance : K)
    (maxIterations : Nat) : Option K :=
  let price sigma := blackScholesPrice spot strike t r sigma optionType
  if optionPrice ≤ 0 ∨ spot ≤ 0 ∨ strike ≤ 0 ∨ t ≤ 0 then none
  else if optionPrice < intrinsic spot strike optionType - tolerance then none
  else if optionPrice < price lo - tolerance ∨ optionPrice > price hi + tolerance then none
  else some (bisect price optionPrice tolerance maxIterations lo hi)

end ImpliedVolatility

end AlgoSystem.MarketData
