import AlgoSystem.General.Rounding
import Mathlib.Data.List.Dedup
import Mathlib.Data.List.Sort

/-!
`payoff.py` of `trading/ai_options_research`. Prices are rational numbers.
-/

namespace AlgoSystem.OptionsResearch
open General

inductive Side where
  | buy
  | sell
  deriving DecidableEq

inductive OptionType where
  | call
  | put
  deriving DecidableEq

inductive PriceSource where
  | bid
  | ask
  | ltp
  | unavailable

structure ResolvedLeg where
  side : Side
  optionType : OptionType
  strike : ℚ
  price : Option ℚ
  priceSource : PriceSource

structure PayoffPoint where
  underlyingPrice : ℚ
  pnl : ℚ

def pricingMethod : String :=
  "short legs priced at bid (fallback: LTP); long legs priced at ask (fallback: LTP) -- a research ESTIMATE, never a guaranteed fill"

structure PayoffResult where
  netPremium : Option ℚ := none
  maxProfit : Option ℚ := none
  maxProfitUnbounded : Bool := false
  maxLoss : Option ℚ := none
  maxLossUnbounded : Bool := false
  breakevens : List ℚ := []
  pricingMethod : String := pricingMethod
  payoffCurve : List PayoffPoint := []
  priced : Bool := false
  detail : Option String := none

def priceLeg (side : Side) (bid ask ltp : Option ℚ) : Option ℚ × PriceSource :=
  match side, bid, ask, ltp with
  | .sell, some bid, _, _ => (some bid, .bid)
  | .buy, _, some ask, _ => (some ask, .ask)
  | _, _, _, some ltp => (some ltp, .ltp)
  | _, _, _, none => (none, .unavailable)

def Side.sign : Side → ℤ
  | .buy => 1
  | .sell => -1

def intrinsic (optionType : OptionType) (strike s : ℚ) : ℚ :=
  match optionType with
  | .call => max (s - strike) 0
  | .put => max (strike - s) 0

def legPayoff (leg : ResolvedLeg) (s : ℚ) : ℚ :=
  leg.side.sign * intrinsic leg.optionType leg.strike s - leg.side.sign * leg.price.getD 0

def totalPnl (legs : List ResolvedLeg) (s : ℚ) : ℚ := (legs.map (legPayoff · s)).sum

def payoffStrikes (legs : List ResolvedLeg) : List ℚ :=
  (legs.map ResolvedLeg.strike).dedup.insertionSort (· ≤ ·)

def crossings : List (ℚ × ℚ) → List ℚ
  | (p₀, v₀) :: (p₁, v₁) :: rest =>
    (if v₀ = 0 then [roundTo 4 p₀]
      else if decide (v₀ < 0) ≠ decide (v₁ < 0) ∧ v₁ ≠ v₀ then
        [roundTo 4 (p₀ + (0 - v₀) * (p₁ - p₀) / (v₁ - v₀))]
      else []) ++ crossings ((p₁, v₁) :: rest)
  | _ => []

def findBreakevens (legs : List ResolvedLeg) (strikes : List ℚ) (far : ℚ) : List ℚ :=
  let found := crossings ((0 :: strikes ++ [far]).map fun p => (p, totalPnl legs p))
  let last := if totalPnl legs far = 0 ∧ found.getLast? ≠ some (roundTo 4 far)
    then [roundTo 4 far] else []
  (found ++ last).dedup.insertionSort (· ≤ ·)

def buildCurve (legs : List ResolvedLeg) (lo hi : ℚ) (n : Nat) : List PayoffPoint :=
  let span := max (hi - lo) 1
  let start := max (lo - span) 0
  let step := (hi + span - start) / max (n - 1 : ℚ) 1
  (List.range n).map fun i =>
    ⟨roundTo 2 (start + i * step), roundTo 4 (totalPnl legs (start + i * step))⟩

def farMultiple : ℚ := 4

def eps : ℚ := 1 / 10 ^ 9

def farPoint (lo hi : ℚ) : ℚ := hi + max (max (farMultiple * (hi - lo)) (farMultiple * hi)) 1000

def slopeRight (legs : List ResolvedLeg) (lo hi : ℚ) : ℚ :=
  (totalPnl legs (farPoint lo hi) - totalPnl legs hi) / (farPoint lo hi - hi)

def netPremium (legs : List ResolvedLeg) : ℚ :=
  (legs.map fun leg => -(leg.side.sign : ℚ) * leg.price.getD 0).sum

def computePayoff (legs : List ResolvedLeg) (curvePoints : Nat := 61) : PayoffResult :=
  if legs = [] then { detail := some "no legs" }
  else if legs.any (·.price = none) then
    { detail := some "one or more legs have no usable price (bid/ask/ltp all missing)" }
  else
    let strikes := payoffStrikes legs
    let lo := strikes.headD 0
    let hi := strikes.getLastD 0
    let slope := slopeRight legs lo hi
    let maxProfitUnbounded := decide (eps < slope)
    let maxLossUnbounded := decide (slope < -eps)
    let evalPoints := 0 :: strikes ++
      if !maxProfitUnbounded && !maxLossUnbounded then [farPoint lo hi] else []
    let pnls := evalPoints.map (totalPnl legs)
    { netPremium := some (roundTo 4 (netPremium legs))
      maxProfit := if maxProfitUnbounded then none else some (roundTo 4 (pnls.max?.getD 0))
      maxProfitUnbounded
      maxLoss := if maxLossUnbounded then none
        else some (roundTo 4 (max (-(pnls.min?.getD 0)) 0))
      maxLossUnbounded
      breakevens := findBreakevens legs strikes (farPoint lo hi)
      payoffCurve := buildCurve legs lo hi curvePoints
      priced := true }

end AlgoSystem.OptionsResearch
