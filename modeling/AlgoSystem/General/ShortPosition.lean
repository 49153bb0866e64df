import Mathlib.Data.Rat.Cast.CharZero

/-!
# Short positions at average cost

`net` is the quantity sold minus the quantity bought, `avg` the average price of what is sold and
not bought back, `realised` the profit of what has been bought back. Buying more than is open leaves
a long position, on which no profit is counted.
-/

namespace AlgoSystem.General

structure ShortPosition (K : Type*) where
  net : ℤ
  avg : K
  realised : K
  deriving DecidableEq

variable {K : Type*} [Field K]

namespace ShortPosition

def flat : ShortPosition K := ⟨0, 0, 0⟩

def sell (position : ShortPosition K) (qty : ℕ) (price : K) : ShortPosition K :=
  let before := position.net.toNat
  let after := (position.net + qty).toNat
  { net := position.net + qty
    avg := if after = 0 then position.avg
      else (position.avg * before + price * (after - before : ℕ)) / after
    realised := position.realised }

def buy (position : ShortPosition K) (qty : ℕ) (price : K) : ShortPosition K :=
  { net := position.net - qty
    avg := position.avg
    realised := position.realised + (position.avg - price) * (min qty position.net.toNat : ℕ) }

theorem sell_avg_of_flat [CharZero K] {position : ShortPosition K} (closed : position.net = 0)
    {qty : ℕ} (positive : 0 < qty) (price : K) : (position.sell qty price).avg = price := by
  have nonzero : (qty : K) ≠ 0 := Nat.cast_ne_zero.mpr positive.ne'
  simp [sell, closed, positive.ne', nonzero]

theorem buy_realised_of_all {position : ShortPosition K} {qty : ℕ} (all : (qty : ℤ) = position.net)
    (price : K) :
    (position.buy qty price).realised = position.realised + (position.avg - price) * qty := by
  have closed : min qty position.net.toNat = qty := by omega
  simp only [buy, closed]

end ShortPosition

end AlgoSystem.General
