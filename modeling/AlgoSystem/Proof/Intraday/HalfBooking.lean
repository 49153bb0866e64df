import AlgoSystem.Intraday.Portfolio
import Mathlib.Tactic.Linarith

namespace AlgoSystem.Proof.Intraday.HalfBooking
open AlgoSystem.Intraday List

section Ledger
variable {algo : Algo} {p : Portfolio} {leg : OpenLeg}

theorem open_eq_ok {opened : Portfolio} (h : p.open leg = .ok opened) :
    p.openLeg = none ∧ opened = { p with cash := p.cash - leg.entryCost, openLeg := some leg } := by
  unfold Portfolio.open at h
  split at h
  · cases h
  next idle =>
    split at h
    · cases h
    · cases h
      exact ⟨idle, rfl⟩

theorem close_eq_ok {c : Portfolio.Closing} {after : Portfolio} {trade : Trade}
    (h : p.close algo c = .ok (after, trade)) :
    ∃ held, p.openLeg = some held ∧ trade = Portfolio.trade algo p held c ∧
      after.cash = p.cash + held.qty * c.exitPrice := by
  unfold Portfolio.close at h
  split at h
  · cases h
  next held isHeld =>
    simp only [Except.ok.injEq, Prod.mk.injEq] at h
    obtain ⟨rfl, rfl⟩ := h
    refine ⟨held, isHeld, rfl, ?_⟩
    split <;> rfl

def booked (leg : OpenLeg) (price : ℚ) : OpenLeg :=
  { leg with qty := leg.qty - leg.qty / 2, bookedHalf := true, bookedHalfPrice := some price }

section
variable (held : p.openLeg = some leg)
include held

theorem bookHalf_fresh (fresh : leg.bookedHalf = false) (price : ℚ) :
    p.bookHalf price = { p with
      cash := p.cash + (leg.qty / 2 : Int) * price, openLeg := some (booked leg price) } := by
  simp [Portfolio.bookHalf, held, fresh, booked]

theorem bookHalf_booked (done : leg.bookedHalf = true) (price : ℚ) : p.bookHalf price = p := by
  simp [Portfolio.bookHalf, held, done]

theorem foldl_bookHalf_booked (done : leg.bookedHalf = true) (prices : List ℚ) :
    prices.foldl Portfolio.bookHalf p = p := by
  induction prices with
  | nil => rfl
  | cons price prices ih => rw [foldl_cons, bookHalf_booked held done, ih]

theorem foldl_bookHalf_cons (fresh : leg.bookedHalf = false) (price : ℚ) (prices : List ℚ) :
    (price :: prices).foldl Portfolio.bookHalf p = { p with
      cash := p.cash + (leg.qty / 2 : Int) * price, openLeg := some (booked leg price) } := by
  rw [foldl_cons, bookHalf_fresh held fresh]
  exact foldl_bookHalf_booked rfl rfl prices

end

end Ledger

def outlay (leg : OpenLeg) : ℚ :=
  match leg.bookedHalf, leg.bookedHalfPrice with
  | true, some price => leg.qty * 2 * leg.entryPrice - leg.qty * price
  | _, _ => leg.entryCost

theorem gross_eq (leg : OpenLeg) (exitPrice : ℚ) :
    gross leg exitPrice = leg.qty * exitPrice - outlay leg := by
  cases half : leg.bookedHalf <;> cases price : leg.bookedHalfPrice <;>
    simp only [gross, avgExit, fullQtyEntry, outlay, OpenLeg.entryCost, half, price] <;>
    push_cast <;> ring

theorem outlay_fresh {leg : OpenLeg} (fresh : leg.bookedHalf = false) :
    outlay leg = leg.entryCost := by
  simp [outlay, fresh]

theorem outlay_booked_even {leg : OpenLeg} (even : 2 ∣ leg.qty) (price : ℚ) :
    outlay (booked leg price) = leg.entryCost - (leg.qty / 2 : Int) * price := by
  obtain ⟨half, split⟩ := even
  have floor : leg.qty / 2 = half := by omega
  simp only [outlay, booked, OpenLeg.entryCost, floor]
  rw [split]
  push_cast
  ring

/-- The trade records the quantity that was opened, and its gross result, the unrounded net result
and costs together, is what the leg brought in cash. -/
structure Conserves (before after : Portfolio) (opened held : OpenLeg) (c : Portfolio.Closing)
    (trade : Trade) : Prop where
  qty : trade.qty = opened.qty
  cash : pnl held c.exitPrice c.brokeragePerLeg c.costTurnoverPct +
    costs held c.exitPrice c.brokeragePerLeg c.costTurnoverPct = after.cash - before.cash

/-- `held` is the leg at the moment of the close, from which the recorded figures are rounded. -/
theorem conserves_iff_even (algo : Algo) {p opened after : Portfolio} {leg : OpenLeg}
    {c : Portfolio.Closing} {trade : Trade} (prices : List ℚ) (fresh : leg.bookedHalf = false)
    (opens : p.open leg = .ok opened)
    (closes : (prices.foldl Portfolio.bookHalf opened).close algo c = .ok (after, trade)) :
    ∃ held, (prices.foldl Portfolio.bookHalf opened).openLeg = some held ∧
      trade = (prices.foldl Portfolio.bookHalf opened).trade algo held c ∧
      (Conserves p after leg held c trade ↔ prices = [] ∨ 2 ∣ leg.qty) := by
  obtain ⟨-, afterOpen⟩ := open_eq_ok opens
  have paid : opened.cash = p.cash - leg.entryCost := by rw [afterOpen]
  have isOpen : opened.openLeg = some leg := by rw [afterOpen]
  obtain ⟨held, isHeld, rfl, cash⟩ := close_eq_ok closes
  refine ⟨held, isHeld, rfl, ?_⟩
  have total : ∀ exitPrice brokerage pct,
      pnl held exitPrice brokerage pct + costs held exitPrice brokerage pct =
        gross held exitPrice := fun _ _ _ => sub_add_cancel _ _
  cases prices with
  | nil =>
    have same : held = leg := Option.some.inj (isHeld.symm.trans isOpen)
    subst same
    refine iff_of_true ⟨?_, ?_⟩ (.inl rfl)
    · simp [Portfolio.trade, fullQtyEntry, fresh]
    · rw [total, cash, gross_eq, outlay_fresh fresh, foldl_nil, paid]
      ring
  | cons price prices =>
    rw [foldl_bookHalf_cons isOpen fresh] at isHeld cash ⊢
    cases isHeld
    have recorded : fullQtyEntry (booked leg price) = (leg.qty - leg.qty / 2) * 2 := rfl
    constructor
    · -- twice the rest of an odd quantity is one more than that quantity
      rintro ⟨qty, -⟩
      have doubled : (leg.qty - leg.qty / 2) * 2 = leg.qty := recorded.symm.trans qty
      exact .inr (by omega)
    · intro even
      have even : 2 ∣ leg.qty := even.resolve_left (cons_ne_nil _ _)
      refine ⟨recorded.trans (by omega), ?_⟩
      rw [total, cash, gross_eq, outlay_booked_even even, paid]
      ring

section Cases

def callAt100 (qty : Int) : OpenLeg where
  direction := .ce
  strike := 24000
  expiry := 20600
  qty := qty
  entryPrice := 100
  entryDt := 0
  spotAtEntry := 24060
  slPrice := 70
  target1Price := 130

def exitAt120 : Portfolio.Closing where
  exitPrice := 120
  exitDt := 0
  reason := "Trail"
  brokeragePerLeg := 30
  costTurnoverPct := 7 / 10000

def openedAt100 (qty : Int) : Portfolio :=
  { Portfolio.new 200000 with cash := 200000 - qty * 100, openLeg := some (callAt100 qty) }

theorem conserves_two_lots : ∃ after trade,
    (Portfolio.new 200000).open (callAt100 150) = .ok (openedAt100 150) ∧
    ([130].foldl Portfolio.bookHalf (openedAt100 150)).close .vwapReclaim exitAt120 =
      .ok (after, trade) ∧
    Conserves (Portfolio.new 200000) after (callAt100 150) (booked (callAt100 150) 130) exitAt120
      trade := by
  have opens : (Portfolio.new 200000).open (callAt100 150) = .ok (openedAt100 150) := by
    decide +kernel
  obtain ⟨held, isHeld, -, conserves⟩ :=
    conserves_iff_even .vwapReclaim [130] rfl opens (rfl : _ = Except.ok (_, _))
  cases isHeld
  exact ⟨_, _, opens, rfl, conserves.mpr (.inr (by decide))⟩

theorem default_lots_not_conserves : ∃ after trade,
    (Portfolio.new 200000).open (callAt100 375) = .ok (openedAt100 375) ∧
    ([130].foldl Portfolio.bookHalf (openedAt100 375)).close .vwapReclaim exitAt120 =
      .ok (after, trade) ∧
    trade.qty = 376 ∧
    ¬ Conserves (Portfolio.new 200000) after (callAt100 375) (booked (callAt100 375) 130) exitAt120
      trade := by
  refine ⟨_, _, by decide +kernel, rfl, by decide +kernel, ?_⟩
  rintro ⟨qty, -⟩
  exact absurd qty (by decide +kernel)

end Cases

end AlgoSystem.Proof.Intraday.HalfBooking
