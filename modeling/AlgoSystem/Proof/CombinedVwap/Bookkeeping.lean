import AlgoSystem.CombinedVwap.Bookkeeping
import AlgoSystem.General.Runs
import AlgoSystem.Proof.CombinedVwap.Frame
import Mathlib.Tactic.Linarith

namespace AlgoSystem.Proof.CombinedVwap
open AlgoSystem.CombinedVwap General

structure Book (a : Account) : Prop where
  flag : ∀ token, (a.manager.leg token).inPosition = true ↔ 0 < (a.position token).net
  notLong : ∀ token, 0 ≤ (a.position token).net
  profit : -(a.manager.ce.cumLoss + a.manager.pe.cumLoss) = a.ce.realised + a.pe.realised

def BuysBackAll {cfg : Config} (a : Account) : Trade cfg → Prop
  | .exit token _ report => (report.filledQty : ℤ) = (a.position token).net
  | _ => True

instance {cfg : Config} (a : Account) (e : Trade cfg) : Decidable (BuysBackAll a e) := by
  cases e <;> unfold BuysBackAll <;> infer_instance

structure LegBook (leg : Leg) (position : ShortPosition ℚ) : Prop where
  flag : leg.inPosition = true ↔ 0 < position.net
  notLong : 0 ≤ position.net
  profit : -leg.cumLoss = position.realised
  entry : leg.inPosition = true → leg.entryPrice = position.avg ∧ HasPlaces 2 leg.entryPrice

variable {position : ShortPosition ℚ}

theorem LegBook.of_same {leg leg' : Leg} (book : LegBook leg position)
    (same : SamePosition leg' leg) : LegBook leg' position := by
  obtain ⟨flag, entry, loss, -⟩ := same
  constructor
  · rw [flag, book.flag]
  · exact book.notLong
  · rw [loss, book.profit]
  · rw [flag, entry]
    exact book.entry

def Agrees (a : Account) : Prop := ∀ token, LegBook (a.manager.leg token) (a.position token)

variable {a : Account}

theorem Agrees.book (agrees : Agrees a) : Book a where
  flag := fun token => (agrees token).flag
  notLong := fun token => (agrees token).notLong
  profit := by
    have call : -a.manager.ce.cumLoss = a.ce.realised := (agrees .ce).profit
    have put : -a.manager.pe.cumLoss = a.pe.realised := (agrees .pe).profit
    linarith

variable {m : Manager} {token : Token}

theorem Agrees.setPosition (agrees : Agrees a) (leg : LegBook (m.leg token) position)
    (kept : SamePosition (m.leg (other token)) (a.manager.leg (other token))) :
    Agrees ({ a with manager := m }.setPosition token position) := by
  intro t
  have rest := (agrees (other token)).of_same kept
  cases token <;> cases t
  · exact leg
  · exact rest
  · exact rest
  · exact leg

theorem enterLeg_other (cfg : Config) (m : Manager) (token : Token) (fill : Fill) :
    SamePosition ((m.enterLeg cfg token fill).leg (other token)) (m.leg (other token)) := by
  unfold Manager.enterLeg
  dsimp only
  split
  · exact SamePosition.rfl
  · split
    · rw [leg_setLeg_other]
      exact submit_position _ _ _ _
    · exact submit_position _ _ _ _

variable {cfg : Config}

theorem enterLeg_of_no_price (low : (m.leg token).lastLtp.getD 0 ≤ 0) (fill : Fill) :
    m.enterLeg cfg token fill = m := by
  simp [Manager.enterLeg, low]

theorem enterLeg_legBook (book : LegBook (m.leg token) position)
    (out : (m.leg token).inPosition = false) (price : ¬ (m.leg token).lastLtp.getD 0 ≤ 0)
    (report : Report cfg) :
    LegBook ((m.enterLeg cfg token report.toFill).leg token)
      (position.sell report.filledQty report.avgPrice) := by
  have closed : position.net = 0 := by
    have notOpen : ¬ 0 < position.net := by rw [← book.flag, out]; decide
    have := book.notLong
    omega
  have same := submit_position m
    ⟨token, cfg.qty, .sell, (m.leg token).lastLtp.getD 0, .entry⟩ report.toFill token
  unfold Manager.enterLeg
  rw [if_neg price]
  dsimp only
  split
  · rename_i filled
    have avg := ShortPosition.sell_avg_of_flat closed filled report.avgPrice
    rw [leg_setLeg_same]
    constructor
    · simpa [ShortPosition.sell, closed] using filled
    · simp [ShortPosition.sell, closed]
    · exact (congrArg Neg.neg same.cumLoss).trans book.profit
    · intro _
      exact ⟨avg.symm, report.places⟩
  · rename_i unfilled
    have none : report.filledQty = 0 := by omega
    refine (LegBook.of_same ?_ same)
    constructor
    · simp [ShortPosition.sell, closed, none, out]
    · simp [ShortPosition.sell, closed]
    · exact book.profit
    · simp [out]

theorem exitLeg_legBook (book : LegBook (m.leg token) position)
    (mem : (m.leg token).inPosition = true) (reason : ExitReason) (report : Report cfg)
    (all : (report.filledQty : ℤ) = position.net) :
    LegBook ((m.exitLeg cfg token reason report.toFill).leg token)
      (position.buy report.filledQty report.avgPrice) := by
  have opened := book.flag.mp mem
  obtain ⟨entry, places⟩ := book.entry mem
  have filled : 0 < report.filledQty := by omega
  have priced := (report.priced filled).ne'
  have same := submit_position m
    ⟨token, cfg.qty, .buy, m.exitRefPrice token, .exit reason⟩ report.toFill token
  have pnl : roundTo 2 ((position.avg - report.avgPrice) * report.filledQty) =
      (position.avg - report.avgPrice) * report.filledQty := by
    rw [← entry]
    exact (places.sub report.places).mul_natCast report.filledQty
  have realised := ShortPosition.buy_realised_of_all all report.avgPrice
  unfold Manager.exitLeg
  simp only [leg_setLeg_same, if_neg filled.ne', if_neg priced, same.entryPrice, entry, pnl,
    same.cumLoss]
  constructor
  · simp [ShortPosition.buy, all]
  · simp [ShortPosition.buy, all]
  · rw [realised, ← book.profit]
    ring
  · simp

theorem exit_breaks_book {b : Account} {reason : ExitReason} {report : Report cfg}
    (moved : trade cfg a (.exit token reason report) = some b)
    (partly : (report.filledQty : ℤ) ≠ (a.position token).net) : ¬ Book b := by
  intro book
  simp only [trade, Option.ite_none_right_eq_some, Option.some.injEq] at moved
  obtain ⟨-, rfl⟩ := moved
  have flat := exitLeg_flat cfg a.manager token reason report.toFill
  have flag := book.flag token
  have notLong := book.notLong token
  cases token <;> simp_all [Account.setPosition, Account.position, ShortPosition.buy, Manager.leg] <;>
    omega

theorem trade_agrees (a : Account) (e : Trade cfg) (b : Account) (agrees : Agrees a)
    (all : BuysBackAll a e) (moved : trade cfg a e = some b) : Agrees b := by
  cases e with
  | tick tick =>
    cases moved
    intro token
    exact (agrees token).of_same (updateLtp_position a.manager tick token)
  | enter token report =>
    simp only [trade] at moved
    split at moved
    · cases moved
    · rename_i out
      rw [Bool.not_eq_true] at out
      split at moved
      · rename_i low
        cases moved
        rw [enterLeg_of_no_price low]
        exact agrees
      · rename_i price
        cases moved
        apply agrees.setPosition
        · exact enterLeg_legBook (agrees token) out price report
        · exact enterLeg_other cfg a.manager token report.toFill
  | exit token reason report =>
    simp only [trade, Option.ite_none_right_eq_some, Option.some.injEq] at moved
    obtain ⟨mem, rfl⟩ := moved
    apply agrees.setPosition
    · exact exitLeg_legBook (agrees token) mem reason report all
    · rw [exitLeg_other]
      exact submit_position _ _ _ _

theorem start_agrees : Agrees {} := by
  intro token
  cases token <;> exact ⟨by decide, by decide, by decide, by decide⟩

theorem book_iff_buysBackAll (cfg : Config) (trades : List (Trade cfg)) (b : Account)
    (path : run (trade cfg) {} trades = some b) :
    (∀ before after a, trades = before ++ after → run (trade cfg) {} before = some a → Book a) ↔
      Meets (trade cfg) BuysBackAll {} trades := by
  refine throughout_iff_meets (P := Agrees) (fun _ agrees => agrees.book) trade_agrees ?_ path
    start_agrees
  intro a e v _ bad moved
  cases e with
  | tick tick | enter token report => exact absurd trivial bad
  | exit token reason report => exact exit_breaks_book moved bad

def oneLot : Config := {}

def filledAt (qty : Nat) (price : ℚ) (small : qty ≤ 65 := by decide)
    (places : HasPlaces 2 price := by decide +kernel) (priced : 0 < price := by decide +kernel) :
    Report oneLot :=
  { filledQty := qty, avgPrice := price, filled_le := small, places, priced := fun _ => priced }

def roundTrip (entered : Nat) (small : entered ≤ 65 := by decide) : List (Trade oneLot) :=
  [.tick ⟨.ce, 100, 1⟩, .enter .ce (filledAt entered 100 small), .exit .ce .eod (filledAt 65 90)]

def accountAfter (trades : List (Trade oneLot)) : Account :=
  (run (trade oneLot) {} trades).getD {}

theorem book_after_whole_lot : Book (accountAfter (roundTrip 65)) := by
  have path : run (trade oneLot) {} (roundTrip 65) = some (accountAfter (roundTrip 65)) := by
    decide +kernel
  have meets : Meets (trade oneLot) BuysBackAll {} (roundTrip 65) := by decide +kernel
  exact (book_iff_buysBackAll oneLot (roundTrip 65) _ path).mpr meets (roundTrip 65) []
    _ (by simp) path

theorem book_fails_after_partial_entry :
    run (trade oneLot) {} (roundTrip 30) = some (accountAfter (roundTrip 30)) ∧
    ((accountAfter (roundTrip 30)).position .ce).net = -35 ∧
    ¬ Book (accountAfter (roundTrip 30)) := by
  have long : ((accountAfter (roundTrip 30)).position .ce).net = -35 := by decide +kernel
  refine ⟨by decide +kernel, long, ?_⟩
  intro book
  have notLong := book.notLong .ce
  omega

end AlgoSystem.Proof.CombinedVwap
