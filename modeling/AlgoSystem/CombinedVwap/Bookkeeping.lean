import AlgoSystem.CombinedVwap.Manager
import AlgoSystem.General.ShortPosition

/-!
`enter_leg` and `exit_leg` where their callers run them: entries for a leg that is not in position,
exits for one that is. The broker's net position of a token moves by the quantity really filled.
-/

namespace AlgoSystem.CombinedVwap
open General

/-- An answer of `execute_limit_order` that says what happened: at most the requested quantity, at
a price in paise. -/
structure Report (cfg : Config) extends Fill where
  filled_le : filledQty ≤ cfg.qty
  places : HasPlaces 2 avgPrice
  priced : 0 < filledQty → 0 < avgPrice

structure Account where
  manager : Manager := {}
  ce : ShortPosition ℚ := ShortPosition.flat
  pe : ShortPosition ℚ := ShortPosition.flat
  deriving DecidableEq

namespace Account

def position (a : Account) : Token → ShortPosition ℚ
  | .ce => a.ce
  | .pe => a.pe

def setPosition (a : Account) (token : Token) (position : ShortPosition ℚ) : Account :=
  match token with
  | .ce => { a with ce := position }
  | .pe => { a with pe := position }

end Account

inductive Trade (cfg : Config) where
  | tick (tick : PriceTick)
  | enter (token : Token) (report : Report cfg)
  | exit (token : Token) (reason : ExitReason) (report : Report cfg)

def trade (cfg : Config) (a : Account) : Trade cfg → Option Account
  | .tick tick => some { a with manager := a.manager.updateLtp tick }
  | .enter token report =>
    if (a.manager.leg token).inPosition then none
    else
      let entered := { a with manager := a.manager.enterLeg cfg token report.toFill }
      -- Without a price no order is sent, so nothing is filled.
      if (a.manager.leg token).lastLtp.getD 0 ≤ 0 then some entered
      else some (entered.setPosition token
        ((a.position token).sell report.filledQty report.avgPrice))
  | .exit token reason report =>
    if (a.manager.leg token).inPosition then
      let exited := { a with manager := a.manager.exitLeg cfg token reason report.toFill }
      some (exited.setPosition token ((a.position token).buy report.filledQty report.avgPrice))
    else none

end AlgoSystem.CombinedVwap
