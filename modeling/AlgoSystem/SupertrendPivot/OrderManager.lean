import Mathlib.Algebra.BigOperators.Group.List.Basic
import Mathlib.Algebra.Ring.Int.Defs
import Mathlib.Data.Rat.Defs

/-!
`trading/algos/supertrendPivotAlgo/order_manager.py` in live mode. A placement raises or returns the
recorded fill price; the accepted orders are kept beside the manager's own fields.
-/

namespace AlgoSystem.SupertrendPivot

structure Config where
  quantityLots : Nat := 8
  lotSize : Nat := 65
  maxTradesPerDay : Nat := 3

structure Contract where
  symbol : String
  token : String
  lotsize : Option Nat := none
  deriving DecidableEq

def Config.quantity (cfg : Config) (contract : Contract) : Nat :=
  cfg.quantityLots * contract.lotsize.getD cfg.lotSize

inductive Side where
  | buy
  | sell
  deriving DecidableEq

structure BrokerOrder where
  contract : Contract
  side : Side
  qty : Nat
  deriving DecidableEq

def BrokerOrder.change (order : BrokerOrder) (token : String) : ℤ :=
  if order.contract.token = token then
    match order.side with
    | .buy => order.qty
    | .sell => -order.qty
  else 0

def net (orders : List BrokerOrder) (token : String) : ℤ :=
  (orders.map fun order => order.change token).sum

structure Hedge (cfg : Config) where
  contract : Contract
  entryPrice : ℚ
  exitPrice : Option ℚ := none
  qty : Nat
  qty_eq : qty = cfg.quantity contract
  deriving DecidableEq

structure Position (cfg : Config) where
  contract : Contract
  qty : Nat
  qty_eq : qty = cfg.quantity contract
  entryPrice : ℚ
  exitPrice : Option ℚ := none
  hedge : Option (Hedge cfg) := none
  deriving DecidableEq

section

variable {cfg : Config}

def Hedge.pnl (hedge : Hedge cfg) : ℚ :=
  match hedge.exitPrice with
  | none => 0
  | some exitPrice => (exitPrice - hedge.entryPrice) * hedge.qty

def Position.hedgePnl (pos : Position cfg) : ℚ := (pos.hedge.map Hedge.pnl).getD 0

def Position.pnl (pos : Position cfg) : ℚ :=
  match pos.exitPrice with
  | none => 0
  | some exitPrice => (pos.entryPrice - exitPrice) * pos.qty + pos.hedgePnl

end

inductive TradeLog where
  | entry (symbol : String) (price : ℚ)
  | exit (symbol : String) (price pnl : ℚ) (reason : String)
  deriving DecidableEq

structure OrderManager (cfg : Config) where
  currentPosition : Option (Position cfg) := none
  tradesToday : Nat := 0
  realizedPnl : ℚ := 0
  tradeLog : List TradeLog := []
  orders : List BrokerOrder := []
  deriving DecidableEq

inductive Outcome (α : Type) where
  | raised
  | returned (value : α)

structure Placements where
  first : Option ℚ
  second : Option ℚ

namespace OrderManager

variable {cfg : Config}

def canOpenNewPosition (m : OrderManager cfg) : Bool :=
  m.currentPosition.isNone && m.tradesToday < cfg.maxTradesPerDay

def accept (m : OrderManager cfg) (contract : Contract) (side : Side) : OrderManager cfg :=
  { m with orders := m.orders ++ [⟨contract, side, cfg.quantity contract⟩] }

def recordEntry (m : OrderManager cfg) (pos : Position cfg) : OrderManager cfg :=
  { m with
    currentPosition := some pos
    tradesToday := m.tradesToday + 1
    tradeLog := m.tradeLog ++ [.entry pos.contract.symbol pos.entryPrice] }

def sellShort (m : OrderManager cfg) (contract : Contract) (hedge : Option (Hedge cfg)) :
    Option ℚ → OrderManager cfg × Outcome (Option (Position cfg))
  | none => (m, .raised)
  | some price =>
    let pos : Position cfg :=
      { contract, qty := cfg.quantity contract, qty_eq := rfl, entryPrice := price, hedge }
    ((m.accept contract .sell).recordEntry pos, .returned (some pos))

def sellOption (m : OrderManager cfg) (contract : Contract) (hedgeContract : Option Contract)
    (placed : Placements) : OrderManager cfg × Outcome (Option (Position cfg)) :=
  if m.canOpenNewPosition then
    match hedgeContract with
    | none => m.sellShort contract none placed.second
    | some hedge =>
      match placed.first with
      | none => (m, .raised)
      | some price =>
        (m.accept hedge .buy).sellShort contract
          (some { contract := hedge, entryPrice := price, qty := cfg.quantity hedge, qty_eq := rfl })
          placed.second
  else (m, .returned none)

def close (m : OrderManager cfg) (pos : Position cfg) (price : ℚ) (reason : String) :
    OrderManager cfg × Outcome (Option ℚ) :=
  ({ m with
      realizedPnl := m.realizedPnl + pos.pnl
      tradeLog := m.tradeLog ++ [.exit pos.contract.symbol price pos.pnl reason]
      currentPosition := none }, .returned (some pos.pnl))

def exitPosition (m : OrderManager cfg) (reason : String) (placed : Placements) :
    OrderManager cfg × Outcome (Option ℚ) :=
  match m.currentPosition with
  | none => (m, .returned none)
  | some pos =>
    match placed.first with
    | none => (m, .raised)
    | some price =>
      -- The position is an object: its exit price is set even if the hedge's SELL raises.
      let pos := { pos with exitPrice := some price }
      let bought := { m.accept pos.contract .buy with currentPosition := some pos }
      match pos.hedge with
      | none => bought.close pos price reason
      | some hedge =>
        match placed.second with
        | none => (bought, .raised)
        | some hedgePrice =>
          (bought.accept hedge.contract .sell).close
            { pos with hedge := some { hedge with exitPrice := some hedgePrice } } price reason

def squareOffAll (m : OrderManager cfg) (placed : Placements) :
    OrderManager cfg × Outcome (Option ℚ) :=
  if m.currentPosition.isSome then m.exitPosition "SQUARE_OFF_EOD" placed else (m, .returned none)

end OrderManager

inductive Call where
  | sellOption (contract : Contract) (hedgeContract : Option Contract) (placed : Placements)
  | exitPosition (reason : String) (placed : Placements)
  | squareOffAll (placed : Placements)

/-- The manager after a call; the scheduler swallows what a call raises. -/
def call {cfg : Config} (m : OrderManager cfg) : Call → Option (OrderManager cfg)
  | .sellOption contract hedgeContract placed => some (m.sellOption contract hedgeContract placed).1
  | .exitPosition reason placed => some (m.exitPosition reason placed).1
  | .squareOffAll placed => some (m.squareOffAll placed).1

end AlgoSystem.SupertrendPivot
