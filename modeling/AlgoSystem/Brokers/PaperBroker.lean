import AlgoSystem.General.Dict
import AlgoSystem.General.Rounding

/-!
`PaperBroker` of `trading/common/brokers/paper_broker.py`. The factor that `random.uniform` draws is
an input of an order, and `hash` is a parameter.
-/

namespace AlgoSystem.Brokers
open General

inductive OrderSide where
  | buy
  | sell

inductive OrderType where
  | market
  | limit

structure Position where
  symbol : String
  quantity : ℤ
  averagePrice : ℚ
  lastPrice : ℚ
  pnl : ℚ

inductive Message where
  | quantityMustBePositive
  | paperFillAt (fillPrice : ℚ)

/-- `orderId` is the number in `PAPER-…`; the rejected order has none. -/
structure OrderResult where
  orderId : Option Nat
  symbol : String
  side : OrderSide
  quantity : ℤ
  message : Message

structure PaperBroker where
  positions : Dict String Position := Dict.empty
  lastPrices : Dict String ℚ := Dict.empty
  orderIdCounter : Nat := 1

structure Order where
  symbol : String
  side : OrderSide
  quantity : ℤ
  orderType : OrderType := .market
  limitPrice : Option ℚ := none
  draw : ℚ := 1

def Order.signedQty (order : Order) : ℤ :=
  match order.side with
  | .buy => order.quantity
  | .sell => -order.quantity

namespace PaperBroker

def getQuote (hash : String → Nat) (broker : PaperBroker) (symbol : String) (draw : ℚ) :
    PaperBroker × ℚ :=
  let base := (broker.lastPrices.get? symbol).getD (100 + ↑(hash symbol % 500))
  let price := roundTo 2 (base * draw)
  ({ broker with lastPrices := broker.lastPrices.set symbol price }, price)

/-- A limit price of zero is falsy. -/
def fillPrice (hash : String → Nat) (broker : PaperBroker) (order : Order) : PaperBroker × ℚ :=
  match order.orderType, order.limitPrice with
  | .limit, some price =>
    if price = 0 then broker.getQuote hash order.symbol order.draw else (broker, price)
  | _, _ => broker.getQuote hash order.symbol order.draw

def filled (existing : Option Position) (order : Order) (price : ℚ) : Position :=
  match existing with
  | none =>
    { symbol := order.symbol, quantity := order.signedQty, averagePrice := price,
      lastPrice := price, pnl := 0 }
  | some existing =>
    let newQty := existing.quantity + order.signedQty
    { symbol := order.symbol, quantity := newQty,
      averagePrice := if newQty ≠ 0 then price else existing.averagePrice,
      lastPrice := price, pnl := existing.pnl }

def placeOrder (hash : String → Nat) (broker : PaperBroker) (order : Order) :
    PaperBroker × OrderResult :=
  if order.quantity ≤ 0 then
    (broker, ⟨none, order.symbol, order.side, order.quantity, .quantityMustBePositive⟩)
  else
    let (broker, price) := broker.fillPrice hash order
    let position := filled (broker.positions.get? order.symbol) order price
    ({ broker with
        positions := broker.positions.set order.symbol position
        orderIdCounter := broker.orderIdCounter + 1 },
      ⟨some broker.orderIdCounter, order.symbol, order.side, order.quantity, .paperFillAt price⟩)

end PaperBroker

end AlgoSystem.Brokers
