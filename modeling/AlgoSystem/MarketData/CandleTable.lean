import AlgoSystem.General.Table
import AlgoSystem.MarketData.Aggregator

/-!
`persist_index_candles` of `trading/market_data/aggregator.py`, through which the live aggregator
and the backfill of the research service write, and `persist_option_candles`.
-/

namespace AlgoSystem.MarketData
open General

structure MarketCandle (P : Type) extends Candle P where
  exchange : String
  deriving DecidableEq

variable {P : Type}

def MarketCandle.key (row : MarketCandle P) : String × String × String × Int :=
  (row.symbol, row.exchange, row.interval, row.timestamp)

def indexRow (item : IndexKey × Candle P) : MarketCandle P :=
  { item.2 with symbol := item.1.1, exchange := item.1.2 }

def persistIndexCandles (table : List (MarketCandle P)) (items : List (IndexKey × Candle P)) :
    List (MarketCandle P) :=
  addRows MarketCandle.key (fun _ => true) table
    (newRows MarketCandle.key table (items.map indexRow))

structure OptionCandle (P : Type) where
  contractId : Int
  timestamp : Int
  opening : P
  high : P
  low : P
  close : P
  volume : Option Int
  oi : Option Int
  deriving DecidableEq

def OptionCandle.key (row : OptionCandle P) : Int × Int := (row.contractId, row.timestamp)

def optionRow (item : Int × Candle P) : OptionCandle P :=
  ⟨item.1, item.2.timestamp, item.2.opening, item.2.high, item.2.low, item.2.close, item.2.volume,
    item.2.oi⟩

def OptionCandle.hasContract (contracts : List Int) (row : OptionCandle P) : Bool :=
  contracts.contains row.contractId

def persistOptionCandles (contracts : List Int) (table : List (OptionCandle P))
    (items : List (Int × Candle P)) : List (OptionCandle P) :=
  addRows OptionCandle.key (·.hasContract contracts) table
    (newRows OptionCandle.key table (items.map optionRow))

end AlgoSystem.MarketData
