import AlgoSystem.MarketData.CandleTable

/-!
`_flush_loop`, `_persist` and the writes of `stop_flow` in `trading/market_data/service.py`. Candles
leave the aggregator before they are written. A database error ends its `_persist` call; it is
logged, and what was not committed is rolled back.
-/

namespace AlgoSystem.MarketData
open General

variable {P : Type}

structure CandleDb (P : Type) where
  marketCandles : List (MarketCandle P) := []
  optionCandles : List (OptionCandle P) := []
  contracts : List Int := []

/-- Where a database error occurs: in the look-up or the commit of all rows, or, where the rows are
committed one by one, after the given number of them. -/
inductive DbFault where
  | index (rows : Nat)
  | option (rows : Nat)

def indexUpTo (table : List (MarketCandle P)) (items : List (IndexKey × Candle P)) (rows : Nat) :
    List (MarketCandle P) :=
  let fresh := newRows MarketCandle.key table (items.map indexRow)
  if ((table ++ fresh).map MarketCandle.key).Nodup then table
  else (fresh.take rows).foldl (addRow MarketCandle.key fun _ => true) table

def optionUpTo (contracts : List Int) (table : List (OptionCandle P))
    (items : List (Int × Candle P)) (rows : Nat) : List (OptionCandle P) :=
  let fresh := newRows OptionCandle.key table (items.map optionRow)
  if ((table ++ fresh).map OptionCandle.key).Nodup ∧ ∀ row ∈ fresh, row.hasContract contracts then
    table
  else (fresh.take rows).foldl (addRow OptionCandle.key (·.hasContract contracts)) table

def Emitted.isEmpty (out : Emitted P) : Bool := out.index.isEmpty && out.option.isEmpty

def CandleDb.persist (db : CandleDb P) (out : Emitted P) (fault : Option DbFault) : CandleDb P :=
  if out.isEmpty then db
  else match fault with
    | some (.index rows) =>
      { db with marketCandles := indexUpTo db.marketCandles out.index rows }
    | some (.option rows) =>
      { db with
        marketCandles := persistIndexCandles db.marketCandles out.index
        optionCandles := optionUpTo db.contracts db.optionCandles out.option rows }
    | none =>
      { db with
        marketCandles := persistIndexCandles db.marketCandles out.index
        optionCandles := persistOptionCandles db.contracts db.optionCandles out.option }

structure Pipeline (P : Type) where
  agg : CandleAggregator P
  db : CandleDb P
  emitted : Emitted P := {}

inductive PipelineEvent (P : Type) where
  /-- A tick, or a flush or forced close with the `_persist` that follows it. -/
  | call (call : Call P) (fault : Option DbFault)
  /-- A row of `option_contracts` is committed. -/
  | contract (id : Int)

variable [LinearOrder P]

def Pipeline.perform (pipeline : Pipeline P) : PipelineEvent P → Pipeline P
  | .call call fault =>
    let out := pipeline.agg.perform call
    { agg := out.2
      db := pipeline.db.persist out.1 fault
      emitted := pipeline.emitted.append out.1 }
  | .contract id =>
    { pipeline with db := { pipeline.db with contracts := pipeline.db.contracts ++ [id] } }

def Pipeline.step (pipeline : Pipeline P) (event : PipelineEvent P) : Option (Pipeline P) :=
  some (pipeline.perform event)

end AlgoSystem.MarketData
