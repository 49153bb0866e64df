import AlgoSystem.General.Runs
import AlgoSystem.MarketData.CandleTable
import AlgoSystem.MarketData.Contracts

/-!
`persist_option_chain_snapshot` of `trading/market_data/options_service.py`. Sessions do not flush
by themselves: the queries of the call see a new candle only after the flush of a new contract. The
caller rolls back the flushed rows of a call that raises.
-/

namespace AlgoSystem.MarketData
open General

structure OptionQuote where
  symbol : String
  ltp : Option ℚ
  volume : Option Int
  oi : Option Int

structure OptionChainRow where
  strike : ℚ
  call : Option OptionQuote
  put : Option OptionQuote

structure OptionChain where
  underlying : String
  expiry : Int
  generatedAt : Int
  rows : List OptionChainRow
  provider : String := ""

structure QuotedSide where
  strike : ℚ
  optionType : OptionType
  quote : OptionQuote

def OptionChain.sides (chain : OptionChain) : List QuotedSide :=
  chain.rows.flatMap fun row =>
    (row.call.map (QuotedSide.mk row.strike .ce)).toList ++
      (row.put.map (QuotedSide.mk row.strike .pe)).toList

structure IdSource where
  next : ContractTable → Nat
  fresh : ∀ table, ∀ row ∈ table.rows, row.id ≠ next table

structure OptionDb where
  contracts : ContractTable
  candles : List (OptionCandle ℚ) := []

structure SnapshotSession where
  contracts : ContractTable
  candles : List (OptionCandle ℚ)
  pending : List (OptionCandle ℚ) := []
  written : Nat := 0

section Snapshot
variable (ids : IdSource) (chain : OptionChain)

def findContract (table : ContractTable) (side : QuotedSide) : Option OptionContract :=
  table.rows.find? fun row =>
    row.naturalKey = (chain.underlying, .nfo, chain.expiry, side.strike, side.optionType)

def snapshotContract (id : Nat) (side : QuotedSide) : OptionContract where
  id
  underlying := chain.underlying
  exchange := .nfo
  provider := if chain.provider = "" then "icici_breeze" else chain.provider
  providerToken := none
  symbol := side.quote.symbol
  expiry := chain.expiry
  strike := side.strike
  optionType := side.optionType

def SnapshotSession.flush (session : SnapshotSession) : Option SnapshotSession :=
  if ((session.candles ++ session.pending).map OptionCandle.key).Nodup then
    some { session with candles := session.candles ++ session.pending, pending := [] }
  else none

def SnapshotSession.contractFor (session : SnapshotSession) (side : QuotedSide) :
    Option (Nat × SnapshotSession) :=
  match findContract chain session.contracts side with
  | some contract => some (contract.id, session)
  | none => do
      let contract := snapshotContract chain (ids.next session.contracts) side
      let contracts ← session.contracts.insert contract
      let session ← { session with contracts }.flush
      some (contract.id, session)

/-- The update of an existing candle; a null of the quote leaves the column as it is. -/
def OptionQuote.overwrite (quote : OptionQuote) (row : OptionCandle ℚ) : OptionCandle ℚ :=
  { row with
    close := quote.ltp.getD row.close
    oi := quote.oi.or row.oi
    volume := quote.volume.or row.volume }

def OptionQuote.candle (quote : OptionQuote) (contractId timestamp : Int) : OptionCandle ℚ :=
  let price := quote.ltp.getD 0
  ⟨contractId, timestamp, price, price, price, price, quote.volume, quote.oi⟩

def SnapshotSession.record (session : SnapshotSession) (contractId : Nat) (quote : OptionQuote) :
    SnapshotSession :=
  let key : Int × Int := (contractId, chain.generatedAt)
  if session.candles.any fun row => row.key = key then
    { session with candles := session.candles.map fun row =>
        if row.key = key then quote.overwrite row else row }
  else
    { session with
      pending := session.pending ++ [quote.candle contractId chain.generatedAt]
      written := session.written + 1 }

def ingestSide (session : SnapshotSession) (side : QuotedSide) : Option SnapshotSession :=
  (session.contractFor ids chain side).map fun (contractId, session) =>
    session.record chain contractId side.quote

/-- The tables after the commit and the returned count, or `none` if the call raises. -/
def persistOptionChainSnapshot (db : OptionDb) : Option (OptionDb × Nat) := do
  let session ← run (ingestSide ids chain) ⟨db.contracts, db.candles, [], 0⟩ chain.sides
  let session ← session.flush
  some (⟨session.contracts, session.candles⟩, session.written)

end Snapshot

def OptionCandle.IsBar (row : OptionCandle ℚ) : Prop :=
  (row.low ≤ row.opening ∧ row.opening ≤ row.high) ∧ row.low ≤ row.close ∧ row.close ≤ row.high

instance (row : OptionCandle ℚ) : Decidable row.IsBar := inferInstanceAs (Decidable (_ ∧ _))

inductive OptionEvent where
  | snapshot (ids : IdSource) (chain : OptionChain)
  | aggregated (items : List { item : Int × Candle ℚ // (optionRow item).IsBar })
  /-- The live feed commits a contract. -/
  | listed (id : Nat) (inst : Listing)

def OptionDb.step (db : OptionDb) : OptionEvent → Option OptionDb
  | .snapshot ids chain => some (match persistOptionChainSnapshot ids chain db with
      | some (after, _) => after
      | none => db)
  | .aggregated items =>
    let contracts := db.contracts.rows.map fun row => (row.id : Int)
    some { db with candles := persistOptionCandles contracts db.candles (items.map Subtype.val) }
  | .listed id inst =>
    (db.contracts.insert (newContract id inst)).map fun contracts => { db with contracts }

end AlgoSystem.MarketData
