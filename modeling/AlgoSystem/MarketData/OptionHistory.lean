import AlgoSystem.MarketData.Contracts
import AlgoSystem.MarketData.OptionChain
import AlgoSystem.MarketData.Persistence

/-!
`get_historical_chain` of `trading/market_data/options_service.py` for an underlying in upper case.
Among rows of one time a query takes the first in the order of the table.
-/

namespace AlgoSystem.MarketData
open General

def latestBy {R : Type} (time : R → Int) (rows : List R) : Option R :=
  (rows.insertionSort fun a b => time b ≤ time a).head?

structure HistoricalQuote where
  symbol : String
  strike : ℚ
  optionType : OptionType
  ltp : ℚ
  opening : ℚ
  high : ℚ
  low : ℚ
  volume : Option Int
  oi : Option Int
  providerTimestamp : Int

structure HistoricalRow where
  strike : ℚ
  call : Option HistoricalQuote
  put : Option HistoricalQuote

structure HistoricalChain where
  underlying : String
  expiry : Int
  spot : Option ℚ
  atmStrike : Option ℚ
  generatedAt : Int
  rows : List HistoricalRow

inductive OptionsDataError where
  | noContracts
  | noCandle

section Query
variable (formats : Formats) (contracts : ContractTable) (db : CandleDb ℚ) (underlying : String)
  (expiry asOf : Int)

def latestCandle (contract : OptionContract) : Option (OptionCandle ℚ) :=
  latestBy OptionCandle.timestamp (db.optionCandles.filter fun row =>
    row.contractId = contract.id ∧ row.timestamp ≤ asOf)

def historicalQuote (contract : OptionContract) (latest : OptionCandle ℚ) : HistoricalQuote where
  symbol := makeOptionSymbol formats underlying expiry contract.strike contract.optionType
  strike := contract.strike
  optionType := contract.optionType
  ltp := latest.close
  opening := latest.opening
  high := latest.high
  low := latest.low
  volume := latest.volume
  oi := latest.oi
  providerTimestamp := latest.timestamp

def listedContracts : List OptionContract :=
  contracts.rows.filter fun contract =>
    contract.underlying = underlying ∧ contract.expiry = expiry

def historicalQuotes : List HistoricalQuote :=
  (listedContracts contracts underlying expiry).filterMap fun contract =>
    (latestCandle db asOf contract).map (historicalQuote formats underlying expiry contract)

def historicalSpot : Option ℚ :=
  (latestBy (fun row => row.timestamp) (db.marketCandles.filter fun row =>
    row.symbol = underlying ∧ row.timestamp ≤ asOf)).map fun row => row.close

def latestTs (quotes : List HistoricalQuote) : Option Int :=
  quotes.foldl (fun latest quote => match latest with
    | none => some quote.providerTimestamp
    | some ts => some (if ts < quote.providerTimestamp then quote.providerTimestamp else ts)) none

def historicalRow (quotes : List HistoricalQuote) (strike : ℚ) : HistoricalRow :=
  let side optionType := (quotes.filter fun quote =>
    quote.strike = strike ∧ quote.optionType = optionType).getLast?
  ⟨strike, side .ce, side .pe⟩

def getHistoricalChain (strikeWindow : Option Nat) : Except OptionsDataError HistoricalChain :=
  if (listedContracts contracts underlying expiry).isEmpty then .error .noContracts
  else
    let quotes := historicalQuotes formats contracts db underlying expiry asOf
    if quotes.isEmpty then .error .noCandle
    else
      let strikes := (quotes.map HistoricalQuote.strike).dedup.insertionSort (· ≤ ·)
      let spot := historicalSpot db underlying asOf
      let atm := spot.bind (nearestStrike strikes)
      let window := match atm, strikeWindow with
        | some _, some n => selectStrikeWindow strikes atm n
        | _, _ => strikes
      .ok
        { underlying
          expiry
          spot
          atmStrike := atm
          generatedAt := (latestTs quotes).getD asOf
          rows := window.map (historicalRow quotes) }

end Query

end AlgoSystem.MarketData
