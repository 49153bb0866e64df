import AlgoSystem.MarketData.CandleTable
import AlgoSystem.Research.NseCalendar
import Mathlib.Algebra.Order.Ring.Rat
import Mathlib.Data.List.Sort

/-!
`get_historical_candles` of `trading/ai_research/market_data/service.py` with all it calls. The
provider's answers are given by the number of the fetch and of the attempt in it.
-/

namespace AlgoSystem.Research
open General MarketData

inductive ProviderError where
  | auth
  | rateLimit
  | connection
  | data
  deriving DecidableEq

inductive DataStatus where
  | available
  | partialData
  | missing
  | providerError
  | rateLimited
  | unsupported

inductive DataSource where
  | db
  | provider
  | mixed
  | none

/-- How one attempt ends: `connect` raises, the history call raises, or it returns candles. -/
inductive Outcome where
  | refused (error : ProviderError)
  | failed (error : ProviderError)
  | answered (candles : List (Candle ℚ))

def Outcome.error? : Outcome → Option ProviderError
  | .refused error => some error
  | .failed error => some error
  | .answered _ => none

def Outcome.calls : Outcome → Bool
  | .refused _ => false
  | .failed _ => true
  | .answered _ => true

abbrev Provider := (fetch attempt : Nat) → (start last : Int) → Outcome

structure Attempt where
  start : Int
  last : Int
  outcome : Outcome

structure HistorySettings where
  maxBackfillDays : Nat := 30
  maxProviderCalls : Nat := 5

structure HistoryRequest where
  instrument : Option IndexKey
  interval : String
  start : Int
  last : Int
  cutoff : Option Int := none
  allowBackfill : Bool := true

structure HistoricalDataResult where
  status : DataStatus
  source : DataSource
  requestedFrom : Int
  requestedTo : Int
  cutoffApplied : Option Int
  candles : List (Candle ℚ) := []
  dbHitCount : Nat := 0
  providerCallCount : Nat := 0
  candlesFetched : Nat := 0
  candlesStored : Nat := 0
  missingDays : List Int := []

def connectionRetryAttempts : Nat := 2

/-- A rate limit is a connection error too, but it is caught first. -/
def Outcome.retryable (outcome : Outcome) : Bool := outcome.error? = some .connection

def Outcome.returned : Outcome → Except DataStatus (List (Candle ℚ))
  | .answered candles => .ok candles
  | .refused .rateLimit | .failed .rateLimit => .error .rateLimited
  | .refused _ | .failed _ => .error .providerError

def fetchAttempts (answer : Nat → Outcome) :
    (retries attempt : Nat) → List Outcome × Except DataStatus (List (Candle ℚ))
  | 0, attempt => ([answer attempt], (answer attempt).returned)
  | retries + 1, attempt =>
    if (answer attempt).retryable then
      let rest := fetchAttempts answer retries (attempt + 1)
      (answer attempt :: rest.1, rest.2)
    else ([answer attempt], (answer attempt).returned)

def wellFormed (c : Candle ℚ) : Bool :=
  c.low ≤ c.high && (c.low ≤ c.opening && c.opening ≤ c.high && c.low ≤ c.close && c.close ≤ c.high)

def acceptCandles (seen : List Int) : List (Candle ℚ) → List (Candle ℚ)
  | [] => []
  | c :: cs =>
    if !wellFormed c then acceptCandles seen cs
    else if c.timestamp ∈ seen then acceptCandles seen cs
    else c :: acceptCandles (c.timestamp :: seen) cs

def validateCandles (raw : List (Candle ℚ)) : List (Candle ℚ) :=
  (acceptCandles [] raw).insertionSort fun a b => a.timestamp ≤ b.timestamp

def groupRuns (runStart runEnd : Int) : List Int → List (Int × Int)
  | [] => [(runStart, runEnd)]
  | day :: days =>
    if day - runEnd ≤ 3 then groupRuns runStart day days
    else (runStart, runEnd) :: groupRuns day day days

def contiguousRuns (missingDays : List Int) : List (Int × Int) :=
  match missingDays.insertionSort (· ≤ ·) with
  | [] => []
  | day :: days => groupRuns day day days

section Service
variable (calendar : Calendar) (settings : HistorySettings) (provider : Provider)

structure Span where
  key : IndexKey
  interval : String
  start : Int
  last : Int
  cutoff : Option Int

def Span.allows (span : Span) (ts : Int) : Bool :=
  span.cutoff.all fun cutoff => ts ≤ Calendar.marketClose cutoff

def queryDb (table : List (MarketCandle ℚ)) (span : Span) : List (MarketCandle ℚ) :=
  ((table.filter fun row =>
      row.symbol = span.key.1 ∧ row.exchange = span.key.2 ∧ row.interval = span.interval ∧
        startOfDay span.start ≤ row.timestamp ∧ row.timestamp ≤ endOfDay span.last).insertionSort
    fun a b => a.timestamp ≤ b.timestamp).filter fun row => span.allows row.timestamp

/-- A range that the calendar does not cover has no missing days. -/
def missingTradingDays (rows : List (MarketCandle ℚ)) (span : Span) :
    Except CalendarError (List Int) :=
  let haveDays := rows.map fun row => istDate row.timestamp
  match calendar.tradingDaysInRange span.start span.last with
  | .ok expected => .ok ((expected.filter fun day => day ∉ haveDays).filter fun day =>
    span.cutoff.all fun cutoff => day ≤ cutoff)
  | .error .coverage => .ok []
  | .error .endBeforeStart => .error .endBeforeStart

structure Backfill where
  table : List (MarketCandle ℚ)
  log : List Attempt := []
  calls : Nat := 0
  fetched : Nat := 0
  stored : Nat := 0
  lastError : Option DataStatus := none

def Backfill.store (work : Backfill) (span : Span) (raw : List (Candle ℚ)) : Backfill :=
  let valid := validateCandles raw
  let allowed := valid.filter fun c => span.allows c.timestamp
  let table := persistIndexCandles work.table (allowed.map fun c => (span.key, c))
  { work with
    table
    fetched := work.fetched + valid.length
    stored := work.stored + (table.length - work.table.length) }

def Backfill.over (span : Span) : List (Int × Int) → Backfill → Backfill
  | [], work => work
  | (runStart, runEnd) :: runs, work =>
    if settings.maxProviderCalls ≤ work.calls then work
    else
      let start := startOfDay runStart
      let last := endOfDay runEnd
      let fetched := fetchAttempts (fun attempt => provider work.calls attempt start last)
        connectionRetryAttempts 0
      let work := { work with
        log := work.log ++ fetched.1.map (Attempt.mk start last)
        calls := work.calls + 1 }
      match fetched.2 with
      | .error .rateLimited => { work with lastError := some .rateLimited }
      | .error status => Backfill.over span runs { work with lastError := some status }
      | .ok raw => Backfill.over span runs (work.store span raw)

def rowCandle (span : Span) (row : MarketCandle ℚ) : Candle ℚ :=
  { row.toCandle with symbol := span.key.1, interval := span.interval }

def describe (span : Span) (dbHitCount : Nat) (rows : List (MarketCandle ℚ)) (missing : List Int)
    (work : Backfill) : HistoricalDataResult where
  status :=
    if rows.isEmpty then work.lastError.getD .missing
    else if missing.isEmpty then .available
    else work.lastError.getD .partialData
  source :=
    if work.calls = 0 then (if rows.isEmpty then .none else .db)
    else if dbHitCount = 0 then .provider
    else .mixed
  requestedFrom := span.start
  requestedTo := span.last
  cutoffApplied := span.cutoff.map Calendar.marketClose
  candles := rows.map (rowCandle span)
  dbHitCount
  providerCallCount := work.calls
  candlesFetched := work.fetched
  candlesStored := work.stored
  missingDays := missing

def runRequest (table : List (MarketCandle ℚ)) (span : Span) (allowBackfill : Bool) :
    Except CalendarError (HistoricalDataResult × Backfill) :=
  let before := queryDb table span
  match missingTradingDays calendar before span with
  | .error error => .error error
  | .ok missing =>
    if !missing.isEmpty && allowBackfill &&
        decide (missing.length ≤ settings.maxBackfillDays) then
      let work := Backfill.over settings provider span (contiguousRuns missing) { table }
      let rows := queryDb work.table span
      match missingTradingDays calendar rows span with
      | .error error => .error error
      | .ok missing => .ok (describe span before.length rows missing work, work)
    else .ok (describe span before.length before missing { table }, { table })

def HistoryRequest.clamped (request : HistoryRequest) : Int :=
  match request.cutoff with
  | some cutoff => if cutoff < request.last then cutoff else request.last
  | none => request.last

def HistoryRequest.span (request : HistoryRequest) (key : IndexKey) : Span where
  key
  interval := request.interval
  start := request.start
  last := request.clamped
  cutoff := request.cutoff

def getHistoricalCandles (table : List (MarketCandle ℚ)) (request : HistoryRequest) :
    Except CalendarError (HistoricalDataResult × Backfill) :=
  let without status last cutoffApplied : HistoricalDataResult × Backfill :=
    ({ status, source := .none, requestedFrom := request.start, requestedTo := last,
       cutoffApplied }, { table })
  match request.instrument with
  | none => .ok (without .unsupported request.last none)
  | some key =>
    let run := runRequest calendar settings provider table (request.span key)
      request.allowBackfill
    match request.cutoff with
    | some cutoff =>
      if !calendar.covered cutoff then .ok (without .missing request.last none)
      else if request.clamped < request.start then
        .ok (without .missing request.clamped (some (Calendar.marketClose cutoff)))
      else run
    | none => run

end Service

end AlgoSystem.Research
