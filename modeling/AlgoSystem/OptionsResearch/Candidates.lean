import AlgoSystem.OptionsResearch.Payoff
import Mathlib.Data.List.MinMax
import Mathlib.Data.Prod.Lex

/-!
`strategy_templates.py`, `candidates.py` and `DEFINED_RISK_STRATEGIES` of `schemas.py` in
`trading/ai_options_research`. A note or reason is a value with the numbers its text shows.
-/

namespace AlgoSystem.OptionsResearch
open General

inductive StrategyType where
  | bullPutCreditSpread
  | bearCallCreditSpread
  | ironCondor
  | ironFly
  | shortStraddle
  | hedgedShortStraddle
  | shortStrangle
  | hedgedShortStrangle
  | longCall
  | longPut
  | bullCallDebitSpread
  | bearPutDebitSpread
  | longStraddle
  | longStrangle
  | calendarSpread
  | doubleCalendar
  deriving DecidableEq

namespace StrategyType

def all : List StrategyType :=
  [bullPutCreditSpread, bearCallCreditSpread, ironCondor, ironFly, shortStraddle,
    hedgedShortStraddle, shortStrangle, hedgedShortStrangle, longCall, longPut,
    bullCallDebitSpread, bearPutDebitSpread, longStraddle, longStrangle, calendarSpread,
    doubleCalendar]

def isSupported (strategy : StrategyType) : Bool :=
  strategy ∉ [calendarSpread, doubleCalendar]

end StrategyType

def definedRiskStrategies : List StrategyType :=
  StrategyType.all.filter (· ∉ [.shortStraddle, .shortStrangle, .longCall])

inductive StrikeSelector where
  | atm
  | deltaTarget
  | wing (wingOf : Nat) (useHedgeWidth : Bool)

structure LegTemplate where
  side : Side
  optionType : OptionType
  selector : StrikeSelector

def strategyTemplates : StrategyType → Option (List LegTemplate)
  | .bullPutCreditSpread => some
      [⟨.sell, .put, .deltaTarget⟩,
        ⟨.buy, .put, .wing 0 false⟩]
  | .bearCallCreditSpread => some
      [⟨.sell, .call, .deltaTarget⟩,
        ⟨.buy, .call, .wing 0 false⟩]
  | .ironCondor => some
      [⟨.sell, .put, .deltaTarget⟩,
        ⟨.buy, .put, .wing 0 false⟩,
        ⟨.sell, .call, .deltaTarget⟩,
        ⟨.buy, .call, .wing 2 false⟩]
  | .ironFly => some
      [⟨.sell, .put, .atm⟩,
        ⟨.sell, .call, .atm⟩,
        ⟨.buy, .put, .wing 0 false⟩,
        ⟨.buy, .call, .wing 1 false⟩]
  | .shortStraddle => some
      [⟨.sell, .put, .atm⟩,
        ⟨.sell, .call, .atm⟩]
  | .hedgedShortStraddle => some
      [⟨.sell, .put, .atm⟩,
        ⟨.sell, .call, .atm⟩,
        ⟨.buy, .put, .wing 0 true⟩,
        ⟨.buy, .call, .wing 1 true⟩]
  | .shortStrangle => some
      [⟨.sell, .put, .deltaTarget⟩,
        ⟨.sell, .call, .deltaTarget⟩]
  | .hedgedShortStrangle => some
      [⟨.sell, .put, .deltaTarget⟩,
        ⟨.sell, .call, .deltaTarget⟩,
        ⟨.buy, .put, .wing 0 true⟩,
        ⟨.buy, .call, .wing 1 true⟩]
  | .longCall => some
      [⟨.buy, .call, .atm⟩]
  | .longPut => some
      [⟨.buy, .put, .atm⟩]
  | .bullCallDebitSpread => some
      [⟨.buy, .call, .atm⟩,
        ⟨.sell, .call, .wing 0 false⟩]
  | .bearPutDebitSpread => some
      [⟨.buy, .put, .atm⟩,
        ⟨.sell, .put, .wing 0 false⟩]
  | .longStraddle => some
      [⟨.buy, .put, .atm⟩,
        ⟨.buy, .call, .atm⟩]
  | .longStrangle => some
      [⟨.buy, .put, .deltaTarget⟩,
        ⟨.buy, .call, .deltaTarget⟩]
  | .calendarSpread | .doubleCalendar => none

structure Quote where
  ltp : Option ℚ := none
  volume : Option Int := none
  oi : Option Int := none
  bid : Option ℚ := none
  ask : Option ℚ := none

structure Greeks where
  delta : Option ℚ := none

structure OptionAnalyticsRow where
  strike : ℚ
  optionType : OptionType
  quote : Option Quote := none
  iv : Option ℚ := none
  greeks : Option Greeks := none

structure MarketStructureSummary where
  atmStrike : Option ℚ
  rows : List OptionAnalyticsRow

structure CandidateGenerationConfig where
  minDelta : ℚ := 15 / 100
  maxDelta : ℚ := 30 / 100
  minimumVolume : Int := 0
  minimumOi : Int := 0
  maximumBidAskSpread : Option ℚ := none
  wingWidth : ℚ := 100
  hedgeWingWidth : ℚ := 300

def MarketStructureSummary.allStrikes (summary : MarketStructureSummary) : List ℚ :=
  (summary.rows.map OptionAnalyticsRow.strike).dedup.insertionSort (· ≤ ·)

def MarketStructureSummary.rowAt (summary : MarketStructureSummary) (strike : ℚ)
    (optionType : OptionType) : Option OptionAnalyticsRow :=
  (summary.rows.filter fun r => r.strike = strike && r.optionType = optionType).getLast?

inductive LiquidityReason where
  | noQuote
  | volumeBelow (volume : Option Int) (minimum : Int)
  | oiBelow (oi : Option Int) (minimum : Int)
  | spreadUnavailable
  | spreadExceeds (spread maximum : ℚ)

def below (minimum : Int) (value : Option Int) : Bool :=
  minimum ≠ 0 && value.all (· < minimum)

def spreadReasons (maximum : ℚ) : Option ℚ → Option ℚ → List LiquidityReason
  | some bid, some ask => if maximum < ask - bid then [.spreadExceeds (ask - bid) maximum] else []
  | _, _ => [.spreadUnavailable]

def liquidityReasons (row : Option OptionAnalyticsRow) (config : CandidateGenerationConfig) :
    List LiquidityReason :=
  match row.bind OptionAnalyticsRow.quote with
  | none => [.noQuote]
  | some q =>
    (if below config.minimumVolume q.volume then [.volumeBelow q.volume config.minimumVolume]
      else []) ++
    (if below config.minimumOi q.oi then [.oiBelow q.oi config.minimumOi] else []) ++
    config.maximumBidAskSpread.elim [] fun maximum => spreadReasons maximum q.bid q.ask

inductive Note where
  | nearestDelta (minDelta maxDelta strike delta : ℚ)
  | illiquid

def deltaCandidates (optionType : OptionType) (summary : MarketStructureSummary) : List (ℚ × ℚ) :=
  summary.rows.filterMap fun r =>
    if r.optionType = optionType ∧ r.quote ≠ none then
      (r.greeks.bind Greeks.delta).map fun delta => (r.strike, |delta|)
    else none

def resolveDeltaTarget (optionType : OptionType) (summary : MarketStructureSummary)
    (config : CandidateGenerationConfig) : Except String (ℚ × Option Note) :=
  let candidates := deltaCandidates optionType summary
  let targetMid := (config.minDelta + config.maxDelta) / 2
  let inBand := candidates.filter fun c => config.minDelta ≤ c.2 && c.2 ≤ config.maxDelta
  match inBand.argmin fun c => |c.2 - targetMid| with
  | some best => .ok (best.1, none)
  | none =>
    match candidates.argmin fun c => min |c.2 - config.minDelta| |c.2 - config.maxDelta| with
    | some best =>
      .ok (best.1, some (.nearestDelta config.minDelta config.maxDelta best.1 best.2))
    | none => .error
        "no delta data available on this chain (IV/Greeks could not be computed for any strike)"

def nearestRealStrike (target : ℚ) (strikes : List ℚ) : ℚ :=
  (strikes.argmin fun s => toLex (|s - target|, s)).getD 0

def wingTarget (optionType : OptionType) (reference width : ℚ) : ℚ :=
  match optionType with
  | .put => reference - width
  | .call => reference + width

def CandidateGenerationConfig.width (config : CandidateGenerationConfig) (useHedgeWidth : Bool) :
    ℚ :=
  if useHedgeWidth then config.hedgeWingWidth else config.wingWidth

section
variable (summary : MarketStructureSummary) (config : CandidateGenerationConfig) (atm : ℚ)

/-- A wing refers to a leg before it, so that its reference is always found. -/
def resolveStrike (resolved : List ℚ) (leg : LegTemplate) : Except String (ℚ × Option Note) :=
  match leg.selector with
  | .atm => .ok (atm, none)
  | .deltaTarget => resolveDeltaTarget leg.optionType summary config
  | .wing wingOf useHedgeWidth =>
    .ok (nearestRealStrike
      (wingTarget leg.optionType (resolved.getD wingOf 0) (config.width useHedgeWidth))
      summary.allStrikes, none)

def resolveStrikes : List LegTemplate → List ℚ → List Note →
    Except (String × List Note) (List ℚ × List Note)
  | [], resolved, notes => .ok (resolved, notes)
  | leg :: legs, resolved, notes =>
    match resolveStrike summary config atm resolved leg with
    | .error reason => .error (reason, notes)
    | .ok (strike, note) => resolveStrikes legs (resolved ++ [strike]) (notes ++ note.toList)

end

structure CandidateLeg where
  side : Side
  optionType : OptionType
  strike : ℚ
  price : Option ℚ
  priceSource : PriceSource
  delta : Option ℚ
  iv : Option ℚ
  volume : Option Int
  openInterest : Option Int
  bid : Option ℚ
  ask : Option ℚ
  liquidityOk : Bool
  liquidityReasons : List LiquidityReason

structure StrategyCandidate where
  strategy : StrategyType
  supported : Bool
  legs : List CandidateLeg := []
  payoff : Option PayoffResult := none
  liquidityOk : Bool := false
  generationNotes : List Note := []
  unsupportedReason : Option String := none

def candidateLeg (summary : MarketStructureSummary) (config : CandidateGenerationConfig)
    (leg : LegTemplate) (strike : ℚ) : CandidateLeg :=
  let row := summary.rowAt strike leg.optionType
  let quote := row.bind OptionAnalyticsRow.quote
  let bid := quote.bind Quote.bid
  let ask := quote.bind Quote.ask
  let (price, priceSource) := priceLeg leg.side bid ask (quote.bind Quote.ltp)
  { side := leg.side
    optionType := leg.optionType
    strike
    price
    priceSource
    delta := (row.bind OptionAnalyticsRow.greeks).bind Greeks.delta
    iv := row.bind OptionAnalyticsRow.iv
    volume := quote.bind Quote.volume
    openInterest := quote.bind Quote.oi
    bid
    ask
    liquidityOk := liquidityReasons row config = []
    liquidityReasons := liquidityReasons row config }

def CandidateLeg.resolved (leg : CandidateLeg) : ResolvedLeg where
  side := leg.side
  optionType := leg.optionType
  strike := leg.strike
  price := leg.price
  priceSource := leg.priceSource

def unsupportedCandidate (strategy : StrategyType) (notes : List Note) (reason : String) :
    StrategyCandidate where
  strategy
  supported := false
  generationNotes := notes
  unsupportedReason := some reason

def supportedCandidate (strategy : StrategyType) (legs : List CandidateLeg) (notes : List Note) :
    StrategyCandidate where
  strategy
  supported := true
  legs
  payoff := some (computePayoff (legs.map CandidateLeg.resolved))
  liquidityOk := legs.all CandidateLeg.liquidityOk
  generationNotes := notes ++ if legs.all CandidateLeg.liquidityOk then [] else [.illiquid]

def generateCandidate (strategy : StrategyType) (summary : MarketStructureSummary)
    (config : CandidateGenerationConfig) : StrategyCandidate :=
  if !strategy.isSupported then
    unsupportedCandidate strategy []
      "this platform does not model multi-expiry structures from a single-expiry snapshot"
  else
    match strategyTemplates strategy with
    | none => unsupportedCandidate strategy [] "no template defined for this strategy"
    | some templates =>
      match summary.allStrikes, summary.atmStrike with
      | _ :: _, some atm =>
        match resolveStrikes summary config atm templates [] [] with
        | .error (reason, notes) => unsupportedCandidate strategy notes reason
        | .ok (strikes, notes) =>
          supportedCandidate strategy
            (List.zipWith (candidateLeg summary config) templates strikes) notes
      | _, _ =>
        unsupportedCandidate strategy [] "no chain data available to generate candidate strikes"

end AlgoSystem.OptionsResearch
