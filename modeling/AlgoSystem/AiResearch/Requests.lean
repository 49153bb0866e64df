import AlgoSystem.AiResearch.Runs
import Mathlib.Algebra.Order.Field.Rat

/-!
`ResearchRequestIn` of `schemas.py`, `create_run` and `_row_to_request` of `repository.py`,
`resume_research` and the call of `run_research` in `service.py`, in `trading/ai_research`. A
request that fails its validation is `none`; `lower` is `str.lower`.
-/

namespace AlgoSystem.AiResearch

inductive Market where
  | us
  | india
  deriving DecidableEq

inductive ResearchDepth where
  | quick
  | standard
  | deep
  deriving DecidableEq

structure PortfolioPosition where
  ticker : String
  quantity : ℚ
  averagePrice : Option ℚ := none
  deriving DecidableEq

structure PortfolioContext where
  cash : Option ℚ := none
  currency : Option String := none
  positions : List PortfolioPosition := []
  deriving DecidableEq

structure ResearchRequest where
  symbol : String
  researchDate : Int
  researchDepth : ResearchDepth := .standard
  market : Market := .us
  selectedAnalysts : Option (List AnalystKey) := none
  llmProvider : Option String := none
  deepThinkLlm : Option String := none
  quickThinkLlm : Option String := none
  temperature : Option ℚ := none
  debateRounds : Option Int := none
  riskDebateRounds : Option Int := none
  retryCount : Option Int := none
  dataVendors : Option (List (String × String)) := none
  checkpointEnabled : Bool := false
  portfolio : Option PortfolioContext := none
  deriving DecidableEq

def supportedLlmProviders : List String :=
  ["openai", "google", "anthropic", "xai", "deepseek", "qwen", "glm", "minimax", "openrouter",
    "mistral", "moonshot", "groq", "nvidia", "ollama", "openai_compatible", "bedrock", "azure"]

def supportedDataVendorCategories : List (String × List String) :=
  [("core_stock_apis", ["yfinance", "alpha_vantage"]),
    ("technical_indicators", ["yfinance", "alpha_vantage"]),
    ("fundamental_data", ["yfinance", "alpha_vantage"]),
    ("news_data", ["yfinance", "alpha_vantage"]),
    ("macro_data", ["fred"]),
    ("prediction_markets", ["polymarket"])]

def symbolPattern (text : String) : Bool :=
  0 < text.toList.length && text.toList.length ≤ 32 &&
    text.toList.all fun c => c.isAlphanum || c = '.' || c = '^' || c = '-' || c = '&'

def maxLength (n : Nat) (text : Option String) : Bool := text.all fun t => t.toList.length ≤ n

def inRange {α : Type} [LE α] [DecidableLE α] (low high : α) (value : Option α) : Bool :=
  value.all fun v => low ≤ v && v ≤ high

def knownVendors (dataVendors : Option (List (String × String))) : Bool :=
  dataVendors.all fun vendors => vendors.length ≤ 6 && vendors.all fun (category, vendor) =>
    (supportedDataVendorCategories.lookup category).any (vendor ∈ ·)

def knownProvider (lower : String → String) (llmProvider : Option String) : Bool :=
  llmProvider.all fun provider => lower provider ∈ supportedLlmProviders

def PortfolioPosition.valid (position : PortfolioPosition) : Bool :=
  symbolPattern position.ticker && position.averagePrice.all (0 ≤ ·)

def PortfolioContext.valid (portfolio : PortfolioContext) : Bool :=
  portfolio.cash.all (0 ≤ ·) && maxLength 8 portfolio.currency &&
    portfolio.positions.length ≤ 50 && portfolio.positions.all PortfolioPosition.valid

namespace ResearchRequest
variable (request : ResearchRequest)

def valid (lower : String → String) (today : Int) : Bool :=
  symbolPattern request.symbol && request.researchDate ≤ today &&
    request.selectedAnalysts.all (·.length ≤ 4) && maxLength 32 request.llmProvider &&
    knownProvider lower request.llmProvider && maxLength 64 request.deepThinkLlm &&
    maxLength 64 request.quickThinkLlm && inRange 0 2 request.temperature &&
    inRange 1 5 request.debateRounds && inRange 1 5 request.riskDebateRounds &&
    inRange 0 10 request.retryCount && knownVendors request.dataVendors &&
    request.portfolio.all PortfolioContext.valid

def construct (lower : String → String) (today : Int) : Option ResearchRequest :=
  if request.valid lower today then
    some { request with llmProvider := request.llmProvider.map lower }
  else none

def depthRounds : ResearchDepth → Int
  | .quick => 1
  | .standard => 1
  | .deep => 2

def resolvedDebateRounds : Int := request.debateRounds.getD (depthRounds request.researchDepth)

def resolvedRiskDebateRounds : Int :=
  request.riskDebateRounds.getD (depthRounds request.researchDepth)

end ResearchRequest

inductive Json where
  | null
  | num (value : ℚ)
  | str (text : String)
  | arr (items : List Json)
  | obj (entries : List (String × Json))

namespace Json

def ofOption {α : Type} (encode : α → Json) : Option α → Json
  | none => .null
  | some a => encode a

def num? : Json → Option ℚ
  | .num value => some value
  | _ => none

def str? : Json → Option String
  | .str text => some text
  | _ => none

def optional {α : Type} (decode : Json → Option α) : Json → Option (Option α)
  | .null => some none
  | json => (decode json).map some

end Json

def Market.value : Market → String
  | .us => "US"
  | .india => "INDIA"

def Market.ofValue (value : String) : Option Market :=
  [Market.us, .india].find? (·.value = value)

def ResearchDepth.value : ResearchDepth → String
  | .quick => "quick"
  | .standard => "standard"
  | .deep => "deep"

def ResearchDepth.ofValue (value : String) : Option ResearchDepth :=
  [ResearchDepth.quick, .standard, .deep].find? (·.value = value)

def AnalystKey.value : AnalystKey → String
  | .market => "market"
  | .social => "social"
  | .news => "news"
  | .fundamentals => "fundamentals"

def AnalystKey.ofValue (value : String) : Option AnalystKey :=
  supportedAnalysts.find? (·.value = value)

structure RequestRow where
  symbol : String
  researchDate : Int
  researchDepth : String
  market : Option String
  selectedAnalysts : Json
  llmProvider : Option String
  deepThinkLlm : Option String
  quickThinkLlm : Option String
  debateRounds : Option Int
  riskDebateRounds : Option Int
  retryCount : Option Int
  dataVendors : Json
  checkpointEnabled : Bool
  portfolio : Json

def PortfolioPosition.modelDump (position : PortfolioPosition) : Json :=
  .obj [("ticker", .str position.ticker), ("quantity", .num position.quantity),
    ("average_price", .ofOption .num position.averagePrice)]

def PortfolioContext.modelDump (portfolio : PortfolioContext) : Json :=
  .obj [("cash", .ofOption .num portfolio.cash), ("currency", .ofOption .str portfolio.currency),
    ("positions", .arr (portfolio.positions.map PortfolioPosition.modelDump))]

def analystsColumn : Option (List AnalystKey) → Json
  | some (a :: as) => .arr ((a :: as).map fun key => .str key.value)
  | _ => .null

def vendorsColumn (dataVendors : Option (List (String × String))) : Json :=
  .ofOption (fun vendors => .obj (vendors.map fun (category, vendor) => (category, .str vendor)))
    dataVendors

def requestRow (request : ResearchRequest) : RequestRow where
  symbol := request.symbol
  researchDate := request.researchDate
  researchDepth := request.researchDepth.value
  market := some request.market.value
  selectedAnalysts := analystsColumn request.selectedAnalysts
  llmProvider := request.llmProvider
  deepThinkLlm := request.deepThinkLlm
  quickThinkLlm := request.quickThinkLlm
  debateRounds := request.debateRounds
  riskDebateRounds := request.riskDebateRounds
  retryCount := request.retryCount
  dataVendors := vendorsColumn request.dataVendors
  checkpointEnabled := request.checkpointEnabled
  portfolio := .ofOption PortfolioContext.modelDump request.portfolio

def PortfolioPosition.ofJson : Json → Option PortfolioPosition
  | .obj entries => do
      let ticker ← (entries.lookup "ticker").bind Json.str?
      let quantity ← (entries.lookup "quantity").bind Json.num?
      let averagePrice ← ((entries.lookup "average_price").getD .null).optional Json.num?
      some { ticker, quantity, averagePrice }
  | _ => none

def PortfolioContext.ofJson : Json → Option PortfolioContext
  | .obj entries => do
      let cash ← ((entries.lookup "cash").getD .null).optional Json.num?
      let currency ← ((entries.lookup "currency").getD .null).optional Json.str?
      let positions ← match (entries.lookup "positions").getD (.arr []) with
        | .arr items => items.mapM PortfolioPosition.ofJson
        | _ => none
      some { cash, currency, positions }
  | _ => none

def analystsOfColumn : Json → Option (Option (List AnalystKey))
  | .arr [] | .null => some none
  | .arr items => (items.mapM fun item => (Json.str? item).bind AnalystKey.ofValue).map some
  | _ => none

def vendorsOfColumn : Json → Option (Option (List (String × String))) :=
  Json.optional fun
    | .obj entries => entries.mapM fun (category, vendor) => vendor.str?.map (category, ·)
    | _ => none

def portfolioOfColumn : Json → Option (Option PortfolioContext)
  | .obj [] | .null => some none
  | json => (PortfolioContext.ofJson json).map some

def rowToRequest (lower : String → String) (today : Int) (row : RequestRow) : Option ResearchRequest := do
  let researchDepth ← ResearchDepth.ofValue row.researchDepth
  let market ← match row.market with
    | some value => Market.ofValue value
    | none => some .us
  let selectedAnalysts ← analystsOfColumn row.selectedAnalysts
  let dataVendors ← vendorsOfColumn row.dataVendors
  let portfolio ← portfolioOfColumn row.portfolio
  ResearchRequest.construct
    { symbol := row.symbol
      researchDate := row.researchDate
      researchDepth
      market
      selectedAnalysts
      llmProvider := row.llmProvider
      deepThinkLlm := row.deepThinkLlm
      quickThinkLlm := row.quickThinkLlm
      debateRounds := row.debateRounds
      riskDebateRounds := row.riskDebateRounds
      retryCount := row.retryCount
      dataVendors
      checkpointEnabled := row.checkpointEnabled
      portfolio } lower today

/-- What `_run_job` passes to `run_research`; `providerSymbol` is `resolve_instrument` followed by
`to_tradingagents_symbol`. -/
structure RunArguments where
  instrument : String
  asOfDate : Int
  selectedAnalysts : Option (List AnalystKey)
  llmProvider : Option String
  deepThinkLlm : Option String
  quickThinkLlm : Option String
  temperature : Option ℚ
  debateRounds : Int
  riskDebateRounds : Int
  retryCount : Option Int
  dataVendors : Option (List (String × String))
  checkpointEnabled : Bool
  portfolio : Option PortfolioContext

def runArguments (providerSymbol : Market → String → String) (request : ResearchRequest) :
    RunArguments where
  instrument := providerSymbol request.market request.symbol
  asOfDate := request.researchDate
  selectedAnalysts := request.selectedAnalysts.filter (· ≠ [])
  llmProvider := request.llmProvider
  deepThinkLlm := request.deepThinkLlm
  quickThinkLlm := request.quickThinkLlm
  temperature := request.temperature
  debateRounds := request.resolvedDebateRounds
  riskDebateRounds := request.resolvedRiskDebateRounds
  retryCount := request.retryCount
  dataVendors := request.dataVendors
  checkpointEnabled := request.checkpointEnabled
  portfolio := request.portfolio

def resumeResearch (lower : String → String) (today : Int) (row : RequestRow)
    (status : ResearchJobStatus) : Option ResearchRequest :=
  if status = .failed then rowToRequest lower today row else none

def resumeAgain (lower : String → String) : List Int → ResearchRequest → Option ResearchRequest
  | [], request => some request
  | day :: days, request =>
    (resumeResearch lower day (requestRow request) .failed).bind (resumeAgain lower days)

end AlgoSystem.AiResearch
