import AlgoSystem.AiResearch.Requests

namespace AlgoSystem.Proof.AiResearch.Resume
open AlgoSystem.AiResearch List

variable {lower : String → String} {raw request : ResearchRequest} {today day : Int}

theorem mapM_map {α β : Type} {f : α → β} {g : β → Option α} (law : ∀ a, g (f a) = some a)
    (l : List α) : (l.map f).mapM g = some l := by
  induction l with
  | nil => rfl
  | cons a l ih => simp [mapM_cons, law, ih]

theorem optional_ofOption {α : Type} {f : α → Json} {g : Json → Option α}
    (law : ∀ a, g (f a) = some a) (present : ∀ a, f a ≠ .null) (value : Option α) :
    (Json.ofOption f value).optional g = some value := by
  cases value with
  | none => rfl
  | some a =>
    have shape : (f a).optional g = (g (f a)).map some := by
      cases written : f a with
      | null => exact absurd written (present a)
      | _ => rfl
    rw [Json.ofOption, shape, law, Option.map_some]

theorem market_ofValue (market : Market) : Market.ofValue market.value = some market := by
  cases market <;> rfl

theorem depth_ofValue (depth : ResearchDepth) : ResearchDepth.ofValue depth.value = some depth := by
  cases depth <;> rfl

theorem analyst_ofValue (key : AnalystKey) : AnalystKey.ofValue key.value = some key := by
  cases key <;> rfl

theorem analysts_column (selectedAnalysts : Option (List AnalystKey)) :
    analystsOfColumn (analystsColumn selectedAnalysts) =
      some (selectedAnalysts.filter (· ≠ [])) := by
  match selectedAnalysts with
  | none => rfl
  | some [] => rfl
  | some (a :: as) =>
    have items := mapM_map (f := fun key : AnalystKey => Json.str key.value)
      (g := fun item => (Json.str? item).bind AnalystKey.ofValue) analyst_ofValue (a :: as)
    show ((List.map (fun key => Json.str key.value) (a :: as)).mapM
      fun item => (Json.str? item).bind AnalystKey.ofValue).map some = _
    rw [items]
    rfl

theorem vendors_column (dataVendors : Option (List (String × String))) :
    vendorsOfColumn (vendorsColumn dataVendors) = some dataVendors := by
  refine optional_ofOption ?_ (by simp) dataVendors
  intro vendors
  exact mapM_map (f := fun p : String × String => (p.1, Json.str p.2))
    (g := fun p : String × Json => p.2.str?.map (p.1, ·)) (fun _ => rfl) vendors

theorem position_ofJson (position : PortfolioPosition) :
    PortfolioPosition.ofJson position.modelDump = some position := by
  have price := optional_ofOption (f := .num) (g := Json.num?) (fun _ => rfl) (by simp)
    position.averagePrice
  simp [PortfolioPosition.modelDump, PortfolioPosition.ofJson, lookup_cons, Json.str?, Json.num?,
    price]

theorem portfolio_ofJson (portfolio : PortfolioContext) :
    PortfolioContext.ofJson portfolio.modelDump = some portfolio := by
  have cash := optional_ofOption (f := .num) (g := Json.num?) (fun _ => rfl) (by simp)
    portfolio.cash
  have currency := optional_ofOption (f := .str) (g := Json.str?) (fun _ => rfl) (by simp)
    portfolio.currency
  have positions := mapM_map position_ofJson portfolio.positions
  simp [PortfolioContext.modelDump, PortfolioContext.ofJson, lookup_cons, cash, currency, positions]

theorem portfolio_column (portfolio : Option PortfolioContext) :
    portfolioOfColumn (.ofOption PortfolioContext.modelDump portfolio) = some portfolio := by
  cases portfolio with
  | none => rfl
  | some portfolio =>
    show (PortfolioContext.ofJson portfolio.modelDump).map some = some (some portfolio)
    rw [portfolio_ofJson, Option.map_some]

def stored (request : ResearchRequest) : ResearchRequest :=
  { request with
    temperature := none
    selectedAnalysts := request.selectedAnalysts.filter (· ≠ []) }

/-- The names of the supported providers are in lower case. -/
def Fixes (lower : String → String) : Prop :=
  ∀ provider ∈ supportedLlmProviders, lower provider = provider
deriving Decidable

theorem short_supported : ∀ provider ∈ supportedLlmProviders, provider.toList.length ≤ 32 := by
  decide

section Lower
variable (fixes : Fixes lower)
include fixes

theorem lower_known {llmProvider : Option String} (known : knownProvider lower llmProvider) :
    (llmProvider.map lower).map lower = llmProvider.map lower := by
  cases llmProvider with
  | none => rfl
  | some provider =>
    have supported : lower provider ∈ supportedLlmProviders := by
      simpa [knownProvider] using known
    rw [Option.map_some, Option.map_some, fixes _ supported]

theorem known_lower {llmProvider : Option String} (known : knownProvider lower llmProvider) :
    knownProvider lower (llmProvider.map lower) = true ∧
      maxLength 32 (llmProvider.map lower) = true := by
  cases llmProvider with
  | none => exact ⟨rfl, rfl⟩
  | some provider =>
    have supported : lower provider ∈ supportedLlmProviders := by
      simpa [knownProvider] using known
    simpa [knownProvider, maxLength, fixes _ supported, supported] using
      short_supported _ supported

theorem valid_lower (valid : request.valid lower today) :
    ({ request with llmProvider := request.llmProvider.map lower } : ResearchRequest).valid lower
      today = true := by
  simp only [ResearchRequest.valid, Bool.and_eq_true] at valid ⊢
  have known := known_lower fixes valid.1.1.1.1.1.1.1.1.2
  simp only [known, valid, and_self]

end Lower

theorem valid_later (valid : request.valid lower today) (later : today ≤ day) :
    request.valid lower day = true := by
  simp only [ResearchRequest.valid, Bool.and_eq_true, decide_eq_true_eq] at valid ⊢
  have date : request.researchDate ≤ day := le_trans valid.1.1.1.1.1.1.1.1.1.1.1.2 later
  simp only [valid, date, and_self]

theorem valid_stored (valid : request.valid lower today) :
    (stored request).valid lower today = true := by
  have analysts (limited : request.selectedAnalysts.all (·.length ≤ 4)) :
      (request.selectedAnalysts.filter (· ≠ [])).all (·.length ≤ 4) = true := by
    simp only [Option.all_eq_true, Option.filter_eq_some_iff] at limited ⊢
    exact fun selected kept => limited selected kept.1
  have temperature : inRange (0 : ℚ) 2 none = true := rfl
  simp only [ResearchRequest.valid, Bool.and_eq_true, decide_eq_true_eq, stored] at valid ⊢
  simp only [valid, analysts valid.1.1.1.1.1.1.1.1.1.1.2, temperature, decide_true, and_self]

structure Constructed (lower : String → String) (today : Int) (request : ResearchRequest) : Prop where
  valid : request.valid lower today = true
  lowered : request.llmProvider.map lower = request.llmProvider

theorem constructed_construct (fixes : Fixes lower)
    (built : raw.construct lower today = some request) : Constructed lower today request := by
  unfold ResearchRequest.construct at built
  split_ifs at built with valid
  cases built
  constructor
  · exact valid_lower fixes valid
  · apply lower_known fixes
    simp only [ResearchRequest.valid, Bool.and_eq_true] at valid
    exact valid.1.1.1.1.1.1.1.1.2

theorem Constructed.construct (constructed : Constructed lower today request) (later : today ≤ day) :
    request.construct lower day = some request := by
  have valid := valid_later constructed.valid later
  rw [ResearchRequest.construct, if_pos valid, constructed.lowered]

theorem Constructed.stored (constructed : Constructed lower today request) :
    Constructed lower today (stored request) :=
  ⟨valid_stored constructed.valid, constructed.lowered⟩

theorem rowToRequest_requestRow (constructed : Constructed lower today request) (later : today ≤ day) :
    rowToRequest lower day (requestRow request) = some (stored request) := by
  have rebuilt := constructed.stored.construct later
  rw [rowToRequest, requestRow]
  simp only [depth_ofValue, market_ofValue, analysts_column, vendors_column, portfolio_column,
    Option.bind_eq_bind, Option.bind_some]
  exact rebuilt

@[simp]
theorem stored_stored (request : ResearchRequest) : stored (stored request) = stored request := by
  simp [stored, Option.filter_filter]

theorem resumeAgain_eq_stored {days : List Int} (constructed : Constructed lower today request)
    (nonempty : days ≠ []) (later : ∀ day ∈ days, today ≤ day) :
    resumeAgain lower days request = some (stored request) := by
  induction days generalizing request with
  | nil => exact absurd rfl nonempty
  | cons day days ih =>
    have first := rowToRequest_requestRow constructed (later day mem_cons_self)
    rw [resumeAgain, resumeResearch, if_pos rfl, first, Option.bind_some]
    match days with
    | [] => rfl
    | next :: days =>
      rw [ih constructed.stored (cons_ne_nil next days)
        (fun d hd => later d (mem_cons_of_mem day hd)), stored_stored]

theorem runArguments_stored (providerSymbol : Market → String → String)
    (request : ResearchRequest) :
    runArguments providerSymbol (stored request) =
      { runArguments providerSymbol request with temperature := none } := by
  simp [runArguments, stored, Option.filter_filter, ResearchRequest.resolvedDebateRounds,
    ResearchRequest.resolvedRiskDebateRounds]

/-- A resume keeps all arguments but the temperature, and that exactly when it was left to its
default. -/
theorem resumed_arguments_iff (fixes : Fixes lower) (providerSymbol : Market → String → String)
    {days : List Int} (built : raw.construct lower today = some request) (nonempty : days ≠ [])
    (later : ∀ day ∈ days, today ≤ day) :
    ∃ resumed, resumeAgain lower days request = some resumed ∧
      runArguments providerSymbol resumed =
        { runArguments providerSymbol request with temperature := none } ∧
      (runArguments providerSymbol resumed = runArguments providerSymbol request ↔
        request.temperature = none) := by
  have constructed := constructed_construct fixes built
  refine ⟨stored request, resumeAgain_eq_stored constructed nonempty later,
    runArguments_stored providerSymbol request, ?_⟩
  rw [runArguments_stored]
  constructor
  · intro same
    have temperature := congrArg RunArguments.temperature same
    exact temperature.symm
  · intro default
    have temperature : (runArguments providerSymbol request).temperature = none := default
    rw [← temperature]

def lowerAscii (text : String) : String := String.ofList (text.toList.map Char.toLower)

def fullRequest (llmProvider : String) : ResearchRequest where
  symbol := "INFY"
  researchDate := 0
  researchDepth := .deep
  market := .india
  selectedAnalysts := some [.news, .market]
  llmProvider := some llmProvider
  deepThinkLlm := some "deep"
  debateRounds := some 3
  retryCount := some 2
  dataVendors := some [("news_data", "alpha_vantage"), ("macro_data", "fred")]
  checkpointEnabled := true
  portfolio := some ⟨some 1000, some "INR", [⟨"TCS", 10, some (7 / 2)⟩, ⟨"M&M", -5, none⟩]⟩

theorem full_request_resumed :
    (fullRequest "DeepSeek").construct lowerAscii 0 = some (fullRequest "deepseek") ∧
      ∃ resumed, resumeAgain lowerAscii [1, 2] (fullRequest "deepseek") = some resumed ∧
        runArguments (fun _ symbol => symbol) resumed =
          runArguments (fun _ symbol => symbol) (fullRequest "deepseek") := by
  have built : (fullRequest "DeepSeek").construct lowerAscii 0 = some (fullRequest "deepseek") := by
    decide +kernel
  obtain ⟨resumed, run, -, same⟩ := resumed_arguments_iff (by decide +kernel) (fun _ symbol => symbol)
    built (by decide : ([1, 2] : List Int) ≠ []) (by decide)
  exact ⟨built, resumed, run, same.2 rfl⟩

theorem temperature_not_resumed :
    ∃ request : ResearchRequest, request.construct lowerAscii 0 = some request ∧
      request.temperature = some 0 ∧
      ∃ resumed, resumeResearch lowerAscii 0 (requestRow request) .failed = some resumed ∧
        (runArguments (fun _ symbol => symbol) request).temperature = some 0 ∧
        (runArguments (fun _ symbol => symbol) resumed).temperature = none :=
  ⟨{ symbol := "AAPL", researchDate := 0, temperature := some 0 }, by decide, rfl, _, rfl, rfl, rfl⟩

end AlgoSystem.Proof.AiResearch.Resume
