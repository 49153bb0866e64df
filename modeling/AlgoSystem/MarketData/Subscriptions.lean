import AlgoSystem.General.Threads
import AlgoSystem.MarketData.StraddlePulse

/-!
`_current_option_window` and `_resubscribe_option_universe` of `trading/market_data/service.py` with
what changes the provider under them. The sweeps of the flush loop and of a reconnect run in two
threads.
-/

namespace AlgoSystem.MarketData.Subscriptions
open General
open StraddlePulse (Underlying Settings)

structure ListedOption where
  underlying : Underlying
  expiry : Int
  strike : ℚ
  optionType : OptionType
  providerToken : Option String := none

def optionInstrument (formats : Formats) (row : ListedOption) : Instrument where
  internalSymbol :=
    makeOptionSymbol formats row.underlying.symbol row.expiry row.strike row.optionType
  exchange := row.underlying.optionExchange
  instrumentType := .option
  underlying := some row.underlying.symbol
  expiry := some row.expiry
  strike := some row.strike
  optionType := some row.optionType
  providerToken := row.providerToken

structure Market where
  listed : List ListedOption
  spot : Underlying → Option ℚ
  utcToday : Int

def Market.master (formats : Formats) (market : Market) : InstrumentMaster :=
  .load (market.listed.map (optionInstrument formats))

def contractsAt (master : InstrumentMaster) (underlying : Underlying) (expiry : Int)
    (window : List ℚ) : List Contract :=
  window.flatMap fun strike =>
    [OptionType.ce, OptionType.pe].filterMap (master.resolve underlying.symbol expiry strike)

def currentOptionWindow (settings : Settings) (market : Market) (underlying : Underlying) :
    List Contract :=
  let master := market.master settings.formats
  match market.spot underlying, resolveExpiry master underlying.symbol market.utcToday with
  | some spot, some expiry =>
    let strikes := master.listStrikes underlying.symbol expiry
    contractsAt master underlying expiry
      (selectStrikeWindow strikes (nearestStrike strikes spot) (settings.strikeRange underlying))
  | _, _ => []

structure Provider where
  connected : Bool := false
  subscribed : List String := []
  deriving DecidableEq

structure Service where
  provider : Option Provider := none
  accepting : Bool := false
  optionUniverse : Underlying → List String := fun _ => []

namespace Service

def subscribe (service : Service) (accepted : List String) : Service :=
  { service with
    provider := service.provider.map fun p => { p with subscribed := p.subscribed ++ accepted } }

def unsubscribe (service : Service) (removed : List String) : Service :=
  { service with
    provider := service.provider.map fun p =>
      { p with subscribed := p.subscribed.filter (· ∉ removed) } }

def assign (service : Service) (underlying : Underlying) (wanted : List String) : Service :=
  { service with optionUniverse := Function.update service.optionUniverse underlying wanted }

end Service

structure Plan where
  wanted : List String
  add : List String
  drop : List String
  deriving DecidableEq

def plan (settings : Settings) (service : Service) (market : Market) (underlying : Underlying) :
    Plan :=
  let wanted := (currentOptionWindow settings market underlying).map Contract.internalSymbol
  let current := service.optionUniverse underlying
  { wanted, add := wanted.filter (· ∉ current), drop := current.filter (· ∉ wanted) }

inductive Pc where
  | entered
  | next (connected : Bool) (underlying : Underlying) (rest : List Underlying)
  | subscribing (connected : Bool) (underlying : Underlying) (rest : List Underlying) (plan : Plan)
  | unsubscribing (connected : Bool) (underlying : Underlying) (rest : List Underlying)
      (plan : Plan)
  | assigning (connected : Bool) (underlying : Underlying) (rest : List Underlying) (plan : Plan)
  /-- A sweep that found a connected provider, or another one. -/
  | done (connected : Bool)
  deriving DecidableEq

inductive Choice where
  | check
  | window (market : Market)
  | subscribe (accepted : List String)
  | unsubscribe (removed : List String)
  | assign

def sweep (settings : Settings) (service : Service) : Pc → Choice → Option (Service × Pc)
  | .entered, .check =>
    match service.provider with
    | none => some (service, .done false)
    | some p =>
      if service.accepting then some (service, .next p.connected .nifty [.sensex])
      else some (service, .done false)
  | .next connected underlying rest, .window market =>
    some (service,
      .subscribing connected underlying rest (plan settings service market underlying))
  | .subscribing connected underlying rest plan, .subscribe accepted =>
    -- an exception of the provider is caught; it may have recorded some of the contracts
    if accepted ⊆ plan.add then
      some (service.subscribe accepted, .unsubscribing connected underlying rest plan)
    else none
  | .unsubscribing connected underlying rest plan, .unsubscribe removed =>
    if removed ⊆ plan.drop then
      some (service.unsubscribe removed, .assigning connected underlying rest plan)
    else none
  | .assigning connected underlying rest plan, .assign =>
    some (service.assign underlying plan.wanted,
      match rest with
      | [] => .done connected
      | underlying :: rest => .next connected underlying rest)
  | _, _ => none

inductive Control where
  | create
  | connect
  | accept
  | subscribeIndices (accepted : List String)
  | disconnect
  | resetProvider
  | halt
  | stop

def Service.control (service : Service) : Control → Option Service
  | .create =>
    match service.provider with
    | none => some { service with provider := some {} }
    | some _ => none
  | .connect =>
    service.provider.map fun p =>
      { service with provider := some { p with connected := true } }
  | .accept => some { service with accepting := true }
  | .subscribeIndices accepted => some (service.subscribe accepted)
  | .disconnect => service.provider.map fun _ => { service with provider := some {} }
  | .resetProvider => some { service with provider := none }
  | .halt => some { service with accepting := false }
  | .stop => some { service with provider := none, optionUniverse := fun _ => [] }

def feed (settings : Settings) : ThreadSystem Service Pc Unit Choice Control where
  enter _ _ := .entered
  act _ := sweep settings
  env := Service.control
  reset _ := {}

abbrev State := ThreadSystem.State Service Pc

abbrev Event := ThreadSystem.Event Unit Choice Control

structure Answer where
  accepted : List String
  removed : List String

def sweepOne (settings : Settings) (market : Market) (answer : Underlying → Answer)
    (service : Service) (underlying : Underlying) : Service :=
  ((service.subscribe (answer underlying).accepted).unsubscribe (answer underlying).removed).assign
    underlying (plan settings service market underlying).wanted

def resubscribeOptionUniverse (settings : Settings) (market : Market)
    (answer : Underlying → Answer) (service : Service) : Service :=
  if service.provider.isSome && service.accepting then
    [Underlying.nifty, Underlying.sensex].foldl (sweepOne settings market answer) service
  else service

inductive Operation where
  | sweep (market : Market) (answer : Underlying → Answer)
  | control (control : Control)

def Service.operate (settings : Settings) (service : Service) : Operation → Option Service
  | .sweep market answer => some (resubscribeOptionUniverse settings market answer service)
  | .control control => service.control control

end AlgoSystem.MarketData.Subscriptions
