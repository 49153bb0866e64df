import AlgoSystem.EtfMomentum.Strategy

/-!
`EtfMomentumRunner` of `trading/algos/ETF_Momentum/main.py` with its ledger file. The state also
lists the signal days of the rebalances and the days for which interest was credited.
-/

namespace AlgoSystem.EtfMomentum
open General

def minuteMicros : Nat := 60000000
def dayMicros : Nat := 1440 * minuteMicros

structure Config where
  initialCapital : ℚ := 1000000
  closeFinalTime : Nat := 16 * 60 * minuteMicros
  firstCheckTime : Nat := (9 * 60 + 5) * minuteMicros
  startNow : Bool := false
  priceRefreshMinutes : Nat := 15
  rebalanceRetryMinutes : Nat := 15

structure Clock where
  date : Date
  time : Nat

def Clock.instant (now : Clock) : Nat := now.date.toordinal * dayMicros + now.time

structure Runner where
  portfolio : Portfolio
  nextRebalanceCheck : Nat := 0
  nextPriceRefresh : Nat := 0

namespace Runner
variable (config : Config)

def rebalanceDue (r : Runner) (now : Clock) : Bool :=
  if now.instant < r.nextRebalanceCheck then false
  else
    match r.portfolio.lastRebalance with
    | some last => !sameMonth last now.date
    | none => config.startNow || now.date.day ≤ 10

def scheduleNextCheck (r : Runner) (now : Clock) (retry : Bool) : Runner :=
  { r with
    nextRebalanceCheck :=
      if retry then now.instant + config.rebalanceRetryMinutes * minuteMicros
      else if now.time < config.closeFinalTime then
        now.date.toordinal * dayMicros + config.closeFinalTime
      else (now.date.toordinal + 1) * dayMicros + config.firstCheckTime }

def completedCloses (closes : Closes) (now : Clock) : Closes :=
  -- Today's bar is dropped while it is still forming.
  if closes.index.getLast? = some now.date ∧ now.time < config.closeFinalTime then closes.dropLast
  else closes

inductive Kind where
  | scheduled
  | catchUp
  | startNow

def kindOf (p : Portfolio) (closes : Closes) (signalDay : Date) : Option Kind :=
  if p.lastRebalance.any fun last => sameMonth last signalDay then none
  else if isFirstTradingDayOfMonth closes.index signalDay then some .scheduled
  else if p.lastRebalance.isSome then some .catchUp
  else if config.startNow then some .startNow
  else none

def refreshHolding (marks : Closes) (today : Date) (symbol : String) (h : Holding) : Holding :=
  let series := marks.rows.filterMap fun row => (row.price symbol).map fun price => (row.date, price.val)
  match series.reverse with
  | [] => h
  | (date, price) :: earlier =>
    let prevClose :=
      if h.entryDate = today then h.entryPrice.val
      else if date = today then (earlier.head?.map Prod.snd).getD price
      else price
    { h with lastPrice := price, prevClose }

def openTime : Nat := 9 * 60 * minuteMicros
def closeTime : Nat := (16 * 60 + 30) * minuteMicros

def refreshStep (now : Clock) (tradingDay : Bool) : Nat :=
  if tradingDay ∧ openTime ≤ now.time ∧ now.time ≤ closeTime then
    config.priceRefreshMinutes * minuteMicros
  else 120 * minuteMicros

end Runner

structure Session where
  runner : Runner
  file : Option Portfolio := none
  signals : List Date := []
  credited : List (Nat × Nat) := []

inductive SessionEvent where
  | tick (now : Clock) (closes marks : Closes) (tradingDay : Bool)
  | restart (stopped : Bool) (initialCapital : ℚ)

def loadOrNew (file : Option Portfolio) (initialCapital : ℚ) : Portfolio :=
  file.getD (Portfolio.new initialCapital)

namespace Session
variable (config : Config)

def save (s : Session) : Session := { s with file := some s.runner.portfolio }

def creditedDays (p : Portfolio) (asOf : Date) : Option (Nat × Nat) :=
  p.lastAccrual.bind fun last =>
    if last.toordinal < asOf.toordinal then some (last.toordinal, asOf.toordinal) else none

def tryRebalance (s : Session) (now : Clock) (closes : Closes) : Option Session :=
  let closes := Runner.completedCloses config closes now
  match closes.index.getLast? with
  | none => some { s with runner := s.runner.scheduleNextCheck config now true }
  | some signalDay =>
    -- Decisions and fills use the close of the last completed date, not of today.
    let p := s.runner.portfolio
    match Runner.kindOf config p closes signalDay with
    | none => some { s with runner := s.runner.scheduleNextCheck config now false }
    | some _ =>
      match rebalance p closes signalDay with
      | .error _ => none
      | .ok (portfolio, _) =>
        let runner := { s.runner with portfolio }.scheduleNextCheck config now false
        some { s with
          runner := { runner with nextPriceRefresh := now.instant }
          file := some portfolio
          signals := s.signals ++ [signalDay]
          credited := s.credited ++ (creditedDays p signalDay).toList }

def refreshPrices (s : Session) (now : Clock) (marks : Closes) (tradingDay : Bool) : Session :=
  let r := { s.runner with
    nextPriceRefresh := now.instant + Runner.refreshStep config now tradingDay }
  if r.portfolio.holdings.entries.isEmpty then { s with runner := r }
  else
    let portfolio := { r.portfolio with
      holdings := r.portfolio.holdings.mapWithKey (Runner.refreshHolding marks now.date) }
    { s with runner := { r with portfolio } }.save

def onTick (s : Session) (now : Clock) (closes marks : Closes) (tradingDay : Bool) : Option Session :=
  (if s.runner.rebalanceDue config now then s.tryRebalance config now closes else some s).map fun s =>
    if s.runner.nextPriceRefresh ≤ now.instant then s.refreshPrices config now marks tradingDay else s

def step (s : Session) : SessionEvent → Option Session
  | .tick now closes marks tradingDay => s.onTick config now closes marks tradingDay
  | .restart stopped initialCapital =>
    let file := if stopped then some s.runner.portfolio else s.file
    some { s with file, runner := { portfolio := loadOrNew file initialCapital } }

end Session

end AlgoSystem.EtfMomentum
