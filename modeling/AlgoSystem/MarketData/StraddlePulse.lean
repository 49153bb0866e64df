import AlgoSystem.MarketData.CandleTable
import AlgoSystem.MarketData.MarketHours
import AlgoSystem.MarketData.OptionChain

/-!
The engine of `trading/market_data/straddle_pulse.py` with its services `expiry_cycle.py`,
`daily_session.py`, `atm_lock.py` and `oi_pcr.py`. Each commits what it has written, so a call that
fails leaves the rows of the services before it.
-/

namespace AlgoSystem.MarketData.StraddlePulse
open General

inductive Underlying where
  | nifty
  | sensex
  deriving DecidableEq

def Underlying.symbol : Underlying → String
  | .nifty => "NIFTY"
  | .sensex => "SENSEX"

def Underlying.optionExchange : Underlying → Exchange
  | .nifty => .nfo
  | .sensex => .bfo

structure Settings where
  tz : Int := ist
  holidays : List Int := []
  strikeRange : Underlying → Nat
  formats : Formats

inductive CycleStatus where
  | active
  | completed
  deriving DecidableEq

structure ExpiryCycle where
  id : Nat
  underlying : Underlying
  exchange : Exchange
  expiryDate : Int
  cycleStartDate : Int
  cycleEndDate : Int
  status : CycleStatus := .active
  deriving DecidableEq

structure AtmLock where
  spot0916 : ℚ
  atmStrike : ℚ
  atmCeSymbol : String
  atmPeSymbol : String
  atmCeContractId : Option Nat
  atmPeContractId : Option Nat
  deriving DecidableEq

/-- The columns of the lock are null in a `PENDING` session and set together with `LOCKED`. -/
inductive SessionStatus where
  | pending
  | locked (atm : AtmLock)
  deriving DecidableEq

structure DailySession where
  id : Nat
  cycleId : Nat
  underlying : Underlying
  tradingDate : Int
  status : SessionStatus := .pending
  deriving DecidableEq

structure OISnapshot where
  cycleId : Nat
  underlying : Underlying
  expiryDate : Int
  tradingDate : Int
  timestamp : Int
  callOiTotal : Int
  putOiTotal : Int
  callOiChange : Int
  putOiChange : Int
  pcr : Option ℚ
  deriving DecidableEq

structure Db where
  cycles : List ExpiryCycle := []
  sessions : List DailySession := []
  oiSnapshots : List OISnapshot := []
  deriving DecidableEq

inductive Fault where
  | multipleResultsFound
  | integrityError
  | attributeError
  deriving DecidableEq

def scalarOneOrNone {α : Type} : List α → Except Fault (Option α)
  | [] => .ok none
  | [row] => .ok (some row)
  | _ :: _ :: _ => .error .multipleResultsFound

abbrev Outcome (α : Type) := Db × Except Fault α

def completePastCycles (db : Db) (underlying : Underlying) (today : Int) : Db :=
  { db with
    cycles := db.cycles.map fun c =>
      if c.underlying = underlying ∧ c.status = .active ∧ c.cycleEndDate < today then
        { c with status := .completed }
      else c }

def findCycle (db : Db) (underlying : Underlying) (expiryDate : Int) :
    Except Fault (Option ExpiryCycle) :=
  scalarOneOrNone (db.cycles.filter fun c => c.underlying = underlying ∧ c.expiryDate = expiryDate)

def commitCycle (db : Db) (row : ExpiryCycle) : Except Fault Db :=
  if ∃ c ∈ db.cycles, c.underlying = row.underlying ∧
      (c.expiryDate = row.expiryDate ∨ c.status = .active ∧ row.status = .active) then
    .error .integrityError
  else .ok { db with cycles := db.cycles ++ [row] }

def cycleStart (expiries : List Int) (expiryDate : Int) : Int :=
  match ((expiries.filter (· < expiryDate)).insertionSort (· ≤ ·)).getLast? with
  | some earlier => earlier + 1
  | none => expiryDate

def newCycle (db : Db) (underlying : Underlying) (expiries : List Int) (expiryDate : Int) :
    ExpiryCycle where
  id := db.cycles.length + 1
  underlying
  exchange := underlying.optionExchange
  expiryDate
  cycleStartDate := cycleStart expiries expiryDate
  cycleEndDate := expiryDate

def getOrCreateActiveCycle (db : Db) (underlying : Underlying) (expiries : List Int) (today : Int) :
    Outcome (Option ExpiryCycle) :=
  match (expiries.filter (today ≤ ·)).insertionSort (· ≤ ·) with
  | [] => (db, .ok none)
  | expiryDate :: _ =>
    match findCycle db underlying expiryDate with
    | .error fault => (db, .error fault)
    | .ok (some existing) => (db, .ok (some existing))
    | .ok none =>
      let row := newCycle db underlying expiries expiryDate
      match commitCycle db row with
      | .ok db' => (db', .ok (some row))
      | .error fault =>
        -- after the rollback the cycle is looked up again
        match findCycle db underlying expiryDate with
        | .ok (some existing) => (db, .ok (some existing))
        | _ => (db, .error fault)

def newSession (db : Db) (underlying : Underlying) (cycle : ExpiryCycle) (tradingDate : Int) :
    DailySession where
  id := db.sessions.length + 1
  cycleId := cycle.id
  underlying
  tradingDate

def getOrCreateToday (db : Db) (underlying : Underlying) (cycle : ExpiryCycle) (tradingDate : Int)
    (holidays : List Int) : Outcome (Option DailySession) :=
  if isTradingDay tradingDate holidays then
    match scalarOneOrNone (db.sessions.filter fun s =>
        s.underlying = underlying ∧ s.tradingDate = tradingDate) with
    | .error fault => (db, .error fault)
    | .ok (some existing) => (db, .ok (some existing))
    | .ok none =>
      let row := newSession db underlying cycle tradingDate
      ({ db with sessions := db.sessions ++ [row] }, .ok (some row))
  else (db, .ok none)

def cycleOf (db : Db) (session : DailySession) : Option ExpiryCycle :=
  db.cycles.find? fun c => c.id = session.cycleId

structure Call where
  underlying : Underlying
  now : Int
  master : InstrumentMaster
  candles : List (MarketCandle ℚ)
  contractIds : Dict String Nat
  openInterest : String → Option Int
  utcNow : Int

def lockTime : Int := 9 * 60 + 16

def candleMinute : Int := 9 * 60 + 15

def optionSymbol (settings : Settings) (master : InstrumentMaster) (underlying : Underlying)
    (expiry : Int) (strike : ℚ) (optionType : OptionType) : String :=
  match master.resolve underlying.symbol expiry strike optionType with
  | some contract => contract.internalSymbol
  | none => makeOptionSymbol settings.formats underlying.symbol expiry strike optionType

def atmLock (settings : Settings) (call : Call) (underlying : Underlying) (expiry : Int)
    (spot atm : ℚ) : AtmLock :=
  let ceSymbol := optionSymbol settings call.master underlying expiry atm .ce
  let peSymbol := optionSymbol settings call.master underlying expiry atm .pe
  { spot0916 := spot
    atmStrike := atm
    atmCeSymbol := ceSymbol
    atmPeSymbol := peSymbol
    atmCeContractId := call.contractIds.get? ceSymbol
    atmPeContractId := call.contractIds.get? peSymbol }

def saveSession (db : Db) (session : DailySession) : Db :=
  { db with sessions := db.sessions.map fun s => if s.id = session.id then session else s }

/-- The query of `lock_if_due`, which filters by neither interval nor exchange. -/
def lockCandles (settings : Settings) (call : Call) (underlying : Underlying) (tradingDate : Int) :
    List (MarketCandle ℚ) :=
  call.candles.filter fun row => row.symbol = underlying.symbol ∧
    row.timestamp = combine settings.tz tradingDate candleMinute

def lockIfDue (settings : Settings) (db : Db) (session : DailySession) (call : Call) :
    Outcome DailySession :=
  match session.status with
  | .locked _ => (db, .ok session)
  | .pending =>
    if call.now < combine settings.tz session.tradingDate lockTime then (db, .ok session)
    else match scalarOneOrNone (lockCandles settings call session.underlying session.tradingDate) with
      | .error fault => (db, .error fault)
      | .ok none => (db, .ok session)
      | .ok (some candle) =>
        match cycleOf db session with
        | none => (db, .error .attributeError)
        | some cycle =>
          let strikes := call.master.listStrikes session.underlying.symbol cycle.expiryDate
          match nearestStrike strikes candle.close with
          | none => (db, .ok session)
          | some atm =>
            let session := { session with
              status := .locked
                (atmLock settings call session.underlying cycle.expiryDate candle.close atm) }
            (saveSession db session, .ok session)

def sessionWindow (settings : Settings) (master : InstrumentMaster) (underlying : Underlying)
    (expiry : Int) (atm : AtmLock) : List ℚ :=
  selectStrikeWindow (master.listStrikes underlying.symbol expiry) (some atm.atmStrike)
    (settings.strikeRange underlying)

def oiTotal (settings : Settings) (call : Call) (underlying : Underlying) (expiry : Int)
    (optionType : OptionType) (window : List ℚ) : Int :=
  (window.map fun strike => (call.openInterest
    (makeOptionSymbol settings.formats underlying.symbol expiry strike optionType)).getD 0).sum

def snapshotRow (db : Db) (session : DailySession) (expiry ts callTotal putTotal : Int) :
    OISnapshot :=
  let ofDay := db.oiSnapshots.filter fun row => row.underlying = session.underlying ∧
    row.expiryDate = expiry ∧ row.tradingDate = session.tradingDate
  let firstOfDay := (ofDay.insertionSort fun a b => a.timestamp ≤ b.timestamp).head?
  { cycleId := session.cycleId
    underlying := session.underlying
    expiryDate := expiry
    tradingDate := session.tradingDate
    timestamp := ts
    callOiTotal := callTotal
    putOiTotal := putTotal
    callOiChange := callTotal - (firstOfDay.map OISnapshot.callOiTotal).getD callTotal
    putOiChange := putTotal - (firstOfDay.map OISnapshot.putOiTotal).getD putTotal
    pcr := if 0 < callTotal then some (putTotal / callTotal) else none }

def snapshot (settings : Settings) (db : Db) (session : DailySession) (call : Call) :
    Outcome (Option OISnapshot) :=
  match session.status with
  | .pending => (db, .ok none)
  | .locked atm =>
    match cycleOf db session with
    | none => (db, .error .attributeError)
    | some cycle =>
      let underlying := session.underlying
      let expiry := cycle.expiryDate
      let window := sessionWindow settings call.master underlying expiry atm
      let ts := minuteStart call.utcNow
      match scalarOneOrNone (db.oiSnapshots.filter fun row => row.underlying = underlying ∧
          row.expiryDate = expiry ∧ row.tradingDate = session.tradingDate ∧
          row.timestamp = ts) with
      | .error fault => (db, .error fault)
      | .ok (some already) => (db, .ok (some already))
      | .ok none =>
        let row := snapshotRow db session expiry ts
          (oiTotal settings call underlying expiry .ce window)
          (oiTotal settings call underlying expiry .pe window)
        ({ db with oiSnapshots := db.oiSnapshots ++ [row] }, .ok (some row))

structure Advanced where
  cycle : Option ExpiryCycle := none
  session : Option DailySession := none
  deriving DecidableEq

def today (settings : Settings) (call : Call) : Int := localDate settings.tz call.now

def expiries (call : Call) : List Int := call.master.listExpiries call.underlying.symbol

def openCycle (settings : Settings) (db : Db) (call : Call) : Outcome (Option ExpiryCycle) :=
  getOrCreateActiveCycle (completePastCycles db call.underlying (today settings call))
    call.underlying (expiries call) (today settings call)

def openSession (settings : Settings) (db : Db) (call : Call) : Outcome Advanced :=
  match openCycle settings db call with
  | (db, .error fault) => (db, .error fault)
  | (db, .ok none) => (db, .ok {})  -- no expiry is listed yet
  | (db, .ok (some cycle)) =>
    match getOrCreateToday db call.underlying cycle (today settings call) settings.holidays with
    | (db, .error fault) => (db, .error fault)
    | (db, .ok session) => (db, .ok { cycle := some cycle, session })

def lockSession (settings : Settings) (db : Db) (call : Call) : Outcome Advanced :=
  match openSession settings db call with
  | (db, .ok { cycle, session := some session }) =>
    match lockIfDue settings db session call with
    | (db, .error fault) => (db, .error fault)
    | (db, .ok session) => (db, .ok { cycle, session := some session })
  | outcome => outcome

def advance (settings : Settings) (db : Db) (call : Call) : Outcome Advanced :=
  match lockSession settings db call with
  | (db, .ok { cycle, session := some session }) =>
    match snapshot settings db session call with
    | (db, .error fault) => (db, .error fault)
    | (db, .ok _) => (db, .ok { cycle, session := some session })
  | outcome => outcome

inductive CommitPoint where
  | completion
  | cycle
  | session
  | lock

def interrupted (settings : Settings) (db : Db) (call : Call) : CommitPoint → Db
  | .completion => completePastCycles db call.underlying (today settings call)
  | .cycle => (openCycle settings db call).1
  | .session => (openSession settings db call).1
  | .lock => (lockSession settings db call).1

structure Pulse where
  db : Db := {}
  clock : Int
  log : List (Call × Except Fault Advanced) := []

inductive Event where
  | finished (call : Call)
  | killed (call : Call) (point : CommitPoint)

def Event.now : Event → Int
  | .finished call => call.now
  | .killed call _ => call.now

def Pulse.perform (settings : Settings) (pulse : Pulse) : Event → Pulse
  | .finished call =>
    let outcome := advance settings pulse.db call
    { db := outcome.1, clock := call.now, log := pulse.log ++ [(call, outcome.2)] }
  | .killed call point =>
    { pulse with db := interrupted settings pulse.db call point, clock := call.now }

def Pulse.step (settings : Settings) (pulse : Pulse) (event : Event) : Option Pulse :=
  if event.now < pulse.clock then none else some (pulse.perform settings event)

end AlgoSystem.MarketData.StraddlePulse
