import AlgoSystem.MarketData.Aggregator

/-!
The calendar of `trading/market_data/market_hours.py`. A date is an `Int`, the days since 1970-01-01,
and a zone is its offset from UTC in microseconds.
-/

namespace AlgoSystem.MarketData

def oneDay : Int := 1440 * oneMinute

def ist : Int := 330 * oneMinute

def localDate (tz now : Int) : Int := (now + tz) / oneDay

def combine (tz day minute : Int) : Int := day * oneDay + minute * oneMinute - tz

def weekday (day : Int) : Int := (day + 3) % 7

def isTradingDay (day : Int) (holidays : List Int) : Bool :=
  decide (weekday day < 5) && !holidays.contains day

abbrev TimeOfDay := { t : Int // 0 ≤ t ∧ t < oneDay }

structure MarketHours where
  start : TimeOfDay
  stop : TimeOfDay
  tz : Int
  holidays : List Int

namespace MarketHours
variable (hours : MarketHours)

def sessionWindow (day : Int) : Int × Int :=
  (day * oneDay + hours.start - hours.tz, day * oneDay + hours.stop - hours.tz)

def marketIsOpen (now : Int) : Bool :=
  let day := localDate hours.tz now
  let (openDt, closeDt) := hours.sessionWindow day
  isTradingDay day hours.holidays && openDt ≤ now && now < closeDt

def startFrom (now day : Int) : Nat → Option Int
  | 0 => none
  | days + 1 =>
    let openDt := (hours.sessionWindow day).1
    if isTradingDay day hours.holidays && now ≤ openDt then some openDt
    else startFrom now (day + 1) days

def nextMarketStart (now : Int) (maxLookaheadDays : Nat := 14) : Option Int :=
  hours.startFrom now (localDate hours.tz now) (maxLookaheadDays + 1)

end MarketHours

end AlgoSystem.MarketData
