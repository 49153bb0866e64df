import AlgoSystem.MarketData.MarketHours

/-!
`trading/ai_research/market/calendar_nse.py`. A date is the number of days since 1970-01-01, a time
the number of microseconds since its start in UTC.
-/

namespace AlgoSystem.Research
open MarketData

def startOfDay (day : Int) : Int := day * oneDay

def endOfDay (day : Int) : Int := startOfDay (day + 1) - 1

def istDate (ts : Int) : Int := localDate ist ts

structure Calendar where
  /-- Dates of the years with verified data; the functions raise for all others. -/
  covered : Int → Bool
  holiday : Int → Bool

inductive CalendarError where
  | coverage
  | endBeforeStart

def daysBetween (start last : Int) : List Int :=
  (List.range (last - start + 1).toNat).map fun n : Nat => start + n

namespace Calendar
variable (calendar : Calendar)

def isTradingDay (day : Int) : Bool := weekday day < 5 && !calendar.holiday day

def tradingDaysInRange (start last : Int) : Except CalendarError (List Int) :=
  if last < start then .error .endBeforeStart
  else if (daysBetween start last).all calendar.covered then
    .ok ((daysBetween start last).filter calendar.isTradingDay)
  else .error .coverage

def marketOpen (day : Int) : Int := combine ist day 555

def marketClose (day : Int) : Int := combine ist day 930

end Calendar

def nseHolidays : List Int :=
  [20114, 20145, 20161, 20178, 20184, 20188, 20192, 20196, 20209, 20246, 20275, 20315, 20327, 20363,
    20382, 20383, 20397, 20447,
    20468, 20479, 20499, 20515, 20533, 20538, 20543, 20546, 20557, 20574, 20601, 20630, 20680, 20710,
    20728, 20746, 20765, 20767, 20781, 20812]

def nse : Calendar where
  covered day := 20089 ≤ day && day < 20819
  holiday day := nseHolidays.contains day

end AlgoSystem.Research
