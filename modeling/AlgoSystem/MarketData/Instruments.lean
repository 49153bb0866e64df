import Mathlib.Data.List.Sort
import Mathlib.Data.List.Dedup
import Mathlib.Algebra.Order.Ring.Unbundled.Rat

/-!
`trading/market_data/instruments.py` and the option symbols of `symbols.py`. The nested dictionaries
of the master are the list of the contracts loaded; a later one replaces an earlier one under its
key. Dates are days since 1970-01-01.
-/

namespace AlgoSystem.MarketData

inductive InstrumentType where
  | index
  | option
  | future
  | equity

inductive Exchange where
  | nse
  | bse
  | nfo
  | bfo
  deriving DecidableEq

inductive OptionType where
  | ce
  | pe
  deriving DecidableEq

def OptionType.value : OptionType → String
  | .ce => "CE"
  | .pe => "PE"

structure Instrument where
  internalSymbol : String
  exchange : Exchange
  instrumentType : InstrumentType
  underlying : Option String := none
  expiry : Option Int := none
  strike : Option ℚ := none
  optionType : Option OptionType := none
  providerToken : Option String := none

structure Contract where
  internalSymbol : String
  exchange : Exchange
  underlying : String
  expiry : Int
  strike : ℚ
  optionType : OptionType
  providerToken : Option String := none
  deriving DecidableEq

abbrev OptionTerms := String × Int × ℚ × OptionType

def Contract.terms (c : Contract) : OptionTerms :=
  (c.underlying, c.expiry, c.strike, c.optionType)

def Instrument.contract? (inst : Instrument) : Option Contract :=
  match inst.instrumentType, inst.underlying, inst.expiry, inst.strike, inst.optionType with
  | .option, some underlying, some expiry, some strike, some optionType =>
    some ⟨inst.internalSymbol, inst.exchange, underlying, expiry, strike, optionType,
      inst.providerToken⟩
  | _, _, _, _, _ => none

structure InstrumentMaster where
  contracts : List Contract := []

namespace InstrumentMaster

def load (instruments : List Instrument) : InstrumentMaster :=
  ⟨instruments.filterMap Instrument.contract?⟩

def listExpiries (master : InstrumentMaster) (underlying : String) : List Int :=
  ((master.contracts.filter fun c => c.underlying = underlying).map
    Contract.expiry).dedup.insertionSort (· ≤ ·)

def listStrikes (master : InstrumentMaster) (underlying : String) (expiry : Int) : List ℚ :=
  ((master.contracts.filter fun c => c.underlying = underlying ∧ c.expiry = expiry).map
    Contract.strike).dedup.insertionSort (· ≤ ·)

def resolve (master : InstrumentMaster) (underlying : String) (expiry : Int) (strike : ℚ)
    (optionType : OptionType) : Option Contract :=
  (master.contracts.filter fun c => c.underlying = underlying ∧ c.expiry = expiry ∧
    c.strike = strike ∧ c.optionType = optionType).getLast?

def get (master : InstrumentMaster) (internalSymbol : String) : Option Contract :=
  (master.contracts.filter fun c => c.internalSymbol = internalSymbol).getLast?

def count (master : InstrumentMaster) : ℕ :=
  (master.contracts.map Contract.internalSymbol).dedup.length

def countOf (master : InstrumentMaster) (underlying : String) : ℕ :=
  ((master.contracts.filter fun c => c.underlying = underlying).map fun c =>
    (c.expiry, c.strike, c.optionType)).dedup.length

end InstrumentMaster

/-- `date.isoformat` and the format `g` of a strike. -/
structure Formats where
  isoformat : Int → String
  strike : ℚ → String

def makeOptionSymbol (formats : Formats) (underlying : String) (expiry : Int) (strike : ℚ)
    (optionType : OptionType) : String :=
  "|".intercalate [underlying, formats.isoformat expiry, formats.strike strike, optionType.value]

structure OptionRow where
  underlying : String
  expiry : Int
  strike : ℚ
  optionType : OptionType
  exchange : Exchange := .nfo
  providerToken : Option String := none

/-- `option_instrument`; `normal` trims a name and turns it to upper case. -/
def OptionRow.instrument (formats : Formats) (normal : String → String) (row : OptionRow) :
    Instrument where
  internalSymbol :=
    makeOptionSymbol formats (normal row.underlying) row.expiry row.strike row.optionType
  exchange := row.exchange
  instrumentType := .option
  underlying := some (normal row.underlying)
  expiry := some row.expiry
  strike := some row.strike
  optionType := some row.optionType
  providerToken := row.providerToken

end AlgoSystem.MarketData
