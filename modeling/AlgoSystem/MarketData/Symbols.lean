import Mathlib.Data.List.DropRight
import Mathlib.Data.Rat.Floor
import AlgoSystem.General.Calendar
import AlgoSystem.General.Numerals
import AlgoSystem.MarketData.Instruments

/-!
`make_option_symbol` and `parse_option_symbol` of `trading/market_data/symbols.py`, character by
character. A strike with at most two decimals is the number of its hundredths; where it is halfway
between two numbers of six digits, its `double` lies on either side, which `up` says.
-/

namespace AlgoSystem.MarketData
open General

/-- `str.strip` and `str.upper`: only a bar has an upper case with a bar in it. -/
structure Letters where
  isSpace : Char → Bool
  upper : Char → List Char
  upper_bar : ∀ c, '|' ∈ upper c → c = '|'

def Letters.normal (letters : Letters) (name : List Char) : List Char :=
  ((name.dropWhile letters.isSpace).rdropWhile letters.isSpace).flatMap letters.upper

def isoformat (date : Date) : List Char :=
  digits 4 date.year ++ '-' :: (digits 2 date.month ++ '-' :: digits 2 date.day)

def fromisoformat (text : List Char) : Option Date :=
  match text.splitOn '-' with
  | [y, m, d] => do
    let year ← readDigits y
    let month ← readDigits m
    let day ← readDigits d
    if valid : 1 ≤ year ∧ 1 ≤ month ∧ month ≤ 12 ∧ 1 ≤ day ∧
        day ≤ daysInMonth (isLeap year) month then
      if [y.length, m.length, d.length] = [4, 2, 2] then some ⟨year, month, day, valid⟩ else none
    else none
  | _ => none

/-- The format `g` keeps six significant digits. -/
def significant (up : ℕ → Bool) (n : ℕ) : ℕ :=
  let unit := 10 ^ (Nat.log 10 n - 5)
  let above := if 2 * (n % unit) = unit then up n else decide (unit < 2 * (n % unit))
  (n / unit + if above then 1 else 0) * unit

def pointed (n places : ℕ) : List Char :=
  decimal (n / 10 ^ places) ++ if places = 0 then [] else '.' :: digits places n

def dropZeros : ℕ → ℕ → ℕ
  | 0, n => n
  | fuel + 1, n => if n % 10 = 0 then dropZeros fuel (n / 10) else n

def scientific (n : ℕ) : List Char :=
  let mantissa := dropZeros (Nat.log 10 n) n
  let exponent := Nat.log 10 n - 2
  pointed mantissa (Nat.log 10 mantissa) ++
    'e' :: '+' :: digits (max 2 (Nat.log 10 exponent + 1)) exponent

def fixedPoint (n : ℕ) : List Char :=
  if n % 100 = 0 then pointed (n / 100) 0
  else if n % 10 = 0 then pointed (n / 10) 1
  else pointed n 2

def fmtStrike (up : ℕ → Bool) (hundredths : ℕ) : List Char :=
  let n := significant up hundredths
  if n < 10 ^ 8 then fixedPoint n else scientific n

def strikeFormats (up : ℕ → Bool) (isoformat : Int → String) : Formats where
  isoformat := isoformat
  strike k := String.ofList (fmtStrike up ⌊k * 100⌋.toNat)

def readPointed (text : List Char) : Option ℚ :=
  match text.splitOn '.' with
  | [whole] => (readDigits whole).map fun n => (n : ℚ)
  | [whole, fraction] => do
    let n ← readDigits whole
    let f ← readDigits fraction
    some (n + f / 10 ^ fraction.length)
  | _ => none

def readFloat (text : List Char) : Option ℚ :=
  match text.splitOn 'e' with
  | [mantissa] => readPointed mantissa
  | [mantissa, '+' :: exponent] => do
    let m ← readPointed mantissa
    let e ← readDigits exponent
    some (m * 10 ^ e)
  | [mantissa, '-' :: exponent] => do
    let m ← readPointed mantissa
    let e ← readDigits exponent
    some (m / 10 ^ e)
  | _ => none

def optionSymbol (letters : Letters) (up : ℕ → Bool) (underlying : List Char) (expiry : Date)
    (hundredths : ℕ) (optionType : OptionType) : List Char :=
  ['|'].intercalate
    [letters.normal underlying, isoformat expiry, fmtStrike up hundredths, optionType.value.toList]

inductive SymbolError where
  | notAnOptionSymbol
  | malformed
  | badOptionType (optionType : List Char)
  deriving DecidableEq

def parseOptionSymbol (symbol : List Char) :
    Except SymbolError (List Char × Date × ℚ × OptionType) :=
  match symbol.splitOn '|' with
  | [underlying, expiry, strike, optionType] =>
    match fromisoformat expiry, readFloat strike with
    | some expiry, some strike =>
      if optionType = OptionType.ce.value.toList then .ok (underlying, expiry, strike, .ce)
      else if optionType = OptionType.pe.value.toList then .ok (underlying, expiry, strike, .pe)
      else .error (.badOptionType optionType)
    | _, _ => .error .malformed
  | _ => .error .notAnOptionSymbol

end AlgoSystem.MarketData
