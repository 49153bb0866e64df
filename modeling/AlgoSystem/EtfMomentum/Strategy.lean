import AlgoSystem.EtfMomentum.Portfolio
import Mathlib.Data.List.Sort

/-!
`trading/algos/ETF_Momentum/strategy.py` with `config.py`. A table of closes has a row for each
date; the download leaves out prices that are not positive and fills the others forward.
-/

namespace AlgoSystem.EtfMomentum
open General

structure Row where
  date : Date
  price : String → Option { price : ℚ // 0 < price }

structure Closes where
  columns : List String
  rows : List Row
  filled : ∀ symbol, rows.Pairwise fun a b => (a.price symbol).isSome → (b.price symbol).isSome

namespace Closes

def index (closes : Closes) : List Date := closes.rows.map Row.date

def column (closes : Closes) (symbol : String) : List ℚ :=
  closes.rows.filterMap fun row => (row.price symbol).map Subtype.val

def restrict (closes : Closes) (rows : List Row) (sublist : rows.Sublist closes.rows) : Closes where
  columns := closes.columns
  rows
  filled symbol := (closes.filled symbol).sublist sublist

def dropLast (closes : Closes) : Closes :=
  closes.restrict closes.rows.dropLast (List.dropLast_sublist _)

def upTo (closes : Closes) (day : Date) : Closes :=
  closes.restrict (closes.rows.filter fun row => row.date.toordinal ≤ day.toordinal)
    List.filter_sublist

end Closes

def nHold : Nat := 6
def lookbacks : List (Nat × ℚ) := [(21, 15 / 100), (63, 40 / 100), (126, 30 / 100), (252, 15 / 100)]
def dmaPeriod : Nat := 200
def minHistory : Nat := 262
def slPct : ℚ := 15 / 100
def trailPct : ℚ := 20 / 100
def liquidRate : ℚ := 5 / 100

def etfUniverse : List (String × String) :=
  [("NIFTYBEES", "Broad_Equity"), ("JUNIORBEES", "Broad_Equity"), ("MID150BEES", "Broad_Equity"),
   ("MIDSELIETF", "Broad_Equity"), ("MONIFTY500", "Broad_Equity"), ("HDFCSML250", "Broad_Equity"),
   ("MOM100", "Broad_Equity"), ("BANKBEES", "Banking_Finance"), ("PSUBNKBEES", "Banking_Finance"),
   ("PVTBANIETF", "Banking_Finance"), ("FINIETF", "Banking_Finance"), ("ITBEES", "Sector"),
   ("PHARMABEES", "Sector"), ("AUTOBEES", "Sector"), ("CONSUMBEES", "Sector"),
   ("CONSUMER", "Sector"), ("FMCGIETF", "Sector"), ("CHEMICAL", "Sector"), ("METALIETF", "Sector"),
   ("OILIETF", "Sector"), ("COMMOIETF", "Sector"), ("INFRAIETF", "Sector"), ("CPSEETF", "Sector"),
   ("ICICIB22", "Sector"), ("MOCAPITAL", "Sector"), ("MODEFENCE", "Sector"),
   ("MOREALTY", "Sector"), ("MOTOUR", "Sector"), ("GROWWPOWER", "Sector"), ("GROWWRAIL", "Sector"),
   ("GROWWHOSPI", "Sector"), ("DIVOPPBEES", "Thematic"), ("EVINDIA", "Thematic"),
   ("INTERNET", "Thematic"), ("MNC", "Thematic"), ("SELECTIPO", "Thematic"),
   ("TOP10ADD", "Thematic"), ("LOWVOLIETF", "Factor"), ("NV20IETF", "Factor"),
   ("QUAL30IETF", "Factor"), ("NIFTYQLITY", "Factor"), ("MONQ50", "Factor"),
   ("HDFCGROWTH", "Factor"), ("MOM50", "Factor"), ("MOMENTUM50", "Factor"), ("MOVALUE", "Factor"),
   ("MON100", "International"), ("MAFANG", "International"), ("HNGSNGBEES", "International"),
   ("GOLDBEES", "Gold_Silver"), ("SILVERBEES", "Gold_Silver"), ("LTGILTBEES", "Bonds"),
   ("EBBETF0430", "Bonds"), ("GILT5YBEES", "Bonds")]

def categoryOf (symbol : String) : String := (etfUniverse.lookup symbol).getD "Unknown"

def priceAgo (s : List ℚ) (n : Nat) : ℚ := s.getD (s.length - (n + 1)) 0

def momentumScore (s : List ℚ) : ℚ :=
  (lookbacks.map fun (lb, weight) =>
    weight * ((priceAgo s 0 - priceAgo s lb) / priceAgo s lb * 100)).sum

def momentumScores (closes : Closes) : List (String × ℚ) :=
  closes.columns.filterMap fun symbol =>
    let s := closes.column symbol
    if s.length < minHistory then none else some (symbol, momentumScore s)

def mean (s : List ℚ) : ℚ := s.sum / s.length

def aboveDma (s : List ℚ) : Bool := 0 < s.length && mean (s.drop (s.length - dmaPeriod)) < priceAgo s 0

def sameMonth (a b : Date) : Bool := a.year = b.year && a.month = b.month

def isFirstTradingDayOfMonth (index : List Date) (day : Date) : Bool :=
  index.contains day && (index.filter fun other => sameMonth other day).head? = some day

inductive Side where
  | buy
  | sell

inductive OrderReason where
  | entry
  | exit (reason : ExitReason)

structure Order where
  side : Side
  symbol : String
  qty : ℤ
  price : ℚ
  reason : OrderReason
  score : Option ℚ := none
  pnlInr : Option ℚ := none

structure RebalanceResult where
  asOf : Date
  orders : List Order
  top : List String
  skippedBelowDma : List String
  interest : ℚ
  valueAfter : ℚ

def markToMarket (last : Row) (symbol : String) (h : Holding) : Holding :=
  let lastPrice := ((last.price symbol).map Subtype.val).getD h.lastPrice
  { h with lastPrice, peak := max h.peak lastPrice }

def exitReason (top : List String) (symbol : String) (h : Holding) : Option ExitReason :=
  if h.lastPrice ≤ h.entryPrice.val * (1 - slPct) then some .sl
  else if h.lastPrice ≤ h.peak * (1 - trailPct) then some .trail
  else if top.contains symbol then none
  else some .rotation

def exitStep (asOf : Date) (top : List String) (sofar : Portfolio × List Order) (symbol : String) :
    Portfolio × List Order :=
  match sofar.1.holdings.get? symbol with
  | none => sofar
  | some h =>
    match exitReason top symbol h with
    | none => sofar
    | some reason =>
      match sofar.1.sell symbol h.lastPrice asOf reason with
      | none => sofar
      | some (trade, p) =>
        (p, sofar.2 ++ [{
          side := .sell, symbol, qty := trade.qty, price := h.lastPrice
          reason := .exit reason, pnlInr := some trade.pnlInr }])

structure Entries where
  portfolio : Portfolio
  orders : List Order
  skipped : List String := []

def entryStep (closes : Closes) (asOf : Date) (last : Row) (scores : List (String × ℚ))
    (allocation : ℚ) (sofar : Entries) (symbol : String) : Except PortfolioError Entries :=
  let p := sofar.portfolio
  if (p.holdings.get? symbol).isSome then .ok sofar
  else if ¬ aboveDma (closes.column symbol) then
    .ok { sofar with skipped := sofar.skipped ++ [symbol] }
  else
    match last.price symbol with
    | none => .error (.notANumber symbol)
    | some price =>
      let qty := min ⌊allocation / price.val⌋ ⌊p.cash / price.val⌋
      if qty ≤ 0 then .ok sofar
      else
        let score := (scores.lookup symbol).getD 0
        match p.buy symbol (categoryOf symbol) qty price asOf score with
        | .error e => .error e
        | .ok p => .ok { sofar with
            portfolio := p
            orders := sofar.orders ++ [{
              side := .buy, symbol, qty, price := price.val, reason := .entry
              score := some score }] }

def topOf (scores : List (String × ℚ)) : List String :=
  ((scores.insertionSort fun a b => b.2 ≤ a.2).take nHold).map Prod.fst

def rebalance (p : Portfolio) (closes : Closes) (asOf : Date) :
    Except PortfolioError (Portfolio × RebalanceResult) :=
  let closes := closes.upTo asOf
  match closes.rows.getLast? with
  | none => .error (.noClose asOf)
  | some last =>
    if last.date ≠ asOf then .error (.noClose asOf)
    else
      let (interest, p) := p.accrueInterest asOf liquidRate
      let p := { p with holdings := p.holdings.mapWithKey (markToMarket last) }
      let scores := momentumScores closes
      let top := topOf scores
      let (p, orders) := (p.holdings.entries.map Prod.fst).foldl (exitStep asOf top) (p, [])
      let allocation := p.totalValue / nHold
      match top.foldlM (entryStep closes asOf last scores allocation) ⟨p, orders, []⟩ with
      | .error e => .error e
      | .ok entries =>
        let p := { entries.portfolio with lastRebalance := some asOf }
        .ok (p, { asOf, orders := entries.orders, top, skippedBelowDma := entries.skipped, interest
                  valueAfter := p.totalValue })

end AlgoSystem.EtfMomentum
