import AlgoSystem.EtfMomentum.Strategy

namespace AlgoSystem.Proof.EtfMomentum
open AlgoSystem.EtfMomentum General List

variable {p q : Portfolio} {value : ℚ} {symbol : String} {asOf : Date} {closes : Closes} {last : Row}

theorem accrueInterest_lastAccrual (p : Portfolio) (asOf : Date) (rate : ℚ) :
    (p.accrueInterest asOf rate).2.lastAccrual = some asOf := by
  unfold Portfolio.accrueInterest
  split
  · rfl
  · dsimp only
    split <;> rfl

theorem accrueInterest_cash (p : Portfolio) (asOf : Date) {rate : ℚ} (cash : 0 ≤ p.cash)
    (nonneg : 0 ≤ rate) :
    0 ≤ (p.accrueInterest asOf rate).1 ∧
      (p.accrueInterest asOf rate).2.cash = p.cash + (p.accrueInterest asOf rate).1 ∧
      (p.accrueInterest asOf rate).2.holdings = p.holdings := by
  unfold Portfolio.accrueInterest
  split
  · simp
  · dsimp only
    split_ifs with later
    · exact ⟨by positivity, rfl, rfl⟩
    · simp

def Sold (symbol : String) (p q : Portfolio) : Prop :=
  ∃ h, p.holdings.get? symbol = some h ∧ q.holdings = p.holdings.erase symbol ∧
    q.cash = p.cash + h.value ∧ q.lastAccrual = p.lastAccrual

def Bought (symbol : String) (p q : Portfolio) : Prop :=
  ∃ h, p.holdings.get? symbol = none ∧ q.holdings = p.holdings.set symbol h ∧
    q.cash = p.cash - h.value ∧ h.value ≤ p.cash ∧ 0 < h.qty ∧ 0 < h.lastPrice ∧
    q.lastAccrual = p.lastAccrual

structure Ledger (value : ℚ) (p : Portfolio) : Prop where
  total : p.totalValue = value
  cash : 0 ≤ p.cash
  positive : ∀ e ∈ p.holdings.entries, 0 < e.2.qty ∧ 0 < e.2.lastPrice

theorem Ledger.sold (ledger : Ledger value p) (sold : Sold symbol p q) : Ledger value q := by
  obtain ⟨h, held, holdings, cash, -⟩ := sold
  obtain ⟨before, after, shape, erased⟩ := p.holdings.entries_erase held
  rw [← holdings] at erased
  have own := ledger.positive (symbol, h) (by simp [shape])
  have nonneg : 0 ≤ h.value := mul_nonneg (Nat.cast_nonneg _) own.2.le
  have total := ledger.total
  simp only [Portfolio.totalValue, Portfolio.holdingsValue, shape, map_append, map_cons,
    sum_append, sum_cons] at total
  refine ⟨?_, by linarith [ledger.cash], ?_⟩
  · simp only [Portfolio.totalValue, Portfolio.holdingsValue, erased, cash, map_append, sum_append]
    linarith
  · intro e mem
    apply ledger.positive
    rw [shape, mem_append, mem_cons]
    rw [erased, mem_append] at mem
    exact mem.imp_right .inr

theorem Ledger.bought (ledger : Ledger value p) (bought : Bought symbol p q) : Ledger value q := by
  obtain ⟨h, new, holdings, cash, paid, qty, price, -⟩ := bought
  have added := p.holdings.entries_set_new new h
  rw [← holdings] at added
  have total := ledger.total
  simp only [Portfolio.totalValue, Portfolio.holdingsValue] at total
  refine ⟨?_, by linarith, ?_⟩
  · simp only [Portfolio.totalValue, Portfolio.holdingsValue, added, cash, map_append,
      sum_append, map_cons, map_nil, sum_singleton]
    linarith
  · intro e mem
    rw [added, mem_append] at mem
    rcases mem with old | new
    · exact ledger.positive e old
    · rw [mem_singleton.mp new]
      exact ⟨qty, price⟩

theorem exitStep_cases (asOf : Date) (top : List String) (sofar : Portfolio × List Order)
    (symbol : String) :
    exitStep asOf top sofar symbol = sofar ∧
      (∀ e ∈ sofar.1.holdings.entries, e.1 = symbol → symbol ∈ top) ∨
    Sold symbol sofar.1 (exitStep asOf top sofar symbol).1 := by
  unfold exitStep
  split
  · rename_i absent
    refine .inl ⟨rfl, ?_⟩
    rintro ⟨_, h⟩ mem rfl
    cases absent.symm.trans ((Dict.mem_entries_iff _).mp mem)
  · rename_i h held
    split
    · rename_i stays
      refine .inl ⟨rfl, fun _ _ _ => ?_⟩
      unfold exitReason at stays
      split_ifs at stays with _ _ listed
      exact contains_iff_mem.mp listed
    · simp only [Portfolio.sell, held, Option.map_some]
      exact .inr ⟨h, held, rfl, rfl, rfl⟩

theorem exits_spec (asOf : Date) (top symbols : List String) (sofar : Portfolio × List Order) :
    (Ledger value sofar.1 → Ledger value (symbols.foldl (exitStep asOf top) sofar).1) ∧
    (symbols.foldl (exitStep asOf top) sofar).1.lastAccrual = sofar.1.lastAccrual ∧
    ∀ e ∈ (symbols.foldl (exitStep asOf top) sofar).1.holdings.entries,
      e ∈ sofar.1.holdings.entries ∧ (e.1 ∈ symbols → e.1 ∈ top) := by
  induction symbols generalizing sofar with
  | nil => exact ⟨id, rfl, fun e held => ⟨held, fun none => absurd none not_mem_nil⟩⟩
  | cons symbol symbols ih =>
    rw [foldl_cons]
    obtain ⟨keeps, accrual, remain⟩ := ih (exitStep asOf top sofar symbol)
    rcases exitStep_cases asOf top sofar symbol with ⟨same, listed⟩ | sold
    · rw [same] at keeps accrual remain ⊢
      refine ⟨keeps, accrual, fun e held => ?_⟩
      obtain ⟨before, inTop⟩ := remain e held
      refine ⟨before, fun mem => ?_⟩
      rcases mem_cons.mp mem with own | later
      · exact own ▸ listed e before own
      · exact inTop later
    · refine ⟨fun ledger => keeps (ledger.sold sold), ?_, fun e held => ?_⟩
      · obtain ⟨h, -, -, -, same⟩ := sold
        exact accrual.trans same
      · obtain ⟨before, inTop⟩ := remain e held
        obtain ⟨h, -, holdings, -⟩ := sold
        rw [holdings] at before
        obtain ⟨old, other⟩ := mem_filter.mp before
        exact ⟨old, fun mem => inTop (mem_of_ne_of_mem (of_decide_eq_true other) mem)⟩

theorem price_last {symbol : String} (ends : closes.rows.getLast? = some last)
    (priced : 0 < (closes.column symbol).length) : (last.price symbol).isSome := by
  obtain ⟨price, mem⟩ := exists_mem_of_length_pos priced
  obtain ⟨row, member, found⟩ := mem_filterMap.mp mem
  have some_price : (row.price symbol).isSome := by
    obtain ⟨value, same, -⟩ := Option.map_eq_some_iff.mp found
    rw [same]
    rfl
  obtain ⟨front, rows⟩ := getLast?_eq_some_iff.mp ends
  rw [rows] at member
  rcases mem_append.mp member with earlier | latest
  · -- Prices are filled forward.
    have filled := closes.filled symbol
    rw [rows, pairwise_append] at filled
    exact filled.2.2 row earlier last (mem_singleton_self _) some_price
  · cases mem_singleton.mp latest
    exact some_price

theorem entryStep_cases (asOf : Date) (scores : List (String × ℚ)) (allocation : ℚ)
    (ends : closes.rows.getLast? = some last) (sofar : Entries) (symbol : String) :
    ∃ next, entryStep closes asOf last scores allocation sofar symbol = .ok next ∧
      (next.portfolio = sofar.portfolio ∨ Bought symbol sofar.portfolio next.portfolio) := by
  unfold entryStep
  dsimp only
  split
  · exact ⟨_, rfl, .inl rfl⟩
  · rename_i new
    split
    · exact ⟨_, rfl, .inl rfl⟩
    · rename_i above
      have priced : 0 < (closes.column symbol).length := by
        simp only [aboveDma, Bool.and_eq_true, decide_eq_true_eq, not_not] at above
        exact above.1
      obtain ⟨price, found⟩ := Option.isSome_iff_exists.mp (price_last ends priced)
      simp only [found]
      split
      · exact ⟨_, rfl, .inl rfl⟩
      · rename_i buys
        have units : ((min ⌊allocation / price.val⌋ ⌊sofar.portfolio.cash / price.val⌋ : ℤ) : ℚ) ≤
            sofar.portfolio.cash / price.val :=
          (Int.cast_le.mpr (min_le_right _ _)).trans (Int.floor_le _)
        have paid := (le_div_iff₀ price.property).mp units
        have whole := Int.toNat_of_nonneg (Int.le_of_lt (Int.not_le.mp buys))
        generalize min ⌊allocation / price.val⌋ ⌊sofar.portfolio.cash / price.val⌋ = qty at *
        have value : ((qty.toNat : ℕ) : ℚ) * price.val = qty * price.val := by
          rw [← Int.cast_natCast, whole]
        simp only [Portfolio.buy, if_neg (show ¬ (qty ≤ 0 ∨ sofar.portfolio.cash + 1 / 1000000 <
          qty * price.val) by rintro (none | dear); exacts [buys none, by linarith])]
        refine ⟨_, rfl, .inr ⟨_, Option.not_isSome_iff_eq_none.mp new, rfl, ?_, ?_, ?_,
          price.property, rfl⟩⟩
        · rw [Holding.value, value]
        · rwa [Holding.value, value]
        · show 0 < qty.toNat
          omega

theorem entries_spec (asOf : Date) (scores : List (String × ℚ)) (allocation : ℚ)
    (ends : closes.rows.getLast? = some last) (symbols : List String) (sofar : Entries) :
    ∃ next, symbols.foldlM (entryStep closes asOf last scores allocation) sofar = .ok next ∧
      (Ledger value sofar.portfolio → Ledger value next.portfolio) ∧
      next.portfolio.lastAccrual = sofar.portfolio.lastAccrual ∧
      ∀ e ∈ next.portfolio.holdings.entries,
        e ∈ sofar.portfolio.holdings.entries ∨ e.1 ∈ symbols := by
  induction symbols generalizing sofar with
  | nil => exact ⟨sofar, rfl, id, rfl, fun e held => .inl held⟩
  | cons symbol symbols ih =>
    obtain ⟨middle, first, did⟩ := entryStep_cases asOf scores allocation ends sofar symbol
    obtain ⟨next, rest, keeps, accrual, origin⟩ := ih middle
    refine ⟨next, ?_, ?_⟩
    · rw [foldlM_cons, first]
      exact rest
    · rcases did with same | bought
      · rw [same] at keeps accrual origin
        exact ⟨keeps, accrual, fun e held => (origin e held).imp_right (mem_cons_of_mem _)⟩
      · refine ⟨fun ledger => keeps (ledger.bought bought), ?_, fun e held => ?_⟩
        · obtain ⟨h, -, -, -, -, -, -, same⟩ := bought
          exact accrual.trans same
        · obtain ⟨h, new, holdings, -⟩ := bought
          rcases origin e held with old | later
          · rw [holdings, Dict.entries_set_new _ new, mem_append] at old
            rcases old with old | own
            · exact .inl old
            · rw [mem_singleton.mp own]
              exact .inr mem_cons_self
          · exact .inr (mem_cons_of_mem _ later)

def markedValue (p : Portfolio) (row : Row) : ℚ :=
  (p.holdings.entries.map fun (symbol, h) =>
    h.qty * ((row.price symbol).map Subtype.val).getD h.lastPrice).sum

theorem ledger_marked (p : Portfolio) (row : Row) (asOf : Date) (cash : 0 ≤ p.cash)
    (positive : ∀ e ∈ p.holdings.entries, 0 < e.2.qty ∧ 0 < e.2.lastPrice) :
    Ledger (p.cash + markedValue p row + (p.accrueInterest asOf liquidRate).1)
      { (p.accrueInterest asOf liquidRate).2 with
        holdings := (p.accrueInterest asOf liquidRate).2.holdings.mapWithKey (markToMarket row) } := by
  have rate : 0 ≤ liquidRate := by norm_num [liquidRate]
  obtain ⟨nonneg, added, holdings⟩ := accrueInterest_cash p asOf cash rate
  refine ⟨?_, ?_, ?_⟩
  · simp only [Portfolio.totalValue, Portfolio.holdingsValue, Dict.mapWithKey, added, holdings,
      map_map]
    exact add_right_comm _ _ _
  · show 0 ≤ (p.accrueInterest asOf liquidRate).2.cash
    rw [added]
    exact add_nonneg cash nonneg
  · rw [holdings]
    intro e mem
    obtain ⟨old, member, rfl⟩ := mem_map.mp mem
    obtain ⟨qty, price⟩ := positive old member
    refine ⟨qty, ?_⟩
    simp only [markToMarket]
    cases found : row.price old.1 with
    | none => exact price
    | some price => exact price.property

theorem rebalance_spec (p : Portfolio) (ends : (closes.upTo last.date).rows.getLast? = some last) :
    ∃ q result, rebalance p closes last.date = .ok (q, result) ∧
      q.lastRebalance = some last.date ∧ q.lastAccrual = some last.date ∧
      result.valueAfter = q.totalValue ∧ result.top.length ≤ nHold ∧
      (∀ e ∈ q.holdings.entries, e.1 ∈ result.top) ∧
      (0 ≤ p.cash → (∀ e ∈ p.holdings.entries, 0 < e.2.qty ∧ 0 < e.2.lastPrice) →
        Ledger (p.cash + markedValue p last + result.interest) q) := by
  unfold rebalance
  simp only [ends, ne_eq, not_true_eq_false, if_false]
  generalize scoresEq : momentumScores (closes.upTo last.date) = scores
  have short : (topOf scores).length ≤ nHold := by
    rw [topOf, length_map]
    exact length_take_le _ _
  generalize topOf scores = top at short ⊢
  generalize accruedEq : p.accrueInterest last.date liquidRate = accrued
  have accrual := accrueInterest_lastAccrual p last.date liquidRate
  have marked := ledger_marked p last last.date
  rw [accruedEq] at accrual marked
  generalize keysEq : (accrued.2.holdings.mapWithKey (markToMarket last)).entries.map Prod.fst = keys
  generalize markedEq : { accrued.2 with
    holdings := accrued.2.holdings.mapWithKey (markToMarket last) } = q at marked ⊢
  have same : q.lastAccrual = some last.date := by rw [← markedEq]; exact accrual
  have all : keys = q.holdings.entries.map Prod.fst := by rw [← keysEq, ← markedEq]
  obtain ⟨sells, sold, remain⟩ := @exits_spec (p.cash + markedValue p last + accrued.1) last.date top
    keys (q, [])
  generalize keys.foldl (exitStep last.date top) (q, []) = exits at sells sold remain ⊢
  obtain ⟨entries, entered, buys, bought, origin⟩ :=
    @entries_spec (p.cash + markedValue p last + accrued.1) _ _ last.date scores
      (exits.1.totalValue / nHold) ends top ⟨exits.1, exits.2, []⟩
  rw [entered]
  refine ⟨_, _, rfl, rfl, (bought.trans sold).trans same, rfl, short, ?_, ?_⟩
  · intro e mem
    rcases origin e mem with old | new
    · obtain ⟨held, inTop⟩ := remain e old
      exact inTop (all ▸ mem_map_of_mem held)
    · exact new
  · intro cash positive
    obtain ⟨total, paid, kept⟩ := buys (sells (marked cash positive))
    exact ⟨total, paid, kept⟩

theorem upTo_getLast? {front back : List Row} (rows : closes.rows = front ++ last :: back)
    (later : ∀ row ∈ back, last.date.toordinal < row.date.toordinal) :
    (closes.upTo last.date).rows.getLast? = some last := by
  show (closes.rows.filter _).getLast? = _
  have none : back.filter (fun row => decide (row.date.toordinal ≤ last.date.toordinal)) = [] :=
    filter_eq_nil_iff.mpr (by simpa using later)
  rw [rows, filter_append, filter_cons_of_pos (by simp), none]
  exact getLast?_concat

theorem rebalance_ok (p : Portfolio) (ends : closes.rows.getLast? = some last) :
    ∃ q result, rebalance p closes last.date = .ok (q, result) ∧
      q.lastRebalance = some last.date ∧ q.lastAccrual = some last.date := by
  obtain ⟨front, rows⟩ := getLast?_eq_some_iff.mp ends
  obtain ⟨q, result, done, rebalanced, accrued, -⟩ :=
    rebalance_spec p (upTo_getLast? rows fun _ none => absurd none not_mem_nil)
  exact ⟨q, result, done, rebalanced, accrued⟩

theorem rebalance_conserves_value
    (sorted : closes.rows.Pairwise fun a b => a.date.toordinal < b.date.toordinal)
    (listed : last ∈ closes.rows) (cash : 0 ≤ p.cash)
    (positive : ∀ e ∈ p.holdings.entries, 0 < e.2.qty ∧ 0 < e.2.lastPrice) :
    ∃ q result, rebalance p closes last.date = .ok (q, result) ∧
      result.valueAfter = p.cash + markedValue p last + result.interest ∧
      q.totalValue = result.valueAfter ∧ 0 ≤ q.cash ∧
      (∀ e ∈ q.holdings.entries, e.1 ∈ result.top ∧ 0 < e.2.qty) ∧
      q.holdings.entries.length ≤ nHold := by
  obtain ⟨front, back, rows⟩ := append_of_mem listed
  rw [rows, pairwise_append, pairwise_cons] at sorted
  obtain ⟨q, result, done, -, -, after, short, inTop, ledger⟩ :=
    rebalance_spec p (upTo_getLast? rows sorted.2.1.1)
  obtain ⟨total, paid, kept⟩ := ledger cash positive
  refine ⟨q, result, done, after.trans total, after.symm, paid,
    fun e mem => ⟨inTop e mem, (kept e mem).1⟩, ?_⟩
  have few := (subperm_of_subset q.holdings.nodup fun k mem => by
    obtain ⟨e, member, rfl⟩ := mem_map.mp mem
    exact inTop e member).length_le
  rw [length_map] at few
  exact few.trans short

def dayOf (i : Nat) : Date where
  year := 2024
  month := 1 + i / 28 % 12
  day := 1 + i % 28
  valid := by
    have long : 28 ≤ daysInMonth (isLeap 2024) (1 + i / 28 % 12) := by
      unfold daysInMonth
      split <;> decide
    omega

/-- NIFTYBEES rises by a rupee a day; GOLDBEES is listed on day 100. -/
def risingRow (i : Nat) : Row where
  date := dayOf i
  price symbol :=
    if symbol = "NIFTYBEES" then some ⟨100 + i, by positivity⟩
    else if 100 ≤ i then some ⟨120, by norm_num⟩ else none

def risingYear : Closes where
  columns := ["NIFTYBEES", "GOLDBEES"]
  rows := (range 262).map risingRow
  filled symbol := by
    refine pairwise_map.mpr (pairwise_lt_range.imp ?_)
    intro i j before
    unfold risingRow
    grind

def goldOnly : Portfolio where
  initialCapital := 10000
  cash := 50
  holdings := .ofList [("GOLDBEES",
    ⟨"GOLDBEES", "Gold_Silver", 100, ⟨100, by norm_num⟩, dayOf 0, 100, 100, 100, 0⟩)]

theorem rotation_conserves_value :
    ∃ q result, rebalance goldOnly risingYear (dayOf 261) = .ok (q, result) ∧
      result.valueAfter = 12050 + result.interest ∧
      q.holdings.entries.map (fun e => (e.1, e.2.qty)) = [("NIFTYBEES", 5)] := by
  obtain ⟨q, result, done, after, -⟩ := @rebalance_conserves_value goldOnly risingYear (risingRow 261)
    (by decide +kernel) (mem_map_of_mem (by decide)) (by decide +kernel) (by decide +kernel)
  have marked : goldOnly.cash + markedValue goldOnly (risingRow 261) = 12050 := by decide +kernel
  have bought : (rebalance goldOnly risingYear (dayOf 261)).toOption.map
      (fun out => out.1.holdings.entries.map fun e => (e.1, e.2.qty)) = some [("NIFTYBEES", 5)] := by
    decide +kernel
  rw [show dayOf 261 = (risingRow 261).date from rfl, done] at bought
  exact ⟨q, result, done, marked ▸ after, Option.some.inj bought⟩

end AlgoSystem.Proof.EtfMomentum
