import AlgoSystem.Brokers.PaperBroker
import AlgoSystem.General.Runs
import Mathlib.Tactic.Linarith

namespace AlgoSystem.Proof.Brokers
open General AlgoSystem.Brokers PaperBroker

/-- The signed quantity of one symbol that is open and the mean price it was bought or sold at. -/
structure Holding where
  quantity : ℤ := 0
  basis : ℚ := 0

/-- A fill adds to the open quantity, reduces or closes it, or opens or flips it. -/
def Holding.fill (holding : Holding) (signed : ℤ) (price : ℚ) : Holding :=
  let quantity := holding.quantity + signed
  { quantity
    basis :=
      if 0 < holding.quantity * signed then
        (holding.quantity * holding.basis + signed * price) / quantity
      else if 0 ≤ holding.quantity * quantity ∧ holding.quantity ≠ 0 then holding.basis
      else price }

structure Account where
  broker : PaperBroker
  holding : Holding

section Account
variable (hash : String → Nat) (symbol : String)

/-- An order is performed and, if it fills, the fill is applied to the holding of the symbol. -/
def Account.place (account : Account) (order : Order) : Option Account :=
  let (broker, result) := account.broker.placeOrder hash order
  some ⟨broker, match result.message with
    | .quantityMustBePositive => account.holding
    | .paperFillAt price =>
      if order.symbol = symbol then account.holding.fill order.signedQty price
      else account.holding⟩

def Account.position (account : Account) : Option Position := account.broker.positions.get? symbol

def QuantityIsSum (account : Account) : Prop :=
  ((account.position symbol).map (·.quantity)).getD 0 = account.holding.quantity

def AverageIsBasis (account : Account) : Prop :=
  ∀ position ∈ account.position symbol, position.quantity ≠ 0 →
    position.averagePrice = account.holding.basis

/-- A fill that leaves a position open on its side is made at the cost basis. -/
def AtBasis (account : Account) (order : Order) : Prop :=
  0 < order.quantity → order.symbol = symbol →
    0 < account.holding.quantity * (account.holding.quantity + order.signedQty) →
    (account.broker.fillPrice hash order).2 = account.holding.basis

end Account

variable {hash : String → Nat} {symbol : String} {order : Order} {s t : Account}

@[simp] theorem positions_fillPrice (broker : PaperBroker) (order : Order) :
    (broker.fillPrice hash order).1.positions = broker.positions := by
  unfold fillPrice getQuote
  grind

theorem place_rejected {account : Account} (small : order.quantity ≤ 0) :
    account.place hash symbol order = some account := by
  simp [Account.place, placeOrder, small]

theorem place_other (hash : String → Nat) (account : Account) (other : order.symbol ≠ symbol) :
    ∃ t, account.place hash symbol order = some t ∧ t.holding = account.holding ∧
      t.position symbol = account.position symbol := by
  by_cases small : order.quantity ≤ 0
  · exact ⟨account, place_rejected small, rfl, rfl⟩
  · simp [Account.place, placeOrder, small, other, Account.position, Dict.get?_set, other.symm]

theorem place_filled (hash : String → Nat) (account : Account) (positive : 0 < order.quantity)
    (same : order.symbol = symbol) :
    ∃ t, account.place hash symbol order = some t ∧
      t.holding = account.holding.fill order.signedQty (account.broker.fillPrice hash order).2 ∧
      t.position symbol =
        some (filled (account.position symbol) order (account.broker.fillPrice hash order).2) := by
  simp [Account.place, placeOrder, positive.not_ge, same, Account.position, Dict.get?_set]

theorem averagePrice_filled {existing : Option Position} {price : ℚ}
    (stays : (filled existing order price).quantity ≠ 0) :
    (filled existing order price).averagePrice = price := by
  cases existing with
  | none => rfl
  | some existing => exact if_pos stays

theorem quantity_fill (holding : Holding) (signed : ℤ) (price : ℚ) :
    (holding.fill signed price).quantity = holding.quantity + signed := rfl

/-- The fill price is the basis after the fill exactly if the position is opened, flipped or closed
or the price was the basis before it. -/
theorem price_eq_basis_fill_iff (holding : Holding) (signed : ℤ) (price : ℚ) :
    (holding.quantity + signed ≠ 0 → price = (holding.fill signed price).basis) ↔
      (0 < holding.quantity * (holding.quantity + signed) → price = holding.basis) := by
  obtain ⟨quantity, basis⟩ := holding
  simp only [Holding.fill]
  by_cases adds : 0 < quantity * signed
  · have grows : 0 < quantity * (quantity + signed) := by nlinarith [sq_nonneg quantity]
    have opened : quantity ≠ 0 := left_ne_zero_of_mul grows.ne'
    have stays : quantity + signed ≠ 0 := right_ne_zero_of_mul grows.ne'
    have total : (quantity + signed : ℚ) ≠ 0 := by exact_mod_cast stays
    have weight : (quantity : ℚ) ≠ 0 := by exact_mod_cast opened
    simp only [adds, if_true, grows, stays, ne_eq, not_false_eq_true, true_imp_iff]
    push_cast
    rw [eq_div_iff total, mul_comm, add_mul, add_right_cancel_iff]
    exact mul_right_inj' weight
  · simp only [adds, if_false]
    by_cases opened : quantity = 0
    · simp [opened]
    · by_cases stays : 0 ≤ quantity * (quantity + signed)
      · simp only [stays, opened, ne_eq, not_false_eq_true, and_self, if_true]
        rw [stays.lt_iff_ne', mul_ne_zero_iff]
        simp [opened]
      · have flips : ¬ 0 < quantity * (quantity + signed) := fun more => stays more.le
        simp [stays, flips]

theorem place_quantityIsSum (sum : QuantityIsSum symbol s)
    (placed : s.place hash symbol order = some t) : QuantityIsSum symbol t := by
  unfold QuantityIsSum at *
  by_cases small : order.quantity ≤ 0
  · rw [place_rejected small] at placed
    cases placed
    exact sum
  by_cases same : order.symbol = symbol
  · obtain ⟨u, result, holding, position⟩ := place_filled hash s (not_le.mp small) same
    cases placed.symm.trans result
    rw [holding, position, quantity_fill, ← sum]
    cases s.position symbol <;> simp [filled]
  · obtain ⟨u, result, holding, position⟩ := place_other hash s same
    cases placed.symm.trans result
    rw [holding, position, sum]

theorem place_averageIsBasis_iff (sum : QuantityIsSum symbol s) (average : AverageIsBasis symbol s)
    (placed : s.place hash symbol order = some t) :
    AverageIsBasis symbol t ↔ AtBasis hash symbol s order := by
  by_cases small : order.quantity ≤ 0
  · rw [place_rejected small] at placed
    cases placed
    exact iff_of_true average fun positive => absurd positive small.not_gt
  by_cases same : order.symbol = symbol
  · have positive := not_le.mp small
    obtain ⟨u, result, holding, position⟩ := place_filled hash s positive same
    cases placed.symm.trans result
    have sums := place_quantityIsSum sum placed
    rw [QuantityIsSum, position, holding, quantity_fill, Option.map_some, Option.getD_some] at sums
    have basis := price_eq_basis_fill_iff s.holding order.signedQty
      (s.broker.fillPrice hash order).2
    simp only [AverageIsBasis, AtBasis, position, holding, Option.mem_some, forall_eq', positive,
      same, true_imp_iff]
    rw [← basis, ← sums]
    apply forall_congr'
    intro stays
    rw [averagePrice_filled stays]
  · obtain ⟨u, result, holding, position⟩ := place_other hash s same
    cases placed.symm.trans result
    refine iff_of_true ?_ fun _ same' => absurd same' same
    rw [AverageIsBasis, position, holding]
    exact average

def fills (symbol : String) (orders : List Order) : List ℤ :=
  (orders.filter fun order => order.symbol = symbol ∧ 0 < order.quantity).map (·.signedQty)

theorem place_quantity (hash : String → Nat) (symbol : String) (s : Account) (order : Order) :
    ∃ t, s.place hash symbol order = some t ∧
      t.holding.quantity = s.holding.quantity + (fills symbol [order]).sum := by
  by_cases small : order.quantity ≤ 0
  · exact ⟨s, place_rejected small, by simp [fills, small]⟩
  by_cases same : order.symbol = symbol
  · obtain ⟨t, placed, holding, -⟩ := place_filled hash s (not_le.mp small) same
    exact ⟨t, placed, by simp [fills, same, not_le.mp small, holding, quantity_fill]⟩
  · obtain ⟨t, placed, holding, -⟩ := place_other hash s same
    exact ⟨t, placed, by simp [fills, same, holding]⟩

theorem run_quantity (hash : String → Nat) (symbol : String) (s : Account) (orders : List Order) :
    ∃ t, run (Account.place hash symbol) s orders = some t ∧
      t.holding.quantity = s.holding.quantity + (fills symbol orders).sum := by
  induction orders generalizing s with
  | nil => exact ⟨s, rfl, by simp [fills]⟩
  | cons order orders ih =>
    obtain ⟨u, placed, first⟩ := place_quantity hash symbol s order
    obtain ⟨t, path, rest⟩ := ih u
    refine ⟨t, run_cons_eq_some.mpr ⟨u, placed, path⟩, ?_⟩
    have split : fills symbol (order :: orders) = fills symbol [order] ++ fills symbol orders := by
      simp only [fills, ← List.map_append, ← List.filter_append, List.singleton_append]
    rw [rest, first, split, List.sum_append, add_assoc]

/-- The average price is the cost basis after every order exactly if every fill that keeps a
position open on its side is made at that basis. -/
theorem average_is_basis_iff (hash : String → Nat) (symbol : String) (orders : List Order) :
    ∃ account, run (Account.place hash symbol) ⟨{}, {}⟩ orders = some account ∧
      ((account.position symbol).map (·.quantity)).getD 0 = (fills symbol orders).sum ∧
      (Always (Account.place hash symbol) (AverageIsBasis symbol) ⟨{}, {}⟩ orders ↔
        Meets (Account.place hash symbol) (AtBasis hash symbol) ⟨{}, {}⟩ orders) := by
  obtain ⟨account, path, total⟩ := run_quantity hash symbol ⟨{}, {}⟩ orders
  have fresh : QuantityIsSum symbol ⟨{}, {}⟩ := rfl
  have sum : QuantityIsSum symbol account :=
    run_invariant (fun s order t sum placed => place_quantityIsSum sum placed) path fresh
  refine ⟨account, path, ?_, ?_⟩
  · rw [sum, total]
    exact zero_add _
  · apply always_iff_meets (P := fun s => QuantityIsSum symbol s ∧ AverageIsBasis symbol s)
      (fun s both => both.2) ?_ ?_ path ⟨fresh, by rintro position ⟨⟩⟩
    · rintro s order t ⟨sum, average⟩ atBasis placed
      exact ⟨place_quantityIsSum sum placed, (place_averageIsBasis_iff sum average placed).mpr atBasis⟩
    · rintro s order t ⟨sum, average⟩ off placed
      exact fun average' => off ((place_averageIsBasis_iff sum average placed).mp average')

theorem average_after_reduction :
    ((run (Account.place (fun _ => 0) "NIFTY") ⟨{}, {}⟩
        [⟨"NIFTY", .buy, 10, .limit, some 100, 1⟩, ⟨"NIFTY", .sell, 5, .limit, some 120, 1⟩]).bind
      fun account => (account.position "NIFTY").map fun position =>
        (position.quantity, position.averagePrice, account.holding.basis)) =
      some (5, 120, 100) := by
  decide +kernel

end AlgoSystem.Proof.Brokers
