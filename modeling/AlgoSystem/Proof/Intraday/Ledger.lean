import AlgoSystem.General.Runs
import AlgoSystem.Proof.Intraday.HalfBooking

namespace AlgoSystem.Proof.Intraday.Ledger
open General AlgoSystem.Intraday HalfBooking List

structure EvenLeg extends OpenLeg where
  fresh : bookedHalf = false
  even : 2 ∣ qty

inductive Operation where
  | «open» (leg : EvenLeg)
  | bookHalf (price : ℚ)
  | close (c : Portfolio.Closing)

structure Books where
  portfolio : Portfolio
  results : List ℚ
  charged : List ℚ

def Books.new (initialCapital : ℚ) : Books := ⟨Portfolio.new initialCapital, [], []⟩

def perform (algo : Algo) (books : Books) : Operation → Books
  | .open leg =>
    match books.portfolio.open leg.toOpenLeg with
    | .ok portfolio => { books with portfolio }
    | .error _ => books
  | .bookHalf price => { books with portfolio := books.portfolio.bookHalf price }
  | .close c =>
    match books.portfolio.openLeg, books.portfolio.close algo c with
    | some leg, .ok (portfolio, _) =>
      { portfolio
        results := books.results ++ [pnl leg c.exitPrice c.brokeragePerLeg c.costTurnoverPct]
        charged := books.charged ++ [costs leg c.exitPrice c.brokeragePerLeg c.costTurnoverPct] }
    | _, _ => books

def step (algo : Algo) (books : Books) (op : Operation) : Option Books :=
  some (perform algo books op)

def Free (books : Books) : Operation → Prop
  | .close c => ∀ leg ∈ books.portfolio.openLeg,
      2 * c.brokeragePerLeg + turnover leg c.exitPrice * c.costTurnoverPct = 0
  | _ => True

def Agrees (books : Books) : Prop :=
  books.portfolio.openLeg = none →
    books.portfolio.totalValue = books.portfolio.initialCapital + books.results.sum

def paidFor (portfolio : Portfolio) : ℚ :=
  match portfolio.openLeg with
  | some leg => outlay leg
  | none => 0

structure Balanced (books : Books) : Prop where
  cash : books.portfolio.cash + paidFor books.portfolio =
    books.portfolio.initialCapital + books.results.sum + books.charged.sum
  halves : ∀ leg ∈ books.portfolio.openLeg, leg.bookedHalf = true ∨ 2 ∣ leg.qty

variable {books : Books}

theorem open_balanced {portfolio : Portfolio} (balanced : Balanced books) (leg : EvenLeg)
    (opens : books.portfolio.open leg.toOpenLeg = .ok portfolio) :
    Balanced { books with portfolio } := by
  obtain ⟨idle, rfl⟩ := open_eq_ok opens
  have cash := balanced.cash
  simp only [paidFor, idle, add_zero] at cash
  constructor
  · simp only [paidFor, outlay_fresh leg.fresh, ← cash]
    ring
  · rintro _ ⟨⟩
    exact .inr leg.even

theorem bookHalf_balanced (balanced : Balanced books) (price : ℚ) :
    Balanced { books with portfolio := books.portfolio.bookHalf price } := by
  cases held : books.portfolio.openLeg with
  | none => simpa [Portfolio.bookHalf, held] using balanced
  | some leg =>
    cases half : leg.bookedHalf with
    | true => simpa [bookHalf_booked held half] using balanced
    | false =>
      have even : 2 ∣ leg.qty := (balanced.halves leg held).resolve_left (by simp [half])
      have cash := balanced.cash
      simp only [paidFor, held, outlay_fresh half] at cash
      rw [bookHalf_fresh held half]
      constructor
      · simp only [paidFor, outlay_booked_even even, ← cash]
        ring
      · rintro _ ⟨⟩
        exact .inl rfl

variable {leg : OpenLeg}

section
variable (algo : Algo) (c : Portfolio.Closing) (held : books.portfolio.openLeg = some leg)
include held

theorem perform_close :
    ∃ portfolio : Portfolio, portfolio.openLeg = none ∧
      portfolio.cash = books.portfolio.cash + leg.qty * c.exitPrice ∧
      portfolio.initialCapital = books.portfolio.initialCapital ∧
      perform algo books (.close c) =
        { portfolio
          results := books.results ++ [pnl leg c.exitPrice c.brokeragePerLeg c.costTurnoverPct]
          charged :=
            books.charged ++ [costs leg c.exitPrice c.brokeragePerLeg c.costTurnoverPct] } := by
  simp only [perform, Portfolio.close, held]
  refine ⟨_, ?_, ?_, ?_, rfl⟩ <;> split <;> rfl

theorem close_balanced (balanced : Balanced books) : Balanced (perform algo books (.close c)) := by
  obtain ⟨portfolio, idle, received, capital, after⟩ := perform_close algo c held
  have cash := balanced.cash
  simp only [paidFor, held] at cash
  rw [after]
  constructor
  · simp only [paidFor, idle, received, capital, sum_append, sum_singleton, pnl, gross_eq]
    linarith
  · simp [idle]

end

theorem perform_balanced (algo : Algo) (books : Books) (op : Operation)
    (balanced : Balanced books) : Balanced (perform algo books op) := by
  cases op with
  | «open» leg =>
    simp only [perform]
    split
    next portfolio opens => exact open_balanced balanced leg opens
    · exact balanced
  | bookHalf price => exact bookHalf_balanced balanced price
  | close c =>
    cases held : books.portfolio.openLeg with
    | none => simpa [perform, held] using balanced
    | some leg => exact close_balanced algo c held balanced

theorem new_balanced (initialCapital : ℚ) : Balanced (Books.new initialCapital) := by
  constructor <;> simp [Books.new, Portfolio.new, paidFor]

theorem agrees_iff (balanced : Balanced books) :
    Agrees books ↔ (books.portfolio.openLeg = none → books.charged.sum = 0) := by
  refine forall_congr' fun idle => ?_
  have cash := balanced.cash
  simp only [paidFor, idle, add_zero] at cash
  simp only [Portfolio.totalValue, idle, cash]
  constructor
  · intro equal
    linarith
  · intro free
    rw [free, add_zero]

theorem charged_of_free (algo : Algo) {op : Operation} (free : Free books op) :
    (perform algo books op).charged.sum = books.charged.sum := by
  cases op with
  | «open» leg =>
    simp only [perform]
    split <;> rfl
  | bookHalf price => rfl
  | close c =>
    cases held : books.portfolio.openLeg with
    | none => simp [perform, held]
    | some leg =>
      obtain ⟨portfolio, -, -, -, after⟩ := perform_close algo c held
      have nothing : costs leg c.exitPrice c.brokeragePerLeg c.costTurnoverPct = 0 :=
        free leg held
      simp [after, nothing]

theorem charged_of_not_free (algo : Algo) {op : Operation} (charges : ¬ Free books op) :
    (perform algo books op).portfolio.openLeg = none ∧
      (perform algo books op).charged.sum ≠ books.charged.sum := by
  cases op with
  | «open» leg | bookHalf price => exact absurd trivial charges
  | close c =>
    simp only [Free, Classical.not_forall] at charges
    obtain ⟨leg, held, charges⟩ := charges
    obtain ⟨portfolio, idle, -, -, after⟩ := perform_close algo c held
    rw [after]
    refine ⟨idle, ?_⟩
    intro same
    rw [sum_append, sum_singleton, add_eq_left] at same
    exact charges same

theorem agrees_iff_free (algo : Algo) (initialCapital : ℚ) (ops : List Operation) :
    (∀ before books, before <+: ops →
      run (step algo) (Books.new initialCapital) before = some books → Agrees books) ↔
    Meets (step algo) Free (Books.new initialCapital) ops := by
  have total : ∀ books ops, ∃ after, run (step algo) books ops = some after := by
    intro books ops
    induction ops generalizing books with
    | nil => exact ⟨books, rfl⟩
    | cons op ops ih => exact ih (perform algo books op)
  obtain ⟨after, path⟩ := total (Books.new initialCapital) ops
  refine always_iff_meets (P := fun books => Balanced books ∧ books.charged.sum = 0)
    ?_ ?_ ?_ path ⟨new_balanced initialCapital, rfl⟩
  · rintro books ⟨balanced, nothing⟩
    exact (agrees_iff balanced).mpr fun _ => nothing
  · rintro books op _ ⟨balanced, nothing⟩ free ⟨⟩
    exact ⟨perform_balanced algo books op balanced, (charged_of_free algo free).trans nothing⟩
  · rintro books op _ ⟨balanced, nothing⟩ charges ⟨⟩ agrees
    obtain ⟨idle, charged⟩ := charged_of_not_free algo charges
    rw [nothing] at charged
    exact charged ((agrees_iff (perform_balanced algo books op balanced)).mp agrees idle)

section Cases

def twoLots : List Operation :=
  [.open ⟨callAt100 150, rfl, by decide⟩, .bookHalf 130, .close exitAt120]

theorem two_lots_not_agrees : ∃ books,
    run (step .vwapReclaim) (Books.new 200000) twoLots = some books ∧
    books.portfolio.openLeg = none ∧ books.portfolio.totalValue = 203750 ∧
    books.portfolio.initialCapital + books.results.sum = 203666 + 3 / 8 :=
  ⟨_, rfl, by decide +kernel, by decide +kernel, by decide +kernel⟩

end Cases

end AlgoSystem.Proof.Intraday.Ledger
