import AlgoSystem.SupertrendPivot.Strategy
import Mathlib.Tactic.Linarith

namespace AlgoSystem.Proof.SupertrendPivot.Supertrend
open AlgoSystem.SupertrendPivot List

def isRed (prev : BandRow) : Bool := prev.direction = .red

/-- The recursion that carries the direction from bar to bar. -/
def reference (period : Nat) (multiplier : ℚ) : List Candle → List BandRow :=
  rows period multiplier isRed

def column (row : BandRow) : Trend × ℚ := (row.direction, row.supertrend)

/-- A green line on two equal bands is taken for a red one: the next direction must not depend on
it. -/
def Unambiguous (prev row : BandRow) : Prop :=
  prev.direction = .green → prev.finalLower = prev.finalUpper →
    (row.candle.close ≤ row.finalUpper ↔ row.candle.close < row.finalLower)

def OnBand (row : BandRow) : Prop :=
  row.supertrend = match row.direction with
    | .red => row.finalUpper
    | .green => row.finalLower

variable {period : Nat} {multiplier : ℚ} {row prev : BandRow} {c : Candle} {cs : List Candle}
  {next : BandRow → Candle → BandRow}

theorem followBand_onBand (c : Candle) (atr upper lower : ℚ) (onUpper : Bool) :
    OnBand (followBand c atr upper lower onUpper) := by
  unfold followBand
  split_ifs <;> rfl

/-- Whether the line was on the upper band matters exactly if the close does not decide. -/
theorem column_followBand_iff (c : Candle) (atr upper lower : ℚ) (a b : Bool) :
    column (followBand c atr upper lower a) = column (followBand c atr upper lower b) ↔
      (a ≠ b → (c.close ≤ upper ↔ c.close < lower)) := by
  rw [← not_le]
  cases a <;> cases b <;> by_cases red : c.close ≤ upper <;>
    by_cases green : lower ≤ c.close <;> simp [followBand, column, red, green]

theorem followBand_eq_of_column {atr upper lower : ℚ} {a b : Bool}
    (same : column (followBand c atr upper lower a) = column (followBand c atr upper lower b)) :
    followBand c atr upper lower a = followBand c atr upper lower b := by
  unfold followBand at *
  split_ifs at * <;> simp_all [column]

theorem nextRow_eq_of_column {red red' : BandRow → Bool}
    (same : column (nextRow period multiplier red prev c) =
      column (nextRow period multiplier red' prev c)) :
    nextRow period multiplier red prev c = nextRow period multiplier red' prev c :=
  followBand_eq_of_column same

theorem misread_iff (onBand : OnBand prev) :
    onUpper prev ≠ isRed prev ↔
      prev.direction = .green ∧ prev.finalLower = prev.finalUpper := by
  unfold OnBand at onBand
  cases trend : prev.direction <;> simp_all [onUpper, isRed]

theorem followBand_bands (c : Candle) (atr upper lower : ℚ) (a : Bool) :
    (followBand c atr upper lower a).candle = c ∧
      (followBand c atr upper lower a).finalUpper = upper ∧
      (followBand c atr upper lower a).finalLower = lower := by
  unfold followBand
  split_ifs <;> exact ⟨rfl, rfl, rfl⟩

theorem map_candle_rowsFrom {red : BandRow → Bool} :
    (rowsFrom (nextRow period multiplier red) row cs).map BandRow.candle = row.candle :: cs := by
  induction cs generalizing row with
  | nil => rfl
  | cons c cs ih => rw [rowsFrom, map_cons, ih, nextRow, (followBand_bands _ _ _ _ _).1]

theorem map_candle_supertrend (df : List Candle) :
    (supertrend period multiplier df).map BandRow.candle = df := by
  cases df with
  | nil => rfl
  | cons c cs => exact map_candle_rowsFrom

theorem getLast?_candle {df : List Candle}
    (last : (supertrend period multiplier df).getLast? = some row) : df.getLast? = some row.candle := by
  rw [← map_candle_supertrend df, getLast?_map, last, Option.map_some]

theorem exists_lastRow (period : Nat) (multiplier : ℚ) {df : List Candle}
    (last : df.getLast? = some c) :
    ∃ row, (supertrend period multiplier df).getLast? = some row ∧ row.candle = c := by
  rwa [← map_candle_supertrend df, getLast?_map, Option.map_eq_some_iff] at last

theorem nextRow_column_iff (onBand : OnBand prev) :
    column (nextRow period multiplier onUpper prev c) =
        column (nextRow period multiplier isRed prev c) ↔
      Unambiguous prev (nextRow period multiplier isRed prev c) := by
  simp only [nextRow, column_followBand_iff, misread_iff onBand, Unambiguous, followBand_bands,
    and_imp]

theorem isChain_rowsFrom {R : BandRow → BandRow → Prop} :
    (prev :: rowsFrom next row cs).IsChain R ↔ R prev row ∧ (rowsFrom next row cs).IsChain R := by
  cases cs <;> exact isChain_cons_cons

theorem head?_rowsFrom (next : BandRow → Candle → BandRow) (row : BandRow) (cs : List Candle) :
    (rowsFrom next row cs).head? = some row := by
  cases cs <;> rfl

theorem rowsFrom_eq_iff (onBand : OnBand row) :
    (rowsFrom (nextRow period multiplier onUpper) row cs).map column =
        (rowsFrom (nextRow period multiplier isRed) row cs).map column ↔
      (rowsFrom (nextRow period multiplier isRed) row cs).IsChain Unambiguous := by
  induction cs generalizing row with
  | nil => simp [rowsFrom]
  | cons c cs ih =>
    rw [rowsFrom, rowsFrom, isChain_rowsFrom, ← nextRow_column_iff onBand, map_cons, map_cons,
      cons_inj_right]
    have later := @ih (nextRow period multiplier isRed row c) (followBand_onBand _ _ _ _ _)
    constructor
    · intro same
      have first := congrArg head? same
      rw [head?_map, head?_map, head?_rowsFrom, head?_rowsFrom] at first
      have first := Option.some.inj first
      rw [nextRow_eq_of_column first] at same
      exact ⟨first, later.mp same⟩
    · rintro ⟨first, rest⟩
      rw [nextRow_eq_of_column first]
      exact later.mpr rest

theorem rowsFrom_prefix (a b : List Candle) : rowsFrom next row a <+: rowsFrom next row (a ++ b) := by
  induction a generalizing row with
  | nil => cases b <;> simp [rowsFrom]
  | cons c a ih => exact (prefix_cons_inj row).mpr ih

theorem supertrend_refines_iff (period : Nat) (multiplier : ℚ) (df later : List Candle) :
    ((supertrend period multiplier df).map column = (reference period multiplier df).map column ↔
      (reference period multiplier df).IsChain Unambiguous) ∧
    supertrend period multiplier df <+: supertrend period multiplier (df ++ later) := by
  cases df with
  | nil => simp [supertrend, reference, rows]
  | cons c cs => exact ⟨rowsFrom_eq_iff rfl, rowsFrom_prefix cs later⟩

def flat (price : ℚ) : Candle := newCandle 0 price

theorem equal_bands_misread :
    (supertrend 1 1 [flat 100, flat 101, flat 101]).map column =
      [(.red, 100), (.green, 100), (.red, 101)] ∧
    (reference 1 1 [flat 100, flat 101, flat 101]).map column =
      [(.red, 100), (.green, 100), (.green, 101)] := by
  decide +kernel

/-- The close is on the side of the line that the direction says. -/
def OnSide (row : BandRow) : Prop :=
  match row.direction with
  | .green => row.supertrend ≤ row.candle.close
  | .red => row.candle.close ≤ row.supertrend

/-- A final band stays in force while the close before is not beyond it. The candle closes above an
upper band, its own or the one in force, and below a lower one. -/
def Crossed (period : Nat) (multiplier : ℚ) (prev : BandRow) (c : Candle) : Prop :=
  (upperBand multiplier c (nextAtr period prev c) < c.close ∨
    prev.candle.close ≤ prev.finalUpper ∧ prev.finalUpper < c.close) ∧
  (c.close < lowerBand multiplier c (nextAtr period prev c) ∨
    prev.finalLower ≤ prev.candle.close ∧ c.close < prev.finalLower)
deriving Decidable

theorem followBand_onSide_iff (c : Candle) (atr upper lower : ℚ) (a : Bool) :
    OnSide (followBand c atr upper lower a) ↔ ¬ (upper < c.close ∧ c.close < lower) := by
  rw [not_and_or, not_lt, not_lt]
  unfold followBand
  split_ifs <;> simp_all [OnSide]

theorem nextRow_onSide_iff (red : BandRow → Bool) :
    OnSide (nextRow period multiplier red prev c) ↔ ¬ Crossed period multiplier prev c := by
  rw [nextRow, followBand_onSide_iff, Crossed]
  refine not_congr (and_congr ?_ ?_)
  · split_ifs with ratchet <;> simp [ratchet]
  · split_ifs with ratchet <;> simp [ratchet]

theorem rowsFrom_onSide_iff {red : BandRow → Bool} (first : OnSide row) :
    (∀ r ∈ rowsFrom (nextRow period multiplier red) row cs, OnSide r) ↔
      ∀ pair ∈ (rowsFrom (nextRow period multiplier red) row cs).zip cs,
        ¬ Crossed period multiplier pair.1 pair.2 := by
  induction cs generalizing row with
  | nil => simpa [rowsFrom] using first
  | cons c cs ih =>
    rw [rowsFrom, zip_cons_cons, forall_mem_cons, forall_mem_cons, ← nextRow_onSide_iff red,
      and_iff_right first]
    constructor
    · intro rest
      have next := rest _ (mem_of_head? (head?_rowsFrom _ _ _))
      exact ⟨next, (ih next).mp rest⟩
    · rintro ⟨next, apart⟩
      exact (ih next).mpr apart

theorem onSide_iff (df : List Candle) (formed : ∀ c ∈ df, c.low ≤ c.close ∧ c.close ≤ c.high) :
    (∀ row ∈ supertrend supertrendPeriod supertrendMultiplier df, OnSide row) ↔
      ∀ pair ∈ (supertrend supertrendPeriod supertrendMultiplier df).zip df.tail,
        ¬ Crossed supertrendPeriod supertrendMultiplier pair.1 pair.2 := by
  cases df with
  | nil => simp [supertrend, rows]
  | cons c cs =>
    obtain ⟨low, high⟩ := formed c mem_cons_self
    have below : OnSide (firstRow supertrendMultiplier c) := by
      simp only [OnSide, firstRow, upperBand, supertrendMultiplier]
      linarith
    exact rowsFrom_onSide_iff below

theorem rising_onSide :
    let df := [flat 100, flat 101, flat 102]
    (supertrend supertrendPeriod supertrendMultiplier df).length = 3 ∧
      ∀ row ∈ supertrend supertrendPeriod supertrendMultiplier df, OnSide row :=
  ⟨rfl, (onSide_iff [flat 100, flat 101, flat 102] (by decide +kernel)).mpr (by decide +kernel)⟩

theorem gap_crosses_bands :
    (∀ c ∈ [flat 99.5, ⟨1, 99, 100, 0, 99, 0⟩], c.low ≤ c.close ∧ c.close ≤ c.high) ∧
    (supertrend supertrendPeriod supertrendMultiplier
      [flat 99.5, ⟨1, 99, 100, 0, 99, 0⟩]).map column = [(.red, 99.5), (.green, 99.5)] := by
  decide +kernel

end AlgoSystem.Proof.SupertrendPivot.Supertrend
