import AlgoSystem.MarketData.Symbols

namespace AlgoSystem.Proof.MarketData.Symbols
open AlgoSystem.MarketData General List

variable {up : ℕ → Bool} {n places : ℕ} {c : Char}

def SixDigits (n : ℕ) : Prop := 10 ^ (Nat.log 10 n - 5) ∣ n

instance (n : ℕ) : Decidable (SixDigits n) := inferInstanceAs (Decidable (_ ∣ _))

theorem significant_eq_iff (up : ℕ → Bool) : significant up n = n ↔ SixDigits n := by
  constructor
  · intro same
    exact Dvd.intro_left _ same
  · intro whole
    have unit : 10 ^ (Nat.log 10 n - 5) ≠ 0 := by positivity
    simp [significant, Nat.mod_eq_zero_of_dvd whole, unit.symm, Nat.div_mul_cancel whole]

theorem readPointed_pointed (n places : ℕ) :
    readPointed (pointed n places) = some ((n : ℚ) / 10 ^ places) := by
  have plain : '.' ∉ decimal (n / 10 ^ places) := not_mem_digits (by decide)
  by_cases zero : places = 0
  · subst zero
    rw [pointed, if_pos rfl, append_nil, readPointed, splitOn_of_not_mem plain]
    simp [readDigits_decimal]
  · have parts : ((10 ^ places * (n / 10 ^ places) + n % 10 ^ places : ℕ) : ℚ) = n :=
      congrArg _ (Nat.div_add_mod n (10 ^ places))
    rw [pointed, if_neg zero, readPointed, splitOn_append_cons plain (not_mem_digits (by decide))]
    simp only [readDigits_decimal, readDigits_digits (Nat.pos_of_ne_zero zero), length_digits,
      Option.bind_eq_bind, Option.bind_some, Option.some_inj]
    rw [eq_div_iff (by positivity), add_mul, div_mul_cancel₀ _ (by positivity), mul_comm, ← parts]
    push_cast
    rfl

theorem mem_pointed (member : c ∈ pointed n places) : c.isDigit = true ∨ c = '.' := by
  rw [pointed] at member
  rcases mem_append.mp member with whole | rest
  · exact .inl (isDigit_of_mem_digits whole)
  · split at rest
    · cases rest
    · rcases mem_cons.mp rest with point | fraction
      · exact .inr point
      · exact .inl (isDigit_of_mem_digits fraction)

theorem not_mem_pointed (other : c.isDigit = false) (point : c ≠ '.') : c ∉ pointed n places := by
  intro member
  rcases mem_pointed member with digit | same
  · rw [digit] at other
    cases other
  · exact point same

theorem readFloat_pointed (n places : ℕ) :
    readFloat (pointed n places) = some ((n : ℚ) / 10 ^ places) := by
  rw [readFloat, splitOn_of_not_mem (not_mem_pointed (by decide) (by decide))]
  exact readPointed_pointed n places

theorem readFloat_exponent {width e : ℕ} (pos : 0 < width) (small : e < 10 ^ width) :
    readFloat (pointed n places ++ 'e' :: '+' :: digits width e) =
      some ((n : ℚ) / 10 ^ places * 10 ^ e) := by
  have sign : 'e' ∉ '+' :: digits width e := by
    simpa using not_mem_digits (c := 'e') (by decide)
  rw [readFloat, splitOn_append_cons (not_mem_pointed (by decide) (by decide)) sign]
  simp only [readPointed_pointed, readDigits_digits pos, Nat.mod_eq_of_lt small,
    Option.bind_eq_bind, Option.bind_some]

theorem dropZeros_spec (fuel : ℕ) (pos : 0 < n) :
    ∃ t, n = dropZeros fuel n * 10 ^ t ∧ Nat.log 10 n = Nat.log 10 (dropZeros fuel n) + t := by
  induction fuel generalizing n with
  | zero => exact ⟨0, by simp [dropZeros]⟩
  | succ fuel ih =>
    by_cases ends : n % 10 = 0
    · obtain ⟨t, value, log⟩ := ih (n := n / 10) (by omega)
      have split : n = n / 10 * 10 := by omega
      have width : Nat.log 10 n = Nat.log 10 (n / 10) + 1 := by
        conv_lhs => rw [split]
        exact Nat.log_mul_base (by decide) (by omega)
      rw [dropZeros, if_pos ends]
      refine ⟨t + 1, ?_, by omega⟩
      rw [pow_succ, ← Nat.mul_assoc, ← value]
      exact split
    · rw [dropZeros, if_neg ends]
      exact ⟨0, by simp⟩

theorem readFloat_fixedPoint (n : ℕ) : readFloat (fixedPoint n) = some ((n : ℚ) / 100) := by
  have scale {a b : ℕ} (eq : n = a * b) : (n : ℚ) = a * b := by exact_mod_cast eq
  rw [fixedPoint]
  split_ifs with hundreds tens
  · rw [readFloat_pointed, scale (b := 100) (by omega : n = n / 100 * 100)]
    simp
  · rw [readFloat_pointed, scale (b := 10) (by omega : n = n / 10 * 10)]
    congr 1
    push_cast
    ring
  · rw [readFloat_pointed]
    norm_num

theorem readFloat_scientific (large : 10 ^ 8 ≤ n) :
    readFloat (scientific n) = some ((n : ℚ) / 100) := by
  obtain ⟨t, value, log⟩ := dropZeros_spec (Nat.log 10 n) (n := n) (by omega)
  have wide : 8 ≤ Nat.log 10 n := Nat.le_log_of_pow_le (by decide) large
  have small : Nat.log 10 n - 2 <
      10 ^ max 2 (Nat.log 10 (Nat.log 10 n - 2) + 1) :=
    (Nat.lt_pow_succ_log_self (by decide) _).trans_le
      (Nat.pow_le_pow_right (by decide) (le_max_right _ _))
  rw [scientific, readFloat_exponent (by omega) small]
  generalize dropZeros (Nat.log 10 n) n = m at *
  have scaled : (n : ℚ) = m * 10 ^ t := by exact_mod_cast value
  have power : (10 : ℚ) ^ (Nat.log 10 n - 2) * 100 = 10 ^ Nat.log 10 m * 10 ^ t := by
    rw [← pow_add, ← log, ← Nat.sub_add_cancel (show 2 ≤ Nat.log 10 n by omega), pow_add]
    norm_num
  congr 1
  rw [eq_div_iff (by norm_num), mul_assoc, power, scaled, ← mul_assoc,
    div_mul_cancel₀ _ (by positivity)]

theorem readFloat_fmtStrike (n : ℕ) :
    readFloat (fmtStrike up n) = some ((significant up n : ℚ) / 100) := by
  rw [fmtStrike]
  by_cases small : significant up n < 10 ^ 8
  · rw [if_pos small]
    exact readFloat_fixedPoint _
  · rw [if_neg small]
    exact readFloat_scientific (Nat.le_of_not_lt small)

theorem isoformat_splitOn (date : Date) :
    (isoformat date).splitOn '-' =
      [digits 4 date.year, digits 2 date.month, digits 2 date.day] := by
  have dash {width n : ℕ} : '-' ∉ digits width n := not_mem_digits (by decide)
  have split : List.splitOn '-' (['-'].intercalate
      [digits 4 date.year, digits 2 date.month, digits 2 date.day]) = _ :=
    splitOn_intercalate '-' (by simp [dash]) (by simp)
  simpa [List.intercalate, isoformat] using split

theorem fromisoformat_isoformat {date : Date} (year : date.year < 10000) :
    fromisoformat (isoformat date) = some date := by
  have valid := date.valid
  have short : date.day ≤ 31 := valid.2.2.2.2.trans (daysInMonth_le _ _)
  rw [fromisoformat, isoformat_splitOn]
  simp only [readDigits_digits_of_lt (show 0 < 4 by decide) year,
    readDigits_digits_of_lt (show 0 < 2 by decide) (show date.month < 10 ^ 2 by omega),
    readDigits_digits_of_lt (show 0 < 2 by decide) (show date.day < 10 ^ 2 by omega),
    length_digits, Option.bind_eq_bind, Option.bind_some, dif_pos valid, if_true]

theorem bar_not_mem_normal {letters : Letters} {name : List Char} (bar : '|' ∉ name) :
    '|' ∉ letters.normal name := by
  intro member
  obtain ⟨c, mem, upper⟩ := mem_flatMap.mp member
  rw [letters.upper_bar c upper] at mem
  have kept := (List.rdropWhile_prefix _ _).subset mem
  exact bar ((dropWhile_suffix _).subset kept)

theorem bar_not_mem_isoformat (date : Date) : '|' ∉ isoformat date := by
  simp [isoformat, not_mem_digits (show '|'.isDigit = false by decide)]

theorem bar_not_mem_fmtStrike (n : ℕ) : '|' ∉ fmtStrike up n := by
  have plain {m places : ℕ} : '|' ∉ pointed m places := not_mem_pointed (by decide) (by decide)
  rw [fmtStrike]
  split_ifs
  · rw [fixedPoint]
    split_ifs <;> exact plain
  · simp [scientific, plain, not_mem_digits (show '|'.isDigit = false by decide)]

variable {letters : Letters} {underlying : List Char} {expiry : Date}

theorem parse_optionSymbol (bar : '|' ∉ underlying) (year : expiry.year < 10000) (n : ℕ)
    (optionType : OptionType) :
    parseOptionSymbol (optionSymbol letters up underlying expiry n optionType) =
      .ok (letters.normal underlying, expiry, (significant up n : ℚ) / 100, optionType) := by
  have value : '|' ∉ optionType.value.toList := by cases optionType <;> decide
  rw [parseOptionSymbol, optionSymbol, splitOn_intercalate '|'
    (by simp [bar_not_mem_normal bar, bar_not_mem_isoformat, bar_not_mem_fmtStrike, value])
    (by simp)]
  simp only [fromisoformat_isoformat year, readFloat_fmtStrike]
  cases optionType with
  | ce => exact if_pos rfl
  | pe => exact (if_neg (by decide)).trans (if_pos rfl)

/-- A symbol returns its contract exactly when the strike has at most six significant digits, and
contracts with such strikes have symbols of their own. -/
theorem symbol_round_trip (bar : '|' ∉ underlying) (year : expiry.year < 10000) (n : ℕ)
    (optionType : OptionType) :
    (parseOptionSymbol (optionSymbol letters up underlying expiry n optionType) =
        .ok (letters.normal underlying, expiry, (n : ℚ) / 100, optionType) ↔ SixDigits n) ∧
      ∀ other otherExpiry m otherType, '|' ∉ other → otherExpiry.year < 10000 →
        SixDigits n → SixDigits m →
        optionSymbol letters up other otherExpiry m otherType =
          optionSymbol letters up underlying expiry n optionType →
        letters.normal other = letters.normal underlying ∧ otherExpiry = expiry ∧ m = n ∧
          otherType = optionType := by
  have cancel {a b : ℕ} : (a : ℚ) / 100 = (b : ℚ) / 100 ↔ a = b := by
    rw [div_left_inj' (by norm_num), Nat.cast_inj]
  constructor
  · rw [parse_optionSymbol bar year, ← significant_eq_iff up]
    simp [cancel]
  · intro other otherExpiry m otherType otherBar otherYear six otherSix same
    have read := congrArg parseOptionSymbol same
    rw [parse_optionSymbol bar year, parse_optionSymbol otherBar otherYear,
      (significant_eq_iff up).mpr six,
      (significant_eq_iff up).mpr otherSix] at read
    simpa [cancel] using read

def upperAscii (c : Char) : Char :=
  if c ∈ "abcdefghijklmnopqrstuvwxyz".toList then c.toUpper else c

theorem upperAscii_bar (c : Char) (upper : '|' ∈ [upperAscii c]) : c = '|' := by
  have bar := mem_singleton.mp upper
  rw [upperAscii] at bar
  split at bar
  · rename_i lower
    have plain : ∀ c ∈ "abcdefghijklmnopqrstuvwxyz".toList, '|' ≠ c.toUpper := by simp
    exact absurd bar (plain c lower)
  · exact bar.symm

def ascii : Letters := ⟨Char.isWhitespace, fun c => [upperAscii c], upperAscii_bar⟩

def expiryDay : Date := ⟨2026, 1, 29, by decide⟩

def tiesUp : ℕ → Bool := fun _ => true

theorem half_strike_round_trip :
    parseOptionSymbol (optionSymbol ascii tiesUp "nifty ".toList expiryDay 2511250 .ce) =
      .ok ("NIFTY".toList, expiryDay, (2511250 : ℕ) / 100, .ce) :=
  (@symbol_round_trip tiesUp ascii "nifty ".toList expiryDay (by decide) (by decide) 2511250
    .ce).1.mpr (by decide)

theorem strikes_share_symbol :
    optionSymbol ascii tiesUp "NIFTY".toList expiryDay 2511251 .ce =
        optionSymbol ascii tiesUp "NIFTY".toList expiryDay 2511250 .ce ∧
      parseOptionSymbol (optionSymbol ascii tiesUp "NIFTY".toList expiryDay 2511251 .ce) =
        .ok ("NIFTY".toList, expiryDay, 251125 / 10, .ce) := by
  decide +kernel

end AlgoSystem.Proof.MarketData.Symbols
