import Mathlib.Algebra.Group.Nat.Defs
import Mathlib.Data.Nat.Log

/-!
# Decimal numerals

Numbers written with a fixed count of decimal digits, and separated texts read back.
-/

namespace AlgoSystem.General
open List

variable {width n : ℕ} {c x : Char}

/-- The last `width` decimal digits of a number. -/
def digits : ℕ → ℕ → List Char
  | 0, _ => []
  | width + 1, n => digits width (n / 10) ++ [Nat.digitChar (n % 10)]

def decimal (n : ℕ) : List Char := digits (Nat.log 10 n + 1) n

def digitsValue (text : List Char) : ℕ :=
  text.foldl (fun n c => 10 * n + (c.toNat - '0'.toNat)) 0

def readDigits (text : List Char) : Option ℕ :=
  if text ≠ [] ∧ text.all Char.isDigit then some (digitsValue text) else none

theorem digitChar_isDigit : ∀ d < 10, (Nat.digitChar d).isDigit = true := by decide

theorem digitChar_value : ∀ d < 10, (Nat.digitChar d).toNat - '0'.toNat = d := by decide

@[simp] theorem length_digits (width n : ℕ) : (digits width n).length = width := by
  induction width generalizing n with
  | zero => rfl
  | succ width ih => simp [digits, ih]

theorem isDigit_of_mem_digits (member : c ∈ digits width n) : c.isDigit = true := by
  induction width generalizing n with
  | zero => cases member
  | succ width ih =>
    rcases mem_append.mp member with earlier | last
    · exact ih earlier
    · rw [mem_singleton.mp last]
      exact digitChar_isDigit _ (Nat.mod_lt _ (by decide))

theorem not_mem_digits (other : c.isDigit = false) : c ∉ digits width n := by
  intro member
  rw [isDigit_of_mem_digits member] at other
  cases other

theorem digitsValue_digits (width n : ℕ) : digitsValue (digits width n) = n % 10 ^ width := by
  induction width generalizing n with
  | zero => simp [digits, digitsValue, Nat.mod_one]
  | succ width ih =>
    have earlier := ih (n / 10)
    rw [digitsValue] at earlier ⊢
    rw [digits, foldl_append, foldl_cons, foldl_nil, earlier,
      digitChar_value _ (Nat.mod_lt _ (by decide)), Nat.pow_succ', Nat.mod_mul]
    omega

theorem readDigits_digits (pos : 0 < width) :
    readDigits (digits width n) = some (n % 10 ^ width) := by
  have nonempty : digits width n ≠ [] := by
    apply ne_nil_of_length_pos
    rwa [length_digits]
  have all : (digits width n).all Char.isDigit = true :=
    all_eq_true.mpr fun _ => isDigit_of_mem_digits
  rw [readDigits, if_pos ⟨nonempty, all⟩, digitsValue_digits]

theorem readDigits_digits_of_lt (pos : 0 < width) (small : n < 10 ^ width) :
    readDigits (digits width n) = some n := by
  rw [readDigits_digits pos, Nat.mod_eq_of_lt small]

theorem readDigits_decimal (n : ℕ) : readDigits (decimal n) = some n :=
  readDigits_digits_of_lt (Nat.succ_pos _) (Nat.lt_pow_succ_log_self (by decide) n)

theorem splitOn_of_not_mem {text : List Char} (absent : x ∉ text) : text.splitOn x = [text] := by
  have single : splitOn x ([x].intercalate [text]) = [text] :=
    splitOn_intercalate x (by simpa using absent) (by simp)
  simpa [intercalate] using single

theorem splitOn_append_cons {left right : List Char} (hl : x ∉ left) (hr : x ∉ right) :
    (left ++ x :: right).splitOn x = [left, right] := by
  have both : splitOn x ([x].intercalate [left, right]) = [left, right] :=
    splitOn_intercalate x (by simp [hl, hr]) (by simp)
  simpa [intercalate] using both

end AlgoSystem.General
