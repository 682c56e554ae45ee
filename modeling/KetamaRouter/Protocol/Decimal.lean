import Mathlib.Data.List.TakeWhile
import KetamaRouter.Source.CString

/-!
# Decimal numbers

`%d` prints what `atoi` reads.
-/

namespace KetamaRouter

theorem toNat_ofNat_digit {char : Char} (digit : char.isDigit) :
    (UInt8.ofNat char.toNat).toNat = char.toNat ∧
      48 ≤ char.toNat ∧ char.toNat ≤ 57 := by
  have low : 48 ≤ char.toNat := by
    simp only [Char.isDigit, Bool.and_eq_true, decide_eq_true_eq] at digit
    exact UInt32.le_iff_toNat_le.mp digit.1
  have high : char.toNat ≤ 57 := by
    simp only [Char.isDigit, Bool.and_eq_true, decide_eq_true_eq] at digit
    exact UInt32.le_iff_toNat_le.mp digit.2
  refine ⟨?_, low, high⟩
  rw [UInt8.toNat_ofNat']
  omega

/-- Every byte of a printed number is a digit. -/
theorem isDigit_of_mem_formatDecimal {number : Nat} {digit : UInt8}
    (member : digit ∈ formatDecimal number) : isDigit digit = true := by
  obtain ⟨char, charIn, rfl⟩ := List.mem_map.mp member
  obtain ⟨same, low, high⟩ := toNat_ofNat_digit
    (Nat.isDigit_of_mem_toDigits (by decide) (by decide) charIn)
  simp only [isDigit, Bool.and_eq_true, decide_eq_true_eq]
  rw [UInt8.le_iff_toNat_le, UInt8.le_iff_toNat_le, same]
  exact ⟨low, high⟩

theorem formatDecimal_ne_nil (number : Nat) : formatDecimal number ≠ [] := by
  simp [formatDecimal, Nat.toDigits_ne_nil]

theorem digit_not_space {digit : UInt8} (isDig : isDigit digit = true) :
    isSpace digit = false := by
  simp only [isDigit, Bool.and_eq_true, decide_eq_true_eq,
    UInt8.le_iff_toNat_le] at isDig
  simp only [isSpace, Bool.or_eq_false_iff, decide_eq_false_iff_not,
    Bool.and_eq_false_iff, UInt8.le_iff_toNat_le, ← UInt8.toNat_inj]
  have low : (48 : UInt8).toNat = 48 := rfl
  have space : (32 : UInt8).toNat = 32 := rfl
  have tab : (13 : UInt8).toNat = 13 := rfl
  omega

theorem digitsValue_formatDecimal (number : Nat) :
    digitsValue (formatDecimal number) = number := by
  have general : ∀ (chars : List Char) (start : Nat),
      (∀ char ∈ chars, char.isDigit = true) →
      (chars.map fun char => UInt8.ofNat char.toNat).foldl
          (fun value digit => 10 * value + (digit.toNat - 48)) start =
        Nat.ofDigitChars 10 chars start := by
    intro chars
    induction chars with
    | nil =>
        intro start _
        rfl
    | cons char chars induction =>
        intro start digits
        have head := (toNat_ofNat_digit (digits char List.mem_cons_self)).1
        rw [List.map_cons, List.foldl_cons, Nat.ofDigitChars_cons, head]
        exact induction _ fun other member =>
          digits other (List.mem_cons_of_mem char member)
  unfold digitsValue formatDecimal
  rw [general _ 0 fun char member =>
    Nat.isDigit_of_mem_toDigits (by decide) (by decide) member]
  exact Nat.ofDigitChars_ten_toDigits

/-- The number written by `%d` is the one printed. -/
theorem writtenNumber_formatDecimal (number : Nat) :
    writtenNumber (formatDecimal number) = number := by
  obtain ⟨digit, digits, shape⟩ :=
    List.exists_cons_of_ne_nil (formatDecimal_ne_nil number)
  have allDigits : ∀ other ∈ digit :: digits, isDigit other = true :=
    fun other member => isDigit_of_mem_formatDecimal (shape ▸ member)
  have first := allDigits digit List.mem_cons_self
  have notMinus : digit ≠ 45 := by
    rintro rfl
    cases first
  have notPlus : digit ≠ 43 := by
    rintro rfl
    cases first
  have skipped : (digit :: digits).dropWhile isSpace = digit :: digits := by
    simp [digit_not_space first]
  have whole : (digit :: digits).takeWhile isDigit = digit :: digits :=
    List.takeWhile_eq_self_iff.mpr allDigits
  unfold writtenNumber
  rw [shape, skipped]
  simp only [notMinus, notPlus, if_false, whole]
  rw [← shape, digitsValue_formatDecimal]

theorem atoi_formatDecimal {number : Nat} (small : number < 2 ^ 31) :
    atoi (formatDecimal number) = number := by
  unfold atoi strtol
  rw [writtenNumber_formatDecimal, longMax, longMin]
  have inside : max (-(2 ^ 63)) (min (2 ^ 63 - 1) (number : ℤ)) = number := by
    omega
  rw [inside]
  exact Int.bmod_eq_of_le (by omega) (by omega)

/-- The conversion of an integer to `uint32_t`. -/
theorem toNat_ofInt (value : ℤ) :
    ((UInt32.ofInt value).toNat : ℤ) = value % 2 ^ 32 := by
  rw [UInt32.ofInt, UInt32.toNat_ofNat']
  omega

theorem formatDecimal_length {number : Nat} (small : number < 65536) :
    (formatDecimal number).length ≤ 5 := by
  rw [formatDecimal, List.length_map, Nat.length_toDigits_le_iff (by decide)
    (by decide)]
  omega

theorem formatInt_natCast (number : Nat) :
    formatInt (number : ℤ) = formatDecimal number := by
  simp [formatInt]

end KetamaRouter
