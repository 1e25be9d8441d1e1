import MbedtlsKcp.CStrings
import MbedtlsKcp.HexScanning

/-!
# Decimal numbers in texts

What `printf` writes for a number and what `strtol` and `atoi` make of a text.
`long` has 64 bits; a number that is too large for it is cut to the largest
one, and `atoi` keeps the low 32 bits.
-/

namespace MbedtlsKcp

namespace DecimalText

open CStrings HexScanning

/-- The digits of a number. -/
def decimal (number : Nat) : List UInt8 :=
  ascii (toString number)

/-- `%d`. -/
def signed (number : Int) : List UInt8 :=
  if number < 0 then 45 :: decimal number.natAbs else decimal number.natAbs

def isDigit (byte : UInt8) : Bool :=
  48 ≤ byte ∧ byte ≤ 57

/-- The number that a sequence of digits spells. -/
def spelled (digits : List UInt8) : Nat :=
  digits.foldl (fun value digit => 10 * value + (digit.toNat - 48)) 0

/-- `strtol(text, NULL, 10)`. -/
def strtol (text : List UInt8) : Int :=
  let number := skipSign (text.dropWhile isSpace)
  let value := spelled (number.2.takeWhile isDigit)
  if number.1 then max (-(value : Int)) (-2 ^ 63)
  else min (value : Int) (2 ^ 63 - 1)

def atoi (text : List UInt8) : Int :=
  (strtol text).bmod (2 ^ 32)

theorem decimal_eq (number : Nat) :
    decimal number =
      if number < 10 then [UInt8.ofNat (48 + number)]
      else decimal (number / 10) ++ [UInt8.ofNat (48 + number % 10)] := by
  have digit : ∀ value < 10,
      UInt8.ofNat value.digitChar.toNat = UInt8.ofNat (48 + value) := by
    decide
  have unfolds : ∀ value, decimal value =
      (Nat.toDigits 10 value).map fun character =>
        UInt8.ofNat character.toNat := by
    intro value
    rw [decimal, ascii, Nat.toString_eq_ofList_toDigits, String.toList_ofList]
  rw [unfolds, unfolds, Nat.toDigits_eq_if (by decide)]
  split
  case isTrue small => rw [List.map_singleton, digit number small]
  case isFalse =>
    rw [List.map_append, List.map_singleton,
      digit _ (Nat.mod_lt _ (by decide))]

theorem isDigit_ofNat {value : Nat} (small : value < 10) :
    isDigit (UInt8.ofNat (48 + value)) = true := by
  have table : ∀ value < 10, isDigit (UInt8.ofNat (48 + value)) = true := by
    decide
  exact table value small

theorem toNat_digit {value : Nat} (small : value < 10) :
    (UInt8.ofNat (48 + value)).toNat - 48 = value := by
  rw [UInt8.toNat_ofNat_of_lt' (by change 48 + value < 256; omega)]
  omega

theorem isDigit_of_mem_decimal {number : Nat} {byte : UInt8}
    (member : byte ∈ decimal number) : isDigit byte = true := by
  induction number using Nat.strong_induction_on with
  | h number ih =>
      rw [decimal_eq] at member
      split at member
      case isTrue small =>
        rw [List.mem_singleton.mp member]
        exact isDigit_ofNat small
      case isFalse large =>
        rcases List.mem_append.mp member with front | last
        · exact ih (number / 10) (by omega) front
        · rw [List.mem_singleton.mp last]
          exact isDigit_ofNat (Nat.mod_lt _ (by decide))

theorem decimal_ne_nil (number : Nat) : decimal number ≠ [] := by
  rw [decimal_eq]
  split <;> simp

theorem spelled_decimal (number : Nat) : spelled (decimal number) = number := by
  induction number using Nat.strong_induction_on with
  | h number ih =>
      rw [decimal_eq]
      split
      case isTrue small =>
        rw [spelled, List.foldl_cons, List.foldl_nil, toNat_digit small]
        omega
      case isFalse large =>
        have front := ih (number / 10) (by omega)
        rw [spelled] at front
        rw [spelled, List.foldl_append, front, List.foldl_cons, List.foldl_nil,
          toNat_digit (Nat.mod_lt _ (by decide))]
        omega

/-- A byte that no digit is. -/
theorem not_mem_decimal {byte : UInt8} (other : isDigit byte = false)
    (number : Nat) : byte ∉ decimal number := by
  intro member
  rw [isDigit_of_mem_decimal member] at other
  cases other

theorem not_mem_signed {byte : UInt8} (other : isDigit byte = false)
    (notMinus : byte ≠ 45) (number : Int) : byte ∉ signed number := by
  rw [signed]
  split
  case isTrue =>
    rw [List.mem_cons, not_or]
    exact ⟨notMinus, not_mem_decimal other _⟩
  case isFalse => exact not_mem_decimal other _

theorem isDigit_space_sign : ∀ byte : UInt8, isDigit byte = true →
    isSpace byte = false ∧ byte ≠ 43 ∧ byte ≠ 45 := by
  have table : ∀ n < 256, isDigit (UInt8.ofNat n) = true →
      isSpace (UInt8.ofNat n) = false ∧ UInt8.ofNat n ≠ 43 ∧
        UInt8.ofNat n ≠ 45 := by
    decide +kernel
  intro byte digit
  have whole : UInt8.ofNat byte.toNat = byte := UInt8.ofNat_toNat
  have holds := table byte.toNat byte.toNat_lt
  rw [whole] at holds
  exact holds digit

theorem strtol_decimal {number : Nat} (small : number < 2 ^ 63) :
    strtol (decimal number) = number := by
  have digits : (decimal number).takeWhile isDigit = decimal number := by
    rw [List.takeWhile_eq_self_iff]
    exact fun byte member => isDigit_of_mem_decimal member
  have start : skipSign ((decimal number).dropWhile isSpace) =
      (false, decimal number) := by
    cases isDecimal : decimal number with
    | nil => exact absurd isDecimal (decimal_ne_nil number)
    | cons byte rest =>
        have member : byte ∈ decimal number := by
          rw [isDecimal]
          exact List.mem_cons_self
        obtain ⟨notSpace, notPlus, notMinus⟩ :=
          isDigit_space_sign byte (isDigit_of_mem_decimal member)
        rw [List.dropWhile_cons_of_neg (by rw [notSpace]; decide)]
        rw [skipSign]
        · intro tail same
          exact notPlus (List.cons.inj same).1
        · intro tail same
          exact notMinus (List.cons.inj same).1
  rw [strtol, start]
  dsimp only
  rw [digits, spelled_decimal, if_neg Bool.false_ne_true]
  omega

theorem atoi_decimal {number : Nat} (small : number < 2 ^ 63) :
    atoi (decimal number) = (number : Int).bmod (2 ^ 32) := by
  rw [atoi, strtol_decimal small]

end DecimalText

end MbedtlsKcp
