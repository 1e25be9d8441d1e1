import Mathlib.Algebra.Order.Ring.Nat
import Mathlib.Data.List.Basic

/-!
# Scanning hexadecimal bytes

`sscanf` for formats made of `%hhX`, with or without a field width, and of
literal characters.  A conversion skips white space and takes the longest
sequence that begins a hexadecimal number as `strtoul` knows it: a sign, a
prefix `0x` and any number of digits.  What it stores is the low byte of the
number.
-/

namespace MbedtlsKcp

namespace HexScanning

/-- `isspace` of the C locale. -/
def isSpace (byte : UInt8) : Bool :=
  byte = 32 ∨ (9 ≤ byte ∧ byte ≤ 13)

/-- The value of a hexadecimal digit. -/
def hexValue (byte : UInt8) : Option Nat :=
  if 48 ≤ byte ∧ byte ≤ 57 then some (byte.toNat - 48)
  else if 65 ≤ byte ∧ byte ≤ 70 then some (byte.toNat - 55)
  else if 97 ≤ byte ∧ byte ≤ 102 then some (byte.toNat - 87)
  else none

/-- The number that a sequence of digits spells. -/
def digitsValue (digits : List UInt8) : Nat :=
  digits.foldl (fun value digit => 16 * value + (hexValue digit).getD 0) 0

/-- What `strtoul` returns: the largest number when the digits spell more,
else the number or its negative. -/
def strtoul (negative : Bool) (digits : List UInt8) : Nat :=
  let value := digitsValue digits
  if 2 ^ 64 ≤ value then 2 ^ 64 - 1
  else if negative then (2 ^ 64 - value) % 2 ^ 64
  else value

/-- A sign in front of a number: whether it is negative, and what follows. -/
def skipSign : List UInt8 → Bool × List UInt8
  | 43 :: rest => (false, rest)
  | 45 :: rest => (true, rest)
  | text => (false, text)

/-- What follows the prefix `0x`. -/
def skipPrefix : List UInt8 → List UInt8
  | 48 :: letter :: rest =>
      if letter = 88 ∨ letter = 120 then rest else 48 :: letter :: rest
  | text => text

/-- `%hhX`: the byte stored and the text behind it.  A sign or a prefix
without a digit is no number. -/
def scanHex (width : Option Nat) (text : List UInt8) :
    Option (UInt8 × List UInt8) :=
  let text := text.dropWhile isSpace
  let field := text.take (width.getD text.length)
  let (negative, unsigned) := skipSign field
  let number := skipPrefix unsigned
  let digits := number.takeWhile fun byte => (hexValue byte).isSome
  if digits = [] then none
  else some (UInt8.ofNat (strtoul negative digits),
    text.drop (field.length - number.length + digits.length))

/-- `tolower` of the C locale. -/
def lowerByte (byte : UInt8) : UInt8 :=
  if 65 ≤ byte ∧ byte ≤ 90 then byte + 32 else byte

/-- A text without its letter case. -/
def lowerCase (text : List UInt8) : List UInt8 :=
  text.map lowerByte

/-- A part of a format. -/
inductive Directive
  | hexByte (width : Option Nat)
  | literal (byte : UInt8)

/-- The bytes that `sscanf` stores before it stops; it returns their number,
or -1 if the text ends before the first of them. -/
def sscanf : List Directive → List UInt8 → List UInt8
  | [], _ => []
  | .hexByte width :: format, text =>
      match scanHex width text with
      | some (value, rest) => value :: sscanf format rest
      | none => []
  | .literal byte :: format, text =>
      match text with
      | next :: rest => if next = byte then sscanf format rest else []
      | [] => []

/-- The number of conversions in a format. -/
def conversions : List Directive → Nat
  | [] => 0
  | .hexByte _ :: format => conversions format + 1
  | .literal _ :: format => conversions format

/-- At most one byte is stored for each conversion. -/
theorem length_sscanf_le (format : List Directive) (text : List UInt8) :
    (sscanf format text).length ≤ conversions format := by
  induction format generalizing text with
  | nil => exact Nat.le_refl 0
  | cons directive format ih =>
      cases directive with
      | hexByte width =>
          rw [sscanf, conversions]
          split
          · rw [List.length_cons]
            exact Nat.succ_le_succ (ih _)
          · exact Nat.zero_le _
      | literal byte =>
          cases text with
          | nil => exact Nat.zero_le _
          | cons next rest =>
              rw [sscanf, conversions]
              split
              · exact ih _
              · exact Nat.zero_le _

section Digits

variable {byte first second : UInt8} {high low value : Nat}

theorem hexValue_lt (digit : hexValue byte = some value) : value < 16 := by
  have bounded := byte.toNat_lt
  unfold hexValue at digit
  simp only [UInt8.le_iff_toNat_le, UInt8.reduceToNat] at digit
  split_ifs at digit <;> simp only [Option.some.injEq] at digit <;> omega

/-- A digit is no white space, no sign and no letter of the prefix. -/
theorem digit_apart (digit : hexValue byte = some value) :
    isSpace byte = false ∧ byte ≠ 43 ∧ byte ≠ 45 ∧ byte ≠ 88 ∧ byte ≠ 120 := by
  have bounded := byte.toNat_lt
  have ranges : 48 ≤ byte.toNat ∧ byte.toNat ≤ 57 ∨
      65 ≤ byte.toNat ∧ byte.toNat ≤ 70 ∨
      97 ≤ byte.toNat ∧ byte.toNat ≤ 102 := by
    unfold hexValue at digit
    simp only [UInt8.le_iff_toNat_le, UInt8.reduceToNat] at digit
    split_ifs at digit <;> omega
  simp only [isSpace, ← UInt8.toNat_inj, UInt8.le_iff_toNat_le,
    UInt8.reduceToNat, ne_eq, decide_eq_false_iff_not]
  omega

/-- Letter case does not change what a byte is as a digit. -/
theorem hexValue_lowerByte (byte : UInt8) :
    hexValue (lowerByte byte) = hexValue byte := by
  have bounded := byte.toNat_lt
  unfold lowerByte
  split_ifs with upper
  · simp only [UInt8.le_iff_toNat_le, UInt8.reduceToNat] at upper
    have shifted : (byte + 32).toNat = byte.toNat + 32 := by
      simp only [UInt8.toNat_add, UInt8.reduceToNat]
      omega
    unfold hexValue
    simp only [UInt8.le_iff_toNat_le, UInt8.reduceToNat, shifted]
    split_ifs <;> first
      | omega
      | rfl
  · rfl

/-- Only the letters have two cases. -/
theorem eq_of_lowerByte_eq {other : UInt8} (same : lowerByte byte = other)
    (early : other.toNat < 65) : byte = other := by
  have bounded := byte.toNat_lt
  unfold lowerByte at same
  split_ifs at same with upper
  · simp only [UInt8.le_iff_toNat_le, UInt8.reduceToNat] at upper
    have shifted : (byte + 32).toNat = byte.toNat + 32 := by
      simp only [UInt8.toNat_add, UInt8.reduceToNat]
      omega
    rw [same] at shifted
    omega
  · exact same

theorem skipSign_of_digit (digit : hexValue byte = some value)
    (rest : List UInt8) : skipSign (byte :: rest) = (false, byte :: rest) := by
  obtain ⟨_, notPlus, notMinus, _⟩ := digit_apart digit
  unfold skipSign
  split
  · rename_i same
    exact absurd (List.cons.inj same).1 notPlus
  · rename_i same
    exact absurd (List.cons.inj same).1 notMinus
  · rfl

theorem skipPrefix_of_digits (digit : hexValue second = some value)
    (rest : List UInt8) :
    skipPrefix (first :: second :: rest) = first :: second :: rest := by
  obtain ⟨_, _, _, notUpper, notLower⟩ := digit_apart digit
  unfold skipPrefix
  split
  · rename_i same
    obtain ⟨rfl, more⟩ := List.cons.inj same
    obtain ⟨rfl, rfl⟩ := List.cons.inj more
    rw [if_neg (by simp [notUpper, notLower])]
  · rfl

theorem takeWhile_digits {digits after : List UInt8}
    (all : ∀ byte ∈ digits, (hexValue byte).isSome)
    (ends : ∀ byte ∈ after.head?, hexValue byte = none) :
    (digits ++ after).takeWhile (fun byte => (hexValue byte).isSome) =
      digits := by
  rw [List.takeWhile_append_of_pos all]
  cases after with
  | nil => simp
  | cons byte after =>
      have stops := ends byte (by simp)
      simp [stops]

/-- A field of at least two digits is read up to its first byte that is no
digit. -/
theorem scanHex_eq {width : Option Nat} {text digits after : List UInt8}
    (field : text.take (width.getD text.length) = digits ++ after)
    (long : 2 ≤ digits.length)
    (all : ∀ byte ∈ digits, (hexValue byte).isSome)
    (ends : ∀ byte ∈ after.head?, hexValue byte = none) :
    scanHex width text =
      some (UInt8.ofNat (strtoul false digits), text.drop digits.length) := by
  obtain ⟨first, second, more, rfl⟩ :
      ∃ first second more, digits = first :: second :: more := by
    match digits, long with
    | first :: second :: more, _ => exact ⟨first, second, more, rfl⟩
  obtain ⟨high, firstDigit⟩ := Option.isSome_iff_exists.mp
    (all first (by simp))
  obtain ⟨low, secondDigit⟩ := Option.isSome_iff_exists.mp
    (all second (by simp))
  have starts : text.dropWhile isSpace = text := by
    cases text with
    | nil => rfl
    | cons head tail =>
        rw [List.cons_append] at field
        have same : head = first := by
          cases count : width.getD (head :: tail).length with
          | zero =>
              rw [count] at field
              cases field
          | succ count' =>
              rw [count] at field
              exact (List.cons.inj field).1
        rw [List.dropWhile_cons_of_neg]
        simp [same, (digit_apart firstDigit).1]
  unfold scanHex
  simp only [starts, field]
  rw [List.cons_append, List.cons_append, skipSign_of_digit firstDigit]
  simp only
  rw [skipPrefix_of_digits secondDigit, ← List.cons_append,
    ← List.cons_append, takeWhile_digits all ends, if_neg (by simp)]
  simp

/-- Two digits spell a byte. -/
theorem strtoul_pair (highDigit : hexValue first = some high)
    (lowDigit : hexValue second = some low) :
    strtoul false [first, second] = 16 * high + low := by
  have := hexValue_lt highDigit
  have := hexValue_lt lowDigit
  have value : digitsValue [first, second] = 16 * high + low := by
    simp [digitsValue, highDigit, lowDigit]
  unfold strtoul
  simp only [value]
  rw [if_neg (by omega)]
  rfl

/-- A byte of two digits, cut off by the field width or by what follows. -/
theorem scanHex_pair {width : Option Nat} {rest : List UInt8}
    (highDigit : hexValue first = some high)
    (lowDigit : hexValue second = some low)
    (ends : width = some 2 ∨
      width = none ∧ ∀ byte ∈ rest.head?, hexValue byte = none) :
    scanHex width (first :: second :: rest) =
      some (UInt8.ofNat (16 * high + low), rest) := by
  have all : ∀ byte ∈ [first, second], (hexValue byte).isSome := by
    simp [highDigit, lowDigit]
  rw [← strtoul_pair highDigit lowDigit]
  rcases ends with rfl | ⟨rfl, stops⟩
  · have field : (first :: second :: rest).take 2 =
        [first, second] ++ ([] : List UInt8) := rfl
    exact scanHex_eq field (Nat.le_refl 2) all (by simp)
  · have field : (first :: second :: rest).take
        (first :: second :: rest).length = [first, second] ++ rest :=
      List.take_length
    exact scanHex_eq field (Nat.le_refl 2) all stops

end Digits

end HexScanning

end MbedtlsKcp
