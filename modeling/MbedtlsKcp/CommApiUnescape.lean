import MbedtlsKcp.HexScanning

/-!
# Hexadecimal escapes

`COMM_API_unescape` turns every `\x` and the two characters behind it into a
byte, `COMM_API_is_utf8_hex_string` accepts the strings that are made of such
escapes only.  The first of them does not look at the two characters before it
skips them, and so leaves the string when it ends within an escape.

Both scan the memory from `src` on, of which the terminator is the last byte;
`none` is a read beyond it.
-/

namespace MbedtlsKcp

namespace CommApi

open HexScanning

def isxdigit (byte : UInt8) : Bool := (hexValue byte).isSome

/-- The low byte of what `strtol` returns for a string at base 16. -/
def strtolByte (text : List UInt8) : UInt8 :=
  let number := (text.takeWhile fun byte => byte ≠ 0).dropWhile isSpace
  let (negative, unsigned) := skipSign number
  let digits := (skipPrefix unsigned).takeWhile isxdigit
  UInt8.ofNat (strtoul negative digits)

/-- An escape begins. -/
def StartsEscape (byte : UInt8) (memory : List UInt8) : Prop :=
  byte = 92 ∧ memory.head? = some 120

instance (byte : UInt8) (memory : List UInt8) :
    Decidable (StartsEscape byte memory) :=
  inferInstanceAs (Decidable (_ ∧ _))

/-- `COMM_API_is_utf8_hex_string`. -/
def isUtf8HexString : List UInt8 → Option Int
  | [] => none
  | byte :: memory =>
      if byte = 0 then some 1
      else if StartsEscape byte memory then
        match memory with
        | _ :: first :: second :: rest =>
            if isxdigit first && isxdigit second then isUtf8HexString rest
            else some 0
        | [_, first] => if isxdigit first then none else some 0
        | _ => none
      else some 0

/-- `COMM_API_unescape`, with the bytes it writes. -/
def unescape : List UInt8 → Option (List UInt8)
  | [] => none
  | byte :: memory =>
      if byte = 0 then some [0]
      else if StartsEscape byte memory then
        match memory with
        | _ :: first :: second :: rest =>
            (unescape rest).map (strtolByte [first, second, 0] :: ·)
        | _ => none
      else (unescape memory).map (byte :: ·)

/-- A string is the escaping of some bytes, in digits of either case. -/
inductive Escaping : List UInt8 → List UInt8 → Prop
  | nil : Escaping [] []
  | escape {bytes src : List UInt8} {byte first second : UInt8}
      {high low : Nat} (highDigit : hexValue first = some high)
      (lowDigit : hexValue second = some low)
      (value : byte.toNat = 16 * high + low) (rest : Escaping bytes src) :
      Escaping (byte :: bytes) (92 :: 120 :: first :: second :: src)

/-- A string is unescaped within its bounds, and if it is the escaping of
bytes without a zero these come out. -/
structure Unescapes (src : List UInt8) : Prop where
  within : ∃ dest, unescape (src ++ [0]) = some dest ∧
    dest.length ≤ src.length + 1
  inverse : ∀ bytes, 0 ∉ bytes → Escaping bytes src →
    isUtf8HexString (src ++ [0]) = some 1 ∧
      unescape (src ++ [0]) = some (bytes ++ [0])

/-- Cut from the left into escapes of four characters and single characters, a
string does not end within an escape. -/
inductive Whole : List UInt8 → Prop
  | nil : Whole []
  | escape (first second : UInt8) {src : List UInt8} (rest : Whole src) :
      Whole (92 :: 120 :: first :: second :: src)
  | plain {byte : UInt8} {src : List UInt8}
      (starts : ¬ StartsEscape byte src) (rest : Whole src) :
      Whole (byte :: src)

section Steps

variable {byte first second : UInt8} {memory src : List UInt8}

theorem unescape_escape :
    unescape (92 :: 120 :: first :: second :: memory) =
      (unescape memory).map (strtolByte [first, second, 0] :: ·) := by
  have starts : StartsEscape 92 (120 :: first :: second :: memory) := ⟨rfl, rfl⟩
  rw [unescape, if_neg (by decide), if_pos starts]

theorem unescape_plain (some : byte ≠ 0) (starts : ¬ StartsEscape byte memory) :
    unescape (byte :: memory) = (unescape memory).map (byte :: ·) := by
  rw [unescape.eq_def]
  simp only [some, starts, if_false]

theorem isUtf8HexString_escape (firstDigit : isxdigit first = true)
    (secondDigit : isxdigit second = true) :
    isUtf8HexString (92 :: 120 :: first :: second :: memory) =
      isUtf8HexString memory := by
  have starts : StartsEscape 92 (120 :: first :: second :: memory) := ⟨rfl, rfl⟩
  rw [isUtf8HexString, if_neg (by decide), if_pos starts]
  simp only [firstDigit, secondDigit, Bool.and_self, if_true]

/-- The terminator does not begin an escape. -/
theorem startsEscape_terminated :
    StartsEscape byte (src ++ [0]) ↔ StartsEscape byte src := by
  cases src with
  | nil =>
      have zero : ¬ (some (0 : UInt8) = some 120) := by decide
      have none : ¬ ((none : Option UInt8) = some 120) := by decide
      simp only [StartsEscape, List.nil_append, List.head?_cons, List.head?_nil,
        zero, none]
  | cons next src => rfl

/-- Two digits are read as a byte. -/
theorem strtolByte_pair {high low : Nat}
    (highDigit : hexValue first = some high)
    (lowDigit : hexValue second = some low)
    (value : byte.toNat = 16 * high + low) :
    strtolByte [first, second, 0] = byte := by
  have isDigit : isxdigit first = true ∧ isxdigit second = true := by
    simp [isxdigit, highDigit, lowDigit]
  have nonzero {digit : UInt8} {value : Nat} (spells : hexValue digit = some value) :
      digit ≠ 0 := by
    rintro rfl
    have none : hexValue 0 = none := by decide
    rw [none] at spells
    cases spells
  have text : ([first, second, 0].takeWhile fun byte => byte ≠ 0) =
      [first, second] := by
    simp [nonzero highDigit, nonzero lowDigit]
  have number : [first, second].dropWhile isSpace = [first, second] :=
    List.dropWhile_cons_of_neg (by simp [(digit_apart highDigit).1])
  have digits : [first, second].takeWhile isxdigit = [first, second] := by
    simp [isDigit]
  simp only [strtolByte, text, number, skipSign_of_digit highDigit,
    skipPrefix_of_digits lowDigit, digits, strtoul_pair highDigit lowDigit,
    ← value]
  exact UInt8.ofNat_toNat

end Steps

variable {bytes src : List UInt8}

/-- A string that does not end within an escape is read to its terminator. -/
theorem Whole.within (whole : Whole src) (noZero : 0 ∉ src) :
    ∃ dest, unescape (src ++ [0]) = some dest ∧
      dest.length ≤ src.length + 1 := by
  induction whole with
  | nil => exact ⟨[0], rfl, le_rfl⟩
  | escape first second rest ih =>
      obtain ⟨dest, read, short⟩ := ih fun zero => noZero (by simp [zero])
      refine ⟨strtolByte [first, second, 0] :: dest, ?_, ?_⟩
      · simp only [List.cons_append, unescape_escape, read, Option.map_some]
      · simp only [List.length_cons]
        omega
  | @plain byte src starts rest ih =>
      obtain ⟨dest, read, short⟩ := ih fun zero => noZero (by simp [zero])
      have nonzero : byte ≠ 0 := fun zero => noZero (by simp [zero])
      refine ⟨byte :: dest, ?_, ?_⟩
      · rw [List.cons_append,
          unescape_plain nonzero (mt startsEscape_terminated.1 starts), read,
          Option.map_some]
      · simp only [List.length_cons]
        omega

/-- A string that is read to its terminator does not end within an escape. -/
theorem whole_of_unescape {dest : List UInt8} (noZero : 0 ∉ src)
    (read : unescape (src ++ [0]) = some dest) : Whole src := by
  -- on the length: an escape goes four characters on
  induction length : src.length using Nat.strongRecOn generalizing src dest with
  | ind count ih =>
    cases src with
    | nil => exact .nil
    | cons byte src =>
        have nonzero : byte ≠ 0 := fun zero => noZero (by simp [zero])
        by_cases starts : StartsEscape byte src
        · obtain ⟨rfl, letter⟩ := starts
          obtain ⟨src, rfl⟩ := List.head?_eq_some_iff.1 letter
          cases src with
          | nil =>
              have beyond : unescape ([92, 120] ++ [0]) = none := by decide
              rw [beyond] at read
              cases read
          | cons first src =>
              cases src with
              | nil =>
                  simp only [List.cons_append, List.nil_append, unescape_escape,
                    unescape, Option.map_none, reduceCtorEq] at read
              | cons second src =>
                  simp only [List.cons_append, unescape_escape,
                    Option.map_eq_some_iff] at read
                  obtain ⟨rest, read, -⟩ := read
                  exact .escape first second (ih src.length
                    (by simp only [List.length_cons] at length; omega)
                    (fun zero => noZero (by simp [zero])) read rfl)
        · rw [List.cons_append,
            unescape_plain nonzero (mt startsEscape_terminated.1 starts),
            Option.map_eq_some_iff] at read
          obtain ⟨rest, read, -⟩ := read
          exact .plain starts (ih src.length
            (by simp only [List.length_cons] at length; omega)
            (fun zero => noZero (by simp [zero])) read rfl)

/-- Unescaping undoes escaping. -/
theorem Escaping.inverse (escaping : Escaping bytes src) :
    isUtf8HexString (src ++ [0]) = some 1 ∧
      unescape (src ++ [0]) = some (bytes ++ [0]) := by
  induction escaping with
  | nil => exact ⟨rfl, rfl⟩
  | escape highDigit lowDigit value rest ih =>
      obtain ⟨accepted, read⟩ := ih
      simp only [List.cons_append]
      constructor
      · rw [isUtf8HexString_escape (by simp [isxdigit, highDigit])
          (by simp [isxdigit, lowDigit]), accepted]
      · rw [unescape_escape, read, Option.map_some,
          strtolByte_pair highDigit lowDigit value]

/-- A string is unescaped safely exactly when it does not end within an
escape. -/
theorem unescapes_iff_whole (src : List UInt8) (noZero : 0 ∉ src) :
    Unescapes src ↔ Whole src := by
  constructor
  · intro unescapes
    obtain ⟨dest, read, -⟩ := unescapes.within
    exact whole_of_unescape noZero read
  · exact fun whole => ⟨whole.within noZero, fun _ _ => Escaping.inverse⟩

/-- `\x41b`: the escape of a letter and another letter. -/
theorem unescapes_letters : 0 ∉ [92, 120, 52, 49, (98 : UInt8)] ∧
    Unescapes [92, 120, 52, 49, 98] :=
  ⟨by decide, (unescapes_iff_whole [92, 120, 52, 49, 98] (by decide)).2
    (.escape 52 49 (.plain (by decide) .nil))⟩

/-- `\x` alone: both characters of the escape are looked for behind the
string. -/
theorem not_forall_unescapes : ¬ ∀ src : List UInt8, 0 ∉ src → Unescapes src := by
  intro all
  obtain ⟨dest, read, -⟩ := (all [92, 120] (by decide)).within
  have beyond : unescape ([92, 120] ++ [0]) = none := by decide
  rw [beyond] at read
  cases read

end CommApi

end MbedtlsKcp
