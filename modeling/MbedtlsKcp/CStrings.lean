import Mathlib.Data.List.TakeWhile
import MbedtlsKcp.ByteBuffers

/-!
# Strings in byte arrays

A C string is what stands before the first NUL of its array.  The copies of the
standard library overwrite the start of their destination: `snprintf` stores a
terminator within its size, `strncpy` fills its count with NULs and stores no
terminator when the source is as long as that.
-/

namespace MbedtlsKcp

namespace CStrings

open ByteBuffers

/-- The string at the start of an array. -/
def cString (array : List UInt8) : List UInt8 :=
  array.takeWhile (· ≠ 0)

/-- The array holds a terminator. -/
def Terminated (array : List UInt8) : Prop :=
  0 ∈ array

instance (array : List UInt8) : Decidable (Terminated array) :=
  inferInstanceAs (Decidable (0 ∈ array))

/-- The string behind a pointer; `none` when no terminator follows. -/
def readString (memory : List UInt8) : Option (List UInt8) :=
  if Terminated memory then some (cString memory) else none

/-- `snprintf(destination, size, "%s", source)`. -/
def snprintf (destination : List UInt8) (size : Nat) (source : List UInt8) :
    List UInt8 :=
  if size = 0 then destination
  else overwrite destination 0 (source.take (size - 1) ++ [0])

/-- What `strncpy(destination, source, count)` stores. -/
def strncpyBytes (source : List UInt8) (count : Nat) : List UInt8 :=
  source.take count ++ List.replicate (count - source.length) 0

/-- `strncpy(destination, source, count)`. -/
def strncpy (destination source : List UInt8) (count : Nat) : List UInt8 :=
  overwrite destination 0 (strncpyBytes source count)

/-- The bytes of a name made of ASCII characters. -/
def ascii (name : String) : List UInt8 :=
  name.toList.map fun character => UInt8.ofNat character.toNat

theorem not_mem_cString (array : List UInt8) : 0 ∉ cString array := by
  intro member
  simpa using List.mem_takeWhile_imp member

theorem cString_append {source : List UInt8} (rest : List UInt8)
    (clear : 0 ∉ source) : cString (source ++ 0 :: rest) = source := by
  have kept : ∀ byte ∈ source, decide (byte ≠ 0) = true := by
    intro byte member
    rw [decide_eq_true_iff]
    rintro rfl
    exact clear member
  rw [cString, List.takeWhile_append_of_pos kept,
    List.takeWhile_cons_of_neg (by simp), List.append_nil]

/-- An array is its string and, if it is terminated, a NUL and what follows. -/
theorem eq_cString_append {array : List UInt8} (terminated : Terminated array) :
    ∃ rest, array = cString array ++ 0 :: rest := by
  induction array with
  | nil => cases terminated
  | cons byte array ih =>
      by_cases isNul : byte = 0
      · exact ⟨array, by simp [cString, isNul]⟩
      · have later : Terminated array := by
          rcases List.mem_cons.mp terminated with same | later
          · exact absurd same.symm isNul
          · exact later
        obtain ⟨rest, splits⟩ := ih later
        refine ⟨rest, ?_⟩
        rw [cString, List.takeWhile_cons_of_pos (by simpa using isNul),
          List.cons_append]
        exact congrArg _ splits

/-- The first terminator ends the string, whatever follows it. -/
theorem readString_append {array : List UInt8} (rest : List UInt8)
    (terminated : Terminated array) :
    readString (array ++ rest) = some (cString array) := by
  obtain ⟨tail, splits⟩ := eq_cString_append terminated
  have more : Terminated (array ++ rest) := List.mem_append_left rest terminated
  rw [readString, if_pos more]
  congr 1
  calc
    cString (array ++ rest) = cString (cString array ++ 0 :: (tail ++ rest)) := by
      rw [splits, List.append_assoc, List.cons_append, ← splits]
    _ = cString array := cString_append _ (not_mem_cString array)

/-- A string goes on behind bytes that hold no terminator. -/
theorem readString_append_of_not_mem {source : List UInt8} (rest : List UInt8)
    (clear : 0 ∉ source) :
    readString (source ++ rest) = (readString rest).map (source ++ ·) := by
  have kept : ∀ byte ∈ source, decide (byte ≠ 0) = true := by
    intro byte member
    rw [decide_eq_true_iff]
    rintro rfl
    exact clear member
  have ends : Terminated (source ++ rest) ↔ Terminated rest := by
    rw [Terminated, List.mem_append]
    exact or_iff_right clear
  by_cases terminated : Terminated rest
  · rw [readString, if_pos (ends.mpr terminated), readString,
      if_pos terminated, Option.map_some, cString,
      List.takeWhile_append_of_pos kept, cString]
  · rw [readString, if_neg (mt ends.mp terminated), readString,
      if_neg terminated, Option.map_none]

/-- A string ends where the bytes behind it start with a terminator. -/
theorem readString_append_cons_iff {source : List UInt8} (byte : UInt8)
    (rest : List UInt8) (clear : 0 ∉ source) :
    readString (source ++ byte :: rest) = some source ↔ byte = 0 := by
  constructor
  · intro ends
    rw [readString_append_of_not_mem _ clear] at ends
    obtain ⟨tail, found, same⟩ := Option.map_eq_some_iff.mp ends
    have empty : tail = [] := List.append_right_eq_self.mp same
    rw [empty, readString] at found
    split at found
    case isTrue =>
      by_contra notNul
      rw [cString, List.takeWhile_cons_of_pos (by simpa using notNul)] at found
      cases found
    case isFalse => cases found
  · rintro rfl
    have terminated : Terminated (source ++ 0 :: rest) :=
      List.mem_append_right _ List.mem_cons_self
    rw [readString, if_pos terminated, cString_append rest clear]

theorem length_cString_lt {array : List UInt8} (terminated : Terminated array) :
    (cString array).length < array.length := by
  obtain ⟨rest, splits⟩ := eq_cString_append terminated
  have lengths := congrArg List.length splits
  rw [List.length_append, List.length_cons] at lengths
  omega

theorem length_snprintf {destination : List UInt8} {size : Nat}
    (fits : size ≤ destination.length) (source : List UInt8) :
    (snprintf destination size source).length = destination.length := by
  rw [snprintf]
  split
  case isTrue => rfl
  case isFalse some =>
    apply length_overwrite
    simp only [List.length_append, List.length_take, List.length_cons,
      List.length_nil]
    omega

/-- `snprintf` keeps as much of the source as its size leaves room for. -/
theorem cString_snprintf {destination : List UInt8} {size : Nat}
    (positive : 0 < size) {source : List UInt8} (clear : 0 ∉ source) :
    cString (snprintf destination size source) = source.take (size - 1) := by
  rw [snprintf, if_neg (Nat.ne_of_gt positive), overwrite, List.take_zero,
    List.nil_append, List.append_assoc, List.singleton_append]
  apply cString_append
  intro member
  exact clear (List.mem_of_mem_take member)

theorem length_strncpyBytes (source : List UInt8) (count : Nat) :
    (strncpyBytes source count).length = count := by
  rw [strncpyBytes, List.length_append, List.length_take,
    List.length_replicate]
  omega

/-- A string shorter than the count is stored with a terminator. -/
theorem cString_strncpyBytes {source : List UInt8} {count : Nat}
    (shorter : source.length < count) (clear : 0 ∉ source) :
    cString (strncpyBytes source count) = source := by
  have some : count - source.length = count - source.length - 1 + 1 := by omega
  rw [strncpyBytes, List.take_of_length_le (Nat.le_of_lt shorter), some,
    List.replicate_succ]
  exact cString_append _ clear

/-- What was copied is a string when a terminator is stored behind it. -/
theorem cString_strncpyBytes_append {source : List UInt8} (count : Nat)
    (rest : List UInt8) (clear : 0 ∉ source) :
    cString (strncpyBytes source count ++ 0 :: rest) = source.take count := by
  have kept : 0 ∉ source.take count := fun member =>
    clear (List.mem_of_mem_take member)
  rw [strncpyBytes, List.append_assoc]
  cases count - source.length with
  | zero => exact cString_append _ kept
  | succ room =>
      rw [List.replicate_succ, List.cons_append]
      exact cString_append _ kept

/-- A terminator at the end of the source is one of the padding. -/
theorem strncpyBytes_append_zero {source : List UInt8} {count : Nat}
    (shorter : source.length < count) :
    strncpyBytes (source ++ [0]) count = strncpyBytes source count := by
  have fits : (source ++ [0]).length ≤ count := by
    rw [List.length_append]
    exact shorter
  have split : count - source.length = count - (source ++ [0]).length + 1 := by
    rw [List.length_append, List.length_singleton]
    omega
  rw [strncpyBytes, List.take_of_length_le fits, strncpyBytes,
    List.take_of_length_le (Nat.le_of_lt shorter), split, List.replicate_succ,
    List.append_assoc, List.singleton_append]

theorem terminated_strncpyBytes {source : List UInt8} {count : Nat}
    (shorter : source.length < count) :
    Terminated (strncpyBytes source count) := by
  apply List.mem_append_right
  rw [List.mem_replicate]
  exact ⟨by omega, rfl⟩

/-- A string as long as the count fills it. -/
theorem terminated_strncpyBytes_iff {source : List UInt8} {count : Nat}
    (clear : 0 ∉ source) :
    Terminated (strncpyBytes source count) ↔ source.length < count := by
  refine ⟨?_, terminated_strncpyBytes⟩
  intro terminated
  rcases List.mem_append.mp terminated with kept | padded
  · exact absurd (List.mem_of_mem_take kept) clear
  · rw [List.mem_replicate] at padded
    omega

end CStrings

end MbedtlsKcp
