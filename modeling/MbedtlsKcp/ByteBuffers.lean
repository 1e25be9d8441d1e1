import Mathlib.Algebra.Order.Ring.Nat
import Mathlib.Data.List.Basic

/-!
# Copies between fixed-size buffers

A fixed-size buffer is a list whose length never changes.  `overwrite` is the
effect of a `memcpy` that stays inside its destination and `slice` the bytes it
reads; `copyInto` and `readFrom` are the same operations with the bound
checked, `none` standing for an access outside the buffer.  Numbers are kept
in byte buffers in little-endian order.
-/

namespace MbedtlsKcp

namespace ByteBuffers

variable {α : Type*}

/-- The `count` elements of `buffer` that start at `position`. -/
def slice (buffer : List α) (position count : Nat) : List α :=
  (buffer.drop position).take count

/-- `buffer` with `source` stored from `position` on. -/
def overwrite (buffer : List α) (position : Nat) (source : List α) :
    List α :=
  buffer.take position ++ source ++
    buffer.drop (position + source.length)

/-- A bounds-checked read. -/
def readFrom (buffer : List α) (position count : Nat) : Option (List α) :=
  if position + count ≤ buffer.length then
    some (slice buffer position count)
  else
    none

/-- A bounds-checked copy into `buffer`. -/
def copyInto (buffer : List α) (position : Nat) (source : List α) :
    Option (List α) :=
  if position + source.length ≤ buffer.length then
    some (overwrite buffer position source)
  else
    none

theorem length_slice {buffer : List α} {position count : Nat}
    (fits : position + count ≤ buffer.length) :
    (slice buffer position count).length = count := by
  simp only [slice, List.length_take, List.length_drop]
  omega

theorem length_overwrite {buffer : List α} {position : Nat}
    {source : List α} (fits : position + source.length ≤ buffer.length) :
    (overwrite buffer position source).length = buffer.length := by
  simp only [overwrite, List.length_append, List.length_take,
    List.length_drop]
  omega

/-- What stands at a position splits the buffer. -/
theorem slice_eq_iff {buffer target : List α} {position : Nat}
    (inside : position ≤ buffer.length) :
    slice buffer position target.length = target ↔
      ∃ front rest, buffer = front ++ target ++ rest ∧
        front.length = position := by
  constructor
  · intro found
    refine ⟨buffer.take position,
      (buffer.drop position).drop target.length, ?_,
      List.length_take_of_le inside⟩
    have rejoined := List.take_append_drop target.length (buffer.drop position)
    rw [← slice, found] at rejoined
    rw [List.append_assoc, rejoined, List.take_append_drop]
  · rintro ⟨front, rest, rfl, rfl⟩
    rw [slice, List.append_assoc, List.drop_left, List.take_left]

theorem slice_take {buffer : List α} {position count last : Nat}
    (inside : position + count ≤ last) :
    slice (buffer.take last) position count = slice buffer position count := by
  rw [slice, slice, List.drop_take, List.take_take]
  congr 1
  omega

theorem readFrom_eq_some {buffer : List α} {position count : Nat}
    (fits : position + count ≤ buffer.length) :
    readFrom buffer position count = some (slice buffer position count) :=
  if_pos fits

theorem copyInto_eq_some {buffer : List α} {position : Nat}
    {source : List α} (fits : position + source.length ≤ buffer.length) :
    copyInto buffer position source = some (overwrite buffer position source) :=
  if_pos fits

/-- Everything up to the end of a copy is the old prefix and the copied
elements. -/
theorem take_overwrite {buffer : List α} {position : Nat}
    (source : List α) (inside : position ≤ buffer.length) :
    (overwrite buffer position source).take (position + source.length) =
      buffer.take position ++ source := by
  have prefixLength : (buffer.take position ++ source).length =
      position + source.length := by
    simp [Nat.min_eq_left inside]
  rw [overwrite, ← prefixLength, List.take_left']
  rfl

/-- A copy is read back unchanged. -/
theorem slice_overwrite_same {buffer : List α} {position : Nat}
    (source : List α) (inside : position ≤ buffer.length) :
    slice (overwrite buffer position source) position source.length =
      source := by
  rw [slice, List.take_drop, take_overwrite source inside,
    List.drop_left' (by simp [Nat.min_eq_left inside])]

theorem drop_overwrite {buffer source : List α} {position : Nat}
    (inside : position ≤ buffer.length) :
    (overwrite buffer position source).drop position =
      source ++ buffer.drop (position + source.length) := by
  rw [overwrite, List.append_assoc]
  exact List.drop_left' (by simp [Nat.min_eq_left inside])

/-- A copy to the start of a slice replaces the start of what is read. -/
theorem slice_overwrite_start {buffer source : List α} {position count : Nat}
    (inside : position ≤ buffer.length) (short : source.length ≤ count) :
    slice (overwrite buffer position source) position count =
      source ++ (slice buffer position count).drop source.length := by
  rw [slice, drop_overwrite inside, List.take_append,
    List.take_of_length_le short, slice, List.drop_take, List.drop_drop]

/-- A copy does not touch what ends before it. -/
theorem slice_overwrite_before {buffer source : List α}
    {position other count : Nat} (inside : position ≤ buffer.length)
    (before : other + count ≤ position) :
    slice (overwrite buffer position source) other count =
      slice buffer other count := by
  apply List.ext_getElem?
  intro index
  simp only [slice, overwrite, List.getElem?_take, List.getElem?_drop,
    List.append_assoc]
  split
  · rw [List.getElem?_append_left (by simp; omega), List.getElem?_take]
    simp only [ite_eq_left_iff]
    omega
  · rfl

/-- A copy does not touch what starts after its end. -/
theorem slice_overwrite_after {buffer source : List α}
    {position other count : Nat}
    (fits : position + source.length ≤ buffer.length)
    (after : position + source.length ≤ other) :
    slice (overwrite buffer position source) other count =
      slice buffer other count := by
  have prefixLength : (buffer.take position ++ source).length =
      position + source.length := by
    simp only [List.length_append, List.length_take]
    omega
  apply List.ext_getElem?
  intro index
  simp only [slice, overwrite, List.getElem?_take, List.getElem?_drop]
  split
  · rw [List.getElem?_append_right (by omega), prefixLength,
      List.getElem?_drop]
    congr 1
    omega
  · rfl

/-- What a copy leaves at one position. -/
theorem getElem?_overwrite {buffer source : List α} {position i : Nat}
    (fits : position + source.length ≤ buffer.length) :
    (overwrite buffer position source)[i]? =
      if position ≤ i ∧ i < position + source.length then
        source[i - position]?
      else buffer[i]? := by
  have front : (buffer.take position).length = position := by
    rw [List.length_take]
    omega
  rw [overwrite, List.append_assoc]
  split_ifs with inside
  · rw [List.getElem?_append_right (by omega), front,
      List.getElem?_append_left (by omega)]
  · by_cases before : i < position
    · rw [List.getElem?_append_left (by omega), List.getElem?_take,
        if_pos before]
    · rw [List.getElem?_append_right (by omega), front,
        List.getElem?_append_right (by omega), List.getElem?_drop]
      congr 1
      omega

/-- The low `count` bytes of a number, least significant first. -/
def encodeLE : Nat → Nat → List UInt8
  | 0, _ => []
  | count + 1, value => UInt8.ofNat value :: encodeLE count (value / 256)

/-- The number a little-endian byte string stands for. -/
def decodeLE : List UInt8 → Nat
  | [] => 0
  | byte :: bytes => byte.toNat + 256 * decodeLE bytes

@[simp]
theorem length_encodeLE (count value : Nat) :
    (encodeLE count value).length = count := by
  induction count generalizing value with
  | zero => rfl
  | succ count ih => simp [encodeLE, ih]

theorem decodeLE_encodeLE (count value : Nat) :
    decodeLE (encodeLE count value) = value % 256 ^ count := by
  induction count generalizing value with
  | zero => simp [encodeLE, decodeLE, Nat.mod_one]
  | succ count ih =>
      have lowByte : (UInt8.ofNat value).toNat = value % 256 :=
        UInt8.toNat_ofNat'
      rw [encodeLE, decodeLE, ih, lowByte, Nat.pow_succ,
        Nat.mul_comm (256 ^ count), Nat.mod_mul]

theorem encodeLE_mod (width value : Nat) :
    encodeLE width (value % 256 ^ width) = encodeLE width value := by
  induction width generalizing value with
  | zero => rfl
  | succ width ih =>
      have last : value % 256 ^ (width + 1) % 256 = value % 256 := by
        apply Nat.mod_mod_of_dvd
        exact Dvd.intro_left (256 ^ width) (Nat.pow_succ 256 width).symm
      have rest : value % 256 ^ (width + 1) / 256 =
          value / 256 % 256 ^ width := by
        rw [Nat.pow_succ', Nat.mod_mul_right_div_self]
      have byte : UInt8.ofNat (value % 256 ^ (width + 1)) =
          UInt8.ofNat value := by
        apply UInt8.toNat.inj
        simpa using last
      rw [encodeLE, encodeLE, rest, ih, byte]

/-- The low bytes of a number and the bytes above them. -/
theorem encodeLE_append {count low : Nat} (small : low < 256 ^ count)
    (width high : Nat) :
    encodeLE count low ++ encodeLE width high =
      encodeLE (count + width) (low + 256 ^ count * high) := by
  induction count generalizing low with
  | zero =>
      obtain rfl : low = 0 := by simpa using small
      simp [encodeLE]
  | succ count ih =>
      have smaller : low / 256 < 256 ^ count := by
        rw [Nat.pow_succ] at small
        exact Nat.div_lt_of_lt_mul (by rwa [Nat.mul_comm])
      have split : low + 256 ^ (count + 1) * high =
          low + 256 * (256 ^ count * high) := by
        rw [Nat.pow_succ', Nat.mul_assoc]
      have quotient : (low + 256 * (256 ^ count * high)) / 256 =
          low / 256 + 256 ^ count * high :=
        Nat.add_mul_div_left low _ (by decide)
      have byte : UInt8.ofNat (low + 256 * (256 ^ count * high)) =
          UInt8.ofNat low := by
        apply UInt8.toNat.inj
        simp
      rw [Nat.add_right_comm, encodeLE, encodeLE, List.cons_append,
        ih smaller, split, quotient, byte]

theorem decodeLE_lt (bytes : List UInt8) :
    decodeLE bytes < 256 ^ bytes.length := by
  induction bytes with
  | nil => exact Nat.one_pos
  | cons byte bytes ih =>
      have small : byte.toNat < 256 := byte.toNat_lt
      rw [decodeLE, List.length_cons, Nat.pow_succ]
      omega

/-- The number stored little-endian in `width` bytes of `buffer`. -/
def loadLE (buffer : List UInt8) (position width : Nat) : Nat :=
  decodeLE (slice buffer position width)

theorem loadLE_lt (buffer : List UInt8) (position width : Nat) :
    loadLE buffer position width < 256 ^ width := by
  apply Nat.lt_of_lt_of_le (decodeLE_lt _)
  apply Nat.pow_le_pow_right (by decide)
  rw [slice]
  exact List.length_take_le _ _

/-- `buffer` with a number stored little-endian in `width` bytes. -/
def storeLE (buffer : List UInt8) (position width value : Nat) :
    List UInt8 :=
  overwrite buffer position (encodeLE width value)

theorem length_storeLE {buffer : List UInt8} {position width value : Nat}
    (fits : position + width ≤ buffer.length) :
    (storeLE buffer position width value).length = buffer.length :=
  length_overwrite (by simpa using fits)

theorem loadLE_storeLE_same {buffer : List UInt8}
    {position width value : Nat}
    (fits : position + width ≤ buffer.length) :
    loadLE (storeLE buffer position width value) position width =
      value % 256 ^ width := by
  have inside : position ≤ buffer.length := by omega
  have read := slice_overwrite_same (encodeLE width value) inside
  rw [length_encodeLE] at read
  rw [loadLE, storeLE, read, decodeLE_encodeLE]

/-- A store leaves every field that does not meet it alone. -/
theorem loadLE_storeLE_other {buffer : List UInt8}
    {position width value other otherWidth : Nat}
    (fits : position + width ≤ buffer.length)
    (apart : other + otherWidth ≤ position ∨ position + width ≤ other) :
    loadLE (storeLE buffer position width value) other otherWidth =
      loadLE buffer other otherWidth := by
  rcases apart with before | after
  · rw [loadLE, storeLE, slice_overwrite_before (by omega) before, loadLE]
  · rw [loadLE, storeLE,
      slice_overwrite_after (by simpa using fits) (by simpa using after),
      loadLE]

end ByteBuffers

end MbedtlsKcp
