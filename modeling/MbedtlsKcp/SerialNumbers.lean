import Mathlib.Algebra.Order.Ring.Nat
import Mathlib.Data.List.Basic

/-!
# Serial numbers and reordering buffers

A serial number is an unbounded index kept modulo `2 ^ width` and compared by
the sign of a wrapped difference.  Two indices less than half the range apart
are ordered by their serial numbers as they are by themselves.  A reordering
buffer keeps entries in increasing order of index; a new entry is inserted by
a scan from the tail.
-/

namespace MbedtlsKcp

namespace SerialNumbers

variable {width : Nat}

/-- The serial number of an index. -/
def serial (width index : Nat) : BitVec width :=
  BitVec.ofNat width index

/-- The signed difference of two serial numbers. -/
def serialDiff (later earlier : BitVec width) : Int :=
  (later - earlier).toInt

/-- Two indices are less than half the range apart. -/
def Near (width first second : Nat) : Prop :=
  first < second + 2 ^ (width - 1) ∧ second < first + 2 ^ (width - 1)

theorem serial_add_one (index : Nat) :
    serial width index + 1 = serial width (index + 1) := by
  simp [serial, BitVec.ofNat_add]

theorem serialDiff_serial {first second : Nat} (positive : 0 < width)
    (near : Near width first second) :
    serialDiff (serial width first) (serial width second) =
      (first : Int) - second := by
  have halves : 2 ^ width = 2 * 2 ^ (width - 1) := by
    rw [← Nat.pow_succ']
    congr 1
    omega
  obtain ⟨below, above⟩ := near
  rw [serialDiff, BitVec.toInt_sub, serial, serial, BitVec.toInt_ofNat',
    BitVec.toInt_ofNat', Int.bmod_sub_bmod, Int.sub_bmod_bmod]
  generalize 2 ^ (width - 1) = half at below above halves
  apply Int.bmod_eq_of_le
  · omega
  · omega

theorem serial_eq_iff {first second : Nat} (positive : 0 < width)
    (near : Near width first second) :
    serial width first = serial width second ↔ first = second := by
  constructor
  · intro same
    have difference := serialDiff_serial positive near
    rw [same, serialDiff, BitVec.sub_self, BitVec.toInt_zero] at difference
    omega
  · rintro rfl
    rfl

/-- Indices less than the range apart are as far apart as their serial
numbers. -/
theorem toNat_serial_sub {first second : Nat} (ordered : first ≤ second)
    (near : second < first + 2 ^ width) :
    (serial width second - serial width first).toNat = second - first := by
  have sum : serial width second =
      serial width (second - first) + serial width first := by
    rw [serial, serial, serial, ← BitVec.ofNat_add,
      Nat.sub_add_cancel ordered]
  rw [sum, BitVec.add_sub_cancel, serial, BitVec.toNat_ofNat]
  apply Nat.mod_eq_of_lt
  omega

section Reordering

variable {Entry : Type*}

/-- Insertion of `entry` into the buffer read from its tail: the scan stops at
an entry with the same serial number, when nothing is inserted, or at the first
earlier one. -/
def insertFromTail (sn : Entry → BitVec width) (entry : Entry) :
    List Entry → Option (List Entry)
  | [] => some [entry]
  | last :: earlier =>
      if sn last = sn entry then
        none
      else if 0 < serialDiff (sn entry) (sn last) then
        some (entry :: last :: earlier)
      else
        (insertFromTail sn entry earlier).map (last :: ·)

/-- The entries stand for indices between `lower` and `upper`, the latest
first. -/
inductive Descending (stands : Nat → Entry → Prop) (lower : Nat) :
    Nat → List Entry → Prop
  | nil {upper : Nat} : Descending stands lower upper []
  | cons {upper index : Nat} {entry : Entry} {earlier : List Entry}
      (above : lower ≤ index) (below : index < upper)
      (holds : stands index entry)
      (rest : Descending stands lower index earlier) :
      Descending stands lower upper (entry :: earlier)

variable {stands : Nat → Entry → Prop} {lower upper : Nat}

theorem Descending.mono {entries : List Entry} {higher : Nat}
    (descending : Descending stands lower upper entries)
    (higherUp : upper ≤ higher) :
    Descending stands lower higher entries := by
  cases descending with
  | nil => exact .nil
  | cons above below holds rest =>
      exact .cons above (by omega) holds rest

/-- Inserting an entry keeps the order; a second copy is dropped. -/
theorem Descending.insertFromTail {sn : Entry → BitVec width}
    (positive : 0 < width) (narrow : upper ≤ lower + 2 ^ (width - 1))
    (numbered : ∀ index entry, stands index entry →
      sn entry = serial width index)
    {entries : List Entry} {entry : Entry} {index : Nat}
    (descending : Descending stands lower upper entries)
    (above : lower ≤ index) (below : index < upper)
    (holds : stands index entry) :
    ∀ inserted, SerialNumbers.insertFromTail sn entry entries = some inserted →
      Descending stands lower upper inserted := by
  induction descending with
  | nil =>
      rintro inserted ⟨⟩
      exact .cons above below holds .nil
  | @cons upper last entry' earlier lastAbove lastBelow lastHolds rest ih =>
      intro inserted inserts
      have near : Near width index last := ⟨by omega, by omega⟩
      rw [SerialNumbers.insertFromTail, numbered _ _ holds, numbered _ _ lastHolds,
        serialDiff_serial positive near] at inserts
      split at inserts
      case isTrue => simp at inserts
      case isFalse differ =>
        have distinct : last ≠ index := by
          rintro rfl
          exact differ rfl
        split at inserts
        case isTrue later =>
          obtain rfl := Option.some.inj inserts
          exact .cons above below holds
            (.cons lastAbove (by omega) lastHolds rest)
        case isFalse later =>
          rw [Option.map_eq_some_iff] at inserts
          obtain ⟨middle, inserts, rfl⟩ := inserts
          exact .cons lastAbove lastBelow lastHolds
            (ih (by omega) (by omega) middle inserts)

/-- The same order read from the head, the earliest index first. -/
inductive Ascending (stands : Nat → Entry → Prop) (upper : Nat) :
    Nat → List Entry → Prop
  | nil {lower : Nat} : Ascending stands upper lower []
  | cons {lower index : Nat} {entry : Entry} {later : List Entry}
      (above : lower ≤ index) (below : index < upper)
      (holds : stands index entry)
      (rest : Ascending stands upper (index + 1) later) :
      Ascending stands upper lower (entry :: later)

theorem Ascending.mono {entries : List Entry} {higher : Nat}
    (ascending : Ascending stands upper lower entries)
    (higherUp : upper ≤ higher) :
    Ascending stands higher lower entries := by
  induction ascending with
  | nil => exact .nil
  | cons above below holds rest ih =>
      exact .cons above (by omega) holds ih

theorem Ascending.snoc {entries : List Entry} {entry : Entry} {index : Nat}
    (ascending : Ascending stands index lower entries)
    (above : lower ≤ index) (below : index < upper)
    (holds : stands index entry) :
    Ascending stands upper lower (entries ++ [entry]) := by
  induction ascending with
  | nil => exact .cons above below holds .nil
  | cons firstAbove firstBelow firstHolds rest ih =>
      exact .cons firstAbove (by omega) firstHolds (ih (by omega))

theorem Descending.snoc {entries : List Entry} {entry : Entry} {index : Nat}
    (descending : Descending stands (index + 1) upper entries)
    (above : lower ≤ index) (below : index < upper)
    (holds : stands index entry) :
    Descending stands lower upper (entries ++ [entry]) := by
  induction descending with
  | nil => exact .cons above below holds .nil
  | cons lastAbove lastBelow lastHolds rest ih =>
      exact .cons (by omega) lastBelow lastHolds (ih (by omega))

theorem Descending.reverse {entries : List Entry}
    (descending : Descending stands lower upper entries) :
    Ascending stands upper lower entries.reverse := by
  induction descending with
  | nil => exact .nil
  | cons above below holds rest ih =>
      rw [List.reverse_cons]
      exact ih.snoc above below holds

theorem Ascending.reverse {entries : List Entry}
    (ascending : Ascending stands upper lower entries) :
    Descending stands lower upper entries.reverse := by
  induction ascending with
  | nil => exact .nil
  | cons above below holds rest ih =>
      rw [List.reverse_cons]
      exact ih.snoc above below holds

end Reordering

end SerialNumbers

end MbedtlsKcp
