import Mathlib.Data.List.Basic
import Mathlib.Data.Bool.Basic

/-!
# Cyclic redundancy checks

A check is a register that takes in one bit at a time, the most significant
one first.  The register is linear in its content and its input together, so
that several bits can be taken in at once: they are added to the top of the
register, and what that leaves is read from a table.
-/

namespace MbedtlsKcp

namespace CyclicRedundancy

variable {width : Nat}

/-- Take in one bit. -/
def shiftIn (polynomial crc : BitVec width) (bit : Bool) : BitVec width :=
  crc <<< 1 ^^^ if crc.msb ^^ bit then polynomial else 0

/-- Take in bits one after the other. -/
def feed (polynomial crc : BitVec width) (bits : List Bool) : BitVec width :=
  bits.foldl (shiftIn polynomial) crc

theorem feed_append (polynomial crc : BitVec width) (first second : List Bool) :
    feed polynomial crc (first ++ second) =
      feed polynomial (feed polynomial crc first) second :=
  List.foldl_append

/-- The bits at the top, the most significant one first. -/
def topBits : Nat → BitVec width → List Bool
  | 0, _ => []
  | count + 1, word => word.msb :: topBits count (word <<< 1)

@[simp]
theorem length_topBits (count : Nat) (word : BitVec width) :
    (topBits count word).length = count := by
  induction count generalizing word with
  | zero => rfl
  | succ count ih => rw [topBits, List.length_cons, ih]

/-- The bits at the top by their place. -/
theorem topBits_eq (count : Nat) (word : BitVec width) :
    topBits count word =
      (List.range count).map fun place => word.getMsbD place := by
  induction count generalizing word with
  | zero => rfl
  | succ count ih =>
      rw [topBits, ih, List.range_succ_eq_map, List.map_cons, List.map_map]
      refine congrArg₂ List.cons (BitVec.msb_eq_getMsbD_zero word) ?_
      refine List.map_congr_left fun place _ => ?_
      simp [BitVec.getMsbD_shiftLeft]

theorem topBits_xor (count : Nat) (first second : BitVec width) :
    topBits count (first ^^^ second) =
      List.zipWith xor (topBits count first) (topBits count second) := by
  induction count generalizing first second with
  | zero => rfl
  | succ count ih =>
      rw [topBits, BitVec.shiftLeft_xor_distrib, ih, BitVec.msb_xor]
      rfl

variable (polynomial : BitVec width)

theorem shiftIn_xor (first second : BitVec width) (bit other : Bool) :
    shiftIn polynomial (first ^^^ second) (bit ^^ other) =
      shiftIn polynomial first bit ^^^ shiftIn polynomial second other := by
  have regroup : ∀ high low added gone : BitVec width,
      high ^^^ low ^^^ (added ^^^ gone) = high ^^^ added ^^^ (low ^^^ gone) := by
    intro high low added gone
    ac_rfl
  unfold shiftIn
  rw [BitVec.shiftLeft_xor_distrib, BitVec.msb_xor, ← regroup]
  congr 1
  cases first.msb <;> cases second.msb <;> cases bit <;> cases other <;> simp

theorem feed_xor (first second : BitVec width) {bits others : List Bool}
    (same : bits.length = others.length) :
    feed polynomial (first ^^^ second) (List.zipWith xor bits others) =
      feed polynomial first bits ^^^ feed polynomial second others := by
  induction bits generalizing others first second with
  | nil =>
      obtain rfl := List.length_eq_zero_iff.1 same.symm
      rfl
  | cons bit bits ih =>
      cases others with
      | nil => cases same
      | cons other others =>
          have rest := ih (shiftIn polynomial first bit)
            (shiftIn polynomial second other) (Nat.succ.inj same)
          rw [← shiftIn_xor] at rest
          exact rest

/-- Taking in its own top bits shifts a register. -/
theorem feed_topBits (count : Nat) (crc : BitVec width) :
    feed polynomial crc (topBits count crc) = crc <<< count := by
  induction count generalizing crc with
  | zero => simp [feed, topBits]
  | succ count ih =>
      have shifted : shiftIn polynomial crc crc.msb = crc <<< 1 := by
        simp [shiftIn]
      rw [topBits, feed, List.foldl_cons, shifted]
      refine (ih (crc <<< 1)).trans ?_
      rw [← BitVec.shiftLeft_add, Nat.add_comm]

/-- What several bits at once do: the register is shifted, and the bits are
taken in by an empty one after its top has been added to them. -/
theorem feed_eq (crc : BitVec width) (bits : List Bool) :
    feed polynomial crc bits =
      crc <<< bits.length ^^^
        feed polynomial 0 (List.zipWith xor (topBits bits.length crc) bits) := by
  have split := @feed_xor _ polynomial crc 0 (topBits bits.length crc)
    (List.zipWith xor (topBits bits.length crc) bits) (by simp)
  have cancel : List.zipWith xor (topBits bits.length crc)
      (List.zipWith xor (topBits bits.length crc) bits) = bits := by
    apply List.ext_getElem
    · simp
    · intro place _ _
      simp
  rw [cancel, feed_topBits] at split
  simpa using split

end CyclicRedundancy

end MbedtlsKcp
