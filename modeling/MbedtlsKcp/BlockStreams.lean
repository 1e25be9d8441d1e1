import Mathlib.Data.List.Basic

/-!
# Streams in blocks

A stream is cut into blocks of one size from its start; what is left at the
end is shorter than a block.  A stream that comes in pieces gives the same
blocks, whatever the pieces are, when what is left of one piece is put in
front of the next.
-/

namespace MbedtlsKcp

namespace BlockStreams

variable {α : Type} (size : Nat)

/-- The blocks of a stream, in order. -/
def blocks (stream : List α) : List (List α) :=
  (List.range (stream.length / size)).map fun number =>
    (stream.drop (size * number)).take size

/-- What is left of a stream behind its blocks. -/
def leftover (stream : List α) : List α :=
  stream.drop (size * (stream.length / size))

variable {size} {stream : List α}

theorem blocks_of_short (short : stream.length < size) :
    blocks size stream = [] := by
  rw [blocks, Nat.div_eq_of_lt short]
  rfl

theorem leftover_of_short (short : stream.length < size) :
    leftover size stream = stream := by
  rw [leftover, Nat.div_eq_of_lt short, Nat.mul_zero, List.drop_zero]

theorem length_leftover_lt (positive : 0 < size) (stream : List α) :
    (leftover size stream).length < size := by
  rw [leftover, List.length_drop]
  have whole := Nat.div_add_mod stream.length size
  have rest := Nat.mod_lt stream.length positive
  omega

/-- The number of blocks grows by one with each of them. -/
theorem blocks_count (positive : 0 < size) (long : size ≤ stream.length) :
    stream.length / size = (stream.drop size).length / size + 1 := by
  rw [List.length_drop, ← Nat.div_eq_sub_div positive long]

theorem blocks_of_long (positive : 0 < size) (long : size ≤ stream.length) :
    blocks size stream =
      stream.take size :: blocks size (stream.drop size) := by
  rw [blocks, blocks, blocks_count positive long, List.range_succ_eq_map,
    List.map_cons, List.map_map, Nat.mul_zero, List.drop_zero]
  congr 1
  refine List.map_congr_left fun number _ => ?_
  rw [Function.comp_apply, List.drop_drop, Nat.mul_succ, Nat.add_comm]

theorem leftover_of_long (positive : 0 < size) (long : size ≤ stream.length) :
    leftover size stream = leftover size (stream.drop size) := by
  rw [leftover, leftover, blocks_count positive long, List.drop_drop,
    Nat.mul_succ, Nat.add_comm]

/-- What is left of one piece goes in front of the next. -/
theorem blocks_append (positive : 0 < size) (first second : List α) :
    blocks size (first ++ second) =
        blocks size first ++ blocks size (leftover size first ++ second) ∧
      leftover size (first ++ second) =
        leftover size (leftover size first ++ second) := by
  induction length : first.length using Nat.strongRecOn
    generalizing first with
  | ind total ih =>
      by_cases short : first.length < size
      · rw [blocks_of_short short, leftover_of_short short]
        exact ⟨rfl, rfl⟩
      · have long := Nat.not_lt.1 short
        have longer : size ≤ (first ++ second).length := by
          rw [List.length_append]
          omega
        have shorter : (first.drop size).length < total := by
          rw [List.length_drop]
          omega
        obtain ⟨cut, left⟩ := ih _ shorter _ rfl
        rw [blocks_of_long positive longer, leftover_of_long positive longer,
          List.take_append_of_le_length long, List.drop_append_of_le_length long,
          cut, left, blocks_of_long positive long,
          leftover_of_long positive long]
        exact ⟨rfl, rfl⟩

end BlockStreams

end MbedtlsKcp
