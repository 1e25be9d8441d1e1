import MbedtlsKcp.ByteBuffers
import Mathlib.Data.List.Rotate

/-!
# Copies into and out of a ring of cells

A ring is a fixed-size buffer whose contents may run over its end.  Seen from a
position on, as the rotated buffer, storing with two copies replaces the start
and reading with two copies takes the start, so the contents are a queue.
-/

namespace MbedtlsKcp

namespace RingCopies

open ByteBuffers

variable {α : Type*} {memory source : List α} {position first count : Nat}

/-- `source` is stored from `position` on, behind the end from the start. -/
def scatter (memory : List α) (position : Nat) (source : List α) : List α :=
  if position + source.length < memory.length then
    overwrite memory position source
  else
    overwrite
      (overwrite memory position (source.take (memory.length - position))) 0
      (source.drop (memory.length - position))

/-- What is read from `position` on, behind the end from the start. -/
def gather (memory : List α) (position count : Nat) : List α :=
  if position + count < memory.length then
    slice memory position count
  else
    slice memory position (memory.length - position) ++
      slice memory 0 (count - (memory.length - position))

/-- The contents: `count` elements from `first` on. -/
def queued (memory : List α) (first count : Nat) : List α :=
  (memory.rotate first).take count

theorem exists_append_length (inside : position ≤ memory.length) :
    ∃ front back, memory = front ++ back ∧ front.length = position :=
  ⟨memory.take position, memory.drop position,
    (List.take_append_drop position memory).symm, by simp [inside]⟩

theorem overwrite_append (front rest : List α) {covered : List α}
    (same : source.length = covered.length) :
    overwrite (front ++ (covered ++ rest)) front.length source =
      front ++ (source ++ rest) := by
  have behind : front.length + source.length = (front ++ covered).length := by
    rw [List.length_append, same]
  rw [overwrite, behind, List.take_left, ← List.append_assoc front covered rest,
    List.drop_left, List.append_assoc]

/-- A ring that is written from the end of `front` on. -/
theorem scatter_append {front back : List α}
    (fits : source.length ≤ (front ++ back).length) (holds : back ≠ []) :
    ∃ first last, scatter (front ++ back) front.length source = first ++ last ∧
      first.length = front.length ∧
        last ++ first = source ++ (back ++ front).drop source.length := by
  have some : 0 < back.length := List.length_pos_iff.mpr holds
  rw [List.length_append] at fits
  unfold scatter
  rw [List.length_append, Nat.add_sub_cancel_left]
  split
  · case isTrue short =>
      obtain ⟨covered, rest, rfl, same⟩ :=
        exists_append_length (show source.length ≤ back.length by omega)
      refine ⟨front, source ++ rest, ?_, rfl, ?_⟩
      · exact overwrite_append front rest same.symm
      · rw [← same, List.append_assoc, List.append_assoc, List.drop_left]
  · case isFalse long =>
      obtain ⟨start, early, rfl, sameStart⟩ :=
        exists_append_length (show back.length ≤ source.length by omega)
      rw [List.length_append] at fits long
      obtain ⟨under, kept, rfl, sameUnder⟩ :=
        exists_append_length (show early.length ≤ front.length by omega)
      have written : overwrite ((under ++ kept) ++ back) (under ++ kept).length
          start = (under ++ kept) ++ start := by
        simpa using overwrite_append (under ++ kept) [] sameStart
      refine ⟨early ++ kept, start, ?_, ?_, ?_⟩
      · rw [← sameStart, List.take_left, List.drop_left, written,
          List.append_assoc]
        simpa using overwrite_append [] (kept ++ start) sameUnder.symm
      · simp [sameUnder]
      · rw [← List.append_assoc back under kept,
          List.drop_left' (by simp [sameStart, sameUnder]), List.append_assoc]

theorem length_scatter (inside : position < memory.length)
    (fits : source.length ≤ memory.length) :
    (scatter memory position source).length = memory.length := by
  obtain ⟨front, back, rfl, rfl⟩ := exists_append_length (Nat.le_of_lt inside)
  have holds : back ≠ [] := by
    rintro rfl
    simp at inside
  obtain ⟨first, last, written, same, turned⟩ := scatter_append fits holds
  have lengths := congrArg List.length turned
  rw [written]
  simp only [List.length_append, List.length_drop] at lengths fits ⊢
  omega

/-- Seen from where it starts, what is stored replaces the start. -/
theorem rotate_scatter (inside : position < memory.length)
    (fits : source.length ≤ memory.length) :
    (scatter memory position source).rotate position =
      source ++ (memory.rotate position).drop source.length := by
  obtain ⟨front, back, rfl, rfl⟩ := exists_append_length (Nat.le_of_lt inside)
  have holds : back ≠ [] := by
    rintro rfl
    simp at inside
  obtain ⟨first, last, written, same, turned⟩ := scatter_append fits holds
  rw [written, ← same, List.rotate_append_length_eq, turned, same,
    List.rotate_append_length_eq]

theorem gather_eq (inside : position < memory.length)
    (fits : count ≤ memory.length) :
    gather memory position count = queued memory position count := by
  obtain ⟨front, back, rfl, rfl⟩ := exists_append_length (Nat.le_of_lt inside)
  rw [queued, List.rotate_append_length_eq, gather]
  rw [List.length_append, Nat.add_sub_cancel_left]
  rw [List.length_append] at fits
  split
  · case isTrue short =>
      rw [slice, List.drop_left, List.take_append_of_le_length (by omega)]
  · case isFalse long =>
      have whole : back.length ≤ count := by omega
      have wrapped : count - back.length ≤ front.length := by omega
      rw [slice, List.drop_left, List.take_length, slice, List.drop_zero,
        List.take_append_of_le_length wrapped, List.take_append,
        List.take_of_length_le whole]

/-- What is stored behind the contents joins them. -/
theorem queued_scatter (inside : first < memory.length)
    (fits : count + source.length ≤ memory.length) :
    queued (scatter memory ((first + count) % memory.length) source) first
        (count + source.length) =
      queued memory first count ++ source := by
  have behind : (first + count) % memory.length < memory.length :=
    Nat.mod_lt _ (by omega)
  have short : source.length ≤ memory.length := by omega
  have same := length_scatter behind short
  have turned := rotate_scatter behind short
  set after := scatter memory ((first + count) % memory.length) source
  rw [← same, List.rotate_mod, same, List.rotate_mod, ← List.rotate_rotate,
    ← List.rotate_rotate] at turned
  obtain ⟨contents, free, split, length⟩ :=
    exists_append_length (show count ≤ (memory.rotate first).length by
      rw [List.length_rotate]
      omega)
  obtain ⟨kept, others, splitAfter, lengthAfter⟩ :=
    exists_append_length (show count ≤ (after.rotate first).length by
      rw [List.length_rotate, same]
      omega)
  have room : source.length ≤ free.length := by
    have lengths := congrArg List.length split
    rw [List.length_rotate, List.length_append] at lengths
    omega
  rw [split, splitAfter] at turned
  nth_rewrite 1 [← lengthAfter] at turned
  nth_rewrite 1 [← length] at turned
  rw [List.rotate_append_length_eq, List.rotate_append_length_eq,
    List.drop_append_of_le_length room, ← List.append_assoc] at turned
  obtain ⟨joined, rfl⟩ :=
    List.append_inj' turned (lengthAfter.trans length.symm)
  rw [queued, queued, split, splitAfter, joined, ← lengthAfter, List.take_left,
    ← List.append_assoc]
  exact List.take_left' (by simp)

/-- The front of the contents is taken away. -/
theorem queued_drop {taken : Nat} (less : taken ≤ count)
    (fits : count ≤ memory.length) :
    queued memory ((first + taken) % memory.length) (count - taken) =
      (queued memory first count).drop taken := by
  obtain ⟨front, rest, split, length⟩ :=
    exists_append_length (show taken ≤ (memory.rotate first).length by
      rw [List.length_rotate]
      omega)
  have room : count - taken ≤ rest.length := by
    have lengths := congrArg List.length split
    rw [List.length_rotate, List.length_append] at lengths
    omega
  rw [queued, queued, List.rotate_mod, ← List.rotate_rotate, split, ← length,
    List.rotate_append_length_eq, List.drop_take, List.drop_left,
    List.take_append_of_le_length (length.symm ▸ room)]

end RingCopies

end MbedtlsKcp
