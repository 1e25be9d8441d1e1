import Mathlib.Data.Nat.ModEq
import Mathlib.Logic.Function.Basic

/-!
# Queues in a ring of cells

The contents of a ring of `size` cells are the `count` cells from the read index
on.  Storing in the cell behind them appends an element, and moving the read
index takes the first one away.
-/

namespace MbedtlsKcp

namespace RingQueues

variable {α : Type*}

/-- The `count` cells from `first` on. -/
def contents (size : Nat) (cell : Nat → α) (first count : Nat) : List α :=
  (List.range count).map fun i => cell ((first + i) % size)

@[simp]
theorem length_contents (size : Nat) (cell : Nat → α) (first count : Nat) :
    (contents size cell first count).length = count := by
  simp [contents]

@[simp]
theorem contents_zero (size : Nat) (cell : Nat → α) (first : Nat) :
    contents size cell first 0 = [] :=
  rfl

/-- Different distances below the size lead to different cells. -/
theorem add_mod_ne {size first i j : Nat} (less : i < j) (short : j < size) :
    (first + i) % size ≠ (first + j) % size := by
  intro same
  have close : i ≡ j [MOD size] := Nat.ModEq.add_left_cancel' first same
  have equal := close.eq_of_lt_of_lt (less.trans short) short
  omega

/-- Only cells of the ring are read. -/
theorem contents_congr {size first count : Nat} {cell other : Nat → α}
    (positive : 0 < size) (agree : ∀ i < size, cell i = other i) :
    contents size cell first count = contents size other first count := by
  apply List.map_congr_left
  intro i _
  exact agree _ (Nat.mod_lt _ positive)

/-- A ring that is not full has the cell behind its contents free. -/
theorem contents_push {size first count : Nat}
    (cell : Nat → α) (value : α) (room : count < size) :
    contents size (Function.update cell ((first + count) % size) value) first
        (count + 1) =
      contents size cell first count ++ [value] := by
  rw [contents, List.range_succ, List.map_append, List.map_singleton,
    Function.update_self]
  congr 1
  apply List.map_congr_left
  intro i member
  rw [Function.update_of_ne]
  exact add_mod_ne (List.mem_range.mp member) room

theorem contents_pop {size first count : Nat} (cell : Nat → α)
    (inside : first < size) :
    contents size cell first (count + 1) =
      cell first :: contents size cell ((first + 1) % size) count := by
  rw [contents, List.range_succ_eq_map, List.map_cons, Nat.add_zero,
    Nat.mod_eq_of_lt inside, List.map_map]
  congr 1
  apply List.map_congr_left
  intro i _
  rw [Function.comp_apply, Nat.mod_add_mod, Nat.succ_eq_add_one,
    Nat.add_assoc, Nat.add_comm 1]

/-- The write index moves on with the contents. -/
theorem write_succ (size first count : Nat) :
    ((first + count) % size + 1) % size = (first + (count + 1)) % size := by
  rw [Nat.mod_add_mod, Nat.add_assoc]

theorem write_pop (size first count : Nat) :
    ((first + 1) % size + count) % size = (first + (count + 1)) % size := by
  rw [Nat.mod_add_mod, Nat.add_assoc, Nat.add_comm 1]

end RingQueues

end MbedtlsKcp
