import Mathlib.Algebra.Order.Ring.Nat
import Mathlib.Data.List.Basic

/-!
# Arrays with a packed prefix

An array of fixed size keeps its entries in its first slots and a filler in
the others.  An entry is removed by copying the entries behind it down by one
and clearing the last of them.
-/

namespace MbedtlsKcp

namespace PackedSlots

variable {α : Type*} {filler : α} {size : Nat} {slots entries : List α}

/-- The first slots hold `entries` and the others the filler. -/
structure Packed (filler : α) (size : Nat) (slots entries : List α) :
    Prop where
  fits : entries.length ≤ size
  slots_eq :
    slots = entries ++ List.replicate (size - entries.length) filler

/-- Copies `remaining` slots down by one, the one behind `position` first;
`none` when there is no such slot. -/
def shiftDown : List α → Nat → Nat → Option (List α)
  | slots, _, 0 => some slots
  | slots, position, remaining + 1 => do
      let next ← slots[position + 1]?
      shiftDown (slots.set position next) (position + 1) remaining

/-- The slots after one of the first `count` entries is removed. -/
def removeAt (filler : α) (slots : List α) (count position : Nat) :
    Option (List α) := do
  let shifted ← shiftDown slots position (count - 1 - position)
  if count - 1 < shifted.length then
    return shifted.set (count - 1) filler
  else none

theorem shiftDown_append (before rest after : List α) (first : α) :
    ∃ last, shiftDown (before ++ first :: (rest ++ after)) before.length
        rest.length = some (before ++ rest ++ last :: after) := by
  induction rest generalizing before first with
  | nil => exact ⟨first, by simp [shiftDown]⟩
  | cons next rest ih =>
      obtain ⟨last, shifts⟩ := ih (before ++ [next]) next
      refine ⟨last, ?_⟩
      have isNext : (before ++ first :: (next :: rest ++ after))[
          before.length + 1]? = some next := by
        rw [List.getElem?_append_right (by omega)]
        simp
      rw [List.length_cons, shiftDown, isNext, Option.bind_eq_bind,
        Option.bind_some]
      have set : (before ++ first :: (next :: rest ++ after)).set
          before.length next =
          before ++ [next] ++ next :: (rest ++ after) := by
        simp
      rw [set]
      simpa using shifts

theorem Packed.length_slots (packed : Packed filler size slots entries) :
    slots.length = size := by
  have fits := packed.fits
  rw [packed.slots_eq, List.length_append, List.length_replicate]
  omega

theorem Packed.getElem?_eq (packed : Packed filler size slots entries)
    {i : Nat} (inside : i < entries.length) : slots[i]? = entries[i]? := by
  rw [packed.slots_eq, List.getElem?_append_left inside]

theorem Packed.take_eq (packed : Packed filler size slots entries) :
    slots.take entries.length = entries := by
  rw [packed.slots_eq, List.take_left']
  rfl

theorem Packed.getElem?_filler (packed : Packed filler size slots entries)
    {i : Nat} (behind : entries.length ≤ i) (inside : i < size) :
    slots[i]? = some filler := by
  rw [packed.slots_eq, List.getElem?_append_right behind,
    List.getElem?_replicate, if_pos (by omega)]

theorem packed_nil (filler : α) (size : Nat) :
    Packed filler size (List.replicate size filler) [] :=
  ⟨Nat.zero_le _, by simp⟩

theorem Packed.append (packed : Packed filler size slots entries)
    (room : entries.length < size) (entry : α) :
    Packed filler size (slots.set entries.length entry)
      (entries ++ [entry]) := by
  refine ⟨by rw [List.length_append, List.length_singleton]; omega, ?_⟩
  obtain ⟨spare, isSpare⟩ := Nat.exists_eq_succ_of_ne_zero
    (by omega : size - entries.length ≠ 0)
  have left : size - (entries ++ [entry]).length = spare := by
    rw [List.length_append, List.length_singleton]
    omega
  rw [left, packed.slots_eq, isSpare, List.replicate_succ,
    List.set_append_right _ _ (Nat.le_refl _)]
  simp

theorem Packed.set (packed : Packed filler size slots entries)
    {position : Nat} (inside : position < entries.length) (entry : α) :
    Packed filler size (slots.set position entry)
      (entries.set position entry) := by
  refine ⟨by simpa using packed.fits, ?_⟩
  rw [packed.slots_eq, List.set_append_left _ _ inside, List.length_set]

/-- Removing an entry keeps the others in order. -/
theorem Packed.removeAt (packed : Packed filler size slots entries)
    {position : Nat} (inside : position < entries.length) :
    ∃ removed,
      PackedSlots.removeAt filler slots entries.length position =
        some removed ∧
      Packed filler size removed (entries.eraseIdx position) := by
  have fits := packed.fits
  have split : entries = entries.take position ++
      entries[position] :: entries.drop (position + 1) := by
    rw [List.getElem_cons_drop, List.take_append_drop]
  have before : (entries.take position).length = position := by
    rw [List.length_take]
    omega
  have rest : (entries.drop (position + 1)).length =
      entries.length - 1 - position := by
    rw [List.length_drop]
    omega
  obtain ⟨last, shifts⟩ := shiftDown_append (entries.take position)
    (entries.drop (position + 1))
    (List.replicate (size - entries.length) filler) entries[position]
  have isSlots : entries.take position ++ entries[position] ::
      (entries.drop (position + 1) ++
        List.replicate (size - entries.length) filler) = slots := by
    rw [← List.cons_append, ← List.append_assoc, ← split, packed.slots_eq]
  rw [isSlots, before, rest] at shifts
  have kept : (entries.take position ++ entries.drop (position + 1)).length =
      entries.length - 1 := by
    rw [List.length_append, before, rest]
    omega
  refine ⟨(entries.take position ++ entries.drop (position + 1) ++
      last :: List.replicate (size - entries.length) filler).set
        (entries.length - 1) filler, ?_, ?_⟩
  · rw [PackedSlots.removeAt, shifts, Option.bind_eq_bind, Option.bind_some,
      if_pos (by rw [List.length_append, kept]; simp)]
    rfl
  · have cleared : (entries.take position ++ entries.drop (position + 1) ++
        last :: List.replicate (size - entries.length) filler).set
          (entries.length - 1) filler =
        entries.take position ++ entries.drop (position + 1) ++
          filler :: List.replicate (size - entries.length) filler := by
      rw [List.set_append_right _ _ (by omega), kept, Nat.sub_self,
        List.set_cons_zero]
    rw [cleared, List.eraseIdx_eq_take_drop_succ]
    refine ⟨by omega, ?_⟩
    rw [kept, ← List.replicate_succ]
    congr 2
    omega

end PackedSlots

end MbedtlsKcp
