import Mathlib.Data.List.Basic
import Mathlib.Data.Nat.Find

/-!
# Transfers in chunks

Data is read chunk by chunk until a read finds nothing, and every chunk is
written before the next one is read.  A read may fail, and a write may take
less than it is given.
-/

namespace MbedtlsKcp

namespace ChunkedTransfers

/-- How the calls of a transfer go, by their number. -/
structure Transfers where
  reads : Nat → Bool
  /-- The most that the write takes. -/
  written : Nat → Nat

/-- The calls after the first round. -/
def Transfers.later (calls : Transfers) : Transfers where
  reads call := calls.reads (call + 1)
  written call := calls.written (call + 1)

inductive Ending
  | whole
  | readFailed
  | writeFailed
  deriving DecidableEq

variable {α : Type}

/-- How the transfer ends, and what has been written by then. -/
def transfer (size : Nat) (calls : Transfers) (data : List α) :
    Ending × List α :=
  if calls.reads 0 = false then (.readFailed, [])
  else if (data.take size).length = 0 then (.whole, [])
  else if calls.written 0 < (data.take size).length then
    (.writeFailed, (data.take size).take (calls.written 0))
  else
    let rest := transfer size calls.later (data.drop size)
    (rest.1, data.take size ++ rest.2)
termination_by data.length
decreasing_by
  simp only [List.length_take] at *
  simp only [List.length_drop]
  omega

namespace Transfers

variable (calls : Transfers) (size length : Nat)

/-- The round of this number begins when none before it has failed. -/
def Begins (call : Nat) : Prop :=
  size * call < length + size

/-- The read of a round succeeds, and its write takes the chunk. -/
def Goes (call : Nat) : Prop :=
  calls.reads call = true ∧
    (size * call < length → min size (length - size * call) ≤ calls.written call)

/-- No call of the transfer fails. -/
def Whole : Prop :=
  ∀ call, Begins size length call → calls.Goes size length call

/-- The round of this number is the first that fails. -/
structure StopsAt (call : Nat) : Prop where
  begins : Begins size length call
  before : ∀ earlier < call, calls.Goes size length earlier
  fails : ¬ calls.Goes size length call

/-- How much has been written when the round of this number fails. -/
def stored (call : Nat) : Nat :=
  size * call + if calls.reads call then calls.written call else 0

instance (call : Nat) : Decidable (calls.Goes size length call) :=
  inferInstanceAs (Decidable (_ ∧ _))

variable {calls size length}

/-- The rounds before one that begins have begun. -/
theorem Begins.of_le {earlier call : Nat} (begins : Begins size length call)
    (before : earlier ≤ call) : Begins size length earlier := by
  have grows : size * earlier ≤ size * call := Nat.mul_le_mul_left size before
  unfold Begins at begins ⊢
  omega

theorem whole_or_stopsAt :
    calls.Whole size length ∨ ∃ call, calls.StopsAt size length call := by
  classical
  by_cases fails : ∃ call, Begins size length call ∧
      ¬ calls.Goes size length call
  · right
    obtain ⟨begins, stops⟩ := Nat.find_spec fails
    refine ⟨Nat.find fails, begins, fun earlier before => ?_, stops⟩
    by_contra broken
    exact Nat.find_min fails before
      ⟨begins.of_le (Nat.le_of_lt before), broken⟩
  · left
    intro call begins
    by_contra broken
    exact fails ⟨call, begins, broken⟩

theorem StopsAt.unique {first second : Nat}
    (stops : calls.StopsAt size length first)
    (again : calls.StopsAt size length second) : first = second := by
  obtain earlier | same | later := Nat.lt_trichotomy first second
  · exact absurd (again.before first earlier) stops.fails
  · exact same
  · exact absurd (stops.before second later) again.fails

/-- A round of the rest is the next round of the whole. -/
theorem begins_later {call : Nat} (positive : 0 < size) (data : 0 < length) :
    Begins size (length - size) call ↔ Begins size length (call + 1) := by
  unfold Begins
  rw [Nat.mul_succ]
  cases call with
  | zero => omega
  | succ call =>
      rw [Nat.mul_succ]
      omega

theorem goes_later {call : Nat} :
    calls.later.Goes size (length - size) call ↔
      calls.Goes size length (call + 1) := by
  unfold Goes later
  rw [Nat.mul_succ]
  have same : length - size - size * call = length - (size * call + size) := by
    omega
  have reached : size * call < length - size ↔ size * call + size < length := by
    omega
  rw [same, reached]

theorem Whole.later (whole : calls.Whole size length) (positive : 0 < size)
    (data : 0 < length) : calls.later.Whole size (length - size) :=
  fun call begins =>
    goes_later.2 (whole (call + 1) ((begins_later positive data).1 begins))

theorem StopsAt.later {call : Nat}
    (stops : calls.StopsAt size length (call + 1)) (positive : 0 < size)
    (data : 0 < length) : calls.later.StopsAt size (length - size) call where
  begins := (begins_later positive data).2 stops.begins
  before earlier before :=
    goes_later.2 (stops.before (earlier + 1) (Nat.succ_lt_succ before))
  fails goes := stops.fails (goes_later.1 goes)

theorem stored_succ (call : Nat) :
    calls.stored size (call + 1) = size + calls.later.stored size call := by
  cases reads : calls.reads (call + 1) with
  | false => simp [stored, later, reads, Nat.mul_succ, Nat.add_comm]
  | true =>
      simp only [stored, later, reads, Nat.mul_succ, if_true]
      omega

end Transfers

/-- What a first round that goes through leaves to do. -/
theorem transfer_of_goes {size : Nat} {calls : Transfers} {data : List α}
    (goes : calls.Goes size data.length 0) (positive : 0 < size)
    (left : 0 < data.length) :
    transfer size calls data =
      ((transfer size calls.later (data.drop size)).1,
        data.take size ++ (transfer size calls.later (data.drop size)).2) := by
  have taken := goes.2 (by simpa using left)
  rw [Nat.mul_zero, Nat.sub_zero] at taken
  rw [transfer]
  have some : ¬ (data.take size).length = 0 := by
    rw [List.length_take]
    omega
  have room : ¬ calls.written 0 < (data.take size).length := by
    rw [List.length_take]
    omega
  rw [if_neg (by simp [goes.1]), if_neg some, if_neg room]

theorem transfer_of_whole {size : Nat} (positive : 0 < size)
    {calls : Transfers} {data : List α}
    (whole : calls.Whole size data.length) :
    transfer size calls data = (.whole, data) := by
  induction length : data.length using Nat.strong_induction_on
    generalizing data calls with
  | _ total ih =>
      have first := whole 0 (by
        unfold Transfers.Begins
        omega)
      by_cases left : 0 < data.length
      · have rest := whole.later positive left
        rw [← List.length_drop] at rest
        have shorter : (data.drop size).length < total := by
          rw [List.length_drop]
          omega
        rw [transfer_of_goes first positive left, ih _ shorter rest rfl]
        simp
      · have empty : data = [] := List.eq_nil_of_length_eq_zero (by omega)
        subst empty
        rw [transfer]
        simp [first.1]

theorem transfer_of_stopsAt {size : Nat} (positive : 0 < size)
    {calls : Transfers} {data : List α} {call : Nat}
    (stops : calls.StopsAt size data.length call) :
    (transfer size calls data).1 ≠ .whole ∧
      (transfer size calls data).2 = data.take (calls.stored size call) := by
  induction call generalizing calls data with
  | zero =>
      have fails := stops.fails
      rw [transfer]
      cases reads : calls.reads 0 with
      | false => simp [Transfers.stored, reads]
      | true =>
          simp only [Transfers.Goes, reads, true_and, Nat.mul_zero,
            Nat.sub_zero, Classical.not_imp, not_le] at fails
          have some : ¬ (data.take size).length = 0 := by
            rw [List.length_take]
            omega
          have short : calls.written 0 < (data.take size).length := by
            rw [List.length_take]
            omega
          have within : min (calls.written 0) size = calls.written 0 := by
            omega
          rw [if_neg (by simp), if_neg some, if_pos short]
          simp [Transfers.stored, reads, List.take_take, within]
  | succ call ih =>
      have left : 0 < data.length := by
        have begins := stops.begins
        unfold Transfers.Begins at begins
        have round : size * (call + 1) = size * call + size := Nat.mul_succ _ _
        omega
      have rest := stops.later positive left
      rw [← List.length_drop] at rest
      have after := ih rest
      rw [transfer_of_goes (stops.before 0 (Nat.succ_pos call)) positive left]
      refine ⟨after.1, ?_⟩
      rw [after.2, Transfers.stored_succ, List.take_add]

end ChunkedTransfers

end MbedtlsKcp
