import Mathlib.Tactic.SplitIfs

/-!
# Windows of a circular index table

A table of `size` slots is walked with `next`.  The window from `first` up to
but excluding `last` is empty when the two agree, so a full table cannot be
told from an empty one; `window_next_last` says when adding a slot at the end
extends the window and when it makes it collapse.
-/

namespace MbedtlsKcp

namespace CyclicWindows

/-- The slot after `i`. -/
def next (size i : Nat) : Nat :=
  if size ≤ i + 1 then 0 else i + 1

/-- The number of steps from `first` to `last`. -/
def gap (size first last : Nat) : Nat :=
  if first ≤ last then last - first else last + size - first

/-- The `count` slots from `first` on. -/
def walk (size : Nat) : Nat → Nat → List Nat
  | _, 0 => []
  | first, count + 1 => first :: walk size (next size first) count

/-- The slots from `first` up to but excluding `last`. -/
def window (size first last : Nat) : List Nat :=
  walk size first (gap size first last)

section Windows

variable {size first last : Nat}

theorem next_lt (bounded : first < size) : next size first < size := by
  unfold next
  split_ifs <;> omega

theorem eq_of_next_eq {other : Nat} (bounded : first < size)
    (otherBounded : other < size) (same : next size first = next size other) :
    first = other := by
  unfold next at same
  split_ifs at same <;> omega

@[simp]
theorem gap_self : gap size first first = 0 := by
  simp [gap]

theorem gap_lt (firstBounded : first < size) (lastBounded : last < size) :
    gap size first last < size := by
  unfold gap
  split_ifs <;> omega

theorem gap_eq_zero_iff (firstBounded : first < size) :
    gap size first last = 0 ↔ first = last := by
  unfold gap
  split_ifs <;> omega

theorem gap_next_first (firstBounded : first < size)
    (lastBounded : last < size) (different : first ≠ last) :
    gap size first last = gap size (next size first) last + 1 := by
  unfold gap next
  split_ifs <;> omega

theorem gap_next_last (firstBounded : first < size)
    (lastBounded : last < size) (different : next size last ≠ first) :
    gap size first (next size last) = gap size first last + 1 := by
  unfold gap next at *
  split_ifs at * <;> omega

@[simp]
theorem window_self : window size first first = [] := by
  simp [window, walk]

theorem window_cons (firstBounded : first < size)
    (lastBounded : last < size) (different : first ≠ last) :
    window size first last = first :: window size (next size first) last := by
  rw [window, gap_next_first firstBounded lastBounded different]
  rfl

theorem walk_append_last {count : Nat} (firstBounded : first < size)
    (lastBounded : last < size) (counts : gap size first last = count) :
    walk size first (count + 1) = walk size first count ++ [last] := by
  induction count generalizing first with
  | zero =>
      obtain rfl := (gap_eq_zero_iff firstBounded).mp counts
      rfl
  | succ count ih =>
      have different : first ≠ last := by
        intro same
        rw [(gap_eq_zero_iff firstBounded).mpr same] at counts
        omega
      have tail := gap_next_first firstBounded lastBounded different
      rw [walk, ih (next_lt firstBounded) (by omega), walk, List.cons_append]

/-- Adding a slot at the end extends the window, unless the table is full. -/
theorem window_next_last (firstBounded : first < size)
    (lastBounded : last < size) :
    window size first (next size last) =
      if next size last = first then []
      else window size first last ++ [last] := by
  split_ifs with full
  · rw [full, window_self]
  · rw [window, gap_next_last firstBounded lastBounded full,
      walk_append_last firstBounded lastBounded rfl, window]

theorem mem_walk_iff {count i : Nat} (firstBounded : first < size) :
    i ∈ walk size first count ↔ i < size ∧ gap size first i < count := by
  induction count generalizing first with
  | zero => simp [walk]
  | succ count ih =>
      rw [walk, List.mem_cons, ih (next_lt firstBounded)]
      by_cases same : i = first
      · subst same
        simp [firstBounded]
      · have step : i < size →
            gap size first i = gap size (next size first) i + 1 :=
          fun bounded => gap_next_first firstBounded bounded (Ne.symm same)
        constructor
        · rintro (equal | ⟨bounded, near⟩)
          · exact absurd equal same
          · exact ⟨bounded, by rw [step bounded]; omega⟩
        · rintro ⟨bounded, near⟩
          exact .inr ⟨bounded, by rw [step bounded] at near; omega⟩

theorem mem_window_lt {i : Nat} (firstBounded : first < size)
    (member : i ∈ window size first last) : i < size :=
  ((mem_walk_iff firstBounded).mp member).1

@[simp]
theorem length_walk {count : Nat} : (walk size first count).length = count := by
  induction count generalizing first with
  | zero => rfl
  | succ count ih => rw [walk, List.length_cons, ih]

theorem walk_take {count taken : Nat} :
    (walk size first count).take taken = walk size first (min taken count) := by
  induction count generalizing first taken with
  | zero => simp [walk]
  | succ count ih =>
      cases taken with
      | zero => simp [walk]
      | succ taken =>
          rw [walk, List.take_succ_cons, ih, Nat.succ_min_succ, walk]

/-- The slots of a walk in front of one of them are a walk up to it. -/
theorem eq_walk_of_append {count slot : Nat} {front back : List Nat}
    (bounded : first < size) (short : count ≤ size)
    (splits : walk size first count = front ++ slot :: back) :
    slot < size ∧ front = walk size first (gap size first slot) := by
  induction front generalizing first count with
  | nil =>
      cases count with
      | zero => cases splits
      | succ count =>
          obtain ⟨rfl, _⟩ := List.cons.inj splits
          exact ⟨bounded, by rw [gap_self]; rfl⟩
  | cons head front ih =>
      cases count with
      | zero => cases splits
      | succ count =>
          obtain ⟨rfl, rest⟩ := List.cons.inj splits
          obtain ⟨inside, isWalk⟩ :=
            ih (next_lt bounded) (Nat.le_of_succ_le short) rest
          have member : slot ∈ walk size (next size first) count := by
            rw [rest]
            simp
          have near := ((mem_walk_iff (next_lt bounded)).mp member).2
          have different : first ≠ slot := by
            rintro rfl
            unfold gap at near
            unfold next at near
            split_ifs at near <;> omega
          refine ⟨inside, ?_⟩
          rw [gap_next_first bounded inside different, walk, isWalk]

/-- The end of a window is not in it. -/
theorem last_not_mem_window (firstBounded : first < size) :
    last ∉ window size first last :=
  fun member => Nat.lt_irrefl _ ((mem_walk_iff firstBounded).mp member).2

/-- No slot comes twice in a window. -/
theorem first_not_mem_window_next (firstBounded : first < size)
    (lastBounded : last < size) (different : first ≠ last) :
    first ∉ window size (next size first) last := by
  intro member
  have near := ((mem_walk_iff (next_lt firstBounded)).mp member).2
  have round := gap_next_first firstBounded lastBounded different
  have short := gap_lt firstBounded lastBounded
  unfold gap at near round short
  unfold next at near round
  split_ifs at near round short <;> omega

/-- Behind a slot of a filtered window come those of the window behind it. -/
theorem filter_window_next {wanted : Nat → Bool} {slot : Nat}
    {rest : List Nat} (firstBounded : first < size) (lastBounded : last < size)
    (found : (window size first last).filter wanted = slot :: rest) :
    slot < size ∧ slot ≠ last ∧
      (window size (next size slot) last).filter wanted = rest := by
  generalize counts : gap size first last = count
  induction count generalizing first with
  | zero =>
      obtain rfl := (gap_eq_zero_iff firstBounded).mp counts
      rw [window_self] at found
      cases found
  | succ count ih =>
      have different : first ≠ last := by
        intro same
        rw [(gap_eq_zero_iff firstBounded).mpr same] at counts
        omega
      rw [window_cons firstBounded lastBounded different] at found
      by_cases isWanted : wanted first
      · rw [List.filter_cons_of_pos isWanted] at found
        obtain ⟨rfl, tail⟩ := List.cons.inj found
        exact ⟨firstBounded, different, tail⟩
      · rw [List.filter_cons_of_neg isWanted] at found
        have fewer := gap_next_first firstBounded lastBounded different
        exact ih (next_lt firstBounded) found (by omega)

/-- A sum of two positions wraps at most once. -/
theorem mod_of_lt_double {x : Nat} (once : x < 2 * size) :
    x % size = if x < size then x else x - size := by
  split
  · rename_i inside
    exact Nat.mod_eq_of_lt inside
  · rename_i outside
    rw [Nat.mod_eq_sub_mod (by omega), Nat.mod_eq_of_lt (by omega)]

theorem mod_eq_gap (bounded : first < size) (inside : last < size) :
    (size + last - first) % size = gap size first last := by
  rw [mod_of_lt_double (by omega)]
  unfold gap
  split_ifs <;> omega

theorem gap_add_mod {distance : Nat} (bounded : first < size)
    (short : distance < size) :
    gap size first ((first + distance) % size) = distance := by
  rw [mod_of_lt_double (by omega)]
  unfold gap
  split_ifs <;> omega

/-- The distance between two positions that are given as distances. -/
theorem gap_mod_mod {near far : Nat} (ascends : near ≤ far)
    (notWhole : far - near < size) :
    gap size ((first + near) % size) ((first + far) % size) = far - near := by
  have splits : (first + far) % size =
      ((first + near) % size + (far - near)) % size := by
    rw [Nat.mod_add_mod]
    congr 1
    omega
  rw [splits]
  exact gap_add_mod (Nat.mod_lt _ (by omega)) notWhole

theorem add_gap_mod (bounded : first < size) (inside : last < size) :
    (first + gap size first last) % size = last := by
  have near := gap_lt bounded inside
  rw [mod_of_lt_double (by omega)]
  unfold gap at near ⊢
  split_ifs at near ⊢ <;> omega

/-- The two ways around between different positions. -/
theorem gap_add_gap (bounded : first < size) (inside : last < size)
    (different : first ≠ last) :
    gap size first last + gap size last first = size := by
  unfold gap
  split_ifs <;> omega

/-- Moving on the end of a distance lengthens it, up to a whole turn. -/
theorem gap_advance_last {count : Nat} (bounded : first < size)
    (inside : last < size) (short : count < size) :
    gap size first ((last + count) % size) =
      (gap size first last + count) % size := by
  have near := gap_lt bounded inside
  rw [mod_of_lt_double (show last + count < 2 * size by omega),
    mod_of_lt_double (show gap size first last + count < 2 * size by omega)]
  unfold gap at near ⊢
  split_ifs at near ⊢ <;> omega

end Windows

end CyclicWindows

end MbedtlsKcp
