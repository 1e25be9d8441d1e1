import Mathlib.Data.List.Basic

/-!
# Steps that can fail

Inversion of sequenced steps in `Except`, and the induction rule for loops that
thread a state through such steps.
-/

namespace MbedtlsKcp

namespace FallibleSteps

universe u v

variable {ε : Type u} {α β : Type v}

theorem bind_eq_ok_iff {first : Except ε α} {second : α → Except ε β}
    {result : β} :
    first >>= second = .ok result ↔
      ∃ middle, first = .ok middle ∧ second middle = .ok result := by
  cases first with
  | error fault =>
      constructor
      · intro returns
        cases returns
      · rintro ⟨middle, returns, _⟩
        cases returns
  | ok value =>
      constructor
      · intro returns
        exact ⟨value, rfl, returns⟩
      · rintro ⟨middle, isValue, returns⟩
        cases isValue
        exact returns

theorem pure_eq_ok_iff {value result : α} :
    (pure value : Except ε α) = .ok result ↔ value = result :=
  ⟨Except.ok.inj, congrArg Except.ok⟩

theorem toOption_eq_some_iff {returned : Except ε α} {result : α} :
    returned.toOption = some result ↔ returned = .ok result := by
  cases returned with
  | error fault => simp [Except.toOption]
  | ok value => simp [Except.toOption]

/-- A fault of a sequence comes from one of its steps. -/
theorem bind_eq_error_iff {first : Except ε α} {second : α → Except ε β}
    {fault : ε} :
    first >>= second = .error fault ↔
      first = .error fault ∨
        ∃ middle, first = .ok middle ∧ second middle = .error fault := by
  cases first with
  | error other =>
      constructor
      · intro fails
        cases fails
        exact .inl rfl
      · rintro (fails | ⟨middle, returns, _⟩)
        · cases fails
          rfl
        · cases returns
  | ok value =>
      constructor
      · intro fails
        exact .inr ⟨value, rfl, fails⟩
      · rintro (fails | ⟨middle, isValue, fails⟩)
        · cases fails
        · cases isValue
          exact fails

/-- What every round of a loop keeps, the loop keeps. -/
theorem foldlM_invariant {step : β → α → Except ε β} {labels : List α}
    (property : β → Prop)
    (preserves : ∀ before, ∀ label ∈ labels, ∀ after, property before →
      step before label = .ok after → property after)
    {first last : β} (starts : property first)
    (runs : labels.foldlM step first = .ok last) : property last := by
  induction labels generalizing first with
  | nil =>
      obtain rfl := pure_eq_ok_iff.mp runs
      exact starts
  | cons label labels ih =>
      rw [List.foldlM_cons, bind_eq_ok_iff] at runs
      obtain ⟨middle, steps, rest⟩ := runs
      exact ih
        (fun before other member => preserves before other (by simp [member]))
        (preserves first label (by simp) middle starts steps) rest

/-- A loop whose rounds return from states of the invariant returns. -/
theorem foldlM_returns {step : β → α → Except ε β} {labels : List α}
    (property : β → Prop)
    (progress : ∀ before, ∀ label ∈ labels, property before →
      ∃ after, step before label = .ok after ∧ property after)
    {first : β} (starts : property first) :
    ∃ last, labels.foldlM step first = .ok last ∧ property last := by
  induction labels generalizing first with
  | nil => exact ⟨first, rfl, starts⟩
  | cons label labels ih =>
      obtain ⟨middle, steps, kept⟩ := progress first label (by simp) starts
      obtain ⟨last, rest, lastKept⟩ := ih
        (fun before other member => progress before other (by simp [member]))
        kept
      refine ⟨last, ?_, lastKept⟩
      rw [List.foldlM_cons, steps]
      exact rest

end FallibleSteps

end MbedtlsKcp
