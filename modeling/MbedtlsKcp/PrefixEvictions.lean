import Mathlib.Algebra.Order.Ring.Nat
import Mathlib.Data.List.Basic
import Mathlib.Algebra.BigOperators.Group.List.Basic

/-!
# Evicting from the front

Items with a weight stand in a list.  They are taken away from its front, and
only while what is left weighs more than a bound.
-/

namespace MbedtlsKcp

namespace PrefixEvictions

variable {α : Type} (weight : α → Nat)

def load (items : List α) : Nat :=
  (items.map weight).sum

@[simp]
theorem load_nil : load weight [] = 0 :=
  rfl

@[simp]
theorem load_cons (item : α) (items : List α) :
    load weight (item :: items) = weight item + load weight items := by
  simp [load]

@[simp]
theorem load_append (first second : List α) :
    load weight (first ++ second) = load weight first + load weight second := by
  simp [load]

theorem load_perm {first second : List α} (same : first.Perm second) :
    load weight first = load weight second :=
  (same.map weight).sum_eq

/-- `gone` has been taken from the front of `items` and `kept` is left; the
bound was exceeded before each step. -/
structure Evicted (bound : Int) (items gone kept : List α) : Prop where
  split : gone ++ kept = items
  heavy : ∀ before item after, gone = before ++ item :: after →
    bound < load weight (item :: (after ++ kept))

variable {weight} {bound : Int}

theorem Evicted.none (items : List α) : Evicted weight bound items [] items where
  split := rfl
  heavy before item after impossible := by simp at impossible

/-- One more step at the front. -/
theorem Evicted.cons {item : α} {items gone kept : List α}
    (exceeds : bound < load weight (item :: items))
    (evicted : Evicted weight bound items gone kept) :
    Evicted weight bound (item :: items) (item :: gone) kept where
  split := by rw [List.cons_append, evicted.split]
  heavy := by
    intro before other after same
    cases before with
    | nil =>
        simp only [List.nil_append, List.cons.injEq] at same
        obtain ⟨rfl, rfl⟩ := same
        rw [evicted.split]
        exact exceeds
    | cons first before =>
        simp only [List.cons_append, List.cons.injEq] at same
        exact evicted.heavy before other after same.2

/-- The items that must go before the rest weighs no more than the bound. -/
def victims (weight : α → Nat) (bound : Int) : List α → List α
  | [] => []
  | item :: items =>
      if bound < load weight (item :: items) then
        item :: victims weight bound items
      else []

theorem victims_eq_nil {items : List α} (light : load weight items ≤ bound) :
    victims weight bound items = [] := by
  cases items with
  | nil => rfl
  | cons item items =>
      simp only [victims]
      rw [if_neg (by omega)]

/-- What is taken from an ordered list comes before what is left. -/
theorem Evicted.ordered {relation : α → α → Prop} {items gone kept : List α}
    (evicted : Evicted weight bound items gone kept)
    (sorted : items.Pairwise relation) :
    ∀ first ∈ gone, ∀ second ∈ kept, relation first second := by
  rw [← evicted.split, List.pairwise_append] at sorted
  exact sorted.2.2

end PrefixEvictions

end MbedtlsKcp
