import Mathlib.Algebra.Order.Ring.Nat
import Mathlib.Data.List.Basic

/-!
# Walkers that move in rounds

Every walker has a list of stops ahead of it, and some stops are short.  A
round moves the walkers at a short stop or, when there is none, all that have
not arrived.  `rounds` is the number of rounds until all have arrived: the
walkers leave a stop that is not short together, so the rounds of a stage
between two such stops are those of the longest stage.
-/

namespace MbedtlsKcp

namespace PacedWalks

variable {α : Type*} (short : α → Bool)

/-- The numbers of short stops in front of, between and behind the others. -/
def stages : List α → List Nat
  | [] => [0]
  | stop :: stops =>
      if short stop then (stages stops).modifyHead (· + 1)
      else 0 :: stages stops

/-- The larger number at every place. -/
def pointwiseMax : List Nat → List Nat → List Nat
  | [], others => others
  | counts, [] => counts
  | count :: counts, other :: others =>
      max count other :: pointwiseMax counts others

/-- The longest of the first stages, of the second ones and so on. -/
def longestStages (walkers : List (List α)) : List Nat :=
  (walkers.map (stages short)).foldr pointwiseMax []

/-- The number of rounds until all walkers have arrived. -/
def rounds (walkers : List (List α)) : Nat :=
  (longestStages short walkers).sum + ((longestStages short walkers).length - 1)

/-- The next stop is short. -/
def AtShort (stops : List α) : Prop :=
  stops.head?.any short = true

instance (stops : List α) : Decidable (AtShort short stops) :=
  inferInstanceAs (Decidable (_ = _))

/-- What a round does to one walker, when some walker is at a short stop or
when none is. -/
def moveOne (someShort : Prop) [Decidable someShort] (stops : List α) :
    List α :=
  if someShort → AtShort short stops then stops.tail else stops

/-- One round. -/
def move (walkers : List (List α)) : List (List α) :=
  walkers.map (moveOne short (∃ stops ∈ walkers, AtShort short stops))

section Stages

variable {short}

theorem moveOne_of_short {someShort : Prop} [Decidable someShort]
    (isSome : someShort) (stops : List α) :
    moveOne short someShort stops =
      if AtShort short stops then stops.tail else stops := by
  unfold moveOne
  by_cases isShort : AtShort short stops
  · rw [if_pos fun _ => isShort, if_pos isShort]
  · rw [if_neg fun moves => isShort (moves isSome), if_neg isShort]

theorem moveOne_of_none {someShort : Prop} [Decidable someShort]
    (isNone : ¬ someShort) (stops : List α) :
    moveOne short someShort stops = stops.tail :=
  if_pos fun isSome => absurd isSome isNone

theorem stages_ne_nil (stops : List α) : stages short stops ≠ [] := by
  induction stops with
  | nil => exact List.cons_ne_nil 0 []
  | cons stop stops ih =>
      rw [stages]
      split
      · cases tail : stages short stops with
        | nil => exact absurd tail ih
        | cons count counts => exact List.cons_ne_nil _ _
      · exact List.cons_ne_nil _ _

theorem stages_of_atShort {stops : List α} (isShort : AtShort short stops) :
    ∃ count counts, stages short stops = (count + 1) :: counts ∧
      stages short stops.tail = count :: counts := by
  cases stops with
  | nil => cases isShort
  | cons stop stops =>
      have first : short stop = true := isShort
      rw [stages, if_pos first, List.tail_cons]
      cases tail : stages short stops with
      | nil => exact absurd tail (stages_ne_nil stops)
      | cons count counts => exact ⟨count, counts, rfl, rfl⟩

theorem stages_of_not_atShort {stops : List α}
    (notShort : ¬ AtShort short stops) (left : stops ≠ []) :
    stages short stops = 0 :: stages short stops.tail := by
  cases stops with
  | nil => exact absurd rfl left
  | cons stop stops =>
      have first : ¬ short stop = true := notShort
      rw [stages, if_neg first, List.tail_cons]

theorem head?_stages_of_not_atShort {stops : List α}
    (notShort : ¬ AtShort short stops) :
    ∃ counts, stages short stops = 0 :: counts := by
  cases stops with
  | nil => exact ⟨[], rfl⟩
  | cons stop stops =>
      exact ⟨_, stages_of_not_atShort notShort (List.cons_ne_nil stop stops)⟩

@[simp]
theorem pointwiseMax_nil (counts : List Nat) :
    pointwiseMax counts [] = counts := by
  cases counts <;> rfl

theorem longestStages_cons (stops : List α) (walkers : List (List α)) :
    longestStages short (stops :: walkers) =
      pointwiseMax (stages short stops) (longestStages short walkers) :=
  rfl

theorem pointwiseMax_modifyHead (counts others : List Nat) :
    pointwiseMax (counts.modifyHead (· - 1)) (others.modifyHead (· - 1)) =
      (pointwiseMax counts others).modifyHead (· - 1) := by
  cases counts with
  | nil => rfl
  | cons count counts =>
      cases others with
      | nil => rfl
      | cons other others =>
          simp only [List.modifyHead_cons, pointwiseMax]
          congr 1
          omega

/-- A round over the short stops shortens the first stage of every walker that
has one. -/
theorem stages_moveOne_of_short {someShort : Prop} [Decidable someShort]
    (isSome : someShort) (stops : List α) :
    stages short (moveOne short someShort stops) =
      (stages short stops).modifyHead (· - 1) := by
  rw [moveOne_of_short isSome]
  by_cases isShort : AtShort short stops
  · rw [if_pos isShort]
    obtain ⟨count, counts, whole, tail⟩ := stages_of_atShort isShort
    rw [whole, tail]
    rfl
  · rw [if_neg isShort]
    obtain ⟨counts, whole⟩ := head?_stages_of_not_atShort isShort
    rw [whole]
    rfl

theorem longestStages_map_of_short {someShort : Prop} [Decidable someShort]
    (isSome : someShort) (walkers : List (List α)) :
    longestStages short (walkers.map (moveOne short someShort)) =
      (longestStages short walkers).modifyHead (· - 1) := by
  induction walkers with
  | nil => rfl
  | cons stops walkers ih =>
      rw [List.map_cons, longestStages_cons, longestStages_cons, ih,
        stages_moveOne_of_short isSome, pointwiseMax_modifyHead]

/-- A walker at a short stop makes the longest first stage positive. -/
theorem longestStages_of_atShort {walkers : List (List α)} {stops : List α}
    (member : stops ∈ walkers) (isShort : AtShort short stops) :
    ∃ count counts, longestStages short walkers = (count + 1) :: counts := by
  induction walkers with
  | nil => cases member
  | cons head walkers ih =>
      rw [longestStages_cons]
      rcases List.mem_cons.mp member with rfl | later
      · obtain ⟨count, counts, whole, _⟩ := stages_of_atShort isShort
        rw [whole]
        cases longestStages short walkers with
        | nil => exact ⟨count, counts, rfl⟩
        | cons other others =>
            refine ⟨max count (other - 1), pointwiseMax counts others, ?_⟩
            rw [pointwiseMax]
            congr 1
            omega
      · obtain ⟨count, counts, whole⟩ := ih later
        rw [whole]
        cases stages short head with
        | nil => exact ⟨count, counts, rfl⟩
        | cons other others =>
            refine ⟨max (other - 1) count, pointwiseMax others counts, ?_⟩
            rw [pointwiseMax]
            congr 1
            omega

/-- When no walker is at a short stop, the first stages are empty, and they are
over for all walkers at once. -/
theorem longestStages_tail {walkers : List (List α)}
    (noShort : ∀ stops ∈ walkers, ¬ AtShort short stops) :
    ((∀ stops ∈ walkers, stops = []) ∧
        (longestStages short walkers = [] ∨
          longestStages short walkers = [0])) ∨
      (∃ stops ∈ walkers, stops ≠ []) ∧ ∃ count counts,
        longestStages short walkers = 0 :: count :: counts ∧
        longestStages short (walkers.map List.tail) = count :: counts := by
  induction walkers with
  | nil => exact .inl ⟨by simp, .inl rfl⟩
  | cons stops walkers ih =>
      obtain ⟨here, later⟩ := List.forall_mem_cons.mp noShort
      simp only [List.map_cons, longestStages_cons]
      by_cases arrived : stops = []
      · subst arrived
        rcases ih later with ⟨all, rest⟩ | ⟨⟨other, member, left⟩, rest⟩
        · refine .inl ⟨by simpa using all, .inr ?_⟩
          rcases rest with rest | rest
          · rw [rest]
            rfl
          · rw [rest]
            rfl
        · refine .inr ⟨⟨other, by simp [member], left⟩, ?_⟩
          obtain ⟨count, counts, whole, tails⟩ := rest
          refine ⟨count, counts, ?_, ?_⟩
          · rw [whole]
            rfl
          · rw [tails, List.tail_nil, stages, pointwiseMax, Nat.zero_max]
            rfl
      · refine .inr ⟨⟨stops, by simp, arrived⟩, ?_⟩
        rw [stages_of_not_atShort here arrived]
        cases tail : stages short stops.tail with
        | nil => exact absurd tail (stages_ne_nil stops.tail)
        | cons count counts =>
            rcases ih later with ⟨all, rest⟩ | ⟨_, rest⟩
            · have kept : walkers.map List.tail = walkers.map id := by
                apply List.map_congr_left
                intro other member
                rw [all other member]
                rfl
              rw [kept, List.map_id]
              rcases rest with rest | rest
              · rw [rest]
                exact ⟨count, counts, rfl, rfl⟩
              · rw [rest]
                refine ⟨count, counts, ?_, ?_⟩
                · simp [pointwiseMax]
                · simp [pointwiseMax]
            · obtain ⟨other, others, whole, tails⟩ := rest
              rw [whole, tails]
              exact ⟨max count other, pointwiseMax counts others, rfl, rfl⟩

end Stages

section Rounds

variable {short} {walkers : List (List α)}

/-- No rounds are needed when all have arrived. -/
theorem rounds_of_arrived (arrived : ∀ stops ∈ walkers, stops = []) :
    rounds short walkers = 0 := by
  have noShort : ∀ stops ∈ walkers, ¬ AtShort short stops := by
    intro stops member isShort
    rw [arrived stops member] at isShort
    cases isShort
  rcases longestStages_tail noShort with ⟨_, none | home⟩ |
    ⟨⟨stops, member, left⟩, _⟩
  · rw [rounds, none]
    rfl
  · rw [rounds, home]
    rfl
  · exact absurd (arrived stops member) left

/-- Every round before all have arrived is one less to go. -/
theorem rounds_move (left : ∃ stops ∈ walkers, stops ≠ []) :
    rounds short walkers = rounds short (move short walkers) + 1 := by
  by_cases someShort : ∃ stops ∈ walkers, AtShort short stops
  · obtain ⟨stops, member, isShort⟩ := id someShort
    obtain ⟨count, counts, whole⟩ := longestStages_of_atShort member isShort
    rw [rounds, rounds, move, longestStages_map_of_short someShort, whole]
    simp only [List.modifyHead_cons, List.sum_cons, List.length_cons]
    omega
  · have noShort : ∀ stops ∈ walkers, ¬ AtShort short stops :=
      fun stops member isShort => someShort ⟨stops, member, isShort⟩
    have tails : move short walkers = walkers.map List.tail := by
      apply List.map_congr_left
      exact fun stops _ => moveOne_of_none someShort stops
    rcases longestStages_tail noShort with ⟨arrived, _⟩ |
      ⟨_, count, counts, whole, rest⟩
    · obtain ⟨stops, member, remains⟩ := left
      exact absurd (arrived stops member) remains
    · rw [rounds, rounds, tails, whole, rest]
      simp only [List.sum_cons, List.length_cons]
      omega

end Rounds

end PacedWalks

end MbedtlsKcp
