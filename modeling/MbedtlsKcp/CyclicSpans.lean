import MbedtlsKcp.CyclicWindows
import Mathlib.Data.List.Pairwise
import Mathlib.Data.Nat.ModEq

/-!
# First fit between the spans of a circular buffer

Seen from an origin, an arc of a circular buffer that does not cross the origin
is a span of distances.  Spans that are given by ascending starts can be merged
where they touch; the first fit of a length is then found by jumping from the
end of one merged span to the end of the next.
-/

namespace MbedtlsKcp

namespace CyclicSpans

open CyclicWindows

structure Span where
  start : Nat
  stop : Nat

/-- The `count` positions from `first` on are not in the span. -/
def Span.Avoids (span : Span) (first count : Nat) : Prop :=
  span.stop ≤ first ∨ first + count ≤ span.start

/-- Add a span behind merged ones.  The merged spans are kept last first. -/
def absorb (merged : List Span) (span : Span) : List Span :=
  match merged with
  | [] => [span]
  | last :: others =>
      if span.start ≤ last.stop then
        ⟨last.start, max last.stop span.stop⟩ :: others
      else
        span :: last :: others

/-- The first position from `first` on where `count` positions are free,
looking at ascending spans one after the other. -/
def firstFit (count : Nat) : List Span → Nat → Nat
  | [], first => first
  | span :: spans, first =>
      if first + count ≤ span.start then first
      else firstFit count spans span.stop

/-- The arc from `first` up to `last` as it is seen from `origin`. -/
def arc (size origin first last : Nat) : Span where
  start := gap size origin first
  stop := gap size origin first + gap size first last

/-- Merged spans, the last one first, have gaps between them. -/
structure Stacked (merged : List Span) : Prop where
  apart : merged.Pairwise fun later earlier => earlier.stop < later.start
  proper : ∀ span ∈ merged, span.start < span.stop

section Merging

variable {merged : List Span} {span : Span}

/-- The merged span that is last starts at most where the next one starts. -/
def Precedes (merged : List Span) (span : Span) : Prop :=
  ∀ last ∈ merged.head?, last.start ≤ span.start

theorem Stacked.absorb (stacked : Stacked merged)
    (proper : span.start < span.stop) (precedes : Precedes merged span) :
    Stacked (absorb merged span) := by
  cases merged with
  | nil =>
      refine ⟨List.pairwise_singleton _ _, ?_⟩
      intro other member
      obtain rfl := List.mem_singleton.mp member
      exact proper
  | cons last others =>
      have before := precedes last rfl
      obtain ⟨behind, apart⟩ := List.pairwise_cons.mp stacked.apart
      have lastProper := stacked.proper last List.mem_cons_self
      rw [CyclicSpans.absorb]
      split
      · constructor
        · exact List.pairwise_cons.mpr ⟨behind, apart⟩
        · intro other member
          rcases List.mem_cons.mp member with rfl | old
          · exact Nat.lt_of_lt_of_le lastProper (Nat.le_max_left _ _)
          · exact stacked.proper other (List.mem_cons_of_mem _ old)
      · rename_i separate
        constructor
        · refine List.pairwise_cons.mpr ⟨?_, stacked.apart⟩
          intro other member
          rcases List.mem_cons.mp member with rfl | old
          · omega
          · have := behind other old
            omega
        · intro other member
          rcases List.mem_cons.mp member with rfl | old
          · exact proper
          · exact stacked.proper other old

theorem precedes_absorb (precedes : Precedes merged span) {next : Span}
    (ascends : span.start ≤ next.start) :
    Precedes (absorb merged span) next := by
  intro head isHead
  cases merged with
  | nil =>
      obtain rfl := Option.some.inj isHead
      exact ascends
  | cons last others =>
      have before := precedes last rfl
      rw [absorb] at isHead
      split at isHead
      · obtain rfl := Option.some.inj isHead
        exact Nat.le_trans before ascends
      · obtain rfl := Option.some.inj isHead
        exact ascends

/-- Every span is part of a merged one. -/
theorem exists_absorb_of_mem {other : Span} (precedes : Precedes merged span)
    (member : other ∈ span :: merged) :
    ∃ whole ∈ absorb merged span,
      whole.start ≤ other.start ∧ other.stop ≤ whole.stop := by
  cases merged with
  | nil => exact ⟨other, member, Nat.le_refl _, Nat.le_refl _⟩
  | cons last others =>
      have before := precedes last rfl
      rw [absorb]
      split
      · rcases List.mem_cons.mp member with rfl | member
        · exact ⟨_, List.mem_cons_self, before, Nat.le_max_right _ _⟩
        · rcases List.mem_cons.mp member with rfl | member
          · exact ⟨_, List.mem_cons_self, Nat.le_refl _,
              Nat.le_max_left _ _⟩
          · exact ⟨other, List.mem_cons_of_mem _ member, Nat.le_refl _,
              Nat.le_refl _⟩
      · exact ⟨other, member, Nat.le_refl _, Nat.le_refl _⟩

def Span.Contains (span : Span) (position : Nat) : Prop :=
  span.start ≤ position ∧ position < span.stop

/-- A merged span has no positions of its own. -/
theorem exists_contains_of_mem_absorb {whole : Span} {position : Nat}
    (member : whole ∈ absorb merged span) (contains : whole.Contains position) :
    ∃ part ∈ span :: merged, part.Contains position := by
  cases merged with
  | nil => exact ⟨whole, member, contains⟩
  | cons last others =>
      rw [absorb] at member
      split at member
      · rename_i touches
        rcases List.mem_cons.mp member with rfl | old
        · unfold Span.Contains at contains ⊢
          dsimp only at contains
          by_cases inLast : position < last.stop
          · exact ⟨last, by simp, contains.1, inLast⟩
          · exact ⟨span, by simp, by omega, by omega⟩
        · exact ⟨whole, by simp [old], contains⟩
      · exact ⟨whole, member, contains⟩

/-- A position, counted on after the whole circle, that is not in the span. -/
def Span.Leaves (span : Span) (size position : Nat) : Prop :=
  span.stop ≤ position ∨
    position < span.start ∧ span.stop ≤ position + size

theorem Span.Leaves.of_avoids {first count size : Nat}
    (avoids : span.Avoids first count) (positive : 0 < count)
    (inside : span.stop ≤ size) : span.Leaves size first := by
  unfold Span.Avoids at avoids
  unfold Span.Leaves
  omega

section Joining

variable {size position : Nat} {last next : Span}

/-- Spans that leave the same position do not join to the whole circle. -/
theorem Span.Leaves.stop_lt (leaves : last.Leaves size position)
    (leaves' : next.Leaves size position) (bounded : position < size)
    (touches : next.start ≤ last.stop) : next.stop < last.start + size := by
  unfold Span.Leaves at leaves leaves'
  omega

theorem Span.Leaves.join (leaves : last.Leaves size position)
    (leaves' : next.Leaves size position) (touches : next.start ≤ last.stop) :
    Span.Leaves ⟨last.start, max last.stop next.stop⟩ size position := by
  unfold Span.Leaves at leaves leaves' ⊢
  dsimp only
  omega

end Joining

end Merging

section Fitting

variable {count : Nat} {spans : List Span} {first : Nat}

/-- Spans that are looked at in this order have gaps between them and lie behind
the position the search starts from. -/
structure Ahead (spans : List Span) (first : Nat) : Prop where
  apart : spans.Pairwise fun earlier later => earlier.stop < later.start
  proper : ∀ span ∈ spans, span.start < span.stop
  behind : ∀ span ∈ spans, first ≤ span.start

theorem Ahead.tail {span : Span} (ahead : Ahead (span :: spans) first) :
    Ahead spans span.stop where
  apart := (List.pairwise_cons.mp ahead.apart).2
  proper other member := ahead.proper other (List.mem_cons_of_mem _ member)
  behind other member :=
    Nat.le_of_lt ((List.pairwise_cons.mp ahead.apart).1 other member)

theorem Ahead.left {others : List Span} (ahead : Ahead (spans ++ others) first) :
    Ahead spans first where
  apart := (List.pairwise_append.mp ahead.apart).1
  proper span member := ahead.proper span (List.mem_append_left _ member)
  behind span member := ahead.behind span (List.mem_append_left _ member)

/-- The end of a span lies in a gap. -/
theorem Ahead.not_contains_stop (ahead : Ahead spans first) {span other : Span}
    (member : span ∈ spans) (isOther : other ∈ spans) :
    ¬ other.Contains span.stop := by
  induction spans generalizing first with
  | nil => cases member
  | cons head rest ih =>
      have behind := (List.pairwise_cons.mp ahead.apart).1
      have proper := ahead.proper span member
      unfold Span.Contains
      rcases List.mem_cons.mp member with rfl | old
      · rcases List.mem_cons.mp isOther with rfl | otherOld
        · omega
        · have := behind other otherOld
          omega
      · rcases List.mem_cons.mp isOther with rfl | otherOld
        · have := behind span old
          omega
        · exact ih ahead.tail old otherOld

theorem le_firstFit (ahead : Ahead spans first) :
    first ≤ firstFit count spans first := by
  induction spans generalizing first with
  | nil => exact Nat.le_refl _
  | cons span spans ih =>
      rw [firstFit]
      split
      · exact Nat.le_refl _
      · have later := ih ahead.tail
        have := ahead.behind span List.mem_cons_self
        have := ahead.proper span List.mem_cons_self
        omega

/-- The first fit is free. -/
theorem avoids_firstFit (ahead : Ahead spans first) :
    ∀ span ∈ spans, span.Avoids (firstFit count spans first) count := by
  induction spans generalizing first with
  | nil =>
      intro span member
      cases member
  | cons head spans ih =>
      intro span member
      rw [firstFit]
      split
      · rename_i fits
        rcases List.mem_cons.mp member with rfl | member
        · exact .inr fits
        · have := (List.pairwise_cons.mp ahead.apart).1 span member
          have := ahead.proper head List.mem_cons_self
          exact .inr (by omega)
      · rcases List.mem_cons.mp member with rfl | member
        · exact .inl (le_firstFit ahead.tail)
        · exact ih ahead.tail span member

/-- No free window comes before the first fit. -/
theorem firstFit_le {window : Nat} (start : first ≤ window)
    (avoided : ∀ span ∈ spans, span.Avoids window count) :
    firstFit count spans first ≤ window := by
  induction spans generalizing first with
  | nil => exact start
  | cons span spans ih =>
      rw [firstFit]
      split
      · exact start
      · rename_i short
        apply ih
        · rcases avoided span List.mem_cons_self with before | behind
          · exact before
          · omega
        · exact fun other member =>
            avoided other (List.mem_cons_of_mem _ member)

/-- The first fit is where the search starts or the end of a span. -/
theorem firstFit_lt {bound : Nat} (start : first < bound)
    (stops : ∀ span ∈ spans, span.stop < bound) :
    firstFit count spans first < bound := by
  induction spans generalizing first with
  | nil => exact start
  | cons span spans ih =>
      rw [firstFit]
      split
      · exact start
      · apply ih
        · exact stops span List.mem_cons_self
        · exact fun other member =>
            stops other (List.mem_cons_of_mem _ member)

/-- Merged spans are looked at from the first one on. -/
theorem Stacked.ahead_reverse (stacked : Stacked spans) :
    Ahead spans.reverse 0 where
  apart := List.pairwise_reverse.mpr stacked.apart
  proper span member := stacked.proper span (List.mem_reverse.mp member)
  behind _ _ := Nat.zero_le _

end Fitting

/-- A window of a circular buffer that avoids a span has no position of it. -/
theorem Span.Avoids.disjoint {span : Span} {first count size : Nat}
    (avoids : span.Avoids first count) (inside : first + count ≤ size)
    (within : span.stop ≤ size) (origin : Nat) {i k : Nat} (near : i < count)
    (member : span.start + k < span.stop) :
    (origin + (first + i)) % size ≠ (origin + (span.start + k)) % size := by
  intro same
  have same : (first + i) % size = (span.start + k) % size :=
    Nat.ModEq.add_left_cancel' origin same
  rw [Nat.mod_eq_of_lt (by omega), Nat.mod_eq_of_lt (by omega)] at same
  unfold Span.Avoids at avoids
  omega

end CyclicSpans

end MbedtlsKcp
