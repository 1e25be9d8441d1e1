import Mathlib.Data.List.Chain
import Mathlib.Logic.Function.Basic

/-!
# Doubly linked rings

Cells at addresses are linked in both directions to a ring that starts and ends
at a head.  A cell is linked in front of the head by four assignments and the
first one is unlinked by two; both keep the ring and the contents of the other
cells.
-/

namespace MbedtlsKcp

namespace LinkedRings

structure Cell (Addr Content : Type*) where
  next : Addr
  prev : Addr
  content : Content

/-- The cells that are allocated. -/
abbrev Heap (Addr Content : Type*) := Addr → Option (Cell Addr Content)

variable {Addr Content : Type*}

def nexts (heap : Heap Addr Content) (place : Addr) : Option Addr :=
  (heap place).map Cell.next

def prevs (heap : Heap Addr Content) (place : Addr) : Option Addr :=
  (heap place).map Cell.prev

def contents (heap : Heap Addr Content) (place : Addr) : Option Content :=
  (heap place).map Cell.content

/-- Two cells that are linked in both directions. -/
def Joined (heap : Heap Addr Content) (first second : Addr) : Prop :=
  nexts heap first = some second ∧ prevs heap second = some first

/-- The cells behind `head`, in their order. -/
structure Ring (heap : Heap Addr Content) (head : Addr)
    (members : List Addr) : Prop where
  joined : (head :: members ++ [head]).IsChain (Joined heap)
  nodup : (head :: members).Nodup

section Operations

variable [DecidableEq Addr]

/-- An assignment to `next`; `none` when there is no cell. -/
def setNext (heap : Heap Addr Content) (place second : Addr) :
    Option (Heap Addr Content) :=
  (heap place).map fun cell =>
    Function.update heap place (some { cell with next := second })

def setPrev (heap : Heap Addr Content) (place first : Addr) :
    Option (Heap Addr Content) :=
  (heap place).map fun cell =>
    Function.update heap place (some { cell with prev := first })

/-- A new cell between the last one and the head. -/
def linkLast (heap : Heap Addr Content) (head new : Addr)
    (content : Content) : Option (Heap Addr Content) := do
  let tail := (← heap head).prev
  let heap := Function.update heap new (some ⟨head, tail, content⟩)
  let heap ← setNext heap tail new
  setPrev heap head new

/-- A cell is taken out and freed. -/
def unlink (heap : Heap Addr Content) (node : Addr) :
    Option (Heap Addr Content) := do
  let cell ← heap node
  let heap ← setNext heap cell.prev cell.next
  let heap ← setPrev heap cell.next cell.prev
  some (Function.update heap node none)

end Operations

/-- What is stored in the cells, component by component. -/
structure Holds (heap : Heap Addr Content) (next prev : Addr → Option Addr)
    (content : Addr → Option Content) : Prop where
  nexts : nexts heap = next
  prevs : prevs heap = prev
  contents : contents heap = content

section Steps

variable {heap : Heap Addr Content}
  {next prev : Addr → Option Addr} {content : Addr → Option Content}

theorem holds_self (heap : Heap Addr Content) :
    Holds heap (nexts heap) (prevs heap) (contents heap) :=
  ⟨rfl, rfl, rfl⟩

theorem Holds.cell (holds : Holds heap next prev content) {place : Addr}
    {cell : Cell Addr Content} (found : heap place = some cell) :
    next place = some cell.next ∧ prev place = some cell.prev ∧
      content place = some cell.content := by
  obtain ⟨rfl, rfl, rfl⟩ := holds
  simp [LinkedRings.nexts, LinkedRings.prevs, LinkedRings.contents, found]

theorem Holds.isSome_iff (holds : Holds heap next prev content) (place : Addr) :
    (heap place).isSome = true ↔ (next place).isSome = true := by
  obtain ⟨rfl, -, -⟩ := holds
  rw [LinkedRings.nexts, Option.isSome_map]

variable [DecidableEq Addr]

theorem Holds.update (holds : Holds heap next prev content) (place : Addr)
    (cell : Option (Cell Addr Content)) :
    Holds (Function.update heap place cell)
      (Function.update next place (cell.map Cell.next))
      (Function.update prev place (cell.map Cell.prev))
      (Function.update content place (cell.map Cell.content)) := by
  obtain ⟨rfl, rfl, rfl⟩ := holds
  refine ⟨?_, ?_, ?_⟩ <;>
  · funext other
    by_cases same : other = place
    · simp [same, LinkedRings.nexts, LinkedRings.prevs, LinkedRings.contents]
    · simp [same, LinkedRings.nexts, LinkedRings.prevs, LinkedRings.contents]

theorem Holds.setNext (holds : Holds heap next prev content) {place : Addr}
    (allocated : (heap place).isSome = true) (second : Addr) :
    ∃ after, setNext heap place second = some after ∧
      Holds after (Function.update next place (some second)) prev content := by
  obtain ⟨cell, found⟩ := Option.isSome_iff_exists.mp allocated
  obtain ⟨-, isPrev, isContent⟩ := holds.cell found
  refine ⟨_, by rw [LinkedRings.setNext, found]; rfl, ?_⟩
  have after := holds.update place (some { cell with next := second })
  rwa [Option.map_some, Option.map_some, Option.map_some, ← isPrev,
    Function.update_eq_self, ← isContent, Function.update_eq_self] at after

theorem Holds.setPrev (holds : Holds heap next prev content) {place : Addr}
    (allocated : (heap place).isSome = true) (first : Addr) :
    ∃ after, setPrev heap place first = some after ∧
      Holds after next (Function.update prev place (some first)) content := by
  obtain ⟨cell, found⟩ := Option.isSome_iff_exists.mp allocated
  obtain ⟨isNext, -, isContent⟩ := holds.cell found
  refine ⟨_, by rw [LinkedRings.setPrev, found]; rfl, ?_⟩
  have after := holds.update place (some { cell with prev := first })
  rwa [Option.map_some, Option.map_some, Option.map_some, ← isNext,
    Function.update_eq_self, ← isContent, Function.update_eq_self] at after

end Steps

section Rings

variable {heap : Heap Addr Content} {head : Addr} {members : List Addr}

/-- The last cell, the head itself if there is no other. -/
theorem Ring.exists_last (ring : Ring heap head members) :
    ∃ front last, head :: members = front ++ [last] ∧
      (front ++ [last]).IsChain (Joined heap) ∧ Joined heap last head := by
  obtain ⟨front, last, splits⟩ : ∃ front last, head :: members = front ++ [last] :=
    ⟨_, _, (List.dropLast_append_getLast (List.cons_ne_nil head members)).symm⟩
  have joined := ring.joined
  rw [splits, List.isChain_append] at joined
  exact ⟨front, last, splits, joined.1, joined.2.2 last (by simp) head rfl⟩

theorem isSome_nexts_of_isChain {places : List Addr} {last : Addr}
    (joined : (places ++ [last]).IsChain (Joined heap)) :
    ∀ place ∈ places, nexts heap place ≠ none := by
  induction places with
  | nil => exact fun _ member => absurd member List.not_mem_nil
  | cons first rest ih =>
      obtain ⟨second, more, isMore⟩ : ∃ second more,
          rest ++ [last] = second :: more :=
        List.exists_cons_of_ne_nil (by simp)
      rw [List.cons_append, isMore, List.isChain_cons_cons, ← isMore] at joined
      intro place member
      rcases List.mem_cons.mp member with rfl | behind
      · rw [joined.1.1]
        exact nofun
      · exact ih joined.2 place behind

theorem Ring.allocated (ring : Ring heap head members) {place : Addr}
    (member : place ∈ head :: members) : heap place ≠ none := by
  intro missing
  apply isSome_nexts_of_isChain ring.joined place member
  rw [nexts, missing]
  rfl

theorem Ring.eq_cons (ring : Ring heap head members)
    {cell : Cell Addr Content} (found : heap head = some cell)
    (more : cell.next ≠ head) : ∃ rest, members = cell.next :: rest := by
  have joined := ring.joined
  cases members with
  | nil =>
      have headNext := (List.isChain_pair.mp joined).1
      rw [nexts, found] at headNext
      exact absurd (Option.some.inj headNext) more
  | cons first rest =>
      have headNext := (List.isChain_cons_cons.mp joined).1.1
      rw [nexts, found] at headNext
      exact ⟨rest, by rw [← Option.some.inj headNext]⟩

variable [DecidableEq Addr]

/-- A new cell becomes the last one. -/
theorem Ring.linkLast (ring : Ring heap head members) {new : Addr}
    (fresh : heap new = none) (content : Content) :
    ∃ after, linkLast heap head new content = some after ∧
      Ring after head (members ++ [new]) ∧
      contents after = Function.update (contents heap) new (some content) := by
  obtain ⟨front, tail, splits, joined, last⟩ := ring.exists_last
  obtain ⟨headCell, headFound, headPrev⟩ := Option.map_eq_some_iff.mp last.2
  obtain ⟨tailCell, tailFound, -⟩ := Option.map_eq_some_iff.mp last.1
  have newNext : nexts heap new = none := by rw [nexts, fresh]; rfl
  have newPrev : prevs heap new = none := by rw [prevs, fresh]; rfl
  have newTail : new ≠ tail := by
    rintro rfl
    rw [fresh] at tailFound
    cases tailFound
  have newHead : new ≠ head := by
    rintro rfl
    rw [fresh] at headFound
    cases headFound
  -- The four assignments.
  have first := (holds_self heap).update new (some ⟨head, tail, content⟩)
  have tailAllocated : (Function.update heap new
      (some ⟨head, tail, content⟩) tail).isSome = true := by
    rw [Function.update_of_ne newTail.symm, tailFound]
    rfl
  obtain ⟨middle, second, middleHolds⟩ := first.setNext tailAllocated new
  have headAllocated : (middle head).isSome = true := by
    rw [middleHolds.isSome_iff]
    by_cases same : head = tail
    · rw [same, Function.update_self]
      rfl
    · rw [Function.update_of_ne same, Function.update_of_ne newHead.symm, nexts,
        headFound]
      rfl
  obtain ⟨after, third, holds⟩ := middleHolds.setPrev headAllocated new
  refine ⟨after, ?_, ⟨?_, ?_⟩, holds.contents⟩
  · rw [LinkedRings.linkLast, headFound]
    change (setNext (Function.update heap new
      (some ⟨head, headCell.prev, content⟩)) headCell.prev new).bind _ = _
    rw [headPrev, second]
    exact third
  · have chain : (front ++ [tail]).IsChain (Joined after) := by
      apply joined.imp_of_mem_tail_imp
      intro place follower _ member both
      rw [← splits, List.tail_cons] at member
      have behind : follower ≠ head := by
        rintro rfl
        exact (List.nodup_cons.mp ring.nodup).1 member
      have notTail : place ≠ tail := by
        rintro rfl
        exact behind (Option.some.inj (both.1.symm.trans last.1))
      have notNew : place ≠ new := by
        rintro rfl
        cases newNext.symm.trans both.1
      have followerNotNew : follower ≠ new := by
        rintro rfl
        cases newPrev.symm.trans both.2
      rw [Joined, holds.nexts, holds.prevs]
      simp only [Function.update_of_ne notTail, Function.update_of_ne notNew,
        Function.update_of_ne behind, Function.update_of_ne followerNotNew]
      exact both
    rw [show head :: (members ++ [new]) ++ [head] =
        (front ++ [tail]) ++ [new, head] by rw [← splits]; simp,
      List.isChain_append]
    refine ⟨chain, ?_, ?_⟩
    · rw [List.isChain_pair, Joined, holds.nexts, holds.prevs]
      simp only [Function.update_of_ne newTail, Function.update_self,
        Option.map_some, and_self]
    · intro place isLast follower isFirst
      obtain rfl : tail = place := by simpa using isLast
      obtain rfl : new = follower := by simpa using isFirst
      rw [Joined, holds.nexts, holds.prevs]
      simp only [Function.update_of_ne newHead, Function.update_self,
        Option.map_some, and_self]
  · rw [← List.cons_append]
    apply List.nodup_append.mpr
    refine ⟨ring.nodup, List.nodup_cons.mpr ⟨List.not_mem_nil, List.nodup_nil⟩,
      ?_⟩
    intro place member other isNew same
    obtain rfl := List.mem_singleton.mp isNew
    rw [same] at member
    exact ring.allocated member fresh

/-- The first cell is taken out. -/
theorem Ring.unlink {first : Addr} (ring : Ring heap head (first :: members)) :
    ∃ after, unlink heap first = some after ∧ Ring after head members ∧
      contents after = Function.update (contents heap) first none := by
  obtain ⟨second, more, isMore⟩ : ∃ second more,
      members ++ [head] = second :: more :=
    List.exists_cons_of_ne_nil (by simp)
  have joined := ring.joined
  rw [List.cons_append, List.cons_append, isMore, List.isChain_cons_cons,
    List.isChain_cons_cons] at joined
  obtain ⟨⟨headNext, firstPrev⟩, ⟨firstNext, secondPrev⟩, rest⟩ := joined
  obtain ⟨headCell, headFound, -⟩ := Option.map_eq_some_iff.mp headNext
  obtain ⟨secondCell, secondFound, -⟩ := Option.map_eq_some_iff.mp secondPrev
  obtain ⟨cell, found, isNext⟩ := Option.map_eq_some_iff.mp firstNext
  have isPrev : cell.prev = head := by
    rw [prevs, found] at firstPrev
    exact Option.some.inj firstPrev
  obtain ⟨notHead, nodup⟩ := List.nodup_cons.mp ring.nodup
  obtain ⟨notFirst, nodupMembers⟩ := List.nodup_cons.mp nodup
  have headFirst : head ≠ first := fun same => notHead (by simp [same])
  have firstNotBehind : first ∉ second :: more := by
    rw [← isMore, List.mem_append, List.mem_singleton, not_or]
    exact ⟨notFirst, headFirst.symm⟩
  -- The two assignments.
  have headAllocated : (heap head).isSome = true := by rw [headFound]; rfl
  obtain ⟨middle, setsNext, middleHolds⟩ :=
    (holds_self heap).setNext headAllocated second
  have secondAllocated : (middle second).isSome = true := by
    rw [middleHolds.isSome_iff]
    by_cases same : second = head
    · rw [same, Function.update_self]
      rfl
    · rw [Function.update_of_ne same, nexts, secondFound]
      rfl
  obtain ⟨linked, setsPrev, linkedHolds⟩ :=
    middleHolds.setPrev secondAllocated head
  have holds := linkedHolds.update first none
  refine ⟨Function.update linked first none, ?_, ⟨?_, ?_⟩, holds.contents⟩
  · rw [LinkedRings.unlink, found]
    change (setNext heap cell.prev cell.next).bind _ = _
    rw [isNext, isPrev, setsNext]
    change (setPrev middle second head).bind _ = _
    rw [setsPrev]
    rfl
  · rw [List.cons_append, isMore, List.isChain_cons_cons]
    constructor
    · rw [Joined, holds.nexts, holds.prevs, Function.update_of_ne headFirst,
        Function.update_self,
        Function.update_of_ne (fun same => firstNotBehind (by simp [same])),
        Function.update_self]
      exact ⟨rfl, rfl⟩
    · apply rest.imp_of_mem_tail_imp
      intro place follower member behind both
      rw [List.tail_cons] at behind
      have notHead : place ≠ head := by
        rintro rfl
        have same := Option.some.inj (headNext.symm.trans both.1)
        exact firstNotBehind (same ▸ List.mem_cons_of_mem _ behind)
      have placeNotFirst : place ≠ first := by
        rintro rfl
        exact firstNotBehind member
      have notSecond : follower ≠ second := by
        rintro rfl
        have same := Option.some.inj (secondPrev.symm.trans both.2)
        exact firstNotBehind (same ▸ member)
      have followerNotFirst : follower ≠ first := by
        rintro rfl
        exact firstNotBehind (List.mem_cons_of_mem _ behind)
      rw [Joined, holds.nexts, holds.prevs, Function.update_of_ne placeNotFirst,
        Function.update_of_ne notHead, Function.update_of_ne followerNotFirst,
        Function.update_of_ne notSecond]
      exact both
  · exact List.nodup_cons.mpr
      ⟨fun member => notHead (List.mem_cons_of_mem _ member), nodupMembers⟩

end Rings

end LinkedRings

end MbedtlsKcp
