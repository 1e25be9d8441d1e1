import MbedtlsKcp.LinkedChains

/-!
# Doubly linked chains

Cells at addresses are linked in both directions to a chain that ends with null
pointers on both sides.  A cell is linked in front of the first one or taken
from there; turning all links around makes the same operations work on the
last cell.
-/

namespace MbedtlsKcp

namespace DoubleChains

open LinkedChains

structure Cell (Addr Content : Type*) where
  content : Content
  prev : Option Addr
  next : Option Addr
deriving DecidableEq

/-- The cells that are allocated. -/
abbrev Heap (Addr Content : Type*) := Addr → Option (Cell Addr Content)

variable {Addr Content : Type*}

def nexts (heap : Heap Addr Content) (place : Addr) : Option Addr :=
  (heap place).bind Cell.next

def prevs (heap : Heap Addr Content) (place : Addr) : Option Addr :=
  (heap place).bind Cell.prev

def contents (heap : Heap Addr Content) (place : Addr) : Option Content :=
  (heap place).map Cell.content

/-- The cells of `heap` are linked in the order of `nodes`, hold `stored` and
are the only ones. -/
structure Chain (heap : Heap Addr Content) (head tail : Option Addr)
    (nodes : List Addr) (stored : List Content) : Prop where
  forward : Segment (nexts heap) head nodes none
  backward : Segment (prevs heap) tail nodes.reverse none
  nodup : nodes.Nodup
  allocated : ∀ place, (heap place).isSome = true ↔ place ∈ nodes
  stored : nodes.map (contents heap) = stored.map some

section Turning

def Cell.turn (cell : Cell Addr Content) : Cell Addr Content :=
  { cell with prev := cell.next, next := cell.prev }

/-- All links the other way. -/
def turn (heap : Heap Addr Content) : Heap Addr Content :=
  fun place => (heap place).map Cell.turn

variable {heap : Heap Addr Content} {head tail : Option Addr}
variable {nodes : List Addr} {stored : List Content}

@[simp]
theorem turn_turn (heap : Heap Addr Content) : turn (turn heap) = heap := by
  funext place
  cases found : heap place <;> simp [turn, found, Cell.turn]

@[simp]
theorem nexts_turn (heap : Heap Addr Content) :
    nexts (turn heap) = prevs heap := by
  funext place
  cases found : heap place <;> simp [nexts, prevs, turn, found, Cell.turn]

@[simp]
theorem prevs_turn (heap : Heap Addr Content) :
    prevs (turn heap) = nexts heap := by
  funext place
  cases found : heap place <;> simp [nexts, prevs, turn, found, Cell.turn]

@[simp]
theorem contents_turn (heap : Heap Addr Content) :
    contents (turn heap) = contents heap := by
  funext place
  cases found : heap place <;> simp [contents, turn, found, Cell.turn]

theorem Chain.turn (chain : Chain heap head tail nodes stored) :
    Chain (turn heap) tail head nodes.reverse stored.reverse where
  forward := by simpa using chain.backward
  backward := by simpa using chain.forward
  nodup := List.nodup_reverse.mpr chain.nodup
  allocated place := by
    rw [List.mem_reverse, ← chain.allocated place]
    simp [DoubleChains.turn]
  stored := by
    rw [contents_turn, List.map_reverse, chain.stored, List.map_reverse]

end Turning

section Operations

variable [DecidableEq Addr]

/-- An assignment to `prev`; `none` when there is no cell. -/
def setPrev (heap : Heap Addr Content) (place : Addr) (first : Option Addr) :
    Option (Heap Addr Content) :=
  (heap place).map fun cell =>
    Function.update heap place (some { cell with prev := first })

def setNext (heap : Heap Addr Content) (place : Addr) (second : Option Addr) :
    Option (Heap Addr Content) :=
  (heap place).map fun cell =>
    Function.update heap place (some { cell with next := second })

/-- A new cell in front of the first one, with the new ends of the chain. -/
def pushFront (heap : Heap Addr Content) (head tail : Option Addr) (new : Addr)
    (content : Content) :
    Option (Heap Addr Content × Option Addr × Option Addr) :=
  let heap := Function.update heap new (some ⟨content, none, head⟩)
  match head with
  | none => some (heap, some new, some new)
  | some first =>
      (setPrev heap first (some new)).map fun heap => (heap, some new, tail)

/-- The first cell is taken out and freed. -/
def popFront (heap : Heap Addr Content) (tail : Option Addr) (first : Addr) :
    Option (Heap Addr Content × Option Addr × Option Addr) :=
  (heap first).bind fun cell =>
    match cell.next with
    | none => some (Function.update heap first none, none, none)
    | some second =>
        (setPrev heap second none).map fun heap =>
          (Function.update heap first none, some second, tail)

/-- A new cell behind the last one. -/
def pushBack (heap : Heap Addr Content) (head tail : Option Addr) (new : Addr)
    (content : Content) :
    Option (Heap Addr Content × Option Addr × Option Addr) :=
  let heap := Function.update heap new (some ⟨content, tail, none⟩)
  match tail with
  | none => some (heap, some new, some new)
  | some last =>
      (setNext heap last (some new)).map fun heap => (heap, head, some new)

/-- The last cell is taken out and freed. -/
def popBack (heap : Heap Addr Content) (head : Option Addr) (last : Addr) :
    Option (Heap Addr Content × Option Addr × Option Addr) :=
  (heap last).bind fun cell =>
    match cell.prev with
    | none => some (Function.update heap last none, none, none)
    | some second =>
        (setNext heap second none).map fun heap =>
          (Function.update heap last none, head, some second)

variable {heap : Heap Addr Content} {head tail : Option Addr}
variable {nodes : List Addr} {stored : List Content} {first new : Addr}
variable {content : Content}

theorem nexts_update (heap : Heap Addr Content) (place : Addr)
    (cell : Option (Cell Addr Content)) :
    nexts (Function.update heap place cell) =
      Function.update (nexts heap) place (cell.bind Cell.next) := by
  funext other
  by_cases same : other = place <;> simp [same, nexts]

theorem prevs_update (heap : Heap Addr Content) (place : Addr)
    (cell : Option (Cell Addr Content)) :
    prevs (Function.update heap place cell) =
      Function.update (prevs heap) place (cell.bind Cell.prev) := by
  funext other
  by_cases same : other = place <;> simp [same, prevs]

theorem contents_update (heap : Heap Addr Content) (place : Addr)
    (cell : Option (Cell Addr Content)) :
    contents (Function.update heap place cell) =
      Function.update (contents heap) place (cell.map Cell.content) := by
  funext other
  by_cases same : other = place <;> simp [same, contents]

/-- What an assignment to `prev` changes. -/
theorem exists_setPrev {place : Addr} (allocated : (heap place).isSome = true)
    (first : Option Addr) :
    ∃ after, setPrev heap place first = some after ∧
      nexts after = nexts heap ∧
      prevs after = Function.update (prevs heap) place first ∧
      contents after = contents heap ∧
      ∀ other, (after other).isSome = (heap other).isSome := by
  obtain ⟨cell, found⟩ := Option.isSome_iff_exists.mp allocated
  refine ⟨_, by rw [setPrev, found]; rfl, ?_, ?_, ?_, ?_⟩
  · rw [nexts_update]
    exact Function.update_eq_self_iff.mpr (by simp [nexts, found])
  · rw [prevs_update]
    rfl
  · rw [contents_update]
    exact Function.update_eq_self_iff.mpr (by simp [contents, found])
  · intro other
    by_cases same : other = place <;> simp [same, found]

/-- The links of a segment are cut behind a node. -/
theorem segment_cut {next : Addr → Option Addr} {start stop : Option Addr}
    {last : Addr} {more : List Addr}
    (segment : Segment next start (nodes ++ last :: more) stop)
    (nodup : (nodes ++ last :: more).Nodup) :
    Segment (Function.update next last none) start (nodes ++ [last]) none := by
  obtain ⟨middle, front, back⟩ := segment_append.mp segment
  have outside : last ∉ nodes := fun member =>
    List.disjoint_of_nodup_append nodup member List.mem_cons_self
  refine segment_append.mpr ⟨middle, front.update outside none, back.1, ?_⟩
  exact Function.update_self last none next

omit [DecidableEq Addr] in
theorem Chain.fresh (chain : Chain heap head tail nodes stored)
    (unused : heap new = none) : new ∉ nodes := by
  intro member
  have allocated := (chain.allocated new).mpr member
  simp [unused] at allocated

theorem Chain.allocated_cons (chain : Chain heap head tail nodes stored)
    (cell : Cell Addr Content) (place : Addr) :
    (Function.update heap new (some cell) place).isSome = true ↔
      place ∈ new :: nodes := by
  by_cases same : place = new <;> simp [same, chain.allocated place]

theorem Chain.stored_cons (chain : Chain heap head tail nodes stored)
    (unused : heap new = none) {after : Heap Addr Content}
    (holds : contents after =
      Function.update (contents heap) new (some content)) :
    (new :: nodes).map (contents after) = (content :: stored).map some := by
  have rest : nodes.map (contents after) = nodes.map (contents heap) := by
    apply List.map_congr_left
    intro node member
    rw [holds]
    apply Function.update_of_ne
    rintro rfl
    exact chain.fresh unused member
  rw [List.map_cons, List.map_cons, rest, chain.stored, holds,
    Function.update_self]

theorem Chain.pushFront (chain : Chain heap head tail nodes stored)
    (unused : heap new = none) (content : Content) :
    ∃ after last, pushFront heap head tail new content =
        some (after, some new, last) ∧
      Chain after (some new) last (new :: nodes) (content :: stored) := by
  have fresh := chain.fresh unused
  have same : nexts (Function.update heap new (some ⟨content, none, head⟩)) =
      Function.update (nexts heap) new head :=
    nexts_update heap new _
  have forward : Segment (Function.update (nexts heap) new head) (some new)
      (new :: nodes) none := by
    refine ⟨rfl, ?_⟩
    rw [Function.update_self]
    exact chain.forward.update fresh head
  cases nodes with
  | nil =>
      obtain rfl : head = none := chain.forward
      refine ⟨_, _, rfl, ?_⟩
      constructor
      · rwa [same]
      · refine ⟨rfl, ?_⟩
        rw [prevs_update, Function.update_self]
        rfl
      · simp
      · exact chain.allocated_cons _
      · exact chain.stored_cons unused (contents_update heap new _)
  | cons first rest =>
      obtain ⟨rfl, -⟩ := chain.forward
      obtain ⟨after, assigned, nextsSame, prevsAfter, contentsSame,
          allocated⟩ :=
        exists_setPrev ((chain.allocated_cons ⟨content, none, some first⟩
          first).mpr (List.mem_cons_of_mem new List.mem_cons_self)) (some new)
      refine ⟨after, tail, by simp [DoubleChains.pushFront, assigned], ?_⟩
      constructor
      · rwa [nextsSame, same]
      · rw [prevsAfter, prevs_update, List.reverse_cons, List.reverse_cons]
        apply Segment.push
        · rw [← List.reverse_cons]
          exact chain.backward
        · rw [← List.reverse_cons]
          exact List.nodup_reverse.mpr chain.nodup
        · simpa [List.mem_reverse, or_comm] using fresh
      · exact List.nodup_cons.mpr ⟨fresh, chain.nodup⟩
      · intro place
        rw [allocated]
        exact chain.allocated_cons _ place
      · exact chain.stored_cons unused
          (contentsSame.trans (contents_update heap new _))

theorem Chain.allocated_rest
    (chain : Chain heap head tail (first :: nodes) (content :: stored))
    {after : Heap Addr Content}
    (same : ∀ place, (after place).isSome = (heap place).isSome)
    (place : Addr) :
    (Function.update after first none place).isSome = true ↔
      place ∈ nodes := by
  have outside := (List.nodup_cons.mp chain.nodup).1
  by_cases isFirst : place = first
  · subst isFirst
    simpa using outside
  · rw [Function.update_of_ne isFirst, same, chain.allocated place]
    simp [isFirst]

theorem Chain.stored_rest
    (chain : Chain heap head tail (first :: nodes) (content :: stored))
    {after : Heap Addr Content} (same : contents after = contents heap) :
    nodes.map (contents (Function.update after first none)) =
      stored.map some := by
  have outside := (List.nodup_cons.mp chain.nodup).1
  have rest : nodes.map (contents heap) = stored.map some :=
    (List.cons.inj chain.stored).2
  rw [← rest, contents_update, same]
  apply List.map_congr_left
  intro node member
  apply Function.update_of_ne
  rintro rfl
  exact outside member

theorem Chain.popFront
    (chain : Chain heap (some first) tail (first :: nodes)
      (content :: stored)) :
    ∃ after next last, popFront heap tail first = some (after, next, last) ∧
      Chain after next last nodes stored := by
  obtain ⟨outside, nodup⟩ := List.nodup_cons.mp chain.nodup
  obtain ⟨cell, found⟩ := Option.isSome_iff_exists.mp
    ((chain.allocated first).mpr List.mem_cons_self)
  have forward := chain.forward.2
  have link : nexts heap first = cell.next := by simp [nexts, found]
  rw [link] at forward
  cases nodes with
  | nil =>
      have ends : cell.next = none := forward
      refine ⟨Function.update heap first none, none, none, ?_, ?_⟩
      · simp [DoubleChains.popFront, found, ends]
      constructor
      · rfl
      · rfl
      · exact nodup
      · exact chain.allocated_rest fun _ => rfl
      · exact chain.stored_rest rfl
  | cons second rest =>
      have backward := chain.backward
      have reversed := List.nodup_reverse.mpr chain.nodup
      simp only [List.reverse_cons, List.append_assoc, List.singleton_append]
        at backward reversed
      obtain ⟨after, assigned, nextsSame, prevsAfter, contentsSame,
          allocated⟩ :=
        exists_setPrev ((chain.allocated second).mpr
          (List.mem_cons_of_mem first List.mem_cons_self)) none
      have next : cell.next = some second := forward.1
      refine ⟨Function.update after first none, some second, tail, ?_, ?_⟩
      · simp [DoubleChains.popFront, found, next, assigned]
      constructor
      · rw [nexts_update, nextsSame, ← next]
        exact forward.update outside none
      · rw [prevs_update, prevsAfter, List.reverse_cons]
        apply (segment_cut backward reversed).update
        simpa [List.mem_reverse, or_comm] using outside
      · exact nodup
      · exact chain.allocated_rest allocated
      · exact chain.stored_rest contentsSame

end Operations

section Back

variable [DecidableEq Addr] {heap : Heap Addr Content}
variable {head tail : Option Addr} {nodes : List Addr} {stored : List Content}
variable {last new : Addr} {content : Content}

theorem turn_update (heap : Heap Addr Content) (place : Addr)
    (cell : Option (Cell Addr Content)) :
    turn (Function.update heap place cell) =
      Function.update (turn heap) place (cell.map Cell.turn) := by
  funext other
  by_cases same : other = place <;> simp [same, turn]

/-- Turns what an operation leaves: the heap and the ends of the chain. -/
def turnResult (result : Heap Addr Content × Option Addr × Option Addr) :
    Heap Addr Content × Option Addr × Option Addr :=
  (turn result.1, result.2.2, result.2.1)

theorem setPrev_turn (place : Addr) (link : Option Addr) :
    setPrev (turn heap) place link = (setNext heap place link).map turn := by
  cases found : heap place with
  | none => simp [setPrev, setNext, turn, found]
  | some cell =>
      have turned : turn heap place = some cell.turn := by simp [turn, found]
      simp [setPrev, setNext, turned, found, turn_update, Cell.turn]

theorem pushFront_turn :
    pushFront (turn heap) tail head new content =
      (pushBack heap head tail new content).map turnResult := by
  have turned : Function.update (turn heap) new (some ⟨content, none, tail⟩) =
      turn (Function.update heap new (some ⟨content, tail, none⟩)) := by
    simp [turn_update, Cell.turn]
  cases tail with
  | none => simp [pushFront, pushBack, turned, turnResult]
  | some last =>
      simp only [pushFront, pushBack, turned, setPrev_turn, Option.map_map]
      rfl

theorem popFront_turn :
    popFront (turn heap) head last =
      (popBack heap head last).map turnResult := by
  cases found : heap last with
  | none =>
      have turned : turn heap last = none := by simp [turn, found]
      simp [popFront, popBack, turned, found]
  | some cell =>
      have turned : turn heap last = some cell.turn := by simp [turn, found]
      cases link : cell.prev with
      | none =>
          simp [popFront, popBack, turned, found, link, Cell.turn, turnResult,
            turn_update]
      | some second =>
          simp [popFront, popBack, turned, found, link, Cell.turn,
            setPrev_turn, turn_update, turnResult, Function.comp_def]

theorem Chain.pushBack (chain : Chain heap head tail nodes stored)
    (unused : heap new = none) (content : Content) :
    ∃ after first, pushBack heap head tail new content =
        some (after, first, some new) ∧
      Chain after first (some new) (nodes ++ [new]) (stored ++ [content]) := by
  have unusedTurned : DoubleChains.turn heap new = none := by
    simp [DoubleChains.turn, unused]
  obtain ⟨after, first, pushed, turned⟩ :=
    chain.turn.pushFront unusedTurned content
  rw [pushFront_turn, Option.map_eq_some_iff] at pushed
  obtain ⟨⟨heap, head, tail⟩, pushed, same⟩ := pushed
  simp only [turnResult, Prod.mk.injEq] at same
  obtain ⟨rfl, rfl, rfl⟩ := same
  refine ⟨heap, head, pushed, ?_⟩
  simpa using turned.turn

theorem Chain.popBack
    (chain : Chain heap head (some last) (nodes ++ [last])
      (stored ++ [content])) :
    ∃ after next before, popBack heap head last = some (after, next, before) ∧
      Chain after next before nodes stored := by
  have turned := chain.turn
  rw [List.reverse_append, List.reverse_append] at turned
  obtain ⟨after, next, before, popped, rest⟩ := turned.popFront
  rw [popFront_turn, Option.map_eq_some_iff] at popped
  obtain ⟨⟨heap, head, tail⟩, popped, same⟩ := popped
  simp only [turnResult, Prod.mk.injEq] at same
  obtain ⟨rfl, rfl, rfl⟩ := same
  refine ⟨heap, head, tail, popped, ?_⟩
  simpa using rest.turn

end Back

end DoubleChains

end MbedtlsKcp
