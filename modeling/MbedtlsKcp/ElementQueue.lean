import MbedtlsKcp.ByteBuffers
import MbedtlsKcp.RingQueues
import MbedtlsKcp.TransitionRuns

/-!
# The element queue

`element_queue.c`.  The queue, its nodes and their buffers share one block: a
node keeps the distance of its buffer from the first one, and `none` is an
`int` that overflows or an access outside the block.  The mutex only keeps
other threads out.
-/

namespace MbedtlsKcp

namespace ElementQueue

open ByteBuffers RingQueues TransitionRuns

def intMax : Int := 2147483647

def intMin : Int := -2147483648

/-- `queue_node_t`. -/
structure QueueNode where
  buf : Nat
  size : Nat
  max : Nat

/-- `queue_context_t`; `consumeNode` is an index of `node`, and `data` are the
bytes of the block behind the nodes. -/
structure Queue where
  node : List QueueNode
  consumeNode : Nat
  numofNode : Nat
  freeNum : Nat
  usedNum : Nat
  readIndex : Nat
  writeIndex : Nat
  elementSize : Nat
  data : List UInt8

/-- `sizeof(queue_context_t)` and `sizeof(queue_node_t)`. -/
structure Sizes where
  context : Nat
  node : Nat

/-- The bytes that the nodes and the queue itself take. -/
def Sizes.header (sizes : Sizes) (num : Nat) : Nat :=
  sizes.context + sizes.node * (num + 1)

/-- `iAllocSize`: the sum of the sizes as an `int`. -/
def allocSize (sizes : Sizes) (num : Nat) (elementSize : Int) : Int :=
  (sizes.header num + (num + 1) * elementSize).bmod (2 ^ 32)

/-- The queue that the loop of `queue_init` leaves in a zeroed block. -/
def laidOut (num elementSize room : Nat) : Queue where
  node := (List.range (num + 1)).map fun i => ⟨elementSize * i, 0, elementSize⟩
  consumeNode := num
  numofNode := num
  freeNum := num
  usedNum := 0
  readIndex := 0
  writeIndex := 0
  elementSize := elementSize
  data := List.replicate room 0

/-- `queue_init`; `some none` when it returns NULL.  `malloc` tells which
requests are granted and `mutexInit` what `pthread_mutex_init` returns. -/
def queueInit (sizes : Sizes) (malloc : Int → Bool) (mutexInit : Int)
    (num : Nat) (elementSize : Int) : Option (Option Queue) :=
  let iAllocNum : Int := num + 1
  let iAllocSize := allocSize sizes num elementSize
  if intMax < iAllocNum ∨ iAllocNum * elementSize < intMin ∨
      intMax < iAllocNum * elementSize then none
  else if ¬ malloc iAllocSize then some none
  else if iAllocSize < sizes.header num then none
  else if mutexInit < 0 then some none
  else
    some (some (laidOut num elementSize.toNat
      (iAllocSize - sizes.header num).toNat))

namespace Queue

variable (q : Queue)

/-- `queue_put`: what it returns and the queue after it. -/
def queuePut (buf : List UInt8) (size : Nat) : Option (Int × Queue) :=
  if q.elementSize < size then some (-1, q)
  else if 0 < q.freeNum then do
    let node ← q.node[q.writeIndex]?
    let size := if size < node.max then size else node.max
    let bytes ← readFrom buf 0 size
    let data ← copyInto q.data node.buf bytes
    if q.numofNode = 0 then none
    else
      some (1, { q with
        freeNum := q.freeNum - 1
        usedNum := q.usedNum + 1
        node := q.node.set q.writeIndex { node with size := size }
        data := data
        writeIndex := (q.writeIndex + 1) % q.numofNode })
  else some (0, q)

/-- `queue_get`. -/
def queueGet : Option (Int × Queue) :=
  if 0 < q.usedNum then do
    let node ← q.node[q.readIndex]?
    let consume ← q.node[q.consumeNode]?
    let bytes ← readFrom q.data node.buf node.size
    let data ← copyInto q.data consume.buf bytes
    if q.numofNode = 0 then none
    else
      some (1, { q with
        usedNum := q.usedNum - 1
        freeNum := q.freeNum + 1
        node := q.node.set q.consumeNode { consume with size := node.size }
        data := data
        readIndex := (q.readIndex + 1) % q.numofNode })
  else some (0, q)

/-- The size and bytes of a node; `none` when they are not all in the block. -/
def element (i : Nat) : Option (List UInt8) :=
  (q.node[i]?).bind fun node => readFrom q.data node.buf node.size

end Queue

inductive Call where
  | put (buf : List UInt8) (size : Nat)
  | get

/-- The caller's buffer has as many bytes as it says. -/
def Call.Proper : Call → Prop
  | .put buf size => size ≤ buf.length
  | .get => True

def Queue.call (q : Queue) : Call → Option (Int × Queue)
  | .put buf size => q.queuePut buf size
  | .get => q.queueGet

/-! ## The bounded queue -/

/-- Elements not yet consumed, oldest first, and the one consumed last. -/
structure Fifo where
  stored : List (List UInt8)
  consumed : List UInt8

def Fifo.empty : Fifo :=
  ⟨[], []⟩

def Fifo.put (num elementSize : Nat) (fifo : Fifo) (bytes : List UInt8) :
    Int × Fifo :=
  if elementSize < bytes.length then (-1, fifo)
  else if fifo.stored.length < num then
    (1, { fifo with stored := fifo.stored ++ [bytes] })
  else (0, fifo)

def Fifo.get (fifo : Fifo) : Int × Fifo :=
  match fifo.stored with
  | [] => (0, fifo)
  | oldest :: later => (1, ⟨later, oldest⟩)

def Fifo.call (num elementSize : Nat) (fifo : Fifo) : Call → Int × Fifo
  | .put buf size => fifo.put num elementSize (buf.take size)
  | .get => fifo.get

/-! ## The layout of the block -/

/-- The nodes lie side by side in the block. -/
structure Laid (num elementSize : Nat) (q : Queue) : Prop where
  nodes : ∀ i ≤ num, ∃ size ≤ elementSize,
    q.node[i]? = some ⟨elementSize * i, size, elementSize⟩
  data : q.data.length = elementSize * (num + 1)

theorem mul_add_le {elementSize i num size : Nat} (inside : i ≤ num)
    (short : size ≤ elementSize) :
    elementSize * i + size ≤ elementSize * (num + 1) := by
  calc
    elementSize * i + size ≤ elementSize * i + elementSize :=
      Nat.add_le_add_left short _
    _ = elementSize * (i + 1) := (Nat.mul_succ _ _).symm
    _ ≤ elementSize * (num + 1) :=
      Nat.mul_le_mul_left _ (Nat.succ_le_succ inside)

section Layout

variable {num elementSize i : Nat} {q after : Queue} {bytes : List UInt8}

/-- Every node has the bytes it says. -/
theorem Laid.element_eq (laid : Laid num elementSize q) (inside : i ≤ num) :
    ∃ bytes, bytes.length ≤ elementSize ∧
      q.node[i]? = some ⟨elementSize * i, bytes.length, elementSize⟩ ∧
      readFrom q.data (elementSize * i) bytes.length = some bytes ∧
      q.element i = some bytes := by
  obtain ⟨size, short, isNode⟩ := laid.nodes i inside
  have fits : elementSize * i + size ≤ q.data.length := by
    rw [laid.data]
    exact mul_add_le inside short
  have length := length_slice fits
  have reads : readFrom q.data (elementSize * i) size =
      some (slice q.data (elementSize * i) size) := readFrom_eq_some fits
  refine ⟨slice q.data (elementSize * i) size, length.trans_le short, ?_, ?_, ?_⟩
  · rw [isNode, length]
  · rw [length, reads]
  · rw [Queue.element, isNode]
    exact reads

theorem Laid.copyInto (laid : Laid num elementSize q) (inside : i ≤ num)
    (short : bytes.length ≤ elementSize) :
    copyInto q.data (elementSize * i) bytes =
      some (overwrite q.data (elementSize * i) bytes) := by
  apply copyInto_eq_some
  rw [laid.data]
  exact mul_add_le inside short

/-- Storing in a node changes its own bytes only. -/
theorem Laid.store (laid : Laid num elementSize q) (inside : i ≤ num)
    (short : bytes.length ≤ elementSize)
    (node : after.node =
      q.node.set i ⟨elementSize * i, bytes.length, elementSize⟩)
    (data : after.data = overwrite q.data (elementSize * i) bytes) :
    Laid num elementSize after ∧
      ∀ j ≤ num, after.element j =
        Function.update q.element i (some bytes) j := by
  have fits : elementSize * i + bytes.length ≤ q.data.length := by
    rw [laid.data]
    exact mul_add_le inside short
  have present : i < q.node.length := by
    obtain ⟨size, -, isNode⟩ := laid.nodes i inside
    exact (List.getElem?_eq_some_iff.mp isNode).1
  have same : after.node[i]? =
      some ⟨elementSize * i, bytes.length, elementSize⟩ := by
    rw [node, List.getElem?_set_self present]
  have others : ∀ j, j ≠ i → after.node[j]? = q.node[j]? := by
    intro j different
    rw [node, List.getElem?_set_ne different.symm]
  have length : after.data.length = q.data.length := by
    rw [data, length_overwrite fits]
  refine ⟨⟨?_, length.trans laid.data⟩, ?_⟩
  · intro j within
    by_cases isSame : j = i
    · subst isSame
      exact ⟨_, short, same⟩
    · rw [others j isSame]
      exact laid.nodes j within
  · intro j within
    by_cases isSame : j = i
    · subst isSame
      rw [Function.update_self, Queue.element, same, Option.bind_some,
        readFrom_eq_some (length ▸ fits), data]
      congr 1
      exact slice_overwrite_same bytes (by omega)
    · obtain ⟨size, small, isNode⟩ := laid.nodes j within
      have room : elementSize * j + size ≤ q.data.length := by
        rw [laid.data]
        exact mul_add_le within small
      rw [Function.update_of_ne isSame, Queue.element, Queue.element,
        others j isSame, isNode, Option.bind_some, Option.bind_some,
        readFrom_eq_some room, readFrom_eq_some (length ▸ room), data]
      congr 1
      -- nodes before this one end where it starts, and later ones start
      -- behind it
      rcases Nat.lt_or_gt_of_ne isSame with before | behind
      · refine slice_overwrite_before (by omega) ?_
        calc
          elementSize * j + size ≤ elementSize * (j + 1) :=
            mul_add_le (Nat.le_refl j) small
          _ ≤ elementSize * i := Nat.mul_le_mul_left _ before
      · refine slice_overwrite_after fits ?_
        calc
          elementSize * i + bytes.length ≤ elementSize * (i + 1) :=
            mul_add_le (Nat.le_refl i) short
          _ ≤ elementSize * j := Nat.mul_le_mul_left _ behind

end Layout

/-! ## The ring holds the queue -/

/-- The cells from the read index on hold the elements stored, and the consume
node holds the one consumed last. -/
structure Represents (num elementSize : Nat) (q : Queue) (fifo : Fifo) :
    Prop where
  laid : Laid num elementSize q
  numofNode : q.numofNode = num
  consumeNode : q.consumeNode = num
  size : q.elementSize = elementSize
  counts : q.freeNum + q.usedNum = num
  reads : q.readIndex < num
  writes : q.writeIndex = (q.readIndex + q.usedNum) % num
  stored : contents num q.element q.readIndex q.usedNum =
    fifo.stored.map some
  consumed : q.element num = some fifo.consumed

/-- The queue once an element is stored. -/
def Queue.pushed (q : Queue) (bytes : List UInt8) : Queue :=
  { q with
    freeNum := q.freeNum - 1
    usedNum := q.usedNum + 1
    node := q.node.set q.writeIndex
      ⟨q.elementSize * q.writeIndex, bytes.length, q.elementSize⟩
    data := overwrite q.data (q.elementSize * q.writeIndex) bytes
    writeIndex := (q.writeIndex + 1) % q.numofNode }

/-- The queue once its oldest element is copied to the consume node. -/
def Queue.popped (q : Queue) (bytes : List UInt8) : Queue :=
  { q with
    usedNum := q.usedNum - 1
    freeNum := q.freeNum + 1
    node := q.node.set q.consumeNode
      ⟨q.elementSize * q.consumeNode, bytes.length, q.elementSize⟩
    data := overwrite q.data (q.elementSize * q.consumeNode) bytes
    readIndex := (q.readIndex + 1) % q.numofNode }

section Calls

variable {num elementSize : Nat} {q : Queue} {fifo : Fifo}

theorem Represents.used (holds : Represents num elementSize q fifo) :
    q.usedNum = fifo.stored.length := by
  have lengths := congrArg List.length holds.stored
  rwa [length_contents, List.length_map] at lengths

theorem Represents.write_lt (holds : Represents num elementSize q fifo) :
    q.writeIndex < num := by
  rw [holds.writes]
  exact Nat.mod_lt _ (Nat.zero_lt_of_lt holds.reads)

theorem Represents.queuePut_eq (holds : Represents num elementSize q fifo)
    {buf : List UInt8} {size : Nat} (proper : size ≤ buf.length)
    (short : size ≤ elementSize) (room : 0 < q.freeNum) :
    q.queuePut buf size = some (1, q.pushed (buf.take size)) := by
  have length : (buf.take size).length = size := List.length_take_of_le proper
  have inside := Nat.le_of_lt holds.write_lt
  have some : q.numofNode ≠ 0 := by
    have := holds.reads
    have := holds.numofNode
    omega
  obtain ⟨old, -, isNode⟩ := holds.laid.nodes q.writeIndex inside
  have kept : (if size < elementSize then size else elementSize) = size := by
    split <;> omega
  have source : readFrom buf 0 size = .some (buf.take size) :=
    readFrom_eq_some (by omega)
  have stores := holds.laid.copyInto inside (length.trans_le short)
  rw [Queue.queuePut, holds.size, if_neg (Nat.not_lt.mpr short), if_pos room,
    isNode]
  simp only [Option.bind_eq_bind, Option.bind_some, kept, source, stores,
    if_neg some, Queue.pushed, length, holds.size]

/-- An element stored is the last one of the queue. -/
theorem Represents.pushed (holds : Represents num elementSize q fifo)
    {bytes : List UInt8} (short : bytes.length ≤ elementSize)
    (room : 0 < q.freeNum) :
    Represents num elementSize (q.pushed bytes)
      { fifo with stored := fifo.stored ++ [bytes] } := by
  have counts := holds.counts
  have inside := holds.write_lt
  have positive : 0 < num := Nat.zero_lt_of_lt inside
  obtain ⟨laid, elements⟩ : Laid num elementSize (q.pushed bytes) ∧
      ∀ j ≤ num, (q.pushed bytes).element j =
        Function.update q.element q.writeIndex (some bytes) j :=
    holds.laid.store (Nat.le_of_lt inside) short
      (by rw [Queue.pushed, holds.size]) (by rw [Queue.pushed, holds.size])
  constructor
  case laid => exact laid
  case numofNode => exact holds.numofNode
  case consumeNode => exact holds.consumeNode
  case size => exact holds.size
  case counts =>
    change q.freeNum - 1 + (q.usedNum + 1) = num
    omega
  case reads => exact holds.reads
  case writes =>
    change (q.writeIndex + 1) % q.numofNode = _
    rw [holds.numofNode, holds.writes]
    exact write_succ _ _ _
  case stored =>
    change contents num _ q.readIndex (q.usedNum + 1) = _
    rw [contents_congr positive fun i less => elements i (Nat.le_of_lt less),
      holds.writes, contents_push _ _ (by omega), holds.stored,
      List.map_append, List.map_singleton]
  case consumed =>
    rw [elements num (Nat.le_refl _),
      Function.update_of_ne (Nat.ne_of_gt inside), holds.consumed]

theorem Represents.queueGet_eq (holds : Represents num elementSize q fifo)
    {oldest : List UInt8} {later : List (List UInt8)}
    (isStored : fifo.stored = oldest :: later) :
    oldest.length ≤ elementSize ∧ q.element q.readIndex = some oldest ∧
      q.queueGet = some (1, q.popped oldest) := by
  have used : q.usedNum = later.length + 1 := by
    rw [holds.used, isStored, List.length_cons]
  have first : q.element q.readIndex = some oldest := by
    have stored := holds.stored
    rw [isStored, used, contents_pop _ holds.reads, List.map_cons] at stored
    exact (List.cons.inj stored).1
  obtain ⟨bytes, short, isNode, reads, isElement⟩ :=
    holds.laid.element_eq (Nat.le_of_lt holds.reads)
  obtain rfl : bytes = oldest :=
    Option.some.inj (isElement.symm.trans first)
  obtain ⟨old, -, isConsume⟩ := holds.laid.nodes num (Nat.le_refl _)
  have stores := holds.laid.copyInto (Nat.le_refl num) short
  have some : q.numofNode ≠ 0 := by
    have := holds.reads
    have := holds.numofNode
    omega
  refine ⟨short, first, ?_⟩
  rw [Queue.queueGet, if_pos (by omega), isNode, holds.consumeNode, isConsume]
  simp only [Option.bind_eq_bind, Option.bind_some, reads, stores, if_neg some,
    Queue.popped, holds.size, holds.consumeNode]

/-- The oldest element is the one consumed. -/
theorem Represents.popped (holds : Represents num elementSize q fifo)
    {oldest : List UInt8} {later : List (List UInt8)}
    (isStored : fifo.stored = oldest :: later)
    (short : oldest.length ≤ elementSize) :
    Represents num elementSize (q.popped oldest) ⟨later, oldest⟩ := by
  have counts := holds.counts
  have used : q.usedNum = later.length + 1 := by
    rw [holds.used, isStored, List.length_cons]
  have positive : 0 < num := Nat.zero_lt_of_lt holds.reads
  obtain ⟨laid, elements⟩ : Laid num elementSize (q.popped oldest) ∧
      ∀ j ≤ num, (q.popped oldest).element j =
        Function.update q.element num (some oldest) j :=
    holds.laid.store (Nat.le_refl num) short
      (by rw [Queue.popped, holds.size, holds.consumeNode])
      (by rw [Queue.popped, holds.size, holds.consumeNode])
  constructor
  case laid => exact laid
  case numofNode => exact holds.numofNode
  case consumeNode => exact holds.consumeNode
  case size => exact holds.size
  case counts =>
    change q.freeNum + 1 + (q.usedNum - 1) = num
    omega
  case reads =>
    change (q.readIndex + 1) % q.numofNode < num
    rw [holds.numofNode]
    exact Nat.mod_lt _ positive
  case writes =>
    change q.writeIndex =
      ((q.readIndex + 1) % q.numofNode + (q.usedNum - 1)) % num
    rw [holds.numofNode, holds.writes, write_pop, used, Nat.add_sub_cancel]
  case stored =>
    have kept : ∀ i < num, (q.popped oldest).element i = q.element i := by
      intro i less
      rw [elements i (Nat.le_of_lt less),
        Function.update_of_ne (Nat.ne_of_lt less)]
    have stored := holds.stored
    rw [isStored, used, contents_pop _ holds.reads, List.map_cons] at stored
    change contents num _ ((q.readIndex + 1) % q.numofNode) (q.usedNum - 1) = _
    rw [holds.numofNode, contents_congr positive kept, used, Nat.add_sub_cancel]
    exact (List.cons.inj stored).2
  case consumed => rw [elements num (Nat.le_refl _), Function.update_self]

/-- Every call returns what the queue returns, and one that does not return 1
changes nothing. -/
theorem Represents.call (holds : Represents num elementSize q fifo)
    {call : Call} (proper : call.Proper) :
    ∃ after, q.call call = some ((fifo.call num elementSize call).1, after) ∧
      Represents num elementSize after (fifo.call num elementSize call).2 ∧
      ((fifo.call num elementSize call).1 ≠ 1 → after = q) := by
  cases call with
  | put buf size =>
      have length : (buf.take size).length = size :=
        List.length_take_of_le proper
      have counts := holds.counts
      have used := holds.used
      rw [Queue.call, Fifo.call, Fifo.put, length]
      by_cases big : elementSize < size
      · rw [if_pos big, Queue.queuePut, holds.size, if_pos big]
        exact ⟨q, rfl, holds, fun _ => rfl⟩
      rw [if_neg big]
      by_cases full : q.freeNum = 0
      · rw [if_neg (by omega), Queue.queuePut, holds.size, if_neg big,
          if_neg (by omega)]
        exact ⟨q, rfl, holds, fun _ => rfl⟩
      · have short : size ≤ elementSize := Nat.le_of_not_lt big
        have room : 0 < q.freeNum := Nat.pos_of_ne_zero full
        rw [if_pos (by omega), holds.queuePut_eq proper short room]
        exact ⟨_, rfl, holds.pushed (length.trans_le short) room,
          fun other => absurd rfl other⟩
  | get =>
      rw [Queue.call, Fifo.call, Fifo.get]
      cases isStored : fifo.stored with
      | nil =>
          have empty : q.usedNum = 0 := by
            rw [holds.used, isStored, List.length_nil]
          rw [Queue.queueGet, if_neg (by omega)]
          exact ⟨q, rfl, holds, fun _ => rfl⟩
      | cons oldest later =>
          obtain ⟨short, -, gets⟩ := holds.queueGet_eq isStored
          exact ⟨_, gets, holds.popped isStored short,
            fun other => absurd rfl other⟩

end Calls

/-! ## Runs of a new queue -/

theorem laid_laidOut (num elementSize : Nat) :
    Laid num elementSize
      (laidOut num elementSize (elementSize * (num + 1))) where
  nodes i inside := by
    refine ⟨0, Nat.zero_le _, ?_⟩
    rw [laidOut, List.getElem?_map, List.getElem?_range (Nat.lt_succ_of_le inside)]
    rfl
  data := List.length_replicate

/-- A queue whose block has room for its elements starts empty. -/
theorem represents_laidOut {num : Nat} (elementSize : Nat)
    (positive : 0 < num) :
    Represents num elementSize
      (laidOut num elementSize (elementSize * (num + 1))) Fifo.empty where
  laid := laid_laidOut num elementSize
  numofNode := rfl
  consumeNode := rfl
  size := rfl
  counts := rfl
  reads := positive
  writes := (Nat.zero_mod num).symm
  stored := rfl
  consumed := by
    obtain ⟨bytes, -, isNode, -, isElement⟩ :=
      (laid_laidOut num elementSize).element_eq (Nat.le_refl num)
    have empty : bytes.length = 0 := by
      rw [laidOut, List.getElem?_map,
        List.getElem?_range (Nat.lt_succ_self num)] at isNode
      exact (congrArg QueueNode.size (Option.some.inj isNode)).symm
    rw [isElement, List.length_eq_zero_iff.mp empty]
    rfl

/-- The ring and the queue after one call. -/
def step (num elementSize : Nat) (state : Queue × Fifo) (call : Call) :
    Option (Queue × Fifo) :=
  (state.1.call call).map fun answer =>
    (answer.2, (state.2.call num elementSize call).2)

/-- The ring answers as the queue does, and its counters and indexes fit
together. -/
structure Agrees (num elementSize : Nat) (q : Queue) (fifo : Fifo) : Prop where
  answers : ∀ call : Call, call.Proper →
    ∃ after, q.call call = some ((fifo.call num elementSize call).1, after)
  unchanged : ∀ (call : Call) (after : Queue), call.Proper →
    q.call call = some ((fifo.call num elementSize call).1, after) →
    (fifo.call num elementSize call).1 ≠ 1 → after = q
  consumed : q.element q.consumeNode = some fifo.consumed
  counts : q.freeNum + q.usedNum = q.numofNode
  indexes : q.readIndex + q.usedNum ≡ q.writeIndex [MOD q.numofNode]

/-- The ring agrees with the queue after all calls with proper buffers. -/
def Refines (num elementSize : Nat) (q : Queue) : Prop :=
  ∀ state, Reachable (· = (q, Fifo.empty)) (step num elementSize)
    (fun _ call => call.Proper) state →
      Agrees num elementSize state.1 state.2

theorem Represents.agrees {num elementSize : Nat} {q : Queue} {fifo : Fifo}
    (holds : Represents num elementSize q fifo) :
    Agrees num elementSize q fifo where
  answers call proper := by
    obtain ⟨after, calls, -, -⟩ := holds.call proper
    exact ⟨after, calls⟩
  unchanged call after proper isAfter other := by
    obtain ⟨same, calls, -, unchanged⟩ := holds.call proper
    obtain rfl : same = after := by
      rw [isAfter] at calls
      exact (congrArg Prod.snd (Option.some.inj calls)).symm
    exact unchanged other
  consumed := by rw [holds.consumeNode, holds.consumed]
  counts := by rw [holds.counts, holds.numofNode]
  indexes := by
    rw [holds.numofNode, holds.writes]
    exact (Nat.mod_modEq _ _).symm

theorem refines_of_represents {num elementSize : Nat} {q : Queue}
    (starts : Represents num elementSize q Fifo.empty) :
    Refines num elementSize q := by
  intro state reached
  apply Represents.agrees
  refine reached.invariant
    (fun state => Represents num elementSize state.1 state.2) ?_ ?_
  · rintro _ rfl
    exact starts
  · rintro ⟨q, fifo⟩ call after holds proper steps
    obtain ⟨next, calls, kept, -⟩ := holds.call proper
    have same : step num elementSize (q, fifo) call =
        some (next, (fifo.call num elementSize call).2) := by
      rw [step, calls, Option.map_some]
    rw [same] at steps
    cases steps
    exact kept

/-! ## The size of the block -/

/-- `queue_init` stays inside its block and the queue it returns, if any, is a
bounded FIFO. -/
def Behaves (sizes : Sizes) (malloc : Int → Bool) (mutexInit : Int) (num : Nat)
    (elementSize : Int) : Prop :=
  ∃ made, queueInit sizes malloc mutexInit num elementSize = some made ∧
    ∀ q, made = some q → Refines num elementSize.toNat q

/-- No `int` overflows, and a block that is returned is as large as the queue,
its nodes and their elements. -/
structure Sized (sizes : Sizes) (malloc : Int → Bool) (num : Nat)
    (elementSize : Int) : Prop where
  nodes : num + 1 ≤ intMax
  low : intMin ≤ (num + 1) * elementSize
  high : (num + 1) * elementSize ≤ intMax
  block : malloc (allocSize sizes num elementSize) = true →
    0 ≤ elementSize ∧
      sizes.header num + (num + 1) * elementSize ≤ intMax

/-- The sum of the sizes is what was asked for, or less than what the nodes
take. -/
theorem header_le_allocSize_iff {sizes : Sizes} {num : Nat} {elementSize : Int}
    (low : intMin ≤ (num + 1) * elementSize)
    (high : (num + 1) * elementSize ≤ intMax) :
    sizes.header num ≤ allocSize sizes num elementSize ↔
      0 ≤ elementSize ∧
        sizes.header num + (num + 1) * elementSize ≤ intMax := by
  have sign : 0 ≤ (num + 1) * elementSize ↔ 0 ≤ elementSize := by
    have positive : (0 : Int) < num + 1 := by omega
    constructor
    · exact fun product => Int.nonneg_of_mul_nonneg_right product positive
    · exact fun nonneg => Int.mul_nonneg (Int.le_of_lt positive) nonneg
  rw [allocSize, ← sign]
  rw [intMin] at low
  rw [intMax] at high ⊢
  generalize (num + 1) * elementSize = product at *
  rw [Int.bmod_def]
  split <;> omega

theorem allocSize_eq {sizes : Sizes} {num : Nat} {elementSize : Int}
    (nonneg : 0 ≤ elementSize)
    (fits : sizes.header num + (num + 1) * elementSize ≤ intMax) :
    (allocSize sizes num elementSize - sizes.header num).toNat =
      elementSize.toNat * (num + 1) := by
  have product : (num + 1) * elementSize =
      ((elementSize.toNat * (num + 1) : Nat) : Int) := by
    rw [Int.natCast_mul, Int.toNat_of_nonneg nonneg, Int.mul_comm]
    rfl
  rw [product] at fits
  rw [allocSize, product, Int.bmod_eq_of_le]
  · omega
  · omega
  · rw [intMax] at fits
    omega

/-- Every queue of `queue_init` is a bounded FIFO, whatever the calls, exactly
when the size of its block is computed without overflow. -/
theorem behaves_iff_sized (sizes : Sizes) (malloc : Int → Bool) (mutexInit : Int)
    {num : Nat} (elementSize : Int) (positive : 0 < num) :
    Behaves sizes malloc mutexInit num elementSize ↔
      Sized sizes malloc num elementSize := by
  rw [Behaves, queueInit]
  by_cases overflows : intMax < (num : Int) + 1 ∨
      (num + 1) * elementSize < intMin ∨ intMax < (num + 1) * elementSize
  · rw [if_pos overflows]
    constructor
    · rintro ⟨made, absent, -⟩
      cases absent
    · rintro ⟨nodes, low, high, -⟩
      omega
  rw [if_neg overflows]
  have low : intMin ≤ (num + 1) * elementSize := by omega
  have high : (num + 1) * elementSize ≤ intMax := by omega
  have nodes : num + 1 ≤ intMax := by omega
  by_cases granted : malloc (allocSize sizes num elementSize) = true
  · rw [if_neg (not_not_intro granted)]
    have room := @header_le_allocSize_iff sizes num elementSize low high
    by_cases small : allocSize sizes num elementSize < sizes.header num
    · rw [if_pos small]
      constructor
      · rintro ⟨made, absent, -⟩
        cases absent
      · intro sized
        have := room.mpr (sized.block granted)
        omega
    · obtain ⟨nonneg, fits⟩ := room.mp (Int.not_lt.mp small)
      rw [if_neg small]
      refine iff_of_true ?_ ⟨nodes, low, high, fun _ => ⟨nonneg, fits⟩⟩
      by_cases fails : mutexInit < 0
      · rw [if_pos fails]
        exact ⟨none, rfl, fun q isQueue => by cases isQueue⟩
      · rw [if_neg fails, allocSize_eq nonneg fits]
        refine ⟨_, rfl, ?_⟩
        intro q isQueue
        cases isQueue
        exact refines_of_represents (represents_laidOut _ positive)
  · rw [if_pos granted]
    refine iff_of_true ?_ ⟨nodes, low, high, fun isGranted => absurd isGranted granted⟩
    exact ⟨none, rfl, fun q isQueue => by cases isQueue⟩

/-- Four elements of 1024 bytes. -/
theorem behaves_four :
    Behaves ⟨80, 16⟩ (fun _ => true) 0 4 1024 ↔
      Sized ⟨80, 16⟩ (fun _ => true) 4 1024 :=
  behaves_iff_sized ⟨80, 16⟩ (fun _ => true) 0 1024 (by decide)

/-- The size of 65536 elements of 65536 bytes overflows. -/
theorem not_forall_sizes_behave :
    ¬ ∀ (sizes : Sizes) (malloc : Int → Bool) (mutexInit : Int) (num : Nat)
      (elementSize : Int), 0 < num →
        Behaves sizes malloc mutexInit num elementSize := by
  intro holds
  obtain ⟨made, inits, -⟩ := holds ⟨80, 16⟩ (fun _ => true) 0 65535 65536
    (by decide)
  have overflows : queueInit ⟨80, 16⟩ (fun _ => true) 0 65535 65536 = none := by
    rw [queueInit]
    exact if_pos (by decide)
  rw [overflows] at inits
  cases inits

end ElementQueue

end MbedtlsKcp
