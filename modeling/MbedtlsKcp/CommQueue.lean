import MbedtlsKcp.DoubleChains
import MbedtlsKcp.CommQueueApi

/-!
# The double-ended queue

`comm_queue.c` keeps copies of the data it is given in a doubly linked chain.
The list of the data is what the API above it takes the queue to be.
-/

namespace MbedtlsKcp

namespace CommQueue

open LinkedChains DoubleChains

variable {Addr : Type}

/-- `struct _Queue` and the entries that are allocated; `dataSize` is the
length of the data. -/
structure Queue (Addr : Type) where
  head : Option Addr
  tail : Option Addr
  entries : Heap Addr (List UInt8)

/-- `COMM_queue_new`. -/
def commQueueNew : Queue Addr where
  head := none
  tail := none
  entries := fun _ => none

namespace Queue

variable [DecidableEq Addr]

/-- The queue behind an operation on its chain. -/
def linked (result : Heap Addr (List UInt8) × Option Addr × Option Addr) :
    Queue Addr where
  head := result.2.1
  tail := result.2.2
  entries := result.1

/-- `malloc` is the address of the new entry, unless there is no memory for it,
and `mallocData` says whether there is memory for the copy of the data. -/
def commQueuePushHead (queue : Queue Addr) (malloc : Option Addr)
    (mallocData : Bool) (data : List UInt8) : Option (Int × Queue Addr) :=
  match malloc with
  | none => some (0, queue)
  | some newEntry =>
      if mallocData then
        (pushFront queue.entries queue.head queue.tail newEntry data).map
          fun result => (data.length, Queue.linked result)
      else some (0, queue)

def commQueuePushTail (queue : Queue Addr) (malloc : Option Addr)
    (mallocData : Bool) (data : List UInt8) : Option (Int × Queue Addr) :=
  match malloc with
  | none => some (0, queue)
  | some newEntry =>
      if mallocData then
        (pushBack queue.entries queue.head queue.tail newEntry data).map
          fun result => (data.length, Queue.linked result)
      else some (0, queue)

/-- `malloc` says whether there is memory for the result. -/
def commQueuePopHead (queue : Queue Addr) (malloc : Bool) :
    Option (Int × Option (List UInt8) × Queue Addr) :=
  match queue.head with
  | none => some (0, none, queue)
  | some entry =>
      (contents queue.entries entry).bind fun data =>
        if malloc then
          (popFront queue.entries queue.tail entry).map fun result =>
            (data.length, some data, Queue.linked result)
        else some (0, none, queue)

def commQueuePopTail (queue : Queue Addr) (malloc : Bool) :
    Option (Int × Option (List UInt8) × Queue Addr) :=
  match queue.tail with
  | none => some (0, none, queue)
  | some entry =>
      (contents queue.entries entry).bind fun data =>
        if malloc then
          (popBack queue.entries queue.head entry).map fun result =>
            (data.length, some data, Queue.linked result)
        else some (0, none, queue)

def commQueueIsEmpty (queue : Queue Addr) : Int :=
  if queue.head = none then 1 else 0

/-- The loop of `COMM_queue_size`, with fuel. -/
def countEntries (next : Addr → Option Addr) :
    Nat → Option Addr → Nat → Option Nat
  | 0, _, _ => none
  | _ + 1, none, count => some count
  | fuel + 1, some entry, count =>
      countEntries next fuel (next entry) (count + 1)

def commQueueSize (queue : Queue Addr) (fuel : Nat) : Option Nat :=
  countEntries (nexts queue.entries) fuel queue.head 0

/-- The loop of `COMM_queue_free`, for the results of `malloc` in its pops;
`none` when they are used up before it ends. -/
def commQueueFree (queue : Queue Addr) : List Bool → Option (Queue Addr)
  | [] => if queue.head = none then some queue else none
  | malloc :: mallocs =>
      if queue.head = none then some queue
      else
        (queue.commQueuePopHead malloc).bind fun (_, _, queue) =>
          queue.commQueueFree mallocs

end Queue

inductive Call (Addr : Type)
  | pushHead (malloc : Option Addr) (mallocData : Bool) (data : List UInt8)
  | pushTail (malloc : Option Addr) (mallocData : Bool) (data : List UInt8)
  | popHead (malloc : Bool)
  | popTail (malloc : Bool)
  | isEmpty
deriving DecidableEq

/-- What a call returns, and the data that it gives out. -/
abbrev Answer := Int × Option (List UInt8)

def Queue.call [DecidableEq Addr] (queue : Queue Addr) :
    Call Addr → Option (Answer × Queue Addr)
  | .pushHead malloc mallocData data =>
      (queue.commQueuePushHead malloc mallocData data).map fun result =>
        ((result.1, none), result.2)
  | .pushTail malloc mallocData data =>
      (queue.commQueuePushTail malloc mallocData data).map fun result =>
        ((result.1, none), result.2)
  | .popHead malloc =>
      (queue.commQueuePopHead malloc).map fun result =>
        ((result.1, result.2.1), result.2.2)
  | .popTail malloc =>
      (queue.commQueuePopTail malloc).map fun result =>
        ((result.1, result.2.1), result.2.2)
  | .isEmpty => some ((queue.commQueueIsEmpty, none), queue)

/-- The same call on the list of the data, the head first. -/
def deque (stored : List (List UInt8)) :
    Call Addr → Answer × List (List UInt8)
  | .pushHead malloc mallocData data =>
      if malloc.isSome && mallocData then ((data.length, none), data :: stored)
      else ((0, none), stored)
  | .pushTail malloc mallocData data =>
      if malloc.isSome && mallocData then
        ((data.length, none), stored ++ [data])
      else ((0, none), stored)
  | .popHead malloc =>
      match stored with
      | [] => ((0, none), [])
      | data :: rest =>
          if malloc then ((data.length, some data), rest)
          else ((0, none), stored)
  | .popTail malloc =>
      match stored.getLast? with
      | none => ((0, none), [])
      | some data =>
          if malloc then ((data.length, some data), stored.dropLast)
          else ((0, none), stored)
  | .isEmpty => ((if stored = [] then 1 else 0, none), stored)

/-- `malloc` gives an address that is not in use. -/
def Call.Proper (queue : Queue Addr) : Call Addr → Prop
  | .pushHead (some newEntry) _ _ => queue.entries newEntry = none
  | .pushTail (some newEntry) _ _ => queue.entries newEntry = none
  | _ => True

/-- The entries hold the data, and no other entry is allocated. -/
def Represents (queue : Queue Addr) (stored : List (List UInt8)) : Prop :=
  ∃ nodes, Chain queue.entries queue.head queue.tail nodes stored

section Refinement

variable {queue : Queue Addr} {stored : List (List UInt8)}

theorem represents_new : Represents (commQueueNew : Queue Addr) [] :=
  ⟨[], rfl, rfl, List.nodup_nil, by simp [commQueueNew], rfl⟩

/-- An empty list, or a first entry with its data. -/
theorem Represents.cases_head (represents : Represents queue stored) :
    (queue.head = none ∧ stored = []) ∨
      ∃ first nodes data rest, queue.head = some first ∧
        stored = data :: rest ∧
          contents queue.entries first = some data ∧
            Chain queue.entries (some first) queue.tail (first :: nodes)
              (data :: rest) := by
  obtain ⟨nodes, chain⟩ := represents
  cases nodes with
  | nil =>
      left
      exact ⟨chain.forward, by simpa using chain.stored.symm⟩
  | cons first nodes =>
      right
      have head := chain.forward.1
      cases stored with
      | nil => simpa using chain.stored
      | cons data rest =>
          rw [head] at chain
          exact ⟨first, nodes, data, rest, head, rfl,
            (List.cons.inj chain.stored).1, chain⟩

theorem Represents.cases_tail (represents : Represents queue stored) :
    (queue.tail = none ∧ stored = []) ∨
      ∃ last nodes data rest, queue.tail = some last ∧
        stored = rest ++ [data] ∧
          contents queue.entries last = some data ∧
            Chain queue.entries queue.head (some last) (nodes ++ [last])
              (rest ++ [data]) := by
  obtain ⟨nodes, chain⟩ := represents
  rcases List.eq_nil_or_concat' nodes with rfl | ⟨nodes, last, rfl⟩
  · left
    exact ⟨chain.backward, by simpa using chain.stored.symm⟩
  · right
    have tail := chain.backward
    rw [List.reverse_append] at tail
    have tail := tail.1
    rcases List.eq_nil_or_concat' stored with rfl | ⟨rest, data, rfl⟩
    · simpa using chain.stored
    · rw [tail] at chain
      have holds := chain.stored
      rw [List.map_append, List.map_append] at holds
      obtain ⟨-, holds⟩ := List.append_inj' holds rfl
      exact ⟨last, nodes, data, rest, tail, rfl,
        (List.cons.inj holds).1, chain⟩

variable [DecidableEq Addr]

theorem Represents.pushHead (represents : Represents queue stored)
    {newEntry : Addr} (unused : queue.entries newEntry = none)
    (data : List UInt8) :
    ∃ after, queue.commQueuePushHead (some newEntry) true data =
        some ((data.length : Int), after) ∧
      Represents after (data :: stored) := by
  obtain ⟨nodes, chain⟩ := represents
  obtain ⟨entries, last, pushed, chain⟩ := chain.pushFront unused data
  refine ⟨.linked (entries, some newEntry, last), ?_, _, chain⟩
  simp [Queue.commQueuePushHead, pushed]

theorem Represents.pushTail (represents : Represents queue stored)
    {newEntry : Addr} (unused : queue.entries newEntry = none)
    (data : List UInt8) :
    ∃ after, queue.commQueuePushTail (some newEntry) true data =
        some ((data.length : Int), after) ∧
      Represents after (stored ++ [data]) := by
  obtain ⟨nodes, chain⟩ := represents
  obtain ⟨entries, first, pushed, chain⟩ := chain.pushBack unused data
  refine ⟨.linked (entries, first, some newEntry), ?_, _, chain⟩
  simp [Queue.commQueuePushTail, pushed]

theorem Represents.popHead {data : List UInt8}
    (represents : Represents queue (data :: stored)) :
    queue.commQueuePopHead false = some (0, none, queue) ∧
      ∃ after, queue.commQueuePopHead true =
        some ((data.length : Int), some data, after) ∧
          Represents after stored := by
  rcases represents.cases_head with ⟨-, none⟩ |
    ⟨first, nodes, _, _, head, same, holds, chain⟩
  · simp at none
  · obtain ⟨rfl, rfl⟩ := List.cons.inj same
    obtain ⟨entries, next, last, popped, chain⟩ := chain.popFront
    constructor
    · simp [Queue.commQueuePopHead, head, holds]
    · refine ⟨.linked (entries, next, last), ?_, _, chain⟩
      simp [Queue.commQueuePopHead, head, holds, popped]

theorem Represents.popTail {data : List UInt8}
    (represents : Represents queue (stored ++ [data])) :
    queue.commQueuePopTail false = some (0, none, queue) ∧
      ∃ after, queue.commQueuePopTail true =
        some ((data.length : Int), some data, after) ∧
          Represents after stored := by
  rcases represents.cases_tail with ⟨-, none⟩ |
    ⟨last, nodes, _, _, tail, same, holds, chain⟩
  · simp at none
  · obtain ⟨rfl, rfl⟩ : stored = _ ∧ data = _ := by
      obtain ⟨front, back⟩ := List.append_inj' same rfl
      exact ⟨front, (List.cons.inj back).1⟩
    obtain ⟨entries, next, before, popped, chain⟩ := chain.popBack
    constructor
    · simp [Queue.commQueuePopTail, tail, holds]
    · refine ⟨.linked (entries, next, before), ?_, _, chain⟩
      simp [Queue.commQueuePopTail, tail, holds, popped]

omit [DecidableEq Addr] in
theorem Represents.head_eq_none_iff (represents : Represents queue stored) :
    queue.head = none ↔ stored = [] := by
  rcases represents.cases_head with ⟨head, none⟩ |
    ⟨first, nodes, data, rest, head, rfl, -⟩
  · simp [head, none]
  · simp [head]

omit [DecidableEq Addr] in
theorem Represents.tail_eq_none_iff (represents : Represents queue stored) :
    queue.tail = none ↔ stored = [] := by
  rcases represents.cases_tail with ⟨tail, none⟩ |
    ⟨last, nodes, data, rest, tail, rfl, -⟩
  · simp [tail, none]
  · simp [tail]

/-- Each call does to the chain what it does to the list. -/
theorem Represents.call (represents : Represents queue stored)
    (call : Call Addr) (proper : call.Proper queue) :
    ∃ after, queue.call call = some ((deque stored call).1, after) ∧
      Represents after (deque stored call).2 := by
  cases call with
  | pushHead malloc mallocData data =>
      cases malloc with
      | none => exact ⟨queue, rfl, represents⟩
      | some newEntry =>
          cases mallocData with
          | false => exact ⟨queue, rfl, represents⟩
          | true =>
              obtain ⟨after, pushed, holds⟩ := represents.pushHead proper data
              exact ⟨after, by simp [Queue.call, pushed, deque], holds⟩
  | pushTail malloc mallocData data =>
      cases malloc with
      | none => exact ⟨queue, rfl, represents⟩
      | some newEntry =>
          cases mallocData with
          | false => exact ⟨queue, rfl, represents⟩
          | true =>
              obtain ⟨after, pushed, holds⟩ := represents.pushTail proper data
              exact ⟨after, by simp [Queue.call, pushed, deque], holds⟩
  | popHead malloc =>
      cases stored with
      | nil =>
          have head := represents.head_eq_none_iff.mpr rfl
          refine ⟨queue, ?_, represents⟩
          simp [Queue.call, Queue.commQueuePopHead, head, deque]
      | cons data rest =>
          obtain ⟨failed, after, popped, holds⟩ := represents.popHead
          cases malloc with
          | false =>
              exact ⟨queue, by simp [Queue.call, failed, deque], represents⟩
          | true => exact ⟨after, by simp [Queue.call, popped, deque], holds⟩
  | popTail malloc =>
      rcases List.eq_nil_or_concat' stored with rfl | ⟨rest, data, rfl⟩
      · have tail := represents.tail_eq_none_iff.mpr rfl
        refine ⟨queue, ?_, represents⟩
        simp [Queue.call, Queue.commQueuePopTail, tail, deque]
      · obtain ⟨failed, after, popped, holds⟩ := represents.popTail
        cases malloc with
        | false =>
            refine ⟨queue, by simp [Queue.call, failed, deque], ?_⟩
            simpa [deque] using represents
        | true =>
            refine ⟨after, by simp [Queue.call, popped, deque], ?_⟩
            simpa [deque] using holds
  | isEmpty =>
      refine ⟨queue, ?_, represents⟩
      simp [Queue.call, Queue.commQueueIsEmpty, deque,
        represents.head_eq_none_iff]

omit [DecidableEq Addr] in
theorem countEntries_eq {next : Addr → Option Addr} {start : Option Addr}
    {nodes : List Addr} (segment : Segment next start nodes none)
    {fuel : Nat} (enough : nodes.length < fuel) (count : Nat) :
    Queue.countEntries next fuel start count = some (count + nodes.length) := by
  induction nodes generalizing start fuel count with
  | nil =>
      obtain rfl : start = none := segment
      obtain ⟨fuel, rfl⟩ : ∃ less, fuel = less + 1 :=
        ⟨fuel - 1, by simp at enough; omega⟩
      rfl
  | cons node nodes ih =>
      obtain ⟨rfl, rest⟩ := segment
      rw [List.length_cons] at enough
      obtain ⟨fuel, rfl⟩ : ∃ less, fuel = less + 1 := ⟨fuel - 1, by omega⟩
      rw [Queue.countEntries, ih rest (by omega), List.length_cons]
      congr 1
      omega

omit [DecidableEq Addr] in
theorem Represents.size (represents : Represents queue stored) {fuel : Nat}
    (enough : stored.length < fuel) :
    queue.commQueueSize fuel = some stored.length := by
  obtain ⟨nodes, chain⟩ := represents
  have same : nodes.length = stored.length := by
    simpa using congrArg List.length chain.stored
  rw [Queue.commQueueSize, countEntries_eq chain.forward (same ▸ enough),
    Nat.zero_add, same]

omit [DecidableEq Addr] in
theorem Represents.entries_eq_none (represents : Represents queue [])
    (place : Addr) : queue.entries place = none := by
  obtain ⟨nodes, chain⟩ := represents
  obtain rfl : nodes = [] := by simpa using chain.stored
  simpa using chain.allocated place

/-- What freeing the queue comes to, for each sequence of results of
`malloc`. -/
def Frees (queue : Queue Addr) (stored : List (List UInt8))
    (mallocs : List Bool) : Prop :=
  if stored.length ≤ mallocs.count true then
    ∃ after, queue.commQueueFree mallocs = some after ∧
      ∀ place, after.entries place = none
  else queue.commQueueFree mallocs = none

theorem Represents.frees (represents : Represents queue stored)
    (mallocs : List Bool) : Frees queue stored mallocs := by
  induction mallocs generalizing queue stored with
  | nil =>
      cases stored with
      | nil =>
          have head := represents.head_eq_none_iff.mpr rfl
          exact ⟨queue, by simp [Queue.commQueueFree, head],
            represents.entries_eq_none⟩
      | cons data rest =>
          have head := mt represents.head_eq_none_iff.mp (List.cons_ne_nil _ _)
          simp [Frees, Queue.commQueueFree, head]
  | cons malloc mallocs ih =>
      cases stored with
      | nil =>
          have head := represents.head_eq_none_iff.mpr rfl
          simp only [Frees, List.length_nil, Nat.zero_le, if_true]
          exact ⟨queue, by simp [Queue.commQueueFree, head],
            represents.entries_eq_none⟩
      | cons data rest =>
          have head := mt represents.head_eq_none_iff.mp (List.cons_ne_nil _ _)
          obtain ⟨failed, after, popped, holds⟩ := represents.popHead
          cases malloc with
          | false =>
              have frees := ih represents
              simpa [Frees, Queue.commQueueFree, head, failed] using frees
          | true =>
              have frees := ih holds
              simpa [Frees, Queue.commQueueFree, head, popped] using frees

/-- Every call, at addresses that are not in use, returns what the list gives,
and at the end the queue has the size of the list and can be freed. -/
def Behaves : Queue Addr → List (List UInt8) → List (Call Addr) → Prop
  | queue, stored, [] =>
      queue.commQueueSize (stored.length + 1) = some stored.length ∧
        ∀ mallocs, Frees queue stored mallocs
  | queue, stored, call :: calls =>
      call.Proper queue →
        ∃ after, queue.call call = some ((deque stored call).1, after) ∧
          Behaves after (deque stored call).2 calls

theorem Represents.behaves (represents : Represents queue stored)
    (calls : List (Call Addr)) : Behaves queue stored calls := by
  induction calls generalizing queue stored with
  | nil => exact ⟨represents.size (Nat.lt_succ_self _), represents.frees⟩
  | cons call calls ih =>
      intro proper
      obtain ⟨after, called, holds⟩ := represents.call call proper
      exact ⟨after, called, ih holds⟩

/-- The chain of entries behaves as the list of the data under every sequence
of calls, also when there is no memory for some of them. -/
theorem behaves_new (calls : List (Call Addr)) :
    Behaves commQueueNew [] calls :=
  represents_new.behaves calls

end Refinement

section Api

open CommQueueApi (CommQue)

variable {api : CommQue (List UInt8)} {stored : List (List UInt8)}

/-- The API goes by what the queue returns, which is not `0` for data that is
not empty. -/
theorem pushTail_deque (holds : api.que = some stored)
    (nonempty : api.setdata ≠ []) (malloc : Option Addr) (mallocData : Bool) :
    let pushed := deque stored (.pushTail malloc mallocData api.setdata)
    let after := api.pushTail (malloc.isSome && mallocData)
    after.2.que = some pushed.2 ∧ (after.1 = 0 ↔ pushed.1.1 ≠ 0) := by
  cases memory : malloc.isSome && mallocData <;>
    simp [CommQue.pushTail, deque, holds, memory, nonempty]

theorem pushHead_deque (holds : api.que = some stored)
    (nonempty : api.setdata ≠ []) (room : api.currentLength < 50)
    (malloc : Option Addr) (mallocData : Bool) :
    let pushed := deque stored (.pushHead malloc mallocData api.setdata)
    let after := api.pushHead (malloc.isSome && mallocData)
    after.2.que = some pushed.2 ∧ (after.1 = 0 ↔ pushed.1.1 ≠ 0) := by
  have below : ¬ (50 : Int) ≤ api.currentLength := Int.not_le.mpr room
  cases memory : malloc.isSome && mallocData <;>
    simp [CommQue.pushHead, deque, holds, memory, nonempty, below,
      CommQueueApi.maxQueueMsgNum]

theorem popHead_deque (holds : api.que = some stored)
    (nonempty : ∀ data ∈ stored, data ≠ []) :
    let popped := deque stored (.popHead true : Call Addr)
    let after := api.popHead
    after.2.que = some popped.2 ∧ (after.1 = 0 ↔ popped.1.1 ≠ 0) ∧
      ∀ data, popped.1.2 = some data → after.2.getdata = data := by
  cases stored with
  | nil => simp [CommQue.popHead, deque, holds]
  | cons data rest =>
      have some := nonempty data List.mem_cons_self
      simp [CommQue.popHead, CommQue.popped, deque, holds, some]

theorem popTail_deque (holds : api.que = some stored)
    (nonempty : ∀ data ∈ stored, data ≠ []) :
    let popped := deque stored (.popTail true : Call Addr)
    let after := api.popTail
    after.2.que = some popped.2 ∧ (after.1 = 0 ↔ popped.1.1 ≠ 0) ∧
      ∀ data, popped.1.2 = some data → after.2.getdata = data := by
  rcases List.eq_nil_or_concat' stored with rfl | ⟨rest, data, rfl⟩
  · simp [CommQue.popTail, deque, holds]
  · have some := nonempty data (by simp)
    simp [CommQue.popTail, CommQue.popped, deque, holds, some]

end Api

end CommQueue

end MbedtlsKcp
