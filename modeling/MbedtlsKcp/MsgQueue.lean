import Mathlib.Data.List.Perm.Subperm
import MbedtlsKcp.LinkedChains
import MbedtlsKcp.TransitionRuns

/-!
# The life cycle of a message queue

`msg_queue.c`.  `none` is an access to a node that is freed, the use of a mutex
that is not there or an `int` that overflows.  `msg_queue_deinit` destroys the
mutex and leaves `init` set.
-/

namespace MbedtlsKcp

namespace MsgQueues

open LinkedChains TransitionRuns

variable {Addr : Type}

inductive Mutex where
  | absent
  | ready
  | destroyed
  deriving DecidableEq

/-- `MsgQueue`. -/
structure MsgQueue (Addr : Type) where
  init : Bool
  nodeCount : Int
  maxNodeCount : Int
  head : Option Addr
  tail : Option Addr
  mutex : Mutex

/-- The queue, the links of the nodes and the nodes that are allocated. -/
structure State (Addr : Type) where
  queue : MsgQueue Addr
  next : Addr → Option Addr
  allocated : List Addr

/-- `INT32_MAX`. -/
def int32Max : Int := 2147483647

/-- `msg_queue_init`, which returns the queue. -/
def msgQueueInit (s : State Addr) (initQueueNum : Int) : State Addr :=
  if s.queue.init then s
  else
    { s with
      queue :=
        { init := true
          nodeCount := 0
          maxNodeCount := initQueueNum
          head := none
          tail := none
          mutex := .ready } }

section Calls

variable [DecidableEq Addr]

/-- The node linked behind the tail; `none` when the tail is freed. -/
def linkTail (s : State Addr) (node : Addr) : Option (State Addr) :=
  let next := Function.update s.next node none
  match s.queue.tail with
  | some last =>
      if last ∈ s.allocated then
        some { s with
          next := Function.update next last (some node)
          queue := { s.queue with tail := some node } }
      else none
  | none =>
      some { s with
        next := next
        queue := { s.queue with head := some node, tail := some node } }

/-- `msg_queue_put`: what it returns and the state after it. -/
def msgQueuePut (s : State Addr) (node : Addr) : Option (Int × State Addr) :=
  if ¬ s.queue.init then some (-1, s)
  else if s.queue.mutex ≠ .ready then none
  else if 0 < s.queue.maxNodeCount ∧
      s.queue.maxNodeCount ≤ s.queue.nodeCount then some (-1, s)
  else if node ∉ s.allocated ∨ int32Max ≤ s.queue.nodeCount then none
  else
    (linkTail s node).map fun after =>
      (0, { after with
        queue := { after.queue with nodeCount := s.queue.nodeCount + 1 } })

/-- `msg_queue_get`. -/
def msgQueueGet (s : State Addr) : Option (Option Addr × State Addr) :=
  if ¬ s.queue.init then some (none, s)
  else if s.queue.nodeCount ≤ 0 then some (none, s)
  else if s.queue.mutex ≠ .ready then none
  else
    match s.queue.head with
    | none => some (none, s)
    | some node =>
        if node ∈ s.allocated then
          some (some node, { s with
            queue := { s.queue with
              head := s.next node
              tail := if s.next node = none then none else s.queue.tail
              nodeCount := s.queue.nodeCount - 1 } })
        else none

/-- The loop of `msg_queue_deinit` from a node on: what stays allocated.  Each
round frees an allocated node, so that it has no more rounds than those. -/
def freeNodes (next : Addr → Option Addr) :
    Nat → Option Addr → List Addr → Option (List Addr)
  | _, none, allocated => some allocated
  | 0, some _, _ => none
  | rounds + 1, some node, allocated =>
      if node ∈ allocated then
        freeNodes next rounds (next node) (allocated.filter (· ≠ node))
      else none

/-- `msg_queue_deinit`. -/
def msgQueueDeinit (s : State Addr) : Option (Int × State Addr) :=
  if ¬ s.queue.init then some (-1, s)
  else if s.queue.mutex ≠ .ready then none
  else
    (freeNodes s.next s.allocated.length s.queue.head s.allocated).map
      fun allocated =>
        (0, { s with
          allocated := allocated
          queue := { s.queue with
            head := none
            tail := none
            nodeCount := 0
            mutex := .destroyed } })

inductive Call (Addr : Type) where
  | init (initQueueNum : Int)
  | put (node : Addr)
  | get
  | deinit

inductive Answer (Addr : Type) where
  | queue
  | status (value : Int)
  | node (found : Option Addr)

def State.call (s : State Addr) :
    Call Addr → Option (Answer Addr × State Addr)
  | .init initQueueNum => some (.queue, msgQueueInit s initQueueNum)
  | .put node => (msgQueuePut s node).map fun answer =>
      (.status answer.1, answer.2)
  | .get => (msgQueueGet s).map fun answer => (.node answer.1, answer.2)
  | .deinit => (msgQueueDeinit s).map fun answer =>
      (.status answer.1, answer.2)

end Calls

/-! ## The bounded queue -/

/-- A queue not yet initialised, one with a capacity (none when it is not
positive) and the nodes put and not yet got, and one torn down. -/
inductive Life (Addr : Type) where
  | unset
  | running (capacity : Int) (nodes : List Addr)
  | closed

/-- The nodes currently queued. -/
def Life.nodes : Life Addr → List Addr
  | .unset => []
  | .running _ nodes => nodes
  | .closed => []

/-- There is no room for another node. -/
def Full (capacity : Int) (nodes : List Addr) : Prop :=
  0 < capacity ∧ capacity ≤ nodes.length

instance (capacity : Int) (nodes : List Addr) :
    Decidable (Full capacity nodes) :=
  inferInstanceAs (Decidable (_ ∧ _))

/-- Only a queue that is not running takes a capacity. -/
def Life.init (life : Life Addr) (initQueueNum : Int) : Life Addr :=
  match life with
  | .unset => .running initQueueNum []
  | .running capacity nodes => .running capacity nodes
  | .closed => .running initQueueNum []

def Life.put (life : Life Addr) (node : Addr) : Int × Life Addr :=
  match life with
  | .unset => (-1, .unset)
  | .running capacity nodes =>
      if Full capacity nodes then (-1, .running capacity nodes)
      else (0, .running capacity (nodes ++ [node]))
  | .closed => (-1, .closed)

def Life.get (life : Life Addr) : Option Addr × Life Addr :=
  match life with
  | .unset => (none, .unset)
  | .running capacity nodes => (nodes.head?, .running capacity nodes.tail)
  | .closed => (none, .closed)

def Life.deinit (life : Life Addr) : Int × Life Addr :=
  match life with
  | .unset => (-1, .unset)
  | .running _ _ => (0, .closed)
  | .closed => (-1, .closed)

/-- The bounded queue after a call, and what it answers. -/
def Life.call (life : Life Addr) : Call Addr → Answer Addr × Life Addr
  | .init initQueueNum => (.queue, life.init initQueueNum)
  | .put node => (.status (life.put node).1, (life.put node).2)
  | .get => (.node life.get.1, life.get.2)
  | .deinit => (.status life.deinit.1, life.deinit.2)

/-- What a user of the queue sees of it: while it runs it is usable, and the
counter is the length of the linked list. -/
def Agrees (s : State Addr) : Life Addr → Prop
  | .unset => True
  | .running capacity nodes =>
      s.queue.init = true ∧ s.queue.mutex = .ready ∧
        s.queue.maxNodeCount = capacity ∧
        Segment s.next s.queue.head nodes none ∧
        s.queue.nodeCount = nodes.length
  | .closed =>
      Segment s.next s.queue.head [] none ∧ s.queue.nodeCount = 0

/-- A node that is put is allocated and not queued. -/
def Call.Proper (s : State Addr) (life : Life Addr) : Call Addr → Prop
  | .put node => node ∈ s.allocated ∧ node ∉ life.nodes
  | _ => True

/-- After it was torn down the queue is only asked for nodes, and a node that
there is room for can be counted. -/
def Call.Allowed (life : Life Addr) (call : Call Addr) : Prop :=
  match life with
  | .unset => True
  | .running capacity nodes =>
      match call with
      | .put _ => Full capacity nodes ∨ nodes.length < int32Max
      | _ => True
  | .closed =>
      match call with
      | .get => True
      | _ => False

/-! ## What the calls keep -/

/-- A running queue: the chain of its nodes, their counter and their tail. -/
structure Running (s : State Addr) (capacity : Int) (nodes : List Addr) :
    Prop where
  init : s.queue.init = true
  mutex : s.queue.mutex = .ready
  capacity : s.queue.maxNodeCount = capacity
  chain : Segment s.next s.queue.head nodes none
  count : s.queue.nodeCount = nodes.length
  tail : s.queue.tail = nodes.getLast?
  nodup : nodes.Nodup
  allocated : ∀ node ∈ nodes, node ∈ s.allocated

/-- A queue that was torn down. -/
structure Closed (s : State Addr) : Prop where
  init : s.queue.init = true
  mutex : s.queue.mutex = .destroyed
  head : s.queue.head = none
  count : s.queue.nodeCount = 0

def Holds (s : State Addr) : Life Addr → Prop
  | .unset => s.queue.init = false
  | .running capacity nodes => Running s capacity nodes
  | .closed => Closed s

theorem Holds.agrees {s : State Addr} {life : Life Addr}
    (holds : Holds s life) : Agrees s life := by
  cases life with
  | unset => trivial
  | running capacity nodes =>
      exact ⟨holds.init, holds.mutex, holds.capacity, holds.chain, holds.count⟩
  | closed => exact ⟨holds.head, holds.count⟩

theorem running_init {s : State Addr} (initQueueNum : Int)
    (notInit : s.queue.init = false) :
    Running (msgQueueInit s initQueueNum) initQueueNum [] := by
  rw [msgQueueInit, if_neg (by rw [notInit]; decide)]
  exact ⟨rfl, rfl, rfl, rfl, rfl, rfl, List.nodup_nil,
    fun node member => absurd member List.not_mem_nil⟩

theorem Closed.init_eq {s : State Addr} (closed : Closed s) (initQueueNum : Int) :
    msgQueueInit s initQueueNum = s :=
  if_pos closed.init

section Steps

variable [DecidableEq Addr]

instance (s : State Addr) (life : Life Addr) (call : Call Addr) :
    Decidable (call.Proper s life) :=
  match call with
  | .put node =>
      inferInstanceAs (Decidable (node ∈ s.allocated ∧ node ∉ life.nodes))
  | .init _ | .get | .deinit => inferInstanceAs (Decidable True)

/-- The queue and the bounded queue after a call. -/
def step (state : State Addr × Life Addr) (call : Call Addr) :
    Option (State Addr × Life Addr) :=
  (state.1.call call).map fun answer => (answer.2, (state.2.call call).2)

/-- The calls return, they answer what the bounded queue does, and every state
is one its users see as such. -/
def Behaves : State Addr × Life Addr → List (Call Addr) → Prop
  | state, [] => Agrees state.1 state.2
  | state, call :: calls =>
      Agrees state.1 state.2 ∧
        ∃ after, state.1.call call = some ((state.2.call call).1, after) ∧
          Behaves (after, (state.2.call call).2) calls

/-- The loop frees the nodes of its chain and no others. -/
theorem freeNodes_eq {next : Addr → Option Addr} {rounds : Nat}
    {start : Option Addr} {nodes allocated : List Addr}
    (chain : Segment next start nodes none) (nodup : nodes.Nodup)
    (isAllocated : ∀ node ∈ nodes, node ∈ allocated)
    (enough : nodes.length ≤ rounds) :
    freeNodes next rounds start allocated =
      some (allocated.filter (· ∉ nodes)) := by
  induction nodes generalizing start rounds allocated with
  | nil =>
      cases chain
      rw [freeNodes]
      simp
  | cons node nodes ih =>
      obtain ⟨rfl, rest⟩ := chain
      obtain ⟨outside, nodup⟩ := List.nodup_cons.mp nodup
      cases rounds with
      | zero => cases enough
      | succ rounds =>
          have kept : ∀ other ∈ nodes,
              other ∈ allocated.filter (· ≠ node) := by
            intro other member
            rw [List.mem_filter, decide_eq_true_iff]
            refine ⟨isAllocated other (List.mem_cons_of_mem _ member), ?_⟩
            rintro rfl
            exact outside member
          rw [freeNodes, if_pos (isAllocated node List.mem_cons_self),
            ih rest nodup kept (Nat.le_of_succ_le_succ enough),
            List.filter_filter]
          congr 2
          funext other
          simp [Bool.and_comm]

variable {s : State Addr} {capacity : Int} {nodes : List Addr}

theorem Running.put_full (running : Running s capacity nodes)
    (full : Full capacity nodes) (node : Addr) :
    msgQueuePut s node = some (-1, s) := by
  rw [msgQueuePut, running.init, running.mutex, running.capacity, running.count]
  exact if_pos full

theorem Running.linkTail (running : Running s capacity nodes) {node : Addr}
    (isAllocated : node ∈ s.allocated) (fresh : node ∉ nodes) :
    ∃ after, linkTail s node = some after ∧
      Running { after with
        queue := { after.queue with nodeCount := s.queue.nodeCount + 1 } }
        capacity (nodes ++ [node]) := by
  have count : s.queue.nodeCount + 1 = (nodes ++ [node]).length := by
    rw [running.count, List.length_append, List.length_singleton]
    rfl
  have nodup : (nodes ++ [node]).Nodup := by
    rw [List.nodup_append_comm]
    exact List.nodup_cons.mpr ⟨fresh, running.nodup⟩
  have allocated : ∀ other ∈ nodes ++ [node], other ∈ s.allocated := by
    intro other member
    rcases List.mem_append.mp member with old | new
    · exact running.allocated other old
    · rw [List.mem_singleton.mp new]
      exact isAllocated
  have chain := running.chain
  have tail := running.tail
  rcases List.eq_nil_or_concat' nodes with rfl | ⟨front, last, rfl⟩
  · rw [List.getLast?_nil] at tail
    have alone : Segment (Function.update s.next node none) (some node) [node]
        none := ⟨rfl, by rw [Function.update_self]; rfl⟩
    rw [MsgQueues.linkTail, tail]
    refine ⟨_, rfl, ?_⟩
    exact
      { init := running.init
        mutex := running.mutex
        capacity := running.capacity
        chain := alone
        count := count
        tail := rfl
        nodup := nodup
        allocated := allocated }
  · rw [List.getLast?_concat] at tail
    have present : last ∈ s.allocated :=
      running.allocated last (List.mem_append_right _ List.mem_cons_self)
    rw [MsgQueues.linkTail, tail]
    dsimp only
    rw [if_pos present]
    refine ⟨_, rfl, ?_⟩
    exact
      { init := running.init
        mutex := running.mutex
        capacity := running.capacity
        chain := chain.push running.nodup fresh
        count := count
        tail := (List.getLast?_concat).symm
        nodup := nodup
        allocated := allocated }

/-- A node that there is room for becomes the last one. -/
theorem Running.put (running : Running s capacity nodes) {node : Addr}
    (room : ¬ Full capacity nodes) (countable : nodes.length < int32Max)
    (isAllocated : node ∈ s.allocated) (fresh : node ∉ nodes) :
    ∃ after, msgQueuePut s node = some (0, after) ∧
      Running after capacity (nodes ++ [node]) := by
  obtain ⟨linked, links, kept⟩ := running.linkTail isAllocated fresh
  have some : ¬ (node ∉ s.allocated ∨ int32Max ≤ s.queue.nodeCount) := by
    rw [running.count]
    exact not_or.mpr ⟨not_not_intro isAllocated, Int.not_le.mpr countable⟩
  have notFull : ¬ (0 < s.queue.maxNodeCount ∧
      s.queue.maxNodeCount ≤ s.queue.nodeCount) := by
    rw [running.capacity, running.count]
    exact room
  refine ⟨_, ?_, kept⟩
  rw [msgQueuePut, if_neg (not_not_intro running.init),
    if_neg (not_not_intro running.mutex), if_neg notFull, if_neg some, links]
  rfl

/-- The first node is taken off the list. -/
theorem Running.get (running : Running s capacity nodes) :
    ∃ after, msgQueueGet s = some (nodes.head?, after) ∧
      Running after capacity nodes.tail := by
  rw [msgQueueGet, if_neg (not_not_intro running.init)]
  cases nodes with
  | nil =>
      have empty : s.queue.nodeCount ≤ 0 := Int.le_of_eq running.count
      rw [if_pos empty]
      exact ⟨s, rfl, running⟩
  | cons node rest =>
      have some : ¬ s.queue.nodeCount ≤ 0 := by
        rw [running.count, List.length_cons]
        omega
      obtain ⟨isHead, chain⟩ := running.chain
      obtain ⟨-, nodup⟩ := List.nodup_cons.mp running.nodup
      rw [if_neg some, if_neg (not_not_intro running.mutex), isHead]
      dsimp only
      rw [if_pos (running.allocated node List.mem_cons_self)]
      refine ⟨_, rfl, ?_⟩
      exact
        { init := running.init
          mutex := running.mutex
          capacity := running.capacity
          chain := chain
          count := by
            change s.queue.nodeCount - 1 = _
            rw [running.count, List.length_cons, List.tail_cons]
            omega
          tail := by
            change (if s.next node = none then none else s.queue.tail) = _
            rw [running.tail]
            cases rest with
            | nil => exact if_pos chain
            | cons second rest =>
                rw [chain.1, if_neg (Option.some_ne_none second)]
                exact List.getLast?_cons_cons
          nodup := nodup
          allocated := fun other member =>
            running.allocated other (List.mem_cons_of_mem node member) }

/-- Tearing the queue down frees its nodes and no others. -/
theorem Running.deinit (running : Running s capacity nodes) :
    ∃ after, msgQueueDeinit s = some (0, after) ∧ Closed after ∧
      after.allocated = s.allocated.filter (· ∉ nodes) := by
  have enough : nodes.length ≤ s.allocated.length :=
    (running.nodup.subperm running.allocated).length_le
  rw [msgQueueDeinit, if_neg (not_not_intro running.init),
    if_neg (not_not_intro running.mutex),
    freeNodes_eq running.chain running.nodup running.allocated enough]
  exact ⟨_, rfl, ⟨running.init, rfl, rfl, rfl⟩, rfl⟩

/-- Getting is the only call that leaves a destroyed mutex alone. -/
theorem Closed.get (closed : Closed s) : msgQueueGet s = some (none, s) := by
  rw [msgQueueGet, if_neg (not_not_intro closed.init),
    if_pos (Int.le_of_eq closed.count)]

theorem Closed.put (closed : Closed s) (node : Addr) :
    msgQueuePut s node = none := by
  rw [msgQueuePut, if_neg (not_not_intro closed.init), closed.mutex]
  rfl

theorem Closed.deinit (closed : Closed s) : msgQueueDeinit s = none := by
  rw [msgQueueDeinit, if_neg (not_not_intro closed.init), closed.mutex]
  rfl

/-! ## Runs -/

/-- An allowed call answers what the bounded queue does and keeps it. -/
theorem Holds.call {life : Life Addr} (holds : Holds s life)
    {call : Call Addr} (proper : call.Proper s life)
    (allowed : call.Allowed life) :
    ∃ after, s.call call = some ((life.call call).1, after) ∧
      Holds after (life.call call).2 := by
  cases life with
  | unset =>
      have notInit : ¬ s.queue.init = true := by
        rw [holds]
        decide
      cases call with
      | init initQueueNum => exact ⟨_, rfl, running_init initQueueNum holds⟩
      | put node =>
          refine ⟨s, ?_, holds⟩
          rw [State.call, msgQueuePut, if_pos notInit]
          rfl
      | get =>
          refine ⟨s, ?_, holds⟩
          rw [State.call, msgQueueGet, if_pos notInit]
          rfl
      | deinit =>
          refine ⟨s, ?_, holds⟩
          rw [State.call, msgQueueDeinit, if_pos notInit]
          rfl
  | running capacity nodes =>
      cases call with
      | init initQueueNum =>
          refine ⟨s, ?_, holds⟩
          rw [State.call, msgQueueInit, if_pos holds.init]
          rfl
      | put node =>
          rw [State.call, Life.call, Life.put]
          by_cases full : Full capacity nodes
          · rw [if_pos full, holds.put_full full node]
            exact ⟨s, rfl, holds⟩
          · obtain ⟨after, puts, kept⟩ := holds.put full
              (allowed.resolve_left full) proper.1 proper.2
            rw [if_neg full, puts]
            exact ⟨after, rfl, kept⟩
      | get =>
          obtain ⟨after, gets, kept⟩ := Running.get holds
          rw [State.call, gets]
          exact ⟨after, rfl, kept⟩
      | deinit =>
          obtain ⟨after, deinits, kept, -⟩ := Running.deinit holds
          rw [State.call, deinits]
          exact ⟨after, rfl, kept⟩
  | closed =>
      cases call with
      | init initQueueNum => cases allowed
      | put node => cases allowed
      | get =>
          rw [State.call, Closed.get holds]
          exact ⟨s, rfl, holds⟩
      | deinit => cases allowed

/-- A call that is not allowed does not return, or it returns a queue that
cannot be used. -/
theorem Holds.not_allowed {life : Life Addr} (holds : Holds s life)
    {call : Call Addr} (refused : ¬ call.Allowed life) (after : State Addr)
    (calls : s.call call = some ((life.call call).1, after)) :
    ¬ Agrees after (life.call call).2 := by
  cases life with
  | unset => exact absurd trivial refused
  | running capacity nodes =>
      cases call with
      | put node =>
          obtain ⟨room, uncountable⟩ := not_or.mp refused
          have notFull : ¬ (0 < s.queue.maxNodeCount ∧
              s.queue.maxNodeCount ≤ s.queue.nodeCount) := by
            rw [holds.capacity, holds.count]
            exact room
          have overflows : node ∉ s.allocated ∨ int32Max ≤ s.queue.nodeCount := by
            rw [holds.count]
            exact .inr (Int.not_lt.mp uncountable)
          rw [State.call, msgQueuePut, if_neg (not_not_intro holds.init),
            if_neg (not_not_intro holds.mutex), if_neg notFull,
            if_pos overflows] at calls
          cases calls
      | init initQueueNum => exact absurd trivial refused
      | get => exact absurd trivial refused
      | deinit => exact absurd trivial refused
  | closed =>
      cases call with
      | init initQueueNum =>
          rw [State.call, Closed.init_eq holds] at calls
          cases calls
          rintro ⟨-, ready, -⟩
          rw [holds.mutex] at ready
          cases ready
      | put node =>
          rw [State.call, Closed.put holds] at calls
          cases calls
      | get => exact absurd trivial refused
      | deinit =>
          rw [State.call, Closed.deinit holds] at calls
          cases calls

theorem Behaves.first {state : State Addr × Life Addr}
    {calls : List (Call Addr)} (behaves : Behaves state calls) :
    Agrees state.1 state.2 := by
  cases calls with
  | nil => exact behaves
  | cons call calls => exact behaves.1

/-- A run behaves exactly when all its calls are allowed. -/
theorem Holds.behaves_iff_allowed {state : State Addr × Life Addr}
    (holds : Holds state.1 state.2) {calls : List (Call Addr)}
    (proper : StepsMeet step (fun state call => call.Proper state.1 state.2)
      state calls) :
    Behaves state calls ↔
      StepsMeet step (fun state call => call.Allowed state.2) state calls := by
  induction calls generalizing state with
  | nil => exact iff_of_true holds.agrees trivial
  | cons call calls ih =>
      obtain ⟨isProper, later⟩ := proper
      have steps : ∀ {after : State Addr},
          state.1.call call = some ((state.2.call call).1, after) →
            step state call = some (after, (state.2.call call).2) := by
        intro after returns
        rw [step, returns, Option.map_some]
      constructor
      · rintro ⟨-, after, returns, rest⟩
        have allowed : call.Allowed state.2 := by
          by_contra refused
          exact holds.not_allowed refused after returns rest.first
        refine ⟨allowed, ?_⟩
        intro next isNext
        obtain ⟨same, isSame, kept⟩ := holds.call isProper allowed
        rw [steps isSame] at isNext
        cases isNext
        rw [returns] at isSame
        cases isSame
        exact (ih kept (later _ (steps returns))).mp rest
      · rintro ⟨allowed, meets⟩
        obtain ⟨after, returns, kept⟩ := holds.call isProper allowed
        exact ⟨holds.agrees, after, returns,
          (ih kept (later _ (steps returns))).mpr (meets _ (steps returns))⟩

/-- From a zeroed queue on, every call answers what the bounded queue of the
latest effective `msg_queue_init` does, and leaves it usable, exactly when
nothing but `msg_queue_get` is called after `msg_queue_deinit`. -/
theorem behaves_iff_stepsMeet {s : State Addr} (notInit : s.queue.init = false)
    {calls : List (Call Addr)}
    (proper : StepsMeet step (fun state call => call.Proper state.1 state.2)
      (s, .unset) calls) :
    Behaves (s, .unset) calls ↔
      StepsMeet step (fun state call => call.Allowed state.2) (s, .unset)
        calls :=
  @Holds.behaves_iff_allowed Addr _ (s, .unset) notInit calls proper

end Steps

/-- A zeroed queue and two nodes. -/
def zeroed : State Nat where
  queue := ⟨false, 0, 0, none, none, .absent⟩
  next _ := none
  allocated := [0, 1]

/-- A queue of one node is filled, emptied and torn down. -/
theorem behaves_one :
    Behaves (zeroed, .unset)
        [.init 1, .put 0, .put 1, .get, .put 1, .deinit, .get] ↔
      StepsMeet step (fun state call => call.Allowed state.2) (zeroed, .unset)
        [.init 1, .put 0, .put 1, .get, .put 1, .deinit, .get] :=
  behaves_iff_stepsMeet rfl (by decide)

/-- Putting a node after the queue was torn down locks a destroyed mutex. -/
theorem not_forall_runs_behave :
    ¬ ∀ (s : State Nat) (calls : List (Call Nat)), s.queue.init = false →
      StepsMeet step (fun state call => call.Proper state.1 state.2)
        (s, .unset) calls →
      Behaves (s, .unset) calls := by
  intro holds
  obtain ⟨-, ready, isReady, -, torn, isTorn, -, after, puts, -⟩ :=
    holds zeroed [.init 1, .deinit, .put 0] rfl (by decide)
  cases isReady
  cases isTorn
  cases puts

end MsgQueues

end MbedtlsKcp
