import MbedtlsKcp.LinkedRings
import MbedtlsKcp.TransitionRuns

/-!
# The message queue

`task_queue.c`: any number of calls that put messages and events, a thread that
takes them, and `Message_StopAsync`.  What a call does under the mutex is one
step; the reads of `iLoopThreadRun` before it are steps of their own.  A new
node is invisible until it is linked, so its allocation is part of that step.
The queue is initialised and not torn down.
-/

namespace MbedtlsKcp

namespace MessageQueue

open LinkedRings TransitionRuns

variable {Addr Message : Type*}

/-- Where a call of `Message_PutMsg` or `Message_PutEvent` is. -/
inductive CallState (Message : Type*) where
  | notCalled
  | puttingMsg (node : Message)
  | puttingEvent
  | putMsgReturned (node : Message) (ret : Int)
  | putEventReturned (ret : Int)

/-- Where an iteration of `Message_Thread` is. -/
inductive ThreadState (Message : Type*) where
  | starting
  | running
  | waiting
  | readable (read_node : Message)
  | writeable
  | quit

/-- A queue with its calls and its thread.  The last four members record what
happened: the messages in the order they were linked, those passed to `readCb`,
the events counted and the calls of `writeCB`. -/
structure Queue (Addr Message : Type*) where
  heap : Heap Addr Message
  head : Addr
  iNodeNum : BitVec 32
  iEventCnt : BitVec 32
  iLoopThreadRun : Bool
  readCb : Bool
  writeCB : Bool
  calls : Nat → CallState Message
  thread : ThreadState Message
  linked : List (Nat × Message)
  delivered : List Message
  counted : Nat
  written : Nat

/-- The steps of the calls, which have numbers, of `Message_StopAsync` and of
the thread.  `malloc` is the address that was allocated, if any. -/
inductive Step (Addr Message : Type*) where
  | callPutMsg (call : Nat) (node : Message)
  | finishPutMsg (call : Nat) (malloc : Option Addr)
  | callPutEvent (call : Nat)
  | finishPutEvent (call : Nat)
  | stopAsync
  | testRun
  | takeNext
  | wake
  | callBack

namespace Queue

variable [DecidableEq Addr] (q : Queue Addr Message)

def setCall (call : Nat) (state : CallState Message) :
    Queue Addr Message :=
  { q with calls := Function.update q.calls call state }

/-- `Message_PutMsg` up to its lock. -/
def callPutMsg (call : Nat) (node : Message) : Option (Queue Addr Message) :=
  match q.calls call with
  | .notCalled =>
      some (if q.iLoopThreadRun then q.setCall call (.puttingMsg node)
        else q.setCall call (.putMsgReturned node 0))
  | _ => none

/-- `Message_PutMsg` from `malloc` on. -/
def finishPutMsg (call : Nat) (malloc : Option Addr) :
    Option (Queue Addr Message) :=
  match q.calls call, malloc with
  | .puttingMsg node, none => some (q.setCall call (.putMsgReturned node (-1)))
  | .puttingMsg node, some newNode =>
      match q.heap newNode with
      | some _ => none
      | none =>
          (linkLast q.heap q.head newNode node).map fun heap =>
            { q.setCall call (.putMsgReturned node 0) with
              heap := heap
              iNodeNum := q.iNodeNum + 1
              linked := q.linked ++ [(call, node)] }
  | _, _ => none

/-- `Message_PutEvent` up to its lock. -/
def callPutEvent (call : Nat) : Option (Queue Addr Message) :=
  match q.calls call with
  | .notCalled =>
      some (if q.iLoopThreadRun then q.setCall call .puttingEvent
        else q.setCall call (.putEventReturned 0))
  | _ => none

def finishPutEvent (call : Nat) : Option (Queue Addr Message) :=
  match q.calls call with
  | .puttingEvent =>
      some { q.setCall call (.putEventReturned 0) with
        iEventCnt := q.iEventCnt + 1
        counted := q.counted + 1 }
  | _ => none

/-- The test of `Message_Thread` before its lock. -/
def testRun : Option (Queue Addr Message) :=
  match q.thread with
  | .starting =>
      some { q with
        thread := if q.iLoopThreadRun then .running else .quit }
  | _ => none

/-- What `Message_Thread` does under the mutex. -/
def takeNext : Option (Queue Addr Message) :=
  match q.thread with
  | .running => do
      let node := (← q.heap q.head).next
      if 0 < q.iNodeNum.toInt ∧ node ≠ q.head then
        let read_node := (← q.heap node).content
        let heap ← unlink q.heap node
        some { q with
          heap := heap
          iNodeNum := q.iNodeNum - 1
          thread := .readable read_node }
      else if 0 < q.iEventCnt.toInt then
        some { q with
          iEventCnt := q.iEventCnt - 1
          thread := .writeable }
      else
        some { q with thread := .waiting }
  | _ => none

/-- The end of `pthread_cond_timedwait`, for whatever reason. -/
def wake : Option (Queue Addr Message) :=
  match q.thread with
  | .waiting => some { q with thread := .starting }
  | _ => none

/-- The call of `readCb` or `writeCB`, if there is one. -/
def callBack : Option (Queue Addr Message) :=
  match q.thread with
  | .readable read_node =>
      some { q with
        delivered :=
          if q.readCb then q.delivered ++ [read_node] else q.delivered
        thread := .starting }
  | .writeable =>
      some { q with
        written := if q.writeCB then q.written + 1 else q.written
        thread := .starting }
  | _ => none

def next (q : Queue Addr Message) (step : Step Addr Message) :
    Option (Queue Addr Message) :=
  match step with
  | .callPutMsg call node => q.callPutMsg call node
  | .finishPutMsg call malloc => q.finishPutMsg call malloc
  | .callPutEvent call => q.callPutEvent call
  | .finishPutEvent call => q.finishPutEvent call
  | .stopAsync => some { q with iLoopThreadRun := false }
  | .testRun => q.testRun
  | .takeNext => q.takeNext
  | .wake => q.wake
  | .callBack => q.callBack

end Queue

/-- A queue after `Message_Init`; `zero` is the content of the head. -/
def initQueue [DecidableEq Addr] (head : Addr) (zero : Message)
    (readCb writeCB : Bool) : Queue Addr Message where
  heap := Function.update (fun _ => none) head (some ⟨head, head, zero⟩)
  head := head
  iNodeNum := 0
  iEventCnt := 0
  iLoopThreadRun := true
  readCb := readCb
  writeCB := writeCB
  calls := fun _ => .notCalled
  thread := .starting
  linked := []
  delivered := []
  counted := 0
  written := 0

/-! ## First in, first out -/

variable [DecidableEq Addr]

/-- The message that was taken and not yet passed on. -/
def Queue.inHand (q : Queue Addr Message) : List Message :=
  match q.thread with
  | .readable read_node => [read_node]
  | _ => []

/-- The queue is a FIFO: what is passed to `readCb` is the start of what was
linked, the rest is in hand or still linked, the counters are right, and a call
that returned 0 linked its message or found the queue stopped. -/
structure Fifo (q : Queue Addr Message) : Prop where
  prefixed : q.delivered <+: q.linked.map Prod.snd
  linkedOnce : (q.linked.map Prod.fst).Nodup
  ring : ∃ members, Ring q.heap q.head members ∧
    q.iNodeNum = BitVec.ofNat 32 members.length ∧
    (q.readCb = true → q.linked.map (some ∘ Prod.snd) =
      (q.delivered ++ q.inHand).map some ++ members.map (contents q.heap))
  written : q.written ≤ q.counted
  putMsg : ∀ call node, q.calls call = .putMsgReturned node 0 →
    (call, node) ∈ q.linked ∨ q.iLoopThreadRun = false

end MessageQueue

end MbedtlsKcp
