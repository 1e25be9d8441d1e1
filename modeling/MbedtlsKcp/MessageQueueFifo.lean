import MbedtlsKcp.MessageQueue

/-!
# The message queue is first in, first out

The linked messages are those passed on, the one in hand and those in the ring;
every step under the mutex keeps this, and the steps outside it touch neither.
`Message_PutMsg` returns 0 without linking anything once the queue is stopped.
-/

namespace MbedtlsKcp

namespace MessageQueue

open LinkedRings TransitionRuns

variable {Addr Message : Type*}

theorem Queue.calls_setCall_self {q : Queue Addr Message} {call : Nat}
    {state : CallState Message} : (q.setCall call state).calls call = state := by
  simp [Queue.setCall]

theorem Queue.calls_setCall_of_ne {q : Queue Addr Message} {call other : Nat}
    {state : CallState Message} (differ : other ≠ call) :
    (q.setCall call state).calls other = q.calls other := by
  simp [Queue.setCall, differ]

/-- The calls of `writeCB` that are still to be made. -/
def Queue.pendingWrites (q : Queue Addr Message) : Nat :=
  match q.thread with
  | .writeable => 1
  | _ => 0

/-- What holds between any two steps.  Every `writeCB` call has taken one of the
counted events. -/
structure Invariant (q : Queue Addr Message) : Prop where
  ring : ∃ members, Ring q.heap q.head members ∧
    q.iNodeNum = BitVec.ofNat 32 members.length ∧
    (q.readCb = true → q.linked.map (some ∘ Prod.snd) =
      (q.delivered ++ q.inHand).map some ++ members.map (contents q.heap))
  silent : q.readCb = false → q.delivered = []
  events : ∃ taken, taken ≤ q.counted ∧
    q.iEventCnt = BitVec.ofNat 32 (q.counted - taken) ∧
    q.written + q.pendingWrites ≤ taken
  linkedOnce : (q.linked.map Prod.fst).Nodup
  returned : ∀ call node, (call, node) ∈ q.linked →
    q.calls call = .putMsgReturned node 0
  putMsg : ∀ call node, q.calls call = .putMsgReturned node 0 →
    (call, node) ∈ q.linked ∨ q.iLoopThreadRun = false

namespace Invariant

variable {q after : Queue Addr Message}

/-- A call moves on without linking anything. -/
theorem setCall (holds : Invariant q) {call : Nat} {state : CallState Message}
    (active : ∀ node, q.calls call ≠ .putMsgReturned node 0)
    (refuses : ∀ node, state = .putMsgReturned node 0 →
      q.iLoopThreadRun = false) :
    Invariant (q.setCall call state) where
  ring := holds.ring
  silent := holds.silent
  events := holds.events
  linkedOnce := holds.linkedOnce
  returned other node member := by
    have before := holds.returned other node member
    have differ : other ≠ call := by
      rintro rfl
      exact active node before
    rw [Queue.calls_setCall_of_ne differ, before]
  putMsg other node returns := by
    by_cases same : other = call
    · rw [same, Queue.calls_setCall_self] at returns
      exact .inr (refuses node returns)
    · rw [Queue.calls_setCall_of_ne same] at returns
      exact holds.putMsg other node returns

theorem callPutMsg (holds : Invariant q) {call : Nat} {node : Message}
    (steps : q.callPutMsg call node = some after) : Invariant after := by
  unfold Queue.callPutMsg at steps
  split at steps
  case h_2 => cases steps
  case h_1 fresh =>
    have active : ∀ node, q.calls call ≠ .putMsgReturned node 0 := by
      intro node returned
      rw [fresh] at returned
      cases returned
    cases run : q.iLoopThreadRun with
    | true =>
        rw [run, if_pos rfl] at steps
        cases steps
        exact holds.setCall active nofun
    | false =>
        rw [run, if_neg Bool.false_ne_true] at steps
        cases steps
        exact holds.setCall active fun _ _ => run

theorem callPutEvent (holds : Invariant q) {call : Nat}
    (steps : q.callPutEvent call = some after) : Invariant after := by
  unfold Queue.callPutEvent at steps
  split at steps
  case h_2 => cases steps
  case h_1 fresh =>
    have active : ∀ node, q.calls call ≠ .putMsgReturned node 0 := by
      intro node returned
      rw [fresh] at returned
      cases returned
    cases run : q.iLoopThreadRun <;> rw [run] at steps <;> cases steps <;>
      exact holds.setCall active nofun

theorem finishPutEvent (holds : Invariant q) {call : Nat}
    (steps : q.finishPutEvent call = some after) : Invariant after := by
  unfold Queue.finishPutEvent at steps
  split at steps
  case h_2 => cases steps
  case h_1 putting =>
    cases steps
    have active : ∀ node, q.calls call ≠ .putMsgReturned node 0 := by
      intro node returned
      rw [putting] at returned
      cases returned
    have moved : Invariant (q.setCall call (.putEventReturned 0)) :=
      holds.setCall active nofun
    obtain ⟨taken, few, count, written⟩ := holds.events
    have more : q.iEventCnt + 1 =
        BitVec.ofNat 32 (q.counted + 1 - taken) := by
      rw [count, Nat.sub_add_comm few, BitVec.ofNat_add]
      rfl
    exact ⟨moved.ring, moved.silent, ⟨taken, Nat.le_succ_of_le few, more,
      written⟩, moved.linkedOnce, moved.returned, moved.putMsg⟩

theorem stopAsync (holds : Invariant q) :
    Invariant { q with iLoopThreadRun := false } where
  ring := holds.ring
  silent := holds.silent
  events := holds.events
  linkedOnce := holds.linkedOnce
  returned := holds.returned
  putMsg _ _ _ := .inr rfl

theorem testRun (holds : Invariant q) (steps : q.testRun = some after) :
    Invariant after := by
  unfold Queue.testRun at steps
  split at steps
  case h_2 => cases steps
  case h_1 starting =>
    cases steps
    obtain ⟨⟨members, ring, count, order⟩, silent, ⟨taken, few, left, written⟩,
      linkedOnce, returned, putMsg⟩ := holds
    rw [Queue.inHand, starting] at order
    rw [Queue.pendingWrites, starting] at written
    refine ⟨⟨members, ring, count, ?_⟩, silent, ⟨taken, few, left, ?_⟩,
      linkedOnce, returned, putMsg⟩
    · cases run : q.iLoopThreadRun <;> simpa [Queue.inHand, run] using order
    · cases run : q.iLoopThreadRun <;>
        simpa [Queue.pendingWrites, run] using written

theorem wake (holds : Invariant q) (steps : q.wake = some after) :
    Invariant after := by
  unfold Queue.wake at steps
  split at steps
  case h_2 => cases steps
  case h_1 waiting =>
    cases steps
    obtain ⟨⟨members, ring, count, order⟩, silent, ⟨taken, few, left, written⟩,
      linkedOnce, returned, putMsg⟩ := holds
    rw [Queue.inHand, waiting] at order
    rw [Queue.pendingWrites, waiting] at written
    exact ⟨⟨members, ring, count, order⟩, silent, ⟨taken, few, left, written⟩,
      linkedOnce, returned, putMsg⟩

theorem callBack (holds : Invariant q) (steps : q.callBack = some after) :
    Invariant after := by
  obtain ⟨⟨members, ring, count, order⟩, silent, ⟨taken, few, left, written⟩,
    linkedOnce, returned, putMsg⟩ := holds
  unfold Queue.callBack at steps
  split at steps
  case h_3 => cases steps
  case h_1 read_node readable =>
    cases steps
    rw [Queue.inHand, readable] at order
    rw [Queue.pendingWrites, readable] at written
    refine ⟨⟨members, ring, count, ?_⟩, ?_, ⟨taken, few, left, written⟩,
      linkedOnce, returned, putMsg⟩
    · intro reads
      show q.linked.map _ = ((if q.readCb then _ else _) ++ []).map _ ++ _
      rw [if_pos reads, List.append_nil]
      exact order reads
    · intro reads
      show (if q.readCb then _ else _) = _
      rw [reads, if_neg Bool.false_ne_true]
      exact silent reads
  case h_2 writeable =>
    cases steps
    rw [Queue.inHand, writeable] at order
    rw [Queue.pendingWrites, writeable] at written
    refine ⟨⟨members, ring, count, order⟩, silent, ⟨taken, few, left, ?_⟩,
      linkedOnce, returned, putMsg⟩
    show (if q.writeCB then q.written + 1 else q.written) + 0 ≤ taken
    split <;> omega

/-- What was passed on is the start of what was linked. -/
theorem fifo (holds : Invariant q) : Fifo q where
  prefixed := by
    cases reads : q.readCb with
    | false =>
        rw [holds.silent reads]
        exact List.nil_prefix
    | true =>
        obtain ⟨members, ring, count, order⟩ := holds.ring
        have both := order reads
        rw [List.map_append, List.append_assoc, ← List.map_map] at both
        apply (List.prefix_map_iff_of_injective
          fun _ _ => Option.some.inj).mp
        rw [both]
        exact List.prefix_append _ _
  linkedOnce := holds.linkedOnce
  ring := holds.ring
  written := by
    obtain ⟨taken, few, -, written⟩ := holds.events
    omega
  putMsg := holds.putMsg

variable [DecidableEq Addr]

theorem initQueue (head : Addr) (zero : Message)
    (readCb writeCB : Bool) :
    Invariant (MessageQueue.initQueue head zero readCb writeCB) where
  ring := by
    refine ⟨[], ⟨?_, ?_⟩, rfl, fun _ => rfl⟩
    · show List.IsChain _ [head, head]
      simp [LinkedRings.Joined, nexts, prevs, MessageQueue.initQueue]
    · exact List.nodup_cons.mpr ⟨List.not_mem_nil, List.nodup_nil⟩
  silent _ := rfl
  events := ⟨0, Nat.le_refl _, rfl, Nat.le_refl _⟩
  linkedOnce := List.nodup_nil
  returned _ _ member := absurd member List.not_mem_nil
  putMsg _ _ returns := by cases returns

theorem finishPutMsg (holds : Invariant q) {call : Nat} {malloc : Option Addr}
    (steps : q.finishPutMsg call malloc = some after) : Invariant after := by
  unfold Queue.finishPutMsg at steps
  split at steps
  case h_3 => cases steps
  case h_1 node putting =>
    cases steps
    apply holds.setCall
    · intro other returned
      rw [putting] at returned
      cases returned
    · intro other returned
      cases returned
  case h_2 node newNode putting =>
    split at steps
    case h_1 => cases steps
    case h_2 fresh =>
      obtain ⟨members, ring, count, order⟩ := holds.ring
      obtain ⟨heap, links, ringAfter, same⟩ := ring.linkLast fresh node
      rw [links, Option.map_some] at steps
      cases steps
      have notLinked : ∀ node, (call, node) ∉ q.linked := by
        intro other member
        have returned := holds.returned call other member
        rw [putting] at returned
        cases returned
      have newPlace : newNode ∉ members := fun member =>
        ring.allocated (List.mem_cons_of_mem _ member) fresh
      constructor
      · refine ⟨members ++ [newNode], ringAfter, ?_, ?_⟩
        · rw [List.length_append, List.length_singleton]
          show q.iNodeNum + 1 = _
          rw [count, BitVec.ofNat_add]
          rfl
        · intro reads
          have kept : members.map (contents heap) =
              members.map (contents q.heap) := by
            apply List.map_congr_left
            intro place member
            rw [same, Function.update_of_ne]
            rintro rfl
            exact newPlace member
          have stored : contents heap newNode = some node := by
            rw [same, Function.update_self]
          have more : (q.linked ++ [(call, node)]).map (some ∘ Prod.snd) =
              (q.delivered ++ q.inHand).map some ++
                (members ++ [newNode]).map (contents heap) := by
            rw [List.map_append, List.map_append (f := contents heap), kept,
              order reads, List.append_assoc, List.map_singleton,
              List.map_singleton, stored]
            rfl
          exact more
      · exact holds.silent
      · exact holds.events
      · show ((q.linked ++ [(call, node)]).map Prod.fst).Nodup
        rw [List.map_append]
        apply List.nodup_append.mpr
        refine ⟨holds.linkedOnce,
          List.nodup_cons.mpr ⟨List.not_mem_nil, List.nodup_nil⟩, ?_⟩
        intro number member other isCall isSame
        obtain ⟨entry, listed, rfl⟩ := List.mem_map.mp member
        obtain rfl := List.mem_singleton.mp isCall
        exact notLinked entry.2 (isSame ▸ listed)
      · intro other message member
        rcases List.mem_append.mp member with old | isNew
        · have differ : other ≠ call := by
            rintro rfl
            exact notLinked message old
          exact (Queue.calls_setCall_of_ne differ).trans
            (holds.returned other message old)
        · obtain ⟨rfl, rfl⟩ := Prod.mk.inj (List.mem_singleton.mp isNew)
          exact Queue.calls_setCall_self
      · intro other message returned
        change (q.setCall call _).calls other = _ at returned
        by_cases same : other = call
        · rw [same, Queue.calls_setCall_self] at returned
          cases returned
          exact .inl (same ▸ List.mem_append_right _ List.mem_cons_self)
        · rw [Queue.calls_setCall_of_ne same] at returned
          exact (holds.putMsg other message returned).imp_left
            (List.mem_append_left _)

theorem takeNext (holds : Invariant q) (steps : q.takeNext = some after) :
    Invariant after := by
  obtain ⟨⟨members, ring, count, order⟩, silent, ⟨taken, few, left, written⟩,
    linkedOnce, returned, putMsg⟩ := holds
  unfold Queue.takeNext at steps
  split at steps
  case h_2 => cases steps
  case h_1 running =>
    rw [Queue.inHand, running] at order
    rw [Queue.pendingWrites, running] at written
    obtain ⟨headCell, headFound, steps⟩ := Option.bind_eq_some_iff.mp steps
    dsimp only at steps
    split_ifs at steps with takes events
    case pos =>
      obtain ⟨cell, found, steps⟩ := Option.bind_eq_some_iff.mp steps
      obtain ⟨heap, unlinks, steps⟩ := Option.bind_eq_some_iff.mp steps
      cases steps
      obtain ⟨rest, rfl⟩ := ring.eq_cons headFound takes.2
      obtain ⟨_, unlinked, ringAfter, same⟩ := ring.unlink
      cases unlinks.symm.trans unlinked
      refine ⟨⟨rest, ringAfter, ?_, ?_⟩, silent, ⟨taken, few, left, written⟩,
        linkedOnce, returned, putMsg⟩
      · show q.iNodeNum - 1 = _
        rw [count, List.length_cons, BitVec.ofNat_add]
        exact BitVec.add_sub_cancel _ _
      · intro reads
        have kept : rest.map (contents heap) =
            rest.map (contents q.heap) := by
          apply List.map_congr_left
          intro place member
          rw [same, Function.update_of_ne]
          rintro rfl
          have behind := (List.nodup_cons.mp ring.nodup).2
          exact (List.nodup_cons.mp behind).1 member
        have stored : contents q.heap headCell.next = some cell.content := by
          rw [contents, found]
          rfl
        have more : q.linked.map (some ∘ Prod.snd) =
            (q.delivered ++ [cell.content]).map some ++
              rest.map (contents heap) := by
          rw [order reads, kept, List.map_cons, stored]
          simp
        exact more
    case pos =>
      cases steps
      refine ⟨⟨members, ring, count, order⟩, silent, ?_, linkedOnce, returned,
        putMsg⟩
      have someLeft : taken < q.counted := by
        by_contra all
        have noneLeft : q.counted - taken = 0 := by omega
        rw [left, noneLeft] at events
        exact absurd events (by decide)
      refine ⟨taken + 1, someLeft, ?_, Nat.succ_le_succ written⟩
      show q.iEventCnt - 1 = _
      have splits : q.counted - taken = (q.counted - (taken + 1)) + 1 := by
        omega
      rw [left, splits, BitVec.ofNat_add]
      exact BitVec.add_sub_cancel _ _
    case neg =>
      cases steps
      exact ⟨⟨members, ring, count, order⟩, silent,
        ⟨taken, few, left, written⟩, linkedOnce, returned, putMsg⟩

theorem next (holds : Invariant q) {step : Step Addr Message}
    (steps : q.next step = some after) : Invariant after := by
  cases step with
  | callPutMsg call node => exact holds.callPutMsg steps
  | finishPutMsg call malloc => exact holds.finishPutMsg steps
  | callPutEvent call => exact holds.callPutEvent steps
  | finishPutEvent call => exact holds.finishPutEvent steps
  | stopAsync =>
      cases steps
      exact holds.stopAsync
  | testRun => exact holds.testRun steps
  | takeNext => exact holds.takeNext steps
  | wake => exact holds.wake steps
  | callBack => exact holds.callBack steps

end Invariant

variable [DecidableEq Addr]

def sampleQueue : Queue Nat Char :=
  initQueue 0 'z' true true

/-- Two calls put their messages and the first one is passed on. -/
def sampleSteps : List (Step Nat Char) :=
  [.callPutMsg 1 'a', .callPutMsg 2 'b', .finishPutMsg 2 (some 7),
    .finishPutMsg 1 (some 5), .testRun, .takeNext, .callBack]

end MessageQueue

end MbedtlsKcp
