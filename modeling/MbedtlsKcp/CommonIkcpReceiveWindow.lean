import MbedtlsKcp.CommonIkcpWindow

/-!
# The receive window, whatever arrives

A peer can send what it likes, but it cannot make a control block keep more
segments than the receive window is wide: twice the largest window that has
been set is the most that the receive buffer and the receive queue hold.
-/

namespace MbedtlsKcp

namespace CommonIkcp

open SerialNumbers TransitionRuns Ikcp

/-- How far a segment is ahead of the next number that is expected. -/
def ahead (rcv : ReceiveSide) (seg : Seg) : Nat :=
  (seg.sn - rcv.rcvNxt).toNat

/-- The receive side keeps at most `limit` segments in each list. -/
structure WithinWindow (limit : Nat) (rcv : ReceiveSide) : Prop where
  queue : rcv.rcvQueue.length ≤ limit
  buffer : rcv.rcvBuf.length ≤ limit
  sorted : (rcv.rcvBuf.map (ahead rcv)).Pairwise (· < ·)
  inside : ∀ seg ∈ rcv.rcvBuf, ahead rcv seg < limit
  queued : rcv.nrcvQue = rcv.rcvQueue.length
  buffered : rcv.nrcvBuf = rcv.rcvBuf.length

/-- The call sets no receive window above `limit`. -/
def Call.SetsUpTo (limit : Nat) : Call → Prop
  | .wndsize _ rcvwnd => rcvwnd ≤ limit
  | _ => True

/-- The receive side with the index of the next number. -/
structure Awaiting (limit next : Nat) (rcv : ReceiveSide) : Prop where
  expects : rcv.rcvNxt = serial 32 next
  window : rcv.rcvWnd ≤ limit
  entries : Ascending Numbered (next + limit) next rcv.rcvBuf
  queue : rcv.rcvQueue.length ≤ limit
  queued : rcv.nrcvQue = rcv.rcvQueue.length
  buffered : rcv.nrcvBuf = rcv.rcvBuf.length

variable {limit next : Nat} {rcv after : ReceiveSide}

/-- As many entries as there are indices. -/
theorem Ascending.length_le {lower upper : Nat} {segs : List Seg}
    (ascending : Ascending Numbered upper lower segs) :
    segs.length ≤ upper - lower := by
  induction ascending with
  | nil => exact Nat.zero_le _
  | cons above below holds rest ih =>
      rw [List.length_cons]
      omega

theorem Awaiting.ahead_eq (awaiting : Awaiting limit next rcv)
    {index : Nat} {seg : Seg} (above : next ≤ index)
    (below : index < next + 2 ^ 32) (numbered : Numbered index seg) :
    ahead rcv seg = index - next := by
  rw [ahead, numbered, awaiting.expects]
  exact toNat_serial_sub above below

theorem Awaiting.sorted (awaiting : Awaiting limit next rcv)
    (narrow : limit ≤ intMax) {lower : Nat} {segs : List Seg}
    (ascending : Ascending Numbered (next + limit) lower segs)
    (above : next ≤ lower) :
    (segs.map (ahead rcv)).Pairwise (· < ·) ∧
      ∀ seg ∈ segs, lower - next ≤ ahead rcv seg ∧ ahead rcv seg < limit := by
  induction ascending with
  | nil => simp
  | @cons lower index entry later least below holds rest ih =>
      obtain ⟨sorted, bounds⟩ := ih (by omega)
      rw [intMax] at narrow
      have here : ahead rcv entry = index - next :=
        awaiting.ahead_eq (by omega) (by omega) holds
      constructor
      · simp only [List.map_cons, List.pairwise_cons, List.mem_map]
        refine ⟨?_, sorted⟩
        rintro value ⟨seg, member, rfl⟩
        have := (bounds seg member).1
        omega
      · intro seg member
        rcases List.mem_cons.mp member with rfl | member
        · omega
        · have := bounds seg member
          omega

/-- The indices bound what is kept. -/
theorem Awaiting.within (awaiting : Awaiting limit next rcv)
    (narrow : limit ≤ intMax) : WithinWindow limit rcv := by
  obtain ⟨sorted, bounds⟩ :=
    awaiting.sorted narrow awaiting.entries (Nat.le_refl next)
  have length := Ascending.length_le awaiting.entries
  constructor
  case queue => exact awaiting.queue
  case buffer => omega
  case sorted => exact sorted
  case inside => exact fun seg member => (bounds seg member).2
  case queued => exact awaiting.queued
  case buffered => exact awaiting.buffered

/-! ## What the calls do -/

/-- Moving available segments gives every one of them the next number. -/
theorem Awaiting.moveAvailable (awaiting : Awaiting limit next rcv)
    (narrow : limit ≤ intMax) :
    ∃ further, Awaiting limit further
      (Ikcp.moveAvailable rcv.rcvBuf rcv) := by
  generalize buffer : rcv.rcvBuf = segs
  induction segs generalizing next rcv with
  | nil => exact ⟨next, awaiting⟩
  | cons seg rest ih =>
      rw [Ikcp.moveAvailable]
      split
      case isFalse => exact ⟨next, awaiting⟩
      case isTrue ready =>
        obtain ⟨isNext, room⟩ := ready
        have entries := awaiting.entries
        have counted := awaiting.buffered
        have window := awaiting.window
        rw [buffer] at entries counted
        rw [awaiting.queued] at room
        cases entries with
        | @cons _ index _ _ above below numbered later =>
            rw [intMax] at narrow
            have here : index = next := by
              have near : Near 32 index next := ⟨by omega, by omega⟩
              apply (serial_eq_iff (by decide) near).mp
              rw [← numbered, isNext, awaiting.expects]
            subst here
            have moved : Awaiting limit (index + 1)
                { rcv with
                  rcvBuf := rest
                  nrcvBuf := rcv.nrcvBuf - 1
                  rcvQueue := rcv.rcvQueue ++ [seg]
                  nrcvQue := rcv.nrcvQue + 1
                  rcvNxt := rcv.rcvNxt + 1 } := by
              constructor
              case expects => rw [awaiting.expects, serial_add_one]
              case window => exact window
              case entries => exact later.mono (by omega)
              case queue =>
                rw [List.length_append, List.length_singleton]
                omega
              case queued =>
                rw [List.length_append, List.length_singleton,
                  awaiting.queued]
              case buffered =>
                rw [counted, List.length_cons, Nat.add_sub_cancel]
            exact ih moved rfl

theorem length_insertFromTail {seg : Seg} {segs inserted : List Seg}
    (inserts : insertFromTail Seg.sn seg segs = some inserted) :
    inserted.length = segs.length + 1 := by
  induction segs generalizing inserted with
  | nil =>
      obtain rfl := Option.some.inj inserts
      rfl
  | cons last earlier ih =>
      rw [insertFromTail] at inserts
      split at inserts
      · simp at inserts
      · split at inserts
        · obtain rfl := Option.some.inj inserts
          rfl
        · obtain ⟨middle, inside, rfl⟩ := Option.map_eq_some_iff.mp inserts
          rw [List.length_cons, List.length_cons, ih inside]

/-- A number in the window of the receiver stands for an index in it. -/
theorem Awaiting.exists_index (awaiting : Awaiting limit next rcv)
    (narrow : limit ≤ intMax) {seg : Seg}
    (inWindow :
      itimediff seg.sn (rcv.rcvNxt + BitVec.ofNat 32 rcv.rcvWnd) < 0)
    (notOld : 0 ≤ itimediff seg.sn rcv.rcvNxt) :
    ∃ index, next ≤ index ∧ index < next + limit ∧ Numbered index seg := by
  have window := awaiting.window
  have near : (seg.sn - rcv.rcvNxt).toNat < 2 ^ 31 := by
    rw [itimediff, serialDiff, BitVec.toInt_eq_toNat_cond] at notOld
    split at notOld
    · omega
    · have := (seg.sn - rcv.rcvNxt).isLt
      omega
  have place : seg.sn = serial 32 (next + (seg.sn - rcv.rcvNxt).toNat) := by
    rw [serial, BitVec.ofNat_add, BitVec.ofNat_toNat, BitVec.setWidth_eq,
      awaiting.expects, serial, BitVec.add_comm, BitVec.sub_add_cancel]
  generalize (seg.sn - rcv.rcvNxt).toNat = distance at near place
  have limitIs : rcv.rcvNxt + BitVec.ofNat 32 rcv.rcvWnd =
      serial 32 (next + rcv.rcvWnd) := by
    rw [awaiting.expects]
    exact (BitVec.ofNat_add _ _).symm
  rw [intMax] at narrow
  rw [limitIs, place, itimediff,
    serialDiff_serial (by decide) ⟨by omega, by omega⟩] at inWindow
  exact ⟨next + distance, Nat.le_add_right _ _, by omega, place⟩

/-- A segment in the window of the receiver takes its place. -/
theorem Awaiting.parseData (awaiting : Awaiting limit next rcv)
    (narrow : limit ≤ intMax) (seg : Seg) :
    ∃ further, Awaiting limit further (ikcpParseData rcv seg) := by
  have window := awaiting.window
  rw [ikcpParseData]
  by_cases outside :
      0 ≤ itimediff seg.sn (rcv.rcvNxt + BitVec.ofNat 32 rcv.rcvWnd) ∨
        itimediff seg.sn rcv.rcvNxt < 0
  · rw [if_pos outside]
    exact ⟨next, awaiting⟩
  · rw [if_neg outside]
    obtain ⟨inWindow, notOld⟩ := not_or.mp outside
    obtain ⟨index, above, below, numbered⟩ := awaiting.exists_index narrow
      (Int.not_le.mp inWindow) (Int.not_lt.mp notOld)
    cases inserts : insertFromTail Seg.sn seg rcv.rcvBuf.reverse with
    | none => exact awaiting.moveAvailable narrow
    | some inserted =>
        have half : limit ≤ 2 ^ (32 - 1) := by
          rw [intMax] at narrow
          omega
        have descending := awaiting.entries.reverse.insertFromTail
          (Nat.succ_pos 31) (Nat.add_le_add_left half _)
          (fun _ _ numbered => numbered) above below numbered
          inserted inserts
        have stored : Awaiting limit next
            { rcv with
              rcvBuf := inserted.reverse, nrcvBuf := rcv.nrcvBuf + 1 } :=
          { awaiting with
            entries := descending.reverse
            buffered := by
              rw [List.length_reverse, length_insertFromTail inserts,
                List.length_reverse, awaiting.buffered] }
        exact stored.moveAvailable narrow

/-- The list of acknowledgements does not matter. -/
theorem Awaiting.acknowledge (awaiting : Awaiting limit next rcv)
    (acklist : List (IUINT32 × IUINT32)) :
    Awaiting limit next { rcv with acklist } :=
  { awaiting with }

theorem Awaiting.push (awaiting : Awaiting limit next rcv)
    (narrow : limit ≤ intMax) (seg : Seg) :
    ∃ further, Awaiting limit further (receivePush rcv seg) := by
  rw [receivePush]
  split
  · dsimp only
    split
    · exact (awaiting.acknowledge _).parseData narrow seg
    · exact ⟨next, awaiting.acknowledge _⟩
  · exact ⟨next, awaiting⟩

/-- One round of `ikcp_input`, whatever the header says. -/
theorem Awaiting.inputSegment {kcp : Ikcp.IkcpCb}
    (awaiting : Awaiting limit next kcp.rcv) (narrow : limit ≤ intMax)
    (maxack : Option IUINT32) (header : Header) (data : List UInt8) :
    ∃ further, Awaiting limit further
      (Ikcp.inputSegment kcp maxack header data).1.rcv := by
  rw [Ikcp.inputSegment]
  dsimp only
  split
  · exact ⟨next, awaiting⟩
  · split
    · exact awaiting.push narrow _
    · split <;> exact ⟨next, awaiting⟩

/-- The merge loop counts what it takes. -/
theorem length_mergeFragments (queue : List Seg) :
    queue.length =
      (mergeFragments queue).2.1.length + (mergeFragments queue).2.2 := by
  induction queue with
  | nil => rfl
  | cons seg rest ih =>
      rw [mergeFragments]
      split
      · rfl
      · rw [List.length_cons, ih]
        rfl

theorem Awaiting.recv {kcp : Ikcp.IkcpCb}
    (awaiting : Awaiting limit next kcp.rcv) (narrow : limit ≤ intMax)
    (len : Int) :
    ∃ further, Awaiting limit further (Ikcp.ikcpRecv kcp len).2.2.rcv := by
  have counted := awaiting.queued
  have queue := awaiting.queue
  have taken := length_mergeFragments kcp.rcv.rcvQueue
  have read : Awaiting limit next
      { kcp.rcv with
        rcvQueue := (mergeFragments kcp.rcv.rcvQueue).2.1
        nrcvQue := kcp.rcv.nrcvQue -
          (mergeFragments kcp.rcv.rcvQueue).2.2 } :=
    { awaiting with
      queue := by
        dsimp only
        omega
      queued := by
        dsimp only
        omega }
  rw [Ikcp.ikcpRecv]
  by_cases empty : kcp.rcv.rcvQueue = []
  · rw [if_pos empty]
    exact ⟨next, awaiting⟩
  by_cases missing : ikcpPeeksize kcp.rcv < 0
  · rw [if_neg empty, if_pos missing]
    exact ⟨next, awaiting⟩
  by_cases short : len.natAbs < ikcpPeeksize kcp.rcv
  · rw [if_neg empty, if_neg missing, if_pos short]
    exact ⟨next, awaiting⟩
  · rw [if_neg empty, if_neg missing, if_neg short]
    dsimp only
    split
    · exact awaiting.moveAvailable narrow
    · exact read.moveAvailable narrow

/-! ## Whole runs -/

/-- A control block that keeps to its receive window. -/
def Bounded (limit : Nat) (kcp : IkcpCb) : Prop :=
  ∃ next, Awaiting limit next kcp.rcv

variable {kcp later : IkcpCb}

theorem Bounded.flush (bounded : Bounded limit kcp) {sent : List (List UInt8)}
    (flushes : ikcpFlush kcp = some (sent, later)) : Bounded limit later := by
  rcases ikcpFlush_cases flushes with ⟨-, -, rfl⟩ | ⟨-, -, rfl⟩
  · exact bounded
  · obtain ⟨-, -, -, -, -, -, -, -, same, -⟩ :=
      flushBehind_eq (flushCommands kcp).2 (flushCommands kcp).1
    obtain ⟨-, -, rcv⟩ := flushCommands_frame kcp
    obtain ⟨next, awaiting⟩ := bounded
    refine ⟨next, ?_⟩
    rw [same, rcv]
    exact awaiting.acknowledge []

theorem Bounded.update (bounded : Bounded limit kcp)
    {sent : List (List UInt8)} {current : IUINT32}
    (updates : ikcpUpdate kcp current = some (sent, later)) :
    Bounded limit later := by
  obtain ⟨-, -, rcv⟩ := schedule_frame kcp current
  have scheduled : Bounded limit (schedule kcp current).2 := by
    rw [Bounded, rcv]
    exact bounded
  rw [ikcpUpdate, Option.map_eq_some_iff] at updates
  obtain ⟨⟨packets, flushed⟩, flushes, same⟩ := updates
  obtain ⟨rfl, rfl⟩ := Prod.mk.inj same
  have kept : Bounded limit flushed := by
    split at flushes
    · exact scheduled.flush flushes
    · exact (Prod.mk.inj (Option.some.inj flushes)).2 ▸ scheduled
  rw [Bounded, congrArg Ikcp.IkcpCb.rcv (measureTraffic_frame flushed current)]
  exact kept

theorem Bounded.input (bounded : Bounded limit kcp) (narrow : limit ≤ intMax)
    (data : List UInt8) : Bounded limit (ikcpInput kcp data).2 := by
  have looped : Bounded limit (inputLoop kcp none data).2.1 := by
    apply inputLoop_invariant _ bounded
    intro kcp maxack header data rxBytesTotal ⟨next, awaiting⟩ _
    exact awaiting.inputSegment narrow maxack header data
  rw [ikcpInput]
  split
  · exact bounded
  · dsimp only
    split <;> exact looped

theorem Bounded.wndsize (bounded : Bounded limit kcp)
    (wide : ikcpWndRcv ≤ limit) (sndwnd : Int) {rcvwnd : Int}
    (upTo : rcvwnd ≤ limit) :
    Bounded limit (ikcpWndsize kcp sndwnd rcvwnd) := by
  obtain ⟨next, awaiting⟩ := bounded
  refine ⟨next, ?_⟩
  have sized : (ikcpWndsize kcp sndwnd rcvwnd).rcv =
      if 0 < rcvwnd then
        { kcp.rcv with rcvWnd := (max rcvwnd ikcpWndRcv).toNat }
      else kcp.rcv := by
    rw [ikcpWndsize, Ikcp.ikcpWndsize]
    by_cases room : 0 < rcvwnd
    · by_cases more : 0 < sndwnd <;> simp [room, more]
    · by_cases more : 0 < sndwnd <;> simp [room, more]
  rw [sized]
  split
  · exact { awaiting with
      window := by
        dsimp only
        omega }
  · exact awaiting

theorem Bounded.call (bounded : Bounded limit kcp) (wide : ikcpWndRcv ≤ limit)
    (narrow : limit ≤ intMax) {label : Call} (upTo : label.SetsUpTo limit)
    (returns : call kcp label = some later) : Bounded limit later := by
  cases label with
  | input data =>
      obtain rfl := Option.some.inj returns
      exact bounded.input narrow data
  | recv len =>
      obtain rfl := Option.some.inj returns
      obtain ⟨next, awaiting⟩ := bounded
      exact awaiting.recv narrow len
  | update current =>
      obtain ⟨⟨sent, kcp⟩, updates, rfl⟩ := Option.map_eq_some_iff.mp returns
      exact bounded.update updates
  | flush =>
      obtain ⟨⟨sent, kcp⟩, flushes, rfl⟩ := Option.map_eq_some_iff.mp returns
      exact bounded.flush flushes
  | setmtu mtu =>
      obtain rfl := Option.some.inj returns
      rw [ikcpSetmtu]
      split <;> exact bounded
  | nodelay mode time resend nc =>
      obtain rfl := Option.some.inj returns
      exact bounded
  | wndsize sndwnd rcvwnd =>
      obtain rfl := Option.some.inj returns
      exact bounded.wndsize wide sndwnd upTo
  | _ =>
      obtain rfl := Option.some.inj returns
      exact bounded

theorem bounded_fresh (fresh : Fresh kcp) (wide : ikcpWndRcv ≤ limit) :
    Bounded limit kcp := by
  obtain ⟨conv, stream, fastlimit, deadLink, rfl⟩ := fresh
  exact ⟨0,
    { expects := rfl
      window := wide
      entries := .nil
      queue := Nat.zero_le limit
      queued := rfl
      buffered := rfl }⟩

/-- Whatever arrives, no more segments are kept than the widest receive window
that has been set. -/
theorem withinWindow_of_reachable (wide : ikcpWndRcv ≤ limit)
    (narrow : limit ≤ intMax)
    (reachable : Reachable Fresh call
      (fun _ label => label.Valid ∧ label.SetsUpTo limit) kcp) :
    WithinWindow limit kcp.rcv := by
  have bounded : Bounded limit kcp :=
    reachable.invariant (Bounded limit)
      (fun _ fresh => bounded_fresh fresh wide)
      (fun _ _ _ bounded permits returns =>
        bounded.call wide narrow permits.2 returns)
  obtain ⟨next, awaiting⟩ := bounded
  exact awaiting.within narrow

/-- Segments 5 and 3 wait for the earlier ones; number 128 is too far. -/
theorem withinWindow_early : ∃ kcp : IkcpCb,
    kcp.rcv.rcvBuf.map Seg.sn = [3, 5] ∧
      WithinWindow ikcpWndRcv kcp.rcv := by
  have early : ((run call (ikcpCreate 0)
      ([5, 3, 128, 5].map fun sn => .input (ikcpEncodeSeg
        { cmd := ikcpCmdPush, sn, data := [1] }))).any
      fun kcp => kcp.rcv.rcvBuf.map Seg.sn = [3, 5]) = true := by
    decide +kernel
  obtain ⟨kcp, runs, checked⟩ := (Option.any_eq_true _ _).1 early
  have fresh : Fresh (ikcpCreate 0) := ⟨0, false, 5, 20, rfl⟩
  have reachable : Reachable Fresh call
      (fun _ label => label.Valid ∧ label.SetsUpTo ikcpWndRcv) kcp :=
    (Reachable.start fresh).append_run
      (stepsMeet_of_forall
        (by simp [Call.Valid, Call.SetsUpTo, ikcpEncodeSeg]) _) runs
  exact ⟨kcp, of_decide_eq_true checked,
    withinWindow_of_reachable (by decide) (by decide) reachable⟩

end CommonIkcp

end MbedtlsKcp
