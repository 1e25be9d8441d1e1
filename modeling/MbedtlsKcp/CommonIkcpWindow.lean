import MbedtlsKcp.CommonIkcpEndpoint

/-!
# The send window, whatever arrives

The send side keeps its numbers in order under every call, also when the
datagrams are not from its peer: what has not been acknowledged is at most as
long as the largest window of the wire, the send buffer is sorted, and the
counters count.
-/

namespace MbedtlsKcp

namespace CommonIkcp

open ByteBuffers SerialNumbers TransitionRuns Ikcp

/-- The largest window that a header can tell. -/
def windowMax : Nat := 65535

/-- How far a segment is behind the oldest number that has not been
acknowledged. -/
def offset (snd : SendSide) (seg : Seg) : Nat :=
  (seg.sn - snd.sndUna).toNat

/-- The numbers that have been given and not been acknowledged. -/
def outstanding (snd : SendSide) : Nat :=
  (snd.sndNxt - snd.sndUna).toNat

/-- `ikcp_waitsnd`. -/
def ikcpWaitsnd (kcp : IkcpCb) : Nat :=
  kcp.snd.nsndBuf + kcp.snd.nsndQue

/-- The send window is in order. -/
structure OrderlyWindow (snd : SendSide) : Prop where
  narrow : outstanding snd ≤ windowMax
  sorted : (snd.sndBuf.map (offset snd)).Pairwise (· < ·)
  inside : ∀ seg ∈ snd.sndBuf, offset snd seg < outstanding snd
  oldest : snd.sndUna = (snd.sndBuf.head?.map Seg.sn).getD snd.sndNxt
  buffered : snd.nsndBuf = snd.sndBuf.length
  queued : snd.nsndQue = snd.sndQueue.length

/-- A segment has the serial number of an index. -/
def Numbered (index : Nat) (seg : Seg) : Prop :=
  seg.sn = serial 32 index

/-- The same with the indices that the serial numbers stand for. -/
structure Indexed (low high : Nat) (snd : SendSide) : Prop where
  una : snd.sndUna = serial 32 low
  next : snd.sndNxt = serial 32 high
  narrow : low ≤ high ∧ high ≤ low + windowMax
  entries : Ascending Numbered high low snd.sndBuf
  oldest : snd.sndUna = (snd.sndBuf.head?.map Seg.sn).getD snd.sndNxt
  buffered : snd.nsndBuf = snd.sndBuf.length
  queued : snd.nsndQue = snd.sndQueue.length
  remote : snd.rmtWnd.toNat ≤ windowMax

variable {low high : Nat} {snd after : SendSide}

theorem Ascending.offsets {lower upper : Nat} {segs : List Seg}
    (ascending : Ascending Numbered upper lower segs)
    (above : low ≤ lower) (near : upper ≤ low + windowMax) :
    (segs.map fun seg => (seg.sn - serial 32 low).toNat).Pairwise (· < ·) ∧
      ∀ seg ∈ segs, lower - low ≤ (seg.sn - serial 32 low).toNat ∧
        (seg.sn - serial 32 low).toNat < upper - low := by
  induction ascending with
  | nil => simp
  | @cons lower index entry later least below holds rest ih =>
      obtain ⟨sorted, bounds⟩ := ih (by omega)
      have here : (entry.sn - serial 32 low).toNat = index - low := by
        rw [windowMax] at near
        rw [holds]
        exact toNat_serial_sub (by omega) (by omega)
      constructor
      · rw [List.map_cons, List.pairwise_cons]
        refine ⟨?_, sorted⟩
        intro value member
        obtain ⟨seg, inside, rfl⟩ := List.mem_map.mp member
        have := (bounds seg inside).1
        omega
      · intro seg member
        rcases List.mem_cons.mp member with rfl | member
        · omega
        · have := bounds seg member
          omega

/-- Indices make the window orderly. -/
theorem Indexed.orderly (indexed : Indexed low high snd) :
    OrderlyWindow snd := by
  obtain ⟨ordered, near⟩ := indexed.narrow
  obtain ⟨sorted, bounds⟩ :=
    Ascending.offsets indexed.entries (Nat.le_refl low) near
  have length : outstanding snd = high - low := by
    rw [windowMax] at near
    rw [outstanding, indexed.next, indexed.una]
    exact toNat_serial_sub ordered (by omega)
  have same : offset snd = fun seg => (seg.sn - serial 32 low).toNat := by
    funext seg
    rw [offset, indexed.una]
  constructor
  case narrow =>
    rw [length]
    omega
  case sorted => exact same ▸ sorted
  case inside =>
    intro seg member
    rw [same, length]
    exact (bounds seg member).2
  case oldest => exact indexed.oldest
  case buffered => exact indexed.buffered
  case queued => exact indexed.queued

/-! ## What the calls do to the indices -/

theorem ascending_lower {lower least upper : Nat} {segs : List Seg}
    (ascending : Ascending Numbered upper lower segs) (down : least ≤ lower) :
    Ascending Numbered upper least segs := by
  cases ascending with
  | nil => exact .nil
  | cons above below holds rest => exact .cons (by omega) below holds rest

theorem ascending_sublist {lower upper : Nat} {segs fewer : List Seg}
    (ascending : Ascending Numbered upper lower segs)
    (sublist : fewer.Sublist segs) :
    Ascending Numbered upper lower fewer := by
  induction ascending generalizing fewer with
  | nil =>
      obtain rfl := List.sublist_nil.mp sublist
      exact .nil
  | @cons lower index entry later above below holds rest ih =>
      cases sublist with
      | cons _ sub => exact ascending_lower (ih sub) (by omega)
      | cons_cons _ sub => exact .cons above below holds (ih sub)

theorem ascending_of_core {lower upper : Nat} {segs others : List Seg}
    (ascending : Ascending Numbered upper lower segs)
    (same : others.map core = segs.map core) :
    Ascending Numbered upper lower others := by
  induction ascending generalizing others with
  | nil =>
      obtain rfl : others = [] := by simpa using same
      exact .nil
  | @cons lower index entry later above below holds rest ih =>
      cases others with
      | nil => simp at same
      | cons other others =>
          simp only [List.map_cons, List.cons.injEq] at same
          have sn : (core other).sn = (core entry).sn :=
            congrArg Seg.sn same.1
          exact .cons above below (sn.trans holds) (ih same.2)

theorem head_of_core {segs others : List Seg}
    (same : others.map core = segs.map core) :
    others.head?.map Seg.sn = segs.head?.map Seg.sn := by
  have heads := congrArg (fun segs => segs.head?.map Seg.sn) same
  simpa [Function.comp_def, core] using heads

theorem Indexed.keep (indexed : Indexed low high snd)
    (keeps : KeepsWindow snd after) : Indexed low high after where
  una := keeps.una.trans indexed.una
  next := keeps.next.trans indexed.next
  narrow := indexed.narrow
  entries := ascending_of_core indexed.entries keeps.buffer
  oldest := by
    rw [keeps.una, keeps.next, head_of_core keeps.buffer]
    exact indexed.oldest
  buffered := by
    rw [keeps.buffered, length_of_keepsData keeps.toKeepsData,
      indexed.buffered]
  queued := by rw [keeps.queued, keeps.queue, indexed.queued]
  remote := keeps.remote ▸ indexed.remote

/-- `ikcp_shrink_buf` after segments have left the send buffer. -/
theorem Indexed.shrink (indexed : Indexed low high snd)
    {fewer : List Seg} (sublist : fewer.Sublist snd.sndBuf)
    (keeps : after.sndBuf = fewer) (nxt : after.sndNxt = snd.sndNxt)
    (buffered : after.nsndBuf = fewer.length)
    (queued : after.nsndQue = after.sndQueue.length)
    (remote : after.rmtWnd.toNat ≤ windowMax) :
    ∃ oldest, Indexed oldest high (ikcpShrinkBuf after) := by
  obtain ⟨ordered, near⟩ := indexed.narrow
  have entries := ascending_sublist indexed.entries sublist
  have nextIs := nxt.trans indexed.next
  rw [ikcpShrinkBuf]
  subst keeps
  cases buffer : after.sndBuf with
  | nil =>
      exact ⟨high,
        { una := nextIs
          next := nextIs
          narrow := ⟨Nat.le_refl _, Nat.le_add_right _ _⟩
          entries := by
            exact .nil
          oldest := by simp
          buffered := by simp [buffer, buffered]
          queued := queued
          remote := remote }⟩
  | cons seg rest =>
      rw [buffer] at entries
      cases entries with
      | @cons _ index _ _ above below holds later =>
          exact ⟨index,
            { una := holds
              next := nextIs
              narrow := ⟨Nat.le_of_lt below, by omega⟩
              entries := by
                exact .cons (Nat.le_refl _) below holds later
              oldest := by simp
              buffered := by simp [buffer, buffered]
              queued := queued
              remote := remote }⟩

theorem removeAcked_sublist (sn : IUINT32) (segs : List Seg) :
    (removeAcked sn segs).1.Sublist segs ∧
      segs.length = (removeAcked sn segs).1.length +
        if (removeAcked sn segs).2 then 1 else 0 := by
  induction segs with
  | nil => exact ⟨.slnil, rfl⟩
  | cons seg rest ih =>
      rw [removeAcked]
      split
      · exact ⟨List.sublist_cons_self seg rest, rfl⟩
      · split
        · exact ⟨.refl _, rfl⟩
        · refine ⟨ih.1.cons_cons seg, ?_⟩
          simp only [List.length_cons]
          omega

theorem Indexed.parseUna (indexed : Indexed low high snd)
    (una : IUINT32) :
    ∃ oldest, Indexed oldest high (ikcpShrinkBuf (ikcpParseUna snd una)) := by
  have sublist : (snd.sndBuf.dropWhile fun seg =>
      0 < itimediff una seg.sn).Sublist snd.sndBuf :=
    List.dropWhile_sublist _
  refine indexed.shrink sublist rfl rfl ?_ indexed.queued indexed.remote
  have shorter := sublist.length_le
  simp only [ikcpParseUna, indexed.buffered]
  omega

theorem Indexed.parseAck (indexed : Indexed low high snd) (sn : IUINT32) :
    ∃ oldest, Indexed oldest high (ikcpShrinkBuf (ikcpParseAck snd sn)) := by
  rw [ikcpParseAck]
  split
  · exact indexed.shrink (.refl _) rfl rfl indexed.buffered indexed.queued
      indexed.remote
  · obtain ⟨sublist, length⟩ := removeAcked_sublist sn snd.sndBuf
    refine indexed.shrink sublist rfl rfl ?_ indexed.queued indexed.remote
    have counted := indexed.buffered
    rw [length] at counted
    cases found : (removeAcked sn snd.sndBuf).2 with
    | false => simpa [found] using counted
    | true =>
        simp only [found, if_true] at counted ⊢
        omega

/-- One round of `ikcp_input`, whatever the header says. -/
theorem Indexed.inputSegment {kcp : Ikcp.IkcpCb}
    (indexed : Indexed low high kcp.snd) (maxack : Option IUINT32)
    {header : Header} (data : List UInt8) (wnd : header.wnd ≤ windowMax) :
    ∃ oldest, Indexed oldest high
      (Ikcp.inputSegment kcp maxack header data).1.snd := by
  have told : Indexed low high
      { kcp.snd with rmtWnd := BitVec.ofNat 32 header.wnd } :=
    { indexed with
      remote := Nat.le_trans (Nat.mod_le _ _) wnd }
  obtain ⟨oldest, below⟩ := told.parseUna header.una
  by_cases isAck : header.cmd = ikcpCmdAck
  · simp only [Ikcp.inputSegment, isAck, if_true]
    split
    · exact (below.keep (keepsWindow_updateAck _ _)).parseAck header.sn
    · exact below.parseAck header.sn
  · refine ⟨oldest, ?_⟩
    simp only [Ikcp.inputSegment, isAck, if_false]
    split
    · exact below
    · split <;> exact below

theorem Indexed.moveToSndBuf (indexed : Indexed low high snd)
    {conv una cwnd : IUINT32} {wnd : Nat} {moved : Seg}
    (room : itimediff snd.sndNxt (snd.sndUna + cwnd) < 0)
    (narrow : cwnd.toNat ≤ windowMax)
    (moves : Ikcp.moveToSndBuf conv wnd una snd = some (after, moved)) :
    Indexed low (high + 1) after ∧ after.sndUna = snd.sndUna := by
  obtain ⟨ordered, near⟩ := indexed.narrow
  rw [windowMax] at narrow near
  have limit : snd.sndUna + cwnd = serial 32 (low + cwnd.toNat) := by
    rw [indexed.una, serial, serial, BitVec.ofNat_add, BitVec.ofNat_toNat,
      BitVec.setWidth_eq]
  rw [limit, indexed.next, itimediff, serialDiff_serial (by decide)
    ⟨by omega, by omega⟩] at room
  have counted := indexed.buffered
  have queuedIs := indexed.queued
  have oldest := indexed.oldest
  have entries := indexed.entries
  have nextIs := indexed.next
  rw [Ikcp.moveToSndBuf] at moves
  cases queue : snd.sndQueue with
  | nil => simp [queue] at moves
  | cons newseg rest =>
      simp only [queue, Option.some.injEq, Prod.mk.injEq] at moves
      obtain ⟨rfl, rfl⟩ := moves
      refine ⟨?_, rfl⟩
      constructor
      case una => exact indexed.una
      case next => rw [nextIs, serial_add_one]
      case narrow =>
        rw [windowMax]
        omega
      case entries => exact entries.snoc ordered (Nat.lt_succ_self _) nextIs
      case oldest =>
        cases buffer : snd.sndBuf with
        | nil => simpa [buffer] using oldest
        | cons first others => simpa [buffer] using oldest
      case buffered => simp [counted]
      case queued => simp [queuedIs, queue]
      case remote => exact indexed.remote

theorem Indexed.moveQueued (indexed : Indexed low high snd)
    (conv una : IUINT32) (wnd : Nat) {cwnd : IUINT32}
    (narrow : cwnd.toNat ≤ windowMax) (queued : Nat) :
    ∃ further, Indexed low further
      (CommonIkcp.moveQueued conv wnd una cwnd queued snd) := by
  induction queued generalizing snd high with
  | zero => exact ⟨high, indexed⟩
  | succ queued ih =>
      rw [CommonIkcp.moveQueued]
      split
      case isTrue room =>
        split
        case h_1 next moved moves =>
          exact ih (indexed.moveToSndBuf room narrow moves).1
        case h_2 => exact ⟨high, indexed⟩
      case isFalse => exact ⟨high, indexed⟩

theorem imin_le (first second : IUINT32) :
    (imin first second).toNat ≤ second.toNat := by
  rw [imin]
  split
  case isTrue below => exact below
  case isFalse => exact Nat.le_refl _

/-- The window for data is never wider than what the other end has told. -/
theorem sendWindow_le (snd : SendSide) :
    (sendWindow snd).toNat ≤ snd.rmtWnd.toNat := by
  rw [sendWindow]
  split
  · exact Nat.le_trans (imin_le _ _) (imin_le _ _)
  · exact imin_le _ _

/-- The window of a control block is in order. -/
def Ordered (kcp : IkcpCb) : Prop :=
  ∃ low high, Indexed low high kcp.snd

variable {kcp next : IkcpCb}

theorem Ordered.keep (ordered : Ordered kcp)
    (keeps : KeepsWindow kcp.snd next.snd) : Ordered next := by
  obtain ⟨low, high, indexed⟩ := ordered
  exact ⟨low, high, indexed.keep keeps⟩

theorem Ordered.flush (ordered : Ordered kcp) {sent : List (List UInt8)}
    (flushes : ikcpFlush kcp = some (sent, next)) : Ordered next := by
  rcases ikcpFlush_cases flushes with ⟨-, -, rfl⟩ | ⟨-, -, rfl⟩
  · exact ordered
  · obtain ⟨-, -, -, -, -, -, -, -, -, keeps⟩ :=
      flushBehind_eq (flushCommands kcp).2 (flushCommands kcp).1
    obtain ⟨-, same, -⟩ := flushCommands_frame kcp
    obtain ⟨low, high, indexed⟩ := ordered
    rw [← same] at indexed
    obtain ⟨further, moved⟩ := indexed.moveQueued
      (flushCommands kcp).2.conv (flushCommands kcp).2.rcv.rcvNxt
      (ikcpWndUnused (flushCommands kcp).2.rcv)
      (Nat.le_trans (sendWindow_le _) indexed.remote)
      (flushCommands kcp).2.snd.sndQueue.length
    exact ⟨low, further, moved.keep keeps⟩

theorem Ordered.update (ordered : Ordered kcp) {sent : List (List UInt8)}
    {current : IUINT32}
    (updates : ikcpUpdate kcp current = some (sent, next)) : Ordered next := by
  obtain ⟨-, keeps, -⟩ := schedule_frame kcp current
  have scheduled := ordered.keep keeps
  rw [ikcpUpdate, Option.map_eq_some_iff] at updates
  obtain ⟨⟨packets, flushed⟩, flushes, same⟩ := updates
  simp only [Prod.mk.injEq] at same
  obtain ⟨rfl, rfl⟩ := same
  have frame := congrArg Ikcp.IkcpCb.snd (measureTraffic_frame flushed current)
  have kept : Ordered flushed := by
    split at flushes
    · exact scheduled.flush flushes
    · simp only [Option.some.injEq, Prod.mk.injEq] at flushes
      exact flushes.2 ▸ scheduled
  obtain ⟨low, high, indexed⟩ := kept
  exact ⟨low, high, frame ▸ indexed⟩

/-- What every round of `ikcp_input` keeps, its loop keeps, whatever the
datagram. -/
theorem inputLoop_invariant {property : IkcpCb → Prop}
    (keeps : ∀ kcp maxack header data rxBytesTotal, property kcp →
      header.wnd ≤ windowMax →
      property { kcp with
        toIkcpCb := (Ikcp.inputSegment kcp.toIkcpCb maxack header data).1
        rxBytesTotal })
    (starts : property kcp) (maxack : Option IUINT32) (data : List UInt8) :
    property (inputLoop kcp maxack data).2.1 := by
  induction length : data.length using Nat.strongRecOn
    generalizing kcp maxack data with
  | ind count ih =>
    rw [inputLoop]
    by_cases short : data.length < ikcpOverhead
    · rw [if_pos short]
      exact starts
    · have smaller : ((data.drop ikcpOverhead).drop
          (decodeHeader data).len).length < count := by
        rw [List.length_drop, List.length_drop]
        rw [ikcpOverhead] at short ⊢
        omega
      have wnd : (decodeHeader data).wnd ≤ windowMax :=
        Nat.le_of_lt_succ (loadLE_lt data 6 2)
      rw [if_neg short]
      dsimp only
      split
      · exact starts
      · split
        · exact starts
        · split
          · exact starts
          · exact ih _ smaller (keeps _ _ _ _ _ starts wnd) _ _ rfl

theorem Ordered.input (ordered : Ordered kcp) (data : List UInt8) :
    Ordered (ikcpInput kcp data).2 := by
  have looped : Ordered (inputLoop kcp none data).2.1 := by
    apply inputLoop_invariant _ ordered
    intro kcp maxack header data rxBytesTotal ⟨low, high, indexed⟩ wnd
    obtain ⟨oldest, kept⟩ := indexed.inputSegment maxack data wnd
    exact ⟨oldest, high, kept⟩
  rw [ikcpInput]
  split
  · exact ordered
  · dsimp only
    split
    · exact looped
    · refine looped.keep ?_
      apply KeepsWindow.trans _ (keepsWindow_growCwnd _ _)
      split
      · exact keepsWindow_parseFastack _ _
      · exact .refl _

theorem appendToLast_queue {buffer : List UInt8}
    (counted : snd.nsndQue = snd.sndQueue.length) :
    ∃ sndQueue, (appendToLast snd buffer).1 = { snd with sndQueue } ∧
      snd.nsndQue = sndQueue.length := by
  rw [appendToLast]
  cases last : snd.sndQueue.getLast? with
  | none => exact ⟨snd.sndQueue, rfl, counted⟩
  | some old =>
      dsimp only
      split
      case isFalse => exact ⟨snd.sndQueue, rfl, counted⟩
      case isTrue =>
        obtain ⟨earlier, queue⟩ := List.getLast?_eq_some_iff.mp last
        refine ⟨_, rfl, ?_⟩
        rw [counted, queue]
        simp

theorem length_unnumbered (stream : Bool) (segs : List Seg) :
    (unnumbered stream segs).length = segs.length := by
  cases stream <;> simp [unnumbered]

/-- `ikcp_send` only touches the queue, and counts what it puts there. -/
theorem ikcpSend_queue (buffer : List UInt8)
    (counted : snd.nsndQue = snd.sndQueue.length) :
    ∃ sndQueue nsndQue,
      (ikcpSend snd buffer).2 = { snd with sndQueue, nsndQue } ∧
        nsndQue = sndQueue.length := by
  rw [ikcpSend]
  generalize start : (if snd.stream then appendToLast snd buffer
    else (snd, buffer)) = x
  obtain ⟨sndQueue, same, length⟩ :
      ∃ sndQueue, x.1 = { snd with sndQueue } ∧
        snd.nsndQue = sndQueue.length := by
    subst start
    split
    · exact appendToLast_queue counted
    · exact ⟨snd.sndQueue, rfl, counted⟩
  have queued : ∃ sndQueue nsndQue, x.1 = { snd with sndQueue, nsndQue } ∧
      nsndQue = sndQueue.length :=
    ⟨sndQueue, snd.nsndQue, same, length⟩
  dsimp only
  generalize (if x.2.length ≤ x.1.mss then 1
    else (x.2.length + x.1.mss - 1) / x.1.mss) = count
  by_cases filled : snd.stream = true ∧ x.2.length = 0
  · rw [if_pos filled]
    exact queued
  · rw [if_neg filled]
    by_cases many : ikcpWndRcv ≤ count
    · rw [if_pos many]
      exact queued
    · rw [if_neg many, same]
      refine ⟨_, _, rfl, ?_⟩
      simp only [List.length_append, length, length_unnumbered,
        length_fragment]

theorem Ordered.send (ordered : Ordered kcp) (buffer : List UInt8) :
    Ordered { kcp with snd := (ikcpSend kcp.snd buffer).2 } := by
  obtain ⟨low, high, indexed⟩ := ordered
  obtain ⟨sndQueue, nsndQue, same, length⟩ :=
    ikcpSend_queue buffer indexed.queued
  refine ⟨low, high, ?_⟩
  dsimp only
  rw [same]
  exact { indexed with queued := length }

theorem keepsWindow_nodelay (kcp : Ikcp.IkcpCb)
    (nodelay interval resend nc : Int) :
    KeepsWindow kcp.snd
      (Ikcp.ikcpNodelay kcp nodelay interval resend nc).snd := by
  rw [Ikcp.ikcpNodelay]
  dsimp only
  split_ifs <;> exact { KeepsWindow.refl kcp.snd with }

theorem keepsWindow_wndsize (kcp : Ikcp.IkcpCb) (sndwnd rcvwnd : Int) :
    KeepsWindow kcp.snd (Ikcp.ikcpWndsize kcp sndwnd rcvwnd).snd := by
  rw [Ikcp.ikcpWndsize]
  dsimp only
  split_ifs <;> exact { KeepsWindow.refl kcp.snd with }

theorem Ordered.call (ordered : Ordered kcp) {label : Call}
    (returns : call kcp label = some next) : Ordered next := by
  cases label with
  | send buffer =>
      obtain rfl := Option.some.inj returns
      exact ordered.send buffer
  | input data =>
      obtain rfl := Option.some.inj returns
      exact ordered.input data
  | recv len =>
      obtain rfl := Option.some.inj returns
      obtain ⟨-, same⟩ := ikcpRecv_frame kcp.toIkcpCb len
      obtain ⟨low, high, indexed⟩ := ordered
      exact ⟨low, high, same ▸ indexed⟩
  | update current =>
      obtain ⟨⟨sent, after⟩, updates, rfl⟩ := Option.map_eq_some_iff.mp returns
      exact ordered.update updates
  | flush =>
      obtain ⟨⟨sent, after⟩, flushes, rfl⟩ := Option.map_eq_some_iff.mp returns
      exact ordered.flush flushes
  | setmtu mtu =>
      obtain rfl := Option.some.inj returns
      obtain ⟨low, high, indexed⟩ := ordered
      rw [ikcpSetmtu]
      split
      · exact ⟨low, high, indexed⟩
      · exact ⟨low, high, { indexed with }⟩
  | interval time =>
      obtain rfl := Option.some.inj returns
      exact ordered.keep { KeepsWindow.refl kcp.snd with }
  | nodelay mode time resend nc =>
      obtain rfl := Option.some.inj returns
      exact ordered.keep (keepsWindow_nodelay _ _ _ _ _)
  | wndsize sndwnd rcvwnd =>
      obtain rfl := Option.some.inj returns
      exact ordered.keep (keepsWindow_wndsize _ _ _)
  | setLossPeriod periodMs =>
      obtain rfl := Option.some.inj returns
      exact ordered.keep (.refl _)

theorem ordered_fresh (fresh : Fresh kcp) : Ordered kcp := by
  obtain ⟨conv, stream, fastlimit, deadLink, rfl⟩ := fresh
  exact ⟨0, 0,
    { una := rfl
      next := rfl
      narrow := by decide
      entries := .nil
      oldest := rfl
      buffered := rfl
      queued := rfl
      remote := show (BitVec.ofNat 32 ikcpWndRcv).toNat ≤ windowMax by
        decide }⟩

theorem InUse.ordered (inUse : InUse kcp) : Ordered kcp :=
  Reachable.invariant Ordered (fun _ => ordered_fresh)
    (fun _ _ _ ordered _ returns => ordered.call returns) inUse

/-- `ikcp_waitsnd` counts the segments that are waiting. -/
theorem ikcpWaitsnd_eq (inUse : InUse kcp) :
    ikcpWaitsnd kcp = kcp.snd.sndBuf.length + kcp.snd.sndQueue.length := by
  obtain ⟨low, high, indexed⟩ := inUse.ordered
  rw [ikcpWaitsnd, indexed.buffered, indexed.queued]

/-- Whatever is called and whatever arrives, the send window stays in order. -/
theorem orderlyWindow_of_inUse (inUse : InUse kcp) :
    OrderlyWindow kcp.snd := by
  obtain ⟨low, high, indexed⟩ := inUse.ordered
  exact indexed.orderly

/-- Two segments are sent, and the first is acknowledged. -/
theorem orderlyWindow_acked : ∃ kcp, InUse kcp ∧ kcp.snd.sndUna = 1 ∧
    kcp.snd.sndBuf.length = 1 ∧ OrderlyWindow kcp.snd := by
  have fresh : Fresh (ikcpCreate 0) := ⟨0, false, 5, 20, rfl⟩
  have acked : ((run call (ikcpCreate 0)
      [.nodelay 1 10 2 1, .send [1], .send [2], .update 0,
        .input (ikcpEncodeSeg
          { cmd := ikcpCmdAck, wnd := 128, una := 1, data := [] })]).any
      fun kcp => kcp.snd.sndUna = 1 ∧ kcp.snd.sndBuf.length = 1) = true := by
    decide +kernel
  obtain ⟨kcp, runs, checked⟩ := (Option.any_eq_true _ _).1 acked
  have inUse : InUse kcp := (Reachable.start fresh).append_run
    (stepsMeet_of_forall
      (by simp [Call.Valid, intMax, ikcpEncodeSeg]) _) runs
  have both := of_decide_eq_true checked
  exact ⟨kcp, inUse, both.1, both.2, orderlyWindow_of_inUse inUse⟩

end CommonIkcp

end MbedtlsKcp
