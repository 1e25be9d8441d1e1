import MbedtlsKcp.CommonIkcpWindow

/-!
# What a flush writes

As long as the `mtu` is never lowered, no datagram is longer than it, and the
output buffer, which has room for three of them, is never overrun.  A segment
that was cut for a larger `mtu` overruns it.
-/

namespace MbedtlsKcp

namespace CommonIkcp

open SerialNumbers PacketBuffers TransitionRuns Ikcp

/-- Two packets of the largest `mtu` can be added up. -/
def mtuMax : Nat := 2 ^ 30

/-- A new `mtu` is at least the one before. -/
def KeepsMtu (kcp : IkcpCb) : Call → Prop
  | .setmtu mtu => mtu < 50 ∨ (kcp.mtu : Int) ≤ mtu ∧ mtu < mtuMax
  | _ => True

/-- No segment that is queued or kept is longer than `mss`. -/
structure Cut (mss : Nat) (snd : SendSide) : Prop where
  size : snd.mss = mss
  queue : ∀ seg ∈ snd.sndQueue, seg.data.length ≤ mss
  buffer : ∀ seg ∈ snd.sndBuf, seg.data.length ≤ mss

variable {mss : Nat} {snd after : SendSide}

theorem Cut.keep (cut : Cut mss snd) (keeps : KeepsData snd after) :
    Cut mss after where
  size := keeps.mss.trans cut.size
  queue := keeps.queue ▸ cut.queue
  buffer := by
    intro seg member
    have inside : core seg ∈ snd.sndBuf.map core :=
      keeps.buffer ▸ List.mem_map_of_mem member
    obtain ⟨other, otherMember, same⟩ := List.mem_map.mp inside
    have data : (core other).data = (core seg).data :=
      congrArg Seg.data same
    change other.data = seg.data at data
    exact data ▸ cut.buffer other otherMember

/-- Segments may leave the send buffer. -/
theorem Cut.sublist (cut : Cut mss snd) {fewer : List Seg}
    (sublist : fewer.Sublist snd.sndBuf) (nsndBuf : Nat) :
    Cut mss { snd with sndBuf := fewer, nsndBuf } :=
  { cut with buffer := fun seg member =>
      cut.buffer seg (sublist.subset member) }

theorem Cut.parseUna (cut : Cut mss snd) (una : IUINT32) :
    Cut mss (ikcpParseUna snd una) :=
  cut.sublist (List.dropWhile_sublist _) _

theorem Cut.parseAck (cut : Cut mss snd) (sn : IUINT32) :
    Cut mss (ikcpParseAck snd sn) := by
  rw [ikcpParseAck]
  split
  · exact cut
  · exact cut.sublist (removeAcked_sublist sn snd.sndBuf).1 _

theorem Cut.shrinkBuf (cut : Cut mss snd) : Cut mss (ikcpShrinkBuf snd) :=
  cut.keep (keepsData_shrinkBuf snd)

theorem Cut.inputSegment {kcp : Ikcp.IkcpCb} (cut : Cut mss kcp.snd)
    (maxack : Option IUINT32) (header : Header) (data : List UInt8) :
    Cut mss (Ikcp.inputSegment kcp maxack header data).1.snd := by
  have told : Cut mss
      { kcp.snd with rmtWnd := BitVec.ofNat 32 header.wnd } :=
    { cut with }
  have below := (told.parseUna header.una).shrinkBuf
  by_cases isAck : header.cmd = ikcpCmdAck
  · simp only [Ikcp.inputSegment, isAck, if_true]
    apply Cut.shrinkBuf
    apply Cut.parseAck
    split
    · exact below.keep (keepsWindow_updateAck _ _).toKeepsData
    · exact below
  · simp only [Ikcp.inputSegment, isAck, if_false]
    split
    · exact below
    · split <;> exact below

theorem Cut.moveToSndBuf (cut : Cut mss snd) {conv una : IUINT32} {wnd : Nat}
    {moved : Seg}
    (moves : Ikcp.moveToSndBuf conv wnd una snd = some (after, moved)) :
    Cut mss after := by
  have queue := cut.queue
  rw [Ikcp.moveToSndBuf] at moves
  cases queued : snd.sndQueue with
  | nil => simp [queued] at moves
  | cons newseg rest =>
      rw [queued, List.forall_mem_cons] at queue
      simp only [queued, Option.some.injEq, Prod.mk.injEq] at moves
      obtain ⟨rfl, rfl⟩ := moves
      constructor
      case size => exact cut.size
      case queue => exact queue.2
      case buffer =>
        intro seg member
        rcases List.mem_append.mp member with earlier | added
        · exact cut.buffer seg earlier
        · obtain rfl := List.mem_singleton.mp added
          exact queue.1

theorem Cut.moveQueued (cut : Cut mss snd) (conv una cwnd : IUINT32)
    (wnd queued : Nat) :
    Cut mss (CommonIkcp.moveQueued conv wnd una cwnd queued snd) := by
  induction queued generalizing snd with
  | zero => exact cut
  | succ queued ih =>
      rw [CommonIkcp.moveQueued]
      split
      · split
        case h_1 next moved moves => exact ih (cut.moveToSndBuf moves)
        case h_2 => exact cut
      · exact cut

theorem Cut.queueFragments (cut : Cut mss snd) (buffer : List UInt8)
    (count nsndQue : Nat) :
    Cut mss
      { snd with
        sndQueue := snd.sndQueue ++
          unnumbered snd.stream (fragment snd.mss count buffer)
        nsndQue } :=
  { cut with
    queue := by
      intro seg member
      rcases List.mem_append.mp member with earlier | added
      · exact cut.queue seg earlier
      · obtain ⟨other, inside, -, data⟩ := mem_unnumbered added
        rw [data, ← cut.size]
        exact (mem_fragment inside).2 }

theorem Cut.appendToLast (cut : Cut mss snd) (buffer : List UInt8) :
    Cut mss (Ikcp.appendToLast snd buffer).1 := by
  rw [Ikcp.appendToLast]
  cases last : snd.sndQueue.getLast? with
  | none => exact cut
  | some old =>
      dsimp only
      split
      case isFalse => exact cut
      case isTrue short =>
        obtain ⟨earlier, queue⟩ := List.getLast?_eq_some_iff.mp last
        have bound := cut.queue
        have same := cut.size
        rw [queue] at bound
        have front : snd.sndQueue.dropLast = earlier := by
          rw [queue, List.dropLast_concat]
        exact { cut with
          queue := by
            intro seg member
            rw [front] at member
            rcases List.mem_append.mp member with inside | added
            · exact bound seg (List.mem_append_left _ inside)
            · obtain rfl := List.mem_singleton.mp added
              simp only [List.length_append, List.length_take]
              omega }

theorem stream_appendToLast (snd : SendSide) (buffer : List UInt8) :
    (Ikcp.appendToLast snd buffer).1.stream = snd.stream := by
  rw [Ikcp.appendToLast]
  split
  · rfl
  · split <;> rfl

theorem Cut.send (cut : Cut mss snd) (buffer : List UInt8) :
    Cut mss (ikcpSend snd buffer).2 := by
  have started : Cut mss (if snd.stream then Ikcp.appendToLast snd buffer
      else (snd, buffer)).1 := by
    split
    · exact cut.appendToLast buffer
    · exact cut
  have stream : (if snd.stream then Ikcp.appendToLast snd buffer
      else (snd, buffer)).1.stream = snd.stream := by
    split
    · exact stream_appendToLast snd buffer
    · rfl
  rw [ikcpSend]
  generalize (if snd.stream then Ikcp.appendToLast snd buffer
    else (snd, buffer)) = x at started stream
  dsimp only
  generalize (if x.2.length ≤ x.1.mss then 1
    else (x.2.length + x.1.mss - 1) / x.1.mss) = count
  rw [← stream]
  by_cases filled : x.1.stream = true ∧ x.2.length = 0
  · rw [if_pos filled]
    exact started
  · rw [if_neg filled]
    by_cases many : ikcpWndRcv ≤ count
    · rw [if_pos many]
      exact started
    · rw [if_neg many]
      exact started.queueFragments _ _ _

/-! ## What is gathered -/

section Gathering

variable {kcp : IkcpCb} {out : Outgoing 32}

/-- The limits of an `mtu` in range leave room for segments of its size. -/
theorem Within.gatherSeg {mtu : Nat} (within : out.Within (limits mtu))
    (inRange : 50 ≤ mtu ∧ mtu < mtuMax) {seg : Seg}
    (short : seg.data.length ≤ mtu - ikcpOverhead) (counts : Bool) :
    (out.gather (limits mtu) counts (ikcpEncodeSeg seg)).Within
      (limits mtu) := by
  obtain ⟨low, high⟩ := inRange
  rw [mtuMax] at high
  apply Outgoing.Within.gather within
  case room =>
    simp only [limits, bufferRoom, ikcpOverhead]
    rw [Nat.mod_eq_of_lt]
    · omega
    · omega
  case number =>
    simp only [limits, intMax]
    omega
  case short =>
    rw [length_ikcpEncodeSeg]
    simp only [limits]
    simp only [ikcpOverhead] at short ⊢
    omega

theorem Within.flushAcks {mtu : Nat} (within : out.Within (limits mtu))
    (inRange : 50 ≤ mtu ∧ mtu < mtuMax) {seg : Seg} (empty : seg.data = [])
    (acklist : List (IUINT32 × IUINT32)) :
    (flushAcks mtu seg acklist out).Within (limits mtu) := by
  induction acklist generalizing out with
  | nil => exact within
  | cons ack acklist ih =>
      apply ih
      apply Within.gatherSeg within inRange
      rw [empty]
      exact Nat.zero_le _

theorem Within.flushProbe {mtu : Nat} (within : out.Within (limits mtu))
    (inRange : 50 ≤ mtu ∧ mtu < mtuMax) (same : kcp.mtu = mtu)
    (ask : IUINT32) (cmd : Nat) {seg : Seg} (empty : seg.data = []) :
    (flushProbe kcp ask cmd seg out).Within (limits mtu) := by
  rw [CommonIkcp.flushProbe, same]
  split
  · apply Within.gatherSeg within inRange
    rw [empty]
    exact Nat.zero_le _
  · exact within

theorem within_flushCommands (inRange : 50 ≤ kcp.mtu ∧ kcp.mtu < mtuMax) :
    (flushCommands kcp).1.Within (limits kcp.mtu) := by
  let ack : Seg :=
    { conv := kcp.conv, cmd := ikcpCmdAck, wnd := ikcpWndUnused kcp.rcv
      una := kcp.rcv.rcvNxt, data := [] }
  let probed := probeWindow { kcp with rcv := { kcp.rcv with acklist := [] } }
  have same : probed.mtu = kcp.mtu := probeWindow_mtu
  have empty : (lastAck ack kcp.rcv.acklist).data = [] := lastAck_data _
  have start : Outgoing.Within (limits kcp.mtu)
      ({ total := kcp.txBytesTotal } : Outgoing 32) :=
    ⟨Nat.zero_le _, by simp, rfl⟩
  have acked := @Within.flushAcks _ _ start inRange ack rfl kcp.rcv.acklist
  have asked := Within.flushProbe acked inRange same ikcpAskSend ikcpCmdWask
    empty
  exact Within.flushProbe asked inRange same ikcpAskTell ikcpCmdWins empty

theorem Within.flushSegment {mtu wnd : Nat} {flush : DataFlush} {seg : Seg}
    (within : flush.out.Within (limits mtu))
    (inRange : 50 ≤ mtu ∧ mtu < mtuMax) (same : kcp.mtu = mtu)
    (short : seg.data.length ≤ mtu - ikcpOverhead) :
    (flushSegment kcp wnd seg flush).2.out.Within (limits mtu) := by
  rw [CommonIkcp.flushSegment, same]
  split
  · exact within
  case h_2 why isDue =>
    apply Within.gatherSeg within inRange
    cases why <;> exact short

theorem Within.flushData {mtu wnd : Nat} {flush : DataFlush} {segs : List Seg}
    (within : flush.out.Within (limits mtu))
    (inRange : 50 ≤ mtu ∧ mtu < mtuMax) (same : kcp.mtu = mtu)
    (short : ∀ seg ∈ segs, seg.data.length ≤ mtu - ikcpOverhead) :
    (flushData kcp wnd segs flush).2.out.Within (limits mtu) := by
  induction segs generalizing flush with
  | nil => exact within
  | cons seg rest ih =>
      rw [List.forall_mem_cons] at short
      exact ih (Within.flushSegment within inRange same short.1) short.2

theorem Within.flushBehind {mtu : Nat} (within : out.Within (limits mtu))
    (inRange : 50 ≤ mtu ∧ mtu < mtuMax) (same : kcp.mtu = mtu)
    (cut : Cut (mtu - ikcpOverhead) kcp.snd) :
    (flushBehind kcp out).1.Within (limits mtu) := by
  let moved := restartPeriod { kcp with snd := afterMoving kcp }
  have sameMtu : moved.mtu = mtu := restartPeriod_mtu.trans same
  obtain ⟨-, snd, -⟩ := restartPeriod_frame { kcp with snd := afterMoving kcp }
  have short : ∀ seg ∈ moved.snd.sndBuf,
      seg.data.length ≤ mtu - ikcpOverhead := by
    have isMoved : moved.snd = afterMoving kcp := snd
    rw [isMoved]
    exact (cut.moveQueued _ _ _ _ _).buffer
  have start : DataFlush.out
      { out, xmit := moved.xmit, periodSent := moved.periodSent
        periodRetrans := moved.periodRetrans, state := moved.state } =
      out := rfl
  rw [← start] at within
  exact Outgoing.Within.finish
    (Within.flushData within inRange sameMtu short)

end Gathering

/-! ## Whole runs -/

/-- The `mtu` is in range and every segment has been cut for it. -/
structure Fits (kcp : IkcpCb) : Prop where
  inRange : 50 ≤ kcp.mtu ∧ kcp.mtu < mtuMax
  cut : Cut (kcp.mtu - ikcpOverhead) kcp.snd

variable {kcp next : IkcpCb}

theorem Fits.keep (fits : Fits kcp) (mtu : next.mtu = kcp.mtu)
    (keeps : KeepsData kcp.snd next.snd) : Fits next where
  inRange := mtu ▸ fits.inRange
  cut := by
    rw [mtu]
    exact fits.cut.keep keeps

theorem Fits.flush (fits : Fits kcp) {sent : List (List UInt8)}
    (flushes : ikcpFlush kcp = some (sent, next)) : Fits next := by
  have same := ikcpFlush_mtu flushes
  refine ⟨same ▸ fits.inRange, ?_⟩
  rw [same]
  rcases ikcpFlush_cases flushes with ⟨-, -, rfl⟩ | ⟨-, -, rfl⟩
  · exact fits.cut
  · obtain ⟨-, -, -, -, -, -, -, -, -, keeps⟩ :=
      flushBehind_eq (flushCommands kcp).2 (flushCommands kcp).1
    obtain ⟨-, snd, -⟩ := flushCommands_frame kcp
    have moved : Cut (kcp.mtu - ikcpOverhead)
        (afterMoving (flushCommands kcp).2) := by
      apply Cut.moveQueued
      rw [snd]
      exact fits.cut
    exact moved.keep keeps.toKeepsData

theorem Fits.update (fits : Fits kcp) {sent : List (List UInt8)}
    {current : IUINT32}
    (updates : ikcpUpdate kcp current = some (sent, next)) : Fits next := by
  have same := ikcpUpdate_mtu updates
  refine ⟨same ▸ fits.inRange, ?_⟩
  rw [same]
  obtain ⟨-, keeps, -⟩ := schedule_frame kcp current
  have mtu : (schedule kcp current).2.mtu = kcp.mtu := by
    rw [schedule]
    dsimp only
    split_ifs <;> rfl
  have scheduled : Fits (schedule kcp current).2 :=
    fits.keep mtu keeps.toKeepsData
  rw [ikcpUpdate, Option.map_eq_some_iff] at updates
  obtain ⟨⟨packets, flushed⟩, flushes, returns⟩ := updates
  obtain ⟨rfl, rfl⟩ := Prod.mk.inj returns
  rw [congrArg Ikcp.IkcpCb.snd (measureTraffic_frame flushed current)]
  split at flushes
  · have kept := (scheduled.flush flushes).cut
    rwa [ikcpFlush_mtu flushes, mtu] at kept
  · obtain rfl := (Prod.mk.inj (Option.some.inj flushes)).2
    have kept := scheduled.cut
    rwa [mtu] at kept

theorem Fits.input (fits : Fits kcp) (data : List UInt8) :
    Fits (ikcpInput kcp data).2 := by
  have looped : Fits (inputLoop kcp none data).2.1 := by
    apply inputLoop_invariant _ fits
    intro kcp maxack header data rxBytesTotal fits _
    exact ⟨fits.inRange, fits.cut.inputSegment maxack header data⟩
  rw [ikcpInput]
  split
  · exact fits
  · dsimp only
    split
    · exact looped
    · refine looped.keep rfl (KeepsWindow.toKeepsData ?_)
      apply KeepsWindow.trans _ (keepsWindow_growCwnd _ _)
      split
      · exact keepsWindow_parseFastack _ _
      · exact .refl _

theorem Fits.setmtu (fits : Fits kcp) {mtu : Int}
    (keeps : mtu < 50 ∨ (kcp.mtu : Int) ≤ mtu ∧ mtu < mtuMax) :
    Fits (ikcpSetmtu kcp mtu) := by
  obtain ⟨low, high⟩ := fits.inRange
  have cut := fits.cut
  rw [ikcpSetmtu]
  split
  · exact fits
  case isFalse accepted =>
    simp only [ikcpOverhead] at accepted cut
    constructor
    case inRange =>
      dsimp only
      omega
    case cut =>
      have longer : kcp.mtu - 24 ≤ mtu.toNat - 24 := by omega
      exact
        { size := rfl
          queue := fun seg member =>
            Nat.le_trans (cut.queue seg member) longer
          buffer := fun seg member =>
            Nat.le_trans (cut.buffer seg member) longer }

theorem Fits.call (fits : Fits kcp) {label : Call}
    (keeps : KeepsMtu kcp label) (returns : call kcp label = some next) :
    Fits next := by
  cases label with
  | send buffer =>
      obtain rfl := Option.some.inj returns
      exact ⟨fits.inRange, fits.cut.send buffer⟩
  | input data =>
      obtain rfl := Option.some.inj returns
      exact fits.input data
  | recv len =>
      obtain rfl := Option.some.inj returns
      obtain ⟨-, same⟩ := ikcpRecv_frame kcp.toIkcpCb len
      exact ⟨fits.inRange, same ▸ fits.cut⟩
  | update current =>
      obtain ⟨⟨sent, kcp⟩, updates, rfl⟩ := Option.map_eq_some_iff.mp returns
      exact fits.update updates
  | flush =>
      obtain ⟨⟨sent, kcp⟩, flushes, rfl⟩ := Option.map_eq_some_iff.mp returns
      exact fits.flush flushes
  | setmtu mtu =>
      obtain rfl := Option.some.inj returns
      exact fits.setmtu keeps
  | interval time =>
      obtain rfl := Option.some.inj returns
      exact fits.keep rfl ⟨rfl, rfl, rfl, rfl⟩
  | nodelay mode time resend nc =>
      obtain rfl := Option.some.inj returns
      exact fits.keep rfl (keepsWindow_nodelay _ _ _ _ _).toKeepsData
  | wndsize sndwnd rcvwnd =>
      obtain rfl := Option.some.inj returns
      exact fits.keep rfl (keepsWindow_wndsize _ _ _).toKeepsData
  | setLossPeriod periodMs =>
      obtain rfl := Option.some.inj returns
      exact fits.keep rfl ⟨rfl, rfl, rfl, rfl⟩

theorem fits_fresh (fresh : Fresh kcp) : Fits kcp := by
  obtain ⟨conv, stream, fastlimit, deadLink, rfl⟩ := fresh
  constructor
  case inRange =>
    exact show 50 ≤ ikcpMtuDef ∧ ikcpMtuDef < mtuMax by decide
  case cut =>
    exact
      { size := rfl
        queue := by simp [ikcpCreate]
        buffer := by simp [ikcpCreate] }

/-- While the `mtu` is never lowered, a flush always succeeds, and no datagram
is longer than the `mtu`. -/
theorem flush_within_mtu
    (reachable : Reachable Fresh call
      (fun kcp label => label.Valid ∧ KeepsMtu kcp label) kcp) :
    ∃ sent after, ikcpFlush kcp = some (sent, after) ∧
      ∀ data ∈ sent, data.length ≤ kcp.mtu := by
  have fits : Fits kcp := reachable.invariant Fits (fun _ => fits_fresh)
    (fun _ _ _ fits permits returns => fits.call permits.2 returns)
  have mtu : (flushCommands kcp).2.mtu = kcp.mtu := flushCommands_mtu
  obtain ⟨-, snd, -⟩ := flushCommands_frame kcp
  have gathered : (flushBehind (flushCommands kcp).2
      (flushCommands kcp).1).1.Within (limits kcp.mtu) := by
    apply Within.flushBehind (within_flushCommands fits.inRange)
      fits.inRange mtu
    rw [snd]
    exact fits.cut
  rw [ikcpFlush]
  by_cases idle : kcp.updated = false
  · rw [if_pos idle]
    exact ⟨[], kcp, rfl, by simp⟩
  · rw [if_neg idle]
    exact ⟨_, _, if_pos gathered.fits, gathered.packets⟩

/-- Ten bytes go out as one datagram. -/
theorem flush_within_mtu_sent : ∃ kcp, kcp.snd.sndQueue.length = 1 ∧
    ∃ sent after, ikcpFlush kcp = some (sent, after) ∧
      ∀ data ∈ sent, data.length ≤ kcp.mtu := by
  have queued : ((run call (ikcpCreate 0)
      [.update 0, .send (.replicate 10 0)]).any fun kcp =>
        kcp.snd.sndQueue.length = 1) = true := by
    decide +kernel
  obtain ⟨kcp, runs, checked⟩ := (Option.any_eq_true _ _).1 queued
  have fresh : Fresh (ikcpCreate 0) := ⟨0, false, 5, 20, rfl⟩
  have reachable : Reachable Fresh call
      (fun kcp label => label.Valid ∧ KeepsMtu kcp label) kcp :=
    (Reachable.start fresh).append_run (stepsMeet_of_forall
      (by simp [Call.Valid, KeepsMtu, intMax]) _) runs
  exact ⟨kcp, of_decide_eq_true checked, flush_within_mtu reachable⟩

/-- A segment that was cut for the default `mtu`. -/
def longSegment : Call :=
  .send (.replicate (ikcpMtuDef - ikcpOverhead) 0)

theorem longSegment_valid : longSegment.Valid := by
  rw [longSegment, Call.Valid, List.length_replicate]
  decide

/-- A segment that was cut for the default `mtu` overruns the buffer for one of
50. -/
theorem exists_overrun : ∃ kcp, InUse kcp ∧ ikcpFlush kcp = none := by
  have overruns : ((run call (ikcpCreate 0)
      [longSegment, .update 0, .setmtu 50]).any
      fun kcp => (ikcpFlush kcp).isNone) = true := by
    decide +kernel
  obtain ⟨kcp, runs, checked⟩ := (Option.any_eq_true _ _).1 overruns
  have fresh : Fresh (ikcpCreate 0) := ⟨0, false, 5, 20, rfl⟩
  have valid : ∀ label ∈ [longSegment, .update 0, .setmtu 50],
      ∀ _ : IkcpCb, label.Valid := by
    simp only [List.forall_mem_cons]
    exact ⟨fun _ => longSegment_valid, fun _ => trivial,
      fun _ => show (50 : Int) ≤ intMax by decide, by simp⟩
  exact ⟨kcp, (Reachable.start fresh).append_run
    (stepsMeet_of_forall valid _) runs, Option.isNone_iff_eq_none.mp checked⟩

end CommonIkcp

end MbedtlsKcp
