import MbedtlsKcp.ByteBuffers
import MbedtlsKcp.SerialNumbers

/-!
# The KCP control block

`ikcp_send`, `ikcp_input` and `ikcp_recv` over one control block.  Its fields
are grouped by the half of the protocol that uses them, so that what
acknowledgements do to the send side is visibly apart from the receive queues.
Allocation succeeds, nothing is logged, and a segment's `len` is the length of
its data.
-/

namespace MbedtlsKcp

namespace Ikcp

open ByteBuffers SerialNumbers

abbrev IUINT32 := BitVec 32

/-- `_itimediff`. -/
def itimediff (later earlier : IUINT32) : Int :=
  serialDiff later earlier

def ikcpCmdPush : Nat := 81

def ikcpCmdAck : Nat := 82

def ikcpCmdWask : Nat := 83

def ikcpCmdWins : Nat := 84

def ikcpAskTell : IUINT32 := 2

def ikcpMtuDef : Nat := 1400

def ikcpOverhead : Nat := 24

def ikcpRtoNdl : IUINT32 := 30

def ikcpRtoMin : IUINT32 := 100

def ikcpRtoDef : Int := 200

def ikcpRtoMax : IUINT32 := 60000

/-- `IKCPSEG`; the fields a fresh segment leaves unset are zero here and are
written before they are read. -/
structure Seg where
  conv : IUINT32 := 0
  cmd : Nat := 0
  frg : Nat := 0
  wnd : Nat := 0
  ts : IUINT32 := 0
  sn : IUINT32 := 0
  una : IUINT32 := 0
  resendts : IUINT32 := 0
  rto : IUINT32 := 0
  fastack : IUINT32 := 0
  xmit : IUINT32 := 0
  data : List UInt8
  deriving DecidableEq, Repr

/-- The fields of `IKCPCB` behind sending and acknowledgements. -/
structure SendSide where
  mss : Nat := ikcpMtuDef - ikcpOverhead
  stream : Bool := false
  sndUna : IUINT32 := 0
  sndNxt : IUINT32 := 0
  ssthresh : IUINT32 := 2
  rxRttval : Int := 0
  rxSrtt : Int := 0
  rxRto : Int := ikcpRtoDef
  rxMinrto : IUINT32 := ikcpRtoMin
  sndWnd : IUINT32 := 32
  rmtWnd : IUINT32 := 32
  cwnd : IUINT32 := 0
  incr : IUINT32 := 0
  current : IUINT32 := 0
  interval : IUINT32 := 100
  nodelay : IUINT32 := 0
  fastresend : Int := 0
  nocwnd : Int := 0
  nsndBuf : Nat := 0
  nsndQue : Nat := 0
  sndQueue : List Seg := []
  sndBuf : List Seg := []
  deriving DecidableEq, Repr

/-- The fields of `IKCPCB` behind the receive queues; `acklist` holds the
pairs `(sn, ts)` still to be acknowledged. -/
structure ReceiveSide where
  rcvNxt : IUINT32 := 0
  rcvWnd : Nat := 32
  nrcvBuf : Nat := 0
  nrcvQue : Nat := 0
  rcvQueue : List Seg := []
  rcvBuf : List Seg := []
  acklist : List (IUINT32 × IUINT32) := []
  deriving DecidableEq, Repr

/-- `ikcpcb`. -/
structure IkcpCb where
  conv : IUINT32
  probe : IUINT32 := 0
  snd : SendSide := {}
  rcv : ReceiveSide := {}
  deriving DecidableEq, Repr

def ikcpCreate (conv : IUINT32) : IkcpCb :=
  { conv }

def ikcpNodelay (kcp : IkcpCb) (nodelay interval resend nc : Int) : IkcpCb :=
  let snd := kcp.snd
  let snd := if 0 ≤ nodelay then
    { snd with
      nodelay := BitVec.ofInt 32 nodelay
      rxMinrto := if nodelay ≠ 0 then ikcpRtoNdl else ikcpRtoMin }
    else snd
  let snd := if 0 ≤ interval then
    { snd with
      interval := BitVec.ofInt 32
        (if 5000 < interval then 5000 else if interval < 10 then 10
          else interval) }
    else snd
  let snd := if 0 ≤ resend then { snd with fastresend := resend } else snd
  let snd := if 0 ≤ nc then { snd with nocwnd := nc } else snd
  { kcp with snd }

def ikcpWndsize (kcp : IkcpCb) (sndwnd rcvwnd : Int) : IkcpCb :=
  let kcp := if 0 < sndwnd then
    { kcp with snd := { kcp.snd with sndWnd := BitVec.ofInt 32 sndwnd } }
    else kcp
  if 0 < rcvwnd then
    { kcp with rcv := { kcp.rcv with rcvWnd := rcvwnd.toNat } }
  else
    kcp

/-! ## Sending -/

/-- The segments a buffer is cut into, with `count` of them left. -/
def fragment (mss : Nat) : Nat → List UInt8 → List Seg
  | 0, _ => []
  | count + 1, buffer =>
      { frg := count, data := buffer.take mss } ::
        fragment mss count (buffer.drop mss)

/-- In stream mode every segment ends a message. -/
def unnumbered (stream : Bool) (segs : List Seg) : List Seg :=
  if stream then segs.map fun seg => { seg with frg := 0 } else segs

/-- Stream mode fills the last queued segment first; the rest of the buffer is
left to send. -/
def appendToLast (snd : SendSide) (buffer : List UInt8) :
    SendSide × List UInt8 :=
  match snd.sndQueue.getLast? with
  | none => (snd, buffer)
  | some old =>
      if old.data.length < snd.mss then
        let capacity := snd.mss - old.data.length
        let extend := min buffer.length capacity
        ({ snd with
            sndQueue := snd.sndQueue.dropLast ++
              [{ frg := 0, data := old.data ++ buffer.take extend }] },
          buffer.drop extend)
      else
        (snd, buffer)

/-- `ikcp_send`: the returned code and the send side after the call. -/
def ikcpSend (snd : SendSide) (buffer : List UInt8) : Int × SendSide :=
  let appended := if snd.stream then appendToLast snd buffer else (snd, buffer)
  if snd.stream ∧ appended.2.length = 0 then
    (0, appended.1)
  else
    let snd := appended.1
    let buffer := appended.2
    let count := if buffer.length ≤ snd.mss then 1
      else (buffer.length + snd.mss - 1) / snd.mss
    if 255 < count then
      (-2, snd)
    else
      let count := if count = 0 then 1 else count
      let segs := unnumbered snd.stream (fragment snd.mss count buffer)
      (0, { snd with
              sndQueue := snd.sndQueue ++ segs
              nsndQue := snd.nsndQue + count })

/-- One round of the loop of `ikcp_flush` that moves a queued segment to the
send buffer and numbers it; `wnd` and `una` are the receive window and the next
expected number of the sender. -/
def moveToSndBuf (conv : IUINT32) (wnd : Nat) (una : IUINT32)
    (snd : SendSide) : Option (SendSide × Seg) :=
  match snd.sndQueue with
  | [] => none
  | newseg :: queued =>
      let moved : Seg :=
        { newseg with
          conv, cmd := ikcpCmdPush, wnd, ts := snd.current, sn := snd.sndNxt,
          una, resendts := snd.current, rto := BitVec.ofInt 32 snd.rxRto,
          fastack := 0, xmit := 0 }
      some ({ snd with
                sndQueue := queued
                sndBuf := snd.sndBuf ++ [moved]
                nsndQue := snd.nsndQue - 1
                nsndBuf := snd.nsndBuf + 1
                sndNxt := snd.sndNxt + 1 },
        moved)

/-! ## The wire format -/

/-- `ikcp_encode_seg` followed by the segment's data. -/
def ikcpEncodeSeg (seg : Seg) : List UInt8 :=
  encodeLE 4 seg.conv.toNat ++ encodeLE 1 seg.cmd ++ encodeLE 1 seg.frg ++
    encodeLE 2 seg.wnd ++ encodeLE 4 seg.ts.toNat ++ encodeLE 4 seg.sn.toNat ++
      encodeLE 4 seg.una.toNat ++ encodeLE 4 seg.data.length ++ seg.data

/-- The header fields as `ikcp_input` decodes them. -/
structure Header where
  conv : IUINT32
  cmd : Nat
  frg : Nat
  wnd : Nat
  ts : IUINT32
  sn : IUINT32
  una : IUINT32
  len : Nat
  deriving DecidableEq, Repr

def decodeHeader (data : List UInt8) : Header where
  conv := BitVec.ofNat 32 (loadLE data 0 4)
  cmd := loadLE data 4 1
  frg := loadLE data 5 1
  wnd := loadLE data 6 2
  ts := BitVec.ofNat 32 (loadLE data 8 4)
  sn := BitVec.ofNat 32 (loadLE data 12 4)
  una := BitVec.ofNat 32 (loadLE data 16 4)
  len := loadLE data 20 4

/-! ## Acknowledgements -/

def imax (a b : IUINT32) : IUINT32 :=
  if b ≤ a then a else b

def imin (a b : IUINT32) : IUINT32 :=
  if a ≤ b then a else b

def ibound (lower middle upper : IUINT32) : IUINT32 :=
  imin (imax lower middle) upper

def ikcpUpdateAck (snd : SendSide) (rtt : Int) : SendSide :=
  let snd := if snd.rxSrtt = 0 then
    { snd with rxSrtt := rtt, rxRttval := rtt.tdiv 2 }
    else
      let srtt := (7 * snd.rxSrtt + rtt).tdiv 8
      { snd with
        rxRttval := (3 * snd.rxRttval + (rtt - snd.rxSrtt).natAbs).tdiv 4
        rxSrtt := if srtt < 1 then 1 else srtt }
  let rto := BitVec.ofInt 32 snd.rxSrtt +
    imax snd.interval (BitVec.ofInt 32 (4 * snd.rxRttval))
  { snd with rxRto := (ibound snd.rxMinrto rto ikcpRtoMax).toInt }

def ikcpShrinkBuf (snd : SendSide) : SendSide :=
  match snd.sndBuf with
  | seg :: _ => { snd with sndUna := seg.sn }
  | [] => { snd with sndUna := snd.sndNxt }

/-- The send buffer without the acknowledged segment, and whether there was
one. -/
def removeAcked (sn : IUINT32) : List Seg → List Seg × Bool
  | [] => ([], false)
  | seg :: rest =>
      if sn = seg.sn then
        (rest, true)
      else if itimediff sn seg.sn < 0 then
        (seg :: rest, false)
      else
        let removed := removeAcked sn rest
        (seg :: removed.1, removed.2)

def ikcpParseAck (snd : SendSide) (sn : IUINT32) : SendSide :=
  if itimediff sn snd.sndUna < 0 ∨ 0 ≤ itimediff sn snd.sndNxt then
    snd
  else
    let removed := removeAcked sn snd.sndBuf
    { snd with
      sndBuf := removed.1
      nsndBuf := if removed.2 then snd.nsndBuf - 1 else snd.nsndBuf }

def ikcpParseUna (snd : SendSide) (una : IUINT32) : SendSide :=
  let kept := snd.sndBuf.dropWhile fun seg => 0 < itimediff una seg.sn
  { snd with
    sndBuf := kept
    nsndBuf := snd.nsndBuf - (snd.sndBuf.length - kept.length) }

def countFastack (sn : IUINT32) : List Seg → List Seg
  | [] => []
  | seg :: rest =>
      if itimediff sn seg.sn < 0 then
        seg :: rest
      else if sn ≠ seg.sn then
        { seg with fastack := seg.fastack + 1 } :: countFastack sn rest
      else
        seg :: countFastack sn rest

def ikcpParseFastack (snd : SendSide) (sn : IUINT32) : SendSide :=
  if itimediff sn snd.sndUna < 0 ∨ 0 ≤ itimediff sn snd.sndNxt then
    snd
  else
    { snd with sndBuf := countFastack sn snd.sndBuf }

/-- The end of `ikcp_input`: the congestion window grows when the oldest
unacknowledged number has moved past `una`. -/
def growCwnd (snd : SendSide) (una : IUINT32) : SendSide :=
  if 0 < itimediff snd.sndUna una ∧ snd.cwnd < snd.rmtWnd then
    let mss := BitVec.ofNat 32 snd.mss
    let snd : SendSide := if snd.cwnd < snd.ssthresh then
      { snd with cwnd := snd.cwnd + 1, incr := snd.incr + mss }
      else
        let incr := if snd.incr < mss then mss else snd.incr
        let incr := incr + (mss * mss / incr + mss / 16)
        { snd with
          incr
          cwnd := if (snd.cwnd + 1) * mss ≤ incr then snd.cwnd + 1
            else snd.cwnd }
    if snd.rmtWnd < snd.cwnd then
      { snd with cwnd := snd.rmtWnd, incr := snd.rmtWnd * mss }
    else
      snd
  else
    snd

/-! ## Receiving -/

/-- Available segments move from the receive buffer to the receive queue. -/
def moveAvailable : List Seg → ReceiveSide → ReceiveSide
  | [], rcv => rcv
  | seg :: rest, rcv =>
      if seg.sn = rcv.rcvNxt ∧ rcv.nrcvQue < rcv.rcvWnd then
        moveAvailable rest
          { rcv with
            rcvBuf := rest
            nrcvBuf := rcv.nrcvBuf - 1
            rcvQueue := rcv.rcvQueue ++ [seg]
            nrcvQue := rcv.nrcvQue + 1
            rcvNxt := rcv.rcvNxt + 1 }
      else
        rcv

def ikcpParseData (rcv : ReceiveSide) (newseg : Seg) : ReceiveSide :=
  if 0 ≤ itimediff newseg.sn (rcv.rcvNxt + BitVec.ofNat 32 rcv.rcvWnd) ∨
      itimediff newseg.sn rcv.rcvNxt < 0 then
    rcv
  else
    let rcv := match insertFromTail Seg.sn newseg rcv.rcvBuf.reverse with
      | some inserted =>
          { rcv with rcvBuf := inserted.reverse, nrcvBuf := rcv.nrcvBuf + 1 }
      | none => rcv
    moveAvailable rcv.rcvBuf rcv

/-- What `ikcp_input` does with a data segment. -/
def receivePush (rcv : ReceiveSide) (seg : Seg) : ReceiveSide :=
  if itimediff seg.sn (rcv.rcvNxt + BitVec.ofNat 32 rcv.rcvWnd) < 0 then
    let rcv := { rcv with acklist := rcv.acklist ++ [(seg.sn, seg.ts)] }
    if 0 ≤ itimediff seg.sn rcv.rcvNxt then
      ikcpParseData rcv seg
    else
      rcv
  else
    rcv

/-- The largest number acknowledged so far in this call. -/
def latestAck (maxack : Option IUINT32) (sn : IUINT32) : Option IUINT32 :=
  match maxack with
  | none => some sn
  | some latest => if 0 < itimediff sn latest then some sn else some latest

/-- The part of one round of `ikcp_input` that follows the checks. -/
def inputSegment (kcp : IkcpCb) (maxack : Option IUINT32) (header : Header)
    (data : List UInt8) : IkcpCb × Option IUINT32 :=
  let snd := { kcp.snd with rmtWnd := BitVec.ofNat 32 header.wnd }
  let snd := ikcpShrinkBuf (ikcpParseUna snd header.una)
  let kcp := { kcp with snd }
  if header.cmd = ikcpCmdAck then
    let rtt := itimediff snd.current header.ts
    let snd := if 0 ≤ rtt then ikcpUpdateAck snd rtt else snd
    let snd := ikcpShrinkBuf (ikcpParseAck snd header.sn)
    ({ kcp with snd }, latestAck maxack header.sn)
  else if header.cmd = ikcpCmdPush then
    let seg : Seg :=
      { conv := header.conv, cmd := header.cmd, frg := header.frg
        wnd := header.wnd, ts := header.ts, sn := header.sn
        una := header.una, data := data.take header.len }
    ({ kcp with rcv := receivePush kcp.rcv seg }, maxack)
  else if header.cmd = ikcpCmdWask then
    ({ kcp with probe := kcp.probe ||| ikcpAskTell }, maxack)
  else
    (kcp, maxack)

/-- The loop of `ikcp_input`; the code is 0 when the data is used up. -/
def inputLoop (kcp : IkcpCb) (maxack : Option IUINT32)
    (data : List UInt8) : Int × IkcpCb × Option IUINT32 :=
  if short : data.length < ikcpOverhead then
    (0, kcp, maxack)
  else
    let header := decodeHeader data
    if header.conv ≠ kcp.conv then
      (-1, kcp, maxack)
    else
      let body := data.drop ikcpOverhead
      if body.length < header.len then
        (-2, kcp, maxack)
      else if header.cmd ≠ ikcpCmdPush ∧ header.cmd ≠ ikcpCmdAck ∧
          header.cmd ≠ ikcpCmdWask ∧ header.cmd ≠ ikcpCmdWins then
        (-3, kcp, maxack)
      else
        let next := inputSegment kcp maxack header body
        inputLoop next.1 next.2 (body.drop header.len)
termination_by data.length
decreasing_by
  have : 24 ≤ data.length := Nat.not_lt.mp short
  simp only [List.length_drop, ikcpOverhead]
  omega

/-- `ikcp_input`. -/
def ikcpInput (kcp : IkcpCb) (data : List UInt8) : Int × IkcpCb :=
  let una := kcp.snd.sndUna
  if data.length < 24 then
    (-1, kcp)
  else
    let result := inputLoop kcp none data
    if result.1 < 0 then
      (result.1, result.2.1)
    else
      let kcp := result.2.1
      let snd := match result.2.2 with
        | some maxack => ikcpParseFastack kcp.snd maxack
        | none => kcp.snd
      (0, { kcp with snd := growCwnd snd una })

/-- The data length up to the segment that ends a message. -/
def fragmentsLen : List Seg → Nat
  | [] => 0
  | seg :: rest =>
      if seg.frg = 0 then seg.data.length
      else seg.data.length + fragmentsLen rest

/-- `ikcp_peeksize`. -/
def ikcpPeeksize (rcv : ReceiveSide) : Int :=
  match rcv.rcvQueue with
  | [] => -1
  | seg :: _ =>
      if seg.frg = 0 then seg.data.length
      else if rcv.nrcvQue < seg.frg + 1 then -1
      else fragmentsLen rcv.rcvQueue

/-- The merge loop of `ikcp_recv`: the merged data, the segments left and the
number of segments taken. -/
def mergeFragments : List Seg → List UInt8 × List Seg × Nat
  | [] => ([], [], 0)
  | seg :: rest =>
      if seg.frg = 0 then
        (seg.data, rest, 1)
      else
        let merged := mergeFragments rest
        (seg.data ++ merged.1, merged.2.1, merged.2.2 + 1)

/-- `ikcp_recv` with a buffer of `len` bytes, a negative `len` asking for a
look at the message: the code, what is stored in the buffer and the control
block after the call. -/
def ikcpRecv (kcp : IkcpCb) (len : Int) : Int × List UInt8 × IkcpCb :=
  let rcv := kcp.rcv
  let peeksize := ikcpPeeksize rcv
  if rcv.rcvQueue = [] then
    (-1, [], kcp)
  else if peeksize < 0 then
    (-2, [], kcp)
  else if len.natAbs < peeksize then
    (-3, [], kcp)
  else
    let recover := rcv.rcvWnd ≤ rcv.nrcvQue
    let merged := mergeFragments rcv.rcvQueue
    let rcv := if len < 0 then rcv else
      { rcv with
        rcvQueue := merged.2.1
        nrcvQue := rcv.nrcvQue - merged.2.2 }
    let rcv := moveAvailable rcv.rcvBuf rcv
    let probe := if rcv.nrcvQue < rcv.rcvWnd ∧ recover then
      kcp.probe ||| ikcpAskTell else kcp.probe
    (merged.1.length, merged.1, { kcp with rcv, probe })

end Ikcp

end MbedtlsKcp
