import MbedtlsKcp.Ikcp
import MbedtlsKcp.PacketBuffers
import MbedtlsKcp.TransitionRuns

/-!
# The control block that counts its traffic

The copy of KCP under `common` keeps the traffic and the loss of a connection
beside the protocol.  Where its functions are those of the other copy they are
taken from there; the others follow.  A flush that writes behind its buffer,
which a lower `mtu` can make too short for the segments already cut, does not
return, and neither does one that overflows an `int`.  The loss rate, a
quotient of the two counters of the period, is left out.
-/

namespace MbedtlsKcp

namespace CommonIkcp

open Ikcp PacketBuffers

def ikcpAskSend : IUINT32 := 1

def ikcpWndRcv : Nat := 128

def ikcpProbeInit : IUINT32 := 7000

def ikcpProbeLimit : IUINT32 := 120000

def ikcpThreshMin : IUINT32 := 2

def intMax : Nat := 2 ^ 31 - 1

/-- `ikcpcb`, with the fields that it shares with the other copy. -/
structure IkcpCb extends Ikcp.IkcpCb where
  snd := { rmtWnd := BitVec.ofNat 32 ikcpWndRcv }
  rcv := { rcvWnd := ikcpWndRcv }
  mtu : Nat := ikcpMtuDef
  state : IUINT32 := 0
  tsProbe : IUINT32 := 0
  probeWait : IUINT32 := 0
  tsFlush : IUINT32 := 100
  updated : Bool := false
  xmit : IUINT32 := 0
  fastlimit : Int := 5
  deadLink : IUINT32 := 20
  lossPeriod : IUINT32 := 4000
  lossTimeStart : IUINT32 := 0
  periodSent : IUINT32 := 0
  periodRetrans : IUINT32 := 0
  txBytesPerSec : IUINT32 := 0
  rxBytesPerSec : IUINT32 := 0
  txBytesLast : IUINT32 := 0
  rxBytesLast : IUINT32 := 0
  txBytesTotal : IUINT32 := 0
  rxBytesTotal : IUINT32 := 0
  trafficTimeStart : IUINT32 := 0

def ikcpCreate (conv : IUINT32) : IkcpCb :=
  { conv }

def ikcpSetmtu (kcp : IkcpCb) (mtu : Int) : IkcpCb :=
  if mtu < 50 ∨ mtu < ikcpOverhead then kcp
  else
    { kcp with
      mtu := mtu.toNat
      snd := { kcp.snd with mss := mtu.toNat - ikcpOverhead } }

def ikcpInterval (kcp : IkcpCb) (interval : Int) : IkcpCb :=
  let interval := if 5000 < interval then 5000
    else if interval < 10 then 10 else interval
  { kcp with snd := { kcp.snd with interval := BitVec.ofInt 32 interval } }

def ikcpNodelay (kcp : IkcpCb) (nodelay interval resend nc : Int) : IkcpCb :=
  { kcp with
    toIkcpCb := Ikcp.ikcpNodelay kcp.toIkcpCb nodelay interval resend nc }

def ikcpWndsize (kcp : IkcpCb) (sndwnd rcvwnd : Int) : IkcpCb :=
  let rcvwnd := if 0 < rcvwnd then max rcvwnd ikcpWndRcv else rcvwnd
  { kcp with toIkcpCb := Ikcp.ikcpWndsize kcp.toIkcpCb sndwnd rcvwnd }

def ikcpSetLossPeriod (kcp : IkcpCb) (periodMs : IUINT32) : IkcpCb :=
  { kcp with lossPeriod := periodMs }

/-! ## Sending and receiving -/

/-- `ikcp_send`: the returned code and the send side after the call. -/
def ikcpSend (snd : SendSide) (buffer : List UInt8) : Int × SendSide :=
  let appended := if snd.stream then appendToLast snd buffer else (snd, buffer)
  let sent := buffer.length - appended.2.length
  if snd.stream ∧ appended.2.length = 0 then
    (sent, appended.1)
  else
    let snd := appended.1
    let buffer := appended.2
    let count := if buffer.length ≤ snd.mss then 1
      else (buffer.length + snd.mss - 1) / snd.mss
    if ikcpWndRcv ≤ count then
      (if snd.stream ∧ 0 < sent then sent else -2, snd)
    else
      let count := if count = 0 then 1 else count
      let segs := unnumbered snd.stream (fragment snd.mss count buffer)
      (sent + buffer.length,
        { snd with
          sndQueue := snd.sndQueue ++ segs
          nsndQue := snd.nsndQue + count })

/-- The end of `ikcp_input`: the congestion window grows when the oldest
unacknowledged number has moved past `prevUna`. -/
def growCwnd (snd : SendSide) (prevUna : IUINT32) : SendSide :=
  if 0 < itimediff snd.sndUna prevUna ∧ snd.cwnd < snd.rmtWnd then
    let mss := BitVec.ofNat 32 snd.mss
    let snd : SendSide := if snd.cwnd < snd.ssthresh then
      { snd with cwnd := snd.cwnd + 1, incr := snd.incr + mss }
      else
        let incr := if snd.incr < mss then mss else snd.incr
        let incr := incr + (mss * mss / incr + mss / 16)
        { snd with
          incr
          cwnd := if (snd.cwnd + 1) * mss ≤ incr then
            (incr + mss - 1) / (if 0 < mss then mss else 1)
            else snd.cwnd }
    if snd.rmtWnd < snd.cwnd then
      { snd with cwnd := snd.rmtWnd, incr := snd.rmtWnd * mss }
    else
      snd
  else
    snd

/-- The loop of `ikcp_input`; the code is 0 when the data is used up. -/
def inputLoop (kcp : IkcpCb) (maxack : Option IUINT32)
    (data : List UInt8) : Int × IkcpCb × Option IUINT32 :=
  if data.length < ikcpOverhead then
    (0, kcp, maxack)
  else
    let header := decodeHeader data
    if header.conv ≠ kcp.conv then
      (-1, kcp, maxack)
    else
      let body := data.drop ikcpOverhead
      if body.length < header.len ∨ intMax < header.len then
        (-2, kcp, maxack)
      else if header.cmd ≠ ikcpCmdPush ∧ header.cmd ≠ ikcpCmdAck ∧
          header.cmd ≠ ikcpCmdWask ∧ header.cmd ≠ ikcpCmdWins then
        (-3, kcp, maxack)
      else
        let next := inputSegment kcp.toIkcpCb maxack header body
        let rxBytesTotal := if header.cmd = ikcpCmdPush then
          kcp.rxBytesTotal + BitVec.ofNat 32 (header.len + ikcpOverhead)
          else kcp.rxBytesTotal
        inputLoop { kcp with toIkcpCb := next.1, rxBytesTotal } next.2
          (body.drop header.len)
termination_by data.length
decreasing_by
  simp only [List.length_drop, ikcpOverhead] at *
  omega

/-- `ikcp_input`. -/
def ikcpInput (kcp : IkcpCb) (data : List UInt8) : Int × IkcpCb :=
  let prevUna := kcp.snd.sndUna
  if data.length < ikcpOverhead then
    (-1, kcp)
  else
    let result := inputLoop kcp none data
    if result.1 < 0 then
      (result.1, result.2.1)
    else
      let kcp := result.2.1
      let snd := match result.2.2 with
        | some maxack => ikcpParseFastack kcp.snd maxack
        | none => kcp.snd
      (0, { kcp with snd := growCwnd snd prevUna })

/-- `ikcp_recv`: the code, what is stored in the buffer and the control block
after the call. -/
def ikcpRecv (kcp : IkcpCb) (len : Int) : Int × List UInt8 × IkcpCb :=
  let received := Ikcp.ikcpRecv kcp.toIkcpCb len
  (received.1, received.2.1, { kcp with toIkcpCb := received.2.2 })

/-! ## Flushing -/

/-- What the output buffer is allocated with. -/
def bufferRoom (mtu : Nat) : Nat :=
  (mtu + ikcpOverhead) * 3 % 2 ^ 32

def limits (mtu : Nat) : Limits where
  packet := mtu
  room := bufferRoom mtu
  number := intMax

def ikcpWndUnused (rcv : ReceiveSide) : Nat :=
  rcv.rcvWnd - rcv.nrcvQue

/-- The acknowledgements. -/
def flushAcks (mtu : Nat) (seg : Seg) (acklist : List (IUINT32 × IUINT32))
    (out : Outgoing 32) : Outgoing 32 :=
  acklist.foldl (fun out ack => out.gather (limits mtu) true
    (ikcpEncodeSeg { seg with sn := ack.1, ts := ack.2 })) out

/-- The segment after the acknowledgements: it keeps the last of them. -/
def lastAck (seg : Seg) (acklist : List (IUINT32 × IUINT32)) : Seg :=
  match acklist.getLast? with
  | some ack => { seg with sn := ack.1, ts := ack.2 }
  | none => seg

/-- While the remote window is closed, when to ask for it. -/
def probeWindow (kcp : IkcpCb) : IkcpCb :=
  let current := kcp.snd.current
  if kcp.snd.rmtWnd = 0 then
    if kcp.probeWait = 0 then
      { kcp with
        probeWait := ikcpProbeInit
        tsProbe := current + ikcpProbeInit }
    else if 0 ≤ itimediff current kcp.tsProbe then
      let wait := imax kcp.probeWait ikcpProbeInit
      let wait := imin (wait + wait / 2) ikcpProbeLimit
      { kcp with
        probeWait := wait
        tsProbe := current + wait
        probe := kcp.probe ||| ikcpAskSend }
    else
      kcp
  else
    { kcp with tsProbe := 0, probeWait := 0 }

/-- A window command, when it has been asked for.  It makes room without
counting what leaves. -/
def flushProbe (kcp : IkcpCb) (ask : IUINT32) (cmd : Nat) (seg : Seg)
    (out : Outgoing 32) : Outgoing 32 :=
  if kcp.probe &&& ask ≠ 0 then
    out.gather (limits kcp.mtu) false (ikcpEncodeSeg { seg with cmd })
  else
    out

/-- Segments move from the queue to the send buffer while the window is
open. -/
def moveQueued (conv : IUINT32) (wnd : Nat) (una cwnd : IUINT32) :
    Nat → SendSide → SendSide
  | 0, snd => snd
  | queued + 1, snd =>
      if itimediff snd.sndNxt (snd.sndUna + cwnd) < 0 then
        match moveToSndBuf conv wnd una snd with
        | some (snd, _) => moveQueued conv wnd una cwnd queued snd
        | none => snd
      else
        snd

/-- Why a segment is sent. -/
inductive Due
  | first
  | timeout
  | skipped
  deriving DecidableEq, Repr

/-- What the loop over the send buffer changes beside the segments. -/
structure DataFlush where
  out : Outgoing 32
  xmit : IUINT32
  periodSent : IUINT32
  periodRetrans : IUINT32
  state : IUINT32
  change : Bool := false
  lost : Bool := false

section Data

variable (kcp : IkcpCb)

/-- `resent`. -/
def resent : IUINT32 :=
  if 0 < kcp.snd.fastresend then BitVec.ofInt 32 kcp.snd.fastresend else -1

/-- `rtomin`. -/
def rtomin : IUINT32 :=
  if kcp.snd.nodelay = 0 then BitVec.ofInt 32 (kcp.snd.rxRto / 8) else 0

/-- Whether and why a segment is sent. -/
def due (seg : Seg) : Option Due :=
  if seg.xmit = 0 then some .first
  else if 0 ≤ itimediff kcp.snd.current seg.resendts then some .timeout
  else if resent kcp ≤ seg.fastack then
    if seg.xmit.toInt ≤ kcp.fastlimit ∨ kcp.fastlimit ≤ 0 then some .skipped
    else none
  else none

/-- The timeout after one more timeout. -/
def backoff (rto : IUINT32) : IUINT32 :=
  let rxRto := BitVec.ofInt 32 kcp.snd.rxRto
  if kcp.snd.nodelay = 0 then
    rto + imax rto rxRto
  else
    let step := if kcp.snd.nodelay < 2 then rto.toInt else kcp.snd.rxRto
    rto + BitVec.ofInt 32 (step.tdiv 2)

/-- The timers of a segment that is sent. -/
def retime (seg : Seg) : Due → Seg
  | .first =>
      let rto := BitVec.ofInt 32 kcp.snd.rxRto
      { seg with
        xmit := seg.xmit + 1
        rto
        resendts := kcp.snd.current + rto + rtomin kcp }
  | .timeout =>
      let rto := backoff kcp seg.rto
      { seg with
        xmit := seg.xmit + 1
        rto
        resendts := kcp.snd.current + rto }
  | .skipped =>
      { seg with
        xmit := seg.xmit + 1
        fastack := 0
        resendts := kcp.snd.current + seg.rto }

/-- One round of the loop over the send buffer. -/
def flushSegment (wnd : Nat) (seg : Seg) (flush : DataFlush) :
    Seg × DataFlush :=
  match due kcp seg with
  | none => (seg, flush)
  | some why =>
      let seg :=
        { retime kcp seg why with
          ts := kcp.snd.current, wnd, una := kcp.rcv.rcvNxt }
      (seg,
        { out := flush.out.gather (limits kcp.mtu) true (ikcpEncodeSeg seg)
          xmit := if why = .timeout then flush.xmit + 1 else flush.xmit
          periodSent := flush.periodSent + 1
          periodRetrans := if 1 < seg.xmit then flush.periodRetrans + 1
            else flush.periodRetrans
          state := if kcp.deadLink ≤ seg.xmit then -1 else flush.state
          change := flush.change || decide (why = .skipped)
          lost := flush.lost || decide (why = .timeout) })

/-- The loop over the send buffer. -/
def flushData (wnd : Nat) : List Seg → DataFlush → List Seg × DataFlush
  | [], flush => ([], flush)
  | seg :: rest, flush =>
      let sent := flushSegment kcp wnd seg flush
      let next := flushData wnd rest sent.2
      (sent.1 :: next.1, next.2)

end Data

/-- The congestion window after the loop; `cwnd` is the window it was sent
with. -/
def shrinkCwnd (snd : SendSide) (resent cwnd : IUINT32) (change lost : Bool) :
    SendSide :=
  let mss := BitVec.ofNat 32 snd.mss
  let snd := if change then
    let inflight := snd.sndNxt - snd.sndUna
    let ssthresh := imax (inflight / 2) ikcpThreshMin
    { snd with
      ssthresh, cwnd := ssthresh + resent, incr := (ssthresh + resent) * mss }
    else snd
  let snd := if lost then
    { snd with ssthresh := imax (cwnd / 2) ikcpThreshMin, cwnd := 1, incr := mss }
    else snd
  if snd.cwnd < 1 then { snd with cwnd := 1, incr := mss } else snd

/-- A new period of the loss statistics begins when the last one is over. -/
def restartPeriod (kcp : IkcpCb) : IkcpCb :=
  if kcp.lossPeriod.toInt ≤ itimediff kcp.snd.current kcp.lossTimeStart then
    { kcp with
      lossTimeStart := kcp.snd.current, periodSent := 0, periodRetrans := 0 }
  else
    kcp

/-- The acknowledgements and the window commands: what has been gathered and
the control block behind them. -/
def flushCommands (kcp : IkcpCb) : Outgoing 32 × IkcpCb :=
  let seg : Seg :=
    { conv := kcp.conv, cmd := ikcpCmdAck, wnd := ikcpWndUnused kcp.rcv
      una := kcp.rcv.rcvNxt, data := [] }
  let acklist := kcp.rcv.acklist
  let out := flushAcks kcp.mtu seg acklist { total := kcp.txBytesTotal }
  let seg := lastAck seg acklist
  let kcp := probeWindow { kcp with rcv := { kcp.rcv with acklist := [] } }
  let out := flushProbe kcp ikcpAskSend ikcpCmdWask seg out
  let out := flushProbe kcp ikcpAskTell ikcpCmdWins seg out
  (out, { kcp with probe := 0 })

/-- The window for data. -/
def sendWindow (snd : SendSide) : IUINT32 :=
  let cwnd := imin snd.sndWnd snd.rmtWnd
  if snd.nocwnd = 0 then imin snd.cwnd cwnd else cwnd

/-- The data behind the commands in `out`. -/
def flushBehind (kcp : IkcpCb) (out : Outgoing 32) : Outgoing 32 × IkcpCb :=
  let wnd := ikcpWndUnused kcp.rcv
  let cwnd := sendWindow kcp.snd
  let snd := moveQueued kcp.conv wnd kcp.rcv.rcvNxt cwnd
    kcp.snd.sndQueue.length kcp.snd
  let kcp := restartPeriod { kcp with snd }
  let (sndBuf, flush) := flushData kcp wnd kcp.snd.sndBuf
    { out, xmit := kcp.xmit, periodSent := kcp.periodSent
      periodRetrans := kcp.periodRetrans, state := kcp.state }
  let out := flush.out.finish
  (out,
    { kcp with
      snd := shrinkCwnd { kcp.snd with sndBuf } (resent kcp) cwnd
        flush.change flush.lost
      xmit := flush.xmit
      periodSent := flush.periodSent
      periodRetrans := flush.periodRetrans
      state := flush.state
      txBytesTotal := out.total })

/-- `ikcp_flush`: what is passed to `ikcp_output` and the control block after
the call. -/
def ikcpFlush (kcp : IkcpCb) : Option (List (List UInt8) × IkcpCb) :=
  if kcp.updated = false then
    some ([], kcp)
  else
    let commands := flushCommands kcp
    let flushed := flushBehind commands.2 commands.1
    if flushed.1.fits then some (flushed.1.packets, flushed.2) else none

/-- The rates, once a second. -/
def measureTraffic (kcp : IkcpCb) (current : IUINT32) : IkcpCb :=
  if kcp.trafficTimeStart = 0 then
    { kcp with
      trafficTimeStart := current
      rxBytesLast := kcp.rxBytesTotal
      txBytesLast := kcp.txBytesTotal }
  else if 1000 ≤ itimediff current kcp.trafficTimeStart then
    { kcp with
      rxBytesPerSec := kcp.rxBytesTotal - kcp.rxBytesLast
      txBytesPerSec := kcp.txBytesTotal - kcp.txBytesLast
      trafficTimeStart := current
      rxBytesLast := kcp.rxBytesTotal
      txBytesLast := kcp.txBytesTotal }
  else
    kcp

/-- `ikcp_update` up to the flush: whether it is time for one. -/
def schedule (kcp : IkcpCb) (current : IUINT32) : Bool × IkcpCb :=
  let kcp := { kcp with snd := { kcp.snd with current } }
  let kcp := if kcp.updated then kcp
    else { kcp with updated := true, tsFlush := current }
  let slap := itimediff current kcp.tsFlush
  let late := 10000 ≤ slap ∨ slap < -10000
  let kcp := if late then { kcp with tsFlush := current } else kcp
  if late ∨ 0 ≤ slap then
    let tsFlush := kcp.tsFlush + kcp.snd.interval
    let tsFlush := if 0 ≤ itimediff current tsFlush then
      current + kcp.snd.interval else tsFlush
    (true, { kcp with tsFlush })
  else
    (false, kcp)

/-- `ikcp_update`. -/
def ikcpUpdate (kcp : IkcpCb) (current : IUINT32) :
    Option (List (List UInt8) × IkcpCb) :=
  let scheduled := schedule kcp current
  let flushed := if scheduled.1 then ikcpFlush scheduled.2
    else some ([], scheduled.2)
  flushed.map fun (sent, kcp) => (sent, measureTraffic kcp current)

/-! ## Control blocks in use -/

/-- The calls that change a control block. -/
inductive Call
  | send (buffer : List UInt8)
  | input (data : List UInt8)
  | recv (len : Int)
  | update (current : IUINT32)
  | flush
  | setmtu (mtu : Int)
  | interval (time : Int)
  | nodelay (mode time resend nc : Int)
  | wndsize (sndwnd rcvwnd : Int)
  | setLossPeriod (periodMs : IUINT32)

/-- The lengths and numbers of a call are values of their C types. -/
def Call.Valid : Call → Prop
  | .send buffer => buffer.length ≤ intMax
  | .input data => data.length ≤ 2 ^ 63 - 1
  | .recv len => -intMax ≤ len ∧ len ≤ intMax
  | .setmtu mtu => mtu ≤ intMax
  | .interval time => time ≤ intMax
  | .nodelay mode time resend nc =>
      mode ≤ intMax ∧ time ≤ intMax ∧ resend ≤ intMax ∧ nc ≤ intMax
  | .wndsize sndwnd rcvwnd => sndwnd ≤ intMax ∧ rcvwnd ≤ intMax
  | _ => True

def call (kcp : IkcpCb) : Call → Option IkcpCb
  | .send buffer => some { kcp with snd := (ikcpSend kcp.snd buffer).2 }
  | .input data => some (ikcpInput kcp data).2
  | .recv len => some (ikcpRecv kcp len).2.2
  | .update current => (ikcpUpdate kcp current).map Prod.snd
  | .flush => (ikcpFlush kcp).map Prod.snd
  | .setmtu mtu => some (ikcpSetmtu kcp mtu)
  | .interval time => some (ikcpInterval kcp time)
  | .nodelay mode time resend nc => some (ikcpNodelay kcp mode time resend nc)
  | .wndsize sndwnd rcvwnd => some (ikcpWndsize kcp sndwnd rcvwnd)
  | .setLossPeriod periodMs => some (ikcpSetLossPeriod kcp periodMs)

/-- A new control block; its user may have set the fields that no function
sets. -/
def Fresh (kcp : IkcpCb) : Prop :=
  ∃ conv stream fastlimit deadLink,
    kcp = { ikcpCreate conv with
      snd := { (ikcpCreate conv).snd with stream }
      fastlimit, deadLink }

/-- The control blocks that valid calls lead to. -/
def InUse : IkcpCb → Prop :=
  TransitionRuns.Reachable Fresh call fun _ call => call.Valid

end CommonIkcp

end MbedtlsKcp
