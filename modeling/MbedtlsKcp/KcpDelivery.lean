import MbedtlsKcp.IkcpReceiver
import MbedtlsKcp.TransitionRuns

/-!
# Delivery through the KCP wrapper

The peer hands messages to `sendData`, numbers their segments and transmits
them; the network may lose, repeat and reorder datagrams; `receiveData` reads
at most one datagram and asks KCP for the next message with a buffer of 1500
bytes.  A message that fits the buffer is handed over as soon as it is complete
at the head of the receive queue.  A longer one stays there for ever, and every
later message behind it.
-/

namespace MbedtlsKcp

namespace KcpWrapper

open ByteBuffers SerialNumbers TransitionRuns Ikcp

/-- The globals `kcp` and `udp_fd`. -/
structure Wrapper where
  kcp : Option IkcpCb := none
  udpFd : Int := -1
  deriving DecidableEq

/-- `initKcp`, given what `socket` returns. -/
def initKcp (wrapper : Wrapper) (socket : Int) (conv : IUINT32) : Wrapper :=
  if socket < 0 then
    { wrapper with udpFd := socket }
  else
    { kcp := some (ikcpWndsize (ikcpNodelay (ikcpCreate conv) 1 10 2 1) 128 128)
      udpFd := socket }

def sendData (wrapper : Wrapper) (data : List UInt8) : Int × Wrapper :=
  match wrapper.kcp with
  | none => (-1, wrapper)
  | some kcp =>
      let sent := ikcpSend kcp.snd data
      (sent.1, { wrapper with kcp := some { kcp with snd := sent.2 } })

/-- The size of both buffers of `receiveData`. -/
def bufferSize : Nat := 1500

/-- The control block after the datagram `recvfrom` may have read. -/
def afterPacket (kcp : IkcpCb) (packet : Option (List UInt8)) : IkcpCb :=
  match packet with
  | none => kcp
  | some bytes =>
      let buffer := bytes.take bufferSize
      if 0 < buffer.length then (ikcpInput kcp buffer).2 else kcp

def receiveData (wrapper : Wrapper) (packet : Option (List UInt8)) :
    Option (List UInt8) × Wrapper :=
  match wrapper.kcp with
  | none => (none, wrapper)
  | some kcp =>
      if wrapper.udpFd < 0 then
        (none, wrapper)
      else
        let received := ikcpRecv (afterPacket kcp packet) bufferSize
        (if 0 < received.1 then some received.2.1 else none,
          { wrapper with kcp := some received.2.2 })

/-! ## The two parties and the network -/

/-- Both ends of a connection.  `log` lists the segments the peer has numbered,
in order; `accepted` are the messages its `sendData` took and `received` those
`receiveData` has returned here. -/
structure Link where
  peer : Wrapper
  here : Wrapper
  log : List Seg := []
  accepted : List (List UInt8) := []
  received : List (List UInt8) := []

/-- The segments of the messages returned so far. -/
def Link.taken (link : Link) : Nat :=
  (link.received.flatMap (messagePieces 1376)).length

inductive Event where
  /-- The peer's `sendData`. -/
  | sendData (message : List UInt8)
  /-- A round of the loop of the peer's `ikcp_flush` that numbers segments. -/
  | transmit (wnd : Nat) (una : IUINT32)
  /-- What else the peer's `ikcp_input` and `ikcp_update` do. -/
  | peerUpdate (kcp : IkcpCb)
  /-- `updateKcp` and `sendData` at this end. -/
  | hereUpdate (kcp : IkcpCb)
  /-- `receiveData` at this end. -/
  | receiveData (packet : Option (List Seg))

def step (link : Link) : Event → Option Link
  | .sendData message =>
      let sent := KcpWrapper.sendData link.peer message
      some { link with
        peer := sent.2
        accepted := if sent.1 = 0 then link.accepted ++ [message]
          else link.accepted }
  | .transmit wnd una => do
      let kcp ← link.peer.kcp
      let moved ← moveToSndBuf kcp.conv wnd una kcp.snd
      pure { link with
        peer := { link.peer with kcp := some { kcp with snd := moved.1 } }
        log := link.log ++ [moved.2] }
  | .peerUpdate kcp =>
      some { link with peer := { link.peer with kcp := some kcp } }
  | .hereUpdate kcp =>
      some { link with here := { link.here with kcp := some kcp } }
  | .receiveData packet =>
      let received := KcpWrapper.receiveData link.here (packet.map datagram)
      some { link with
        here := received.2
        received := link.received ++ received.1.toList }

/-- Handling acknowledgements leaves the queue of segments to number alone. -/
def KeepsQueue (before after : SendSide) : Prop :=
  after.mss = before.mss ∧ after.stream = before.stream ∧
    after.sndNxt = before.sndNxt ∧ after.sndQueue = before.sndQueue

theorem KeepsQueue.refl (snd : SendSide) : KeepsQueue snd snd :=
  ⟨rfl, rfl, rfl, rfl⟩

theorem KeepsQueue.trans {first second third : SendSide}
    (before : KeepsQueue first second) (after : KeepsQueue second third) :
    KeepsQueue first third :=
  ⟨after.1.trans before.1, after.2.1.trans before.2.1,
    after.2.2.1.trans before.2.2.1, after.2.2.2.trans before.2.2.2⟩

theorem keepsQueue_shrinkBuf (snd : SendSide) :
    KeepsQueue snd (ikcpShrinkBuf snd) := by
  rw [ikcpShrinkBuf]
  split
  · exact ⟨rfl, rfl, rfl, rfl⟩
  · exact ⟨rfl, rfl, rfl, rfl⟩

theorem keepsQueue_updateAck (snd : SendSide) (rtt : Int) :
    KeepsQueue snd (ikcpUpdateAck snd rtt) := by
  rw [ikcpUpdateAck]
  split
  · exact ⟨rfl, rfl, rfl, rfl⟩
  · exact ⟨rfl, rfl, rfl, rfl⟩

theorem keepsQueue_parseAck (snd : SendSide) (sn : IUINT32) :
    KeepsQueue snd (ikcpParseAck snd sn) := by
  rw [ikcpParseAck]
  split
  · exact .refl snd
  · exact ⟨rfl, rfl, rfl, rfl⟩

theorem keepsQueue_parseFastack (snd : SendSide) (sn : IUINT32) :
    KeepsQueue snd (ikcpParseFastack snd sn) := by
  rw [ikcpParseFastack]
  split
  · exact .refl snd
  · exact ⟨rfl, rfl, rfl, rfl⟩

theorem keepsQueue_growCwnd (snd : SendSide) (una : IUINT32) :
    KeepsQueue snd (growCwnd snd una) := by
  have capped : ∀ (grown : SendSide) (incr : IUINT32), KeepsQueue snd grown →
      KeepsQueue snd (if grown.rmtWnd < grown.cwnd then
        { grown with cwnd := grown.rmtWnd, incr } else grown) := by
    intro grown incr keeps
    split
    · exact keeps
    · exact keeps
  rw [growCwnd]
  by_cases grows : 0 < itimediff snd.sndUna una ∧ snd.cwnd < snd.rmtWnd
  · rw [if_pos grows]
    apply capped
    by_cases slow : snd.cwnd < snd.ssthresh
    · rw [if_pos slow]
      exact ⟨rfl, rfl, rfl, rfl⟩
    · rw [if_neg slow]
      exact ⟨rfl, rfl, rfl, rfl⟩
  · rw [if_neg grows]
    exact .refl snd

theorem keepsQueue_inputSegment (kcp : IkcpCb) (maxack : Option IUINT32)
    (header : Header) (data : List UInt8) :
    KeepsQueue kcp.snd (inputSegment kcp maxack header data).1.snd := by
  have una : KeepsQueue kcp.snd (ikcpShrinkBuf (ikcpParseUna
      { kcp.snd with rmtWnd := BitVec.ofNat 32 header.wnd } header.una)) :=
    .trans ⟨rfl, rfl, rfl, rfl⟩ (keepsQueue_shrinkBuf _)
  rw [inputSegment]
  dsimp only
  split
  · apply una.trans
    apply KeepsQueue.trans _ (keepsQueue_shrinkBuf _)
    apply KeepsQueue.trans _ (keepsQueue_parseAck _ _)
    split
    · exact keepsQueue_updateAck _ _
    · exact .refl _
  · split
    · exact una
    · split
      · exact una
      · exact una

theorem keepsQueue_inputLoop (kcp : IkcpCb) (maxack : Option IUINT32)
    (data : List UInt8) :
    KeepsQueue kcp.snd (inputLoop kcp maxack data).2.1.snd := by
  induction kcp, maxack, data using inputLoop.induct with
  | case1 kcp maxack data short =>
      rw [inputLoop, dif_pos short]
      exact .refl _
  | case2 kcp maxack data long header other =>
      rw [inputLoop, dif_neg long, if_pos other]
      exact .refl _
  | case3 kcp maxack data long header conv body short =>
      rw [inputLoop, dif_neg long, if_neg conv, if_pos short]
      exact .refl _
  | case4 kcp maxack data long header conv body room unknown =>
      rw [inputLoop, dif_neg long, if_neg conv, if_neg room, if_pos unknown]
      exact .refl _
  | case5 kcp maxack data long header conv body room known next ih =>
      rw [inputLoop, dif_neg long, if_neg conv, if_neg room, if_neg known]
      exact (keepsQueue_inputSegment kcp maxack header body).trans ih

/-- Whatever bytes arrive, `ikcp_input` keeps the queue. -/
theorem keepsQueue_ikcpInput (kcp : IkcpCb) (data : List UInt8) :
    KeepsQueue kcp.snd (ikcpInput kcp data).2.snd := by
  have loop := keepsQueue_inputLoop kcp none data
  rw [ikcpInput]
  dsimp only
  split
  · exact .refl _
  · split
    · exact loop
    · apply loop.trans
      apply KeepsQueue.trans _ (keepsQueue_growCwnd _ _)
      split
      · exact keepsQueue_parseFastack _ _
      · exact .refl _

/-- Sending leaves the receive queues alone. -/
def KeepsReceiving (before after : IkcpCb) : Prop :=
  after.conv = before.conv ∧
    { after.rcv with acklist := before.rcv.acklist } = before.rcv

/-- A data segment repeats one the peer has numbered, and the network keeps no
datagram while `2 ^ 30` later segments pass. -/
def InFlight (log : List Seg) (taken : Nat) (seg : Seg) : Prop :=
  seg.cmd = ikcpCmdPush →
    ∃ index sent, log[index]? = some sent ∧ seg.sn = sent.sn ∧
      seg.piece = sent.piece ∧ Close taken index

/-- What the two ends and the network between them can do. -/
def Permits (link : Link) : Event → Prop
  | .sendData message => message ≠ []
  | .transmit _ _ => True
  | .peerUpdate kcp => ∀ peer ∈ link.peer.kcp, KeepsQueue peer.snd kcp.snd
  | .hereUpdate kcp => ∀ here ∈ link.here.kcp, KeepsReceiving here kcp
  | .receiveData none => True
  | .receiveData (some segs) =>
      (datagram segs).length ≤ ikcpMtuDef ∧
        ∀ seg ∈ segs, (∀ here ∈ link.here.kcp, Readable here.conv seg) ∧
          InFlight link.log link.taken seg

/-- Both ends after `initKcp` with an open socket. -/
def Initial (link : Link) : Prop :=
  ∃ socket peerSocket conv, 0 ≤ socket ∧ 0 ≤ peerSocket ∧
    link = { peer := initKcp {} peerSocket conv, here := initKcp {} socket conv }

/-! ## Messages at the head of the receive queue -/

/-- The first segments of the queue, up to one that ends a message. -/
def HeadMessage (queue : List Seg) (message : List UInt8)
    (rest : List Seg) : Prop :=
  ∃ segs last, queue = segs ++ last :: rest ∧
    (∀ seg ∈ segs, seg.frg ≠ 0) ∧ last.frg = 0 ∧
      message = (segs ++ [last]).flatMap Seg.data

/-- `receiveData` returns `message` and takes it out of the queue; available
segments may follow `rest`. -/
def Hands (wrapper : Wrapper) (packet : Option (List UInt8))
    (message : List UInt8) (rest : List Seg) : Prop :=
  (receiveData wrapper packet).1 = some message ∧
    ∀ after ∈ (receiveData wrapper packet).2.kcp, rest <+: after.rcv.rcvQueue

theorem mergeFragments_of_head {queue rest : List Seg}
    {message : List UInt8} (head : HeadMessage queue message rest) :
    ∃ count, mergeFragments queue = (message, rest, count) := by
  obtain ⟨segs, last, rfl, more, ends, rfl⟩ := head
  induction segs with
  | nil => exact ⟨1, by simp [mergeFragments, ends]⟩
  | cons seg segs ih =>
      obtain ⟨count, merged⟩ := ih fun other member =>
        more other (List.mem_cons_of_mem _ member)
      refine ⟨count + 1, ?_⟩
      rw [List.cons_append, mergeFragments, if_neg (more seg List.mem_cons_self),
        merged]
      rfl

/-- A complete message at the head has all the pieces it was cut into. -/
theorem pieces_of_head {mss count : Nat} {buffer : List UInt8}
    {queue rest : List Seg} {message : List UInt8}
    {more : List (Nat × List UInt8)} (head : HeadMessage queue message rest)
    (queued : queue.map Seg.piece <+:
      (fragment mss count buffer).map Seg.piece ++ more) :
    count ≤ queue.length := by
  induction count generalizing buffer queue message with
  | zero => exact Nat.zero_le _
  | succ count ih =>
      obtain ⟨segs, last, rfl, nonzero, ends, -⟩ := head
      cases segs with
      | nil =>
          simp only [fragment, List.nil_append, List.map_cons,
            List.cons_append, List.cons_prefix_cons, Seg.piece,
            Prod.mk.injEq] at queued
          rw [List.nil_append, List.length_cons]
          omega
      | cons seg segs =>
          simp only [fragment, List.map_cons, List.cons_append,
            List.cons_prefix_cons] at queued
          have shorter := ih
            ⟨segs, last, rfl, fun other member =>
              nonzero other (List.mem_cons_of_mem _ member), ends, rfl⟩
            queued.2
          rw [List.cons_append, List.length_cons]
          omega

theorem ikcpPeeksize_of_pieces {mss count : Nat} {buffer : List UInt8}
    {rcv : ReceiveSide} {more : List (Nat × List UInt8)}
    (counted : rcv.nrcvQue = rcv.rcvQueue.length)
    (pieces : rcv.rcvQueue.map Seg.piece =
      (fragment mss (count + 1) buffer).map Seg.piece ++ more) :
    ikcpPeeksize rcv = ((buffer.take ((count + 1) * mss)).length : Int) := by
  have merged := mergeFragments_of_pieces pieces
  have len := fragmentsLen_eq rcv.rcvQueue
  rw [merged] at len
  have size := congrArg List.length pieces
  rw [List.length_map, List.length_append, List.length_map,
    length_fragment] at size
  rw [ikcpPeeksize]
  cases queue : rcv.rcvQueue with
  | nil =>
      rw [queue, List.length_nil] at size
      omega
  | cons seg rest =>
      rw [queue] at pieces len size
      simp only [fragment, List.map_cons, List.cons_append, List.cons.injEq,
        Seg.piece, Prod.mk.injEq] at pieces
      dsimp only
      by_cases single : seg.frg = 0
      · rw [fragmentsLen, if_pos single] at len
        rw [if_pos single, len]
      · rw [if_neg single, if_neg (by rw [counted, queue]; omega), len]

theorem ikcpPeeksize_of_missing {mss count : Nat} {buffer : List UInt8}
    {rcv : ReceiveSide} {more : List (Nat × List UInt8)}
    (counted : rcv.nrcvQue = rcv.rcvQueue.length)
    (queued : rcv.rcvQueue.map Seg.piece <+:
      (fragment mss count buffer).map Seg.piece ++ more)
    (missing : rcv.rcvQueue.length < count) :
    ikcpPeeksize rcv = -1 := by
  rw [ikcpPeeksize]
  cases queue : rcv.rcvQueue with
  | nil => rfl
  | cons seg rest =>
      rw [queue] at queued missing counted
      rw [List.length_cons] at missing counted
      cases count with
      | zero => omega
      | succ count =>
          simp only [fragment, List.map_cons, List.cons_append,
            List.cons_prefix_cons, Seg.piece, Prod.mk.injEq] at queued
          have number := queued.1.1
          dsimp only
          rw [if_neg (by omega), if_pos (by omega)]

theorem ikcpRecv_of_missing {kcp : IkcpCb} (len : Int)
    (missing : ikcpPeeksize kcp.rcv = -1) :
    (ikcpRecv kcp len).1 < 0 ∧ (ikcpRecv kcp len).2.2 = kcp := by
  rw [ikcpRecv]
  by_cases empty : kcp.rcv.rcvQueue = []
  · simp [empty]
  · simp [empty, missing]

theorem ikcpRecv_of_long {kcp : IkcpCb} {len : Nat}
    (long : (len : Int) < ikcpPeeksize kcp.rcv) :
    (ikcpRecv kcp len).1 < 0 ∧ (ikcpRecv kcp len).2.2 = kcp := by
  rw [ikcpRecv]
  by_cases empty : kcp.rcv.rcvQueue = []
  · simp [empty]
  · simp only [if_neg empty, if_neg (show ¬ ikcpPeeksize kcp.rcv < 0 by omega),
      Int.natAbs_natCast, if_pos long]
    exact ⟨by decide, trivial⟩

/-- The receive side once `count` segments are taken off its queue. -/
def takeSegments (rcv : ReceiveSide) (count : Nat) : ReceiveSide :=
  { rcv with
    rcvQueue := rcv.rcvQueue.drop count, nrcvQue := rcv.nrcvQue - count }

theorem ikcpRecv_of_fits {kcp : IkcpCb} {len count : Nat}
    {message : List UInt8} (present : kcp.rcv.rcvQueue ≠ [])
    (size : ikcpPeeksize kcp.rcv = (message.length : Int))
    (fits : message.length ≤ len)
    (merged : mergeFragments kcp.rcv.rcvQueue =
      (message, kcp.rcv.rcvQueue.drop count, count)) :
    (ikcpRecv kcp len).1 = message.length ∧
      (ikcpRecv kcp len).2.1 = message ∧
      (ikcpRecv kcp len).2.2.rcv =
        moveAvailable kcp.rcv.rcvBuf (takeSegments kcp.rcv count) := by
  have delete : ¬ (len : Int) < 0 := by omega
  rw [ikcpRecv]
  simp only [if_neg present, size, if_neg (show ¬ (message.length : Int) < 0 by omega),
    Int.natAbs_natCast, if_neg (show ¬ (len : Int) < message.length by omega),
    merged, if_neg delete]
  exact ⟨trivial, trivial, rfl⟩

theorem Receiving.takeSegments {log : List Seg} {taken count : Nat}
    {rcv : ReceiveSide} (receiving : Receiving log taken rcv)
    (present : count ≤ rcv.rcvQueue.length) :
    Receiving log (taken + count) (KcpWrapper.takeSegments rcv count) := by
  have shift : taken + count + (rcv.rcvQueue.length - count) =
      taken + rcv.rcvQueue.length := by
    omega
  refine ⟨?_, ?_, ?_, receiving.window, ?_, ?_⟩
  · have queued := List.IsPrefix.drop receiving.queued count
    rwa [List.drop_drop, ← List.map_drop] at queued
  · simp only [KcpWrapper.takeSegments, List.length_drop, shift]
    exact receiving.next
  · simp only [KcpWrapper.takeSegments, List.length_drop, receiving.counted]
  · have := receiving.bounded
    simp only [KcpWrapper.takeSegments, List.length_drop]
    omega
  · simp only [KcpWrapper.takeSegments, List.length_drop, shift]
    exact receiving.buffered

/-! ## Every reachable state -/

/-- The peer numbers the pieces of the accepted messages in order. -/
structure Numbering (log : List Seg) (accepted : List (List UInt8))
    (snd : SendSide) : Prop where
  mss : snd.mss = 1376
  stream : snd.stream = false
  next : snd.sndNxt = serial 32 log.length
  pieces : log.map Seg.piece ++ snd.sndQueue.map Seg.piece =
    accepted.flatMap (messagePieces 1376)

/-- What holds of both ends in every reachable state. -/
structure Sound (link : Link) : Prop where
  peer : ∃ kcp, link.peer.kcp = some kcp ∧
    Numbering link.log link.accepted kcp.snd
  socketOpen : 0 ≤ link.here.udpFd
  here : ∃ kcp, link.here.kcp = some kcp ∧
    Receiving link.log link.taken kcp.rcv
  numbered : ∀ index seg, link.log[index]? = some seg →
    seg.sn = serial 32 index
  nonempty : ∀ message ∈ link.accepted, message ≠ []
  inOrder : link.received <+: link.accepted

theorem initKcp_open {wrapper : Wrapper} {socket : Int} (conv : IUINT32)
    (isOpen : 0 ≤ socket) :
    initKcp wrapper socket conv =
      { kcp := some (ikcpWndsize (ikcpNodelay (ikcpCreate conv) 1 10 2 1)
          128 128)
        udpFd := socket } :=
  if_neg (by omega)

theorem sound_initial {link : Link} (initial : Initial link) :
    Sound link := by
  obtain ⟨socket, peerSocket, conv, isOpen, peerOpen, rfl⟩ := initial
  rw [initKcp_open conv isOpen, initKcp_open conv peerOpen]
  refine ⟨⟨_, rfl, ?_⟩, isOpen, ⟨_, rfl, ?_⟩, by simp, by simp,
    List.prefix_refl _⟩
  · exact ⟨rfl, rfl, rfl, rfl⟩
  · exact ⟨List.prefix_refl _, rfl, rfl, rfl, Nat.zero_le _, .nil⟩

theorem messagePieces_append (mss : Nat)
    (first second : List (List UInt8)) :
    (first ++ second).flatMap (messagePieces mss) =
      first.flatMap (messagePieces mss) ++
        second.flatMap (messagePieces mss) :=
  List.flatMap_append

theorem Sound.sendData {link : Link} (sound : Sound link)
    {message : List UInt8} (nonempty : message ≠ []) {next : Link}
    (steps : step link (.sendData message) = some next) : Sound next := by
  obtain rfl := Option.some.inj steps
  obtain ⟨peer, isPeer, numbering⟩ := sound.peer
  have positive : 0 < peer.snd.mss := by
    rw [numbering.mss]
    decide
  have sent := ikcpSend_message message positive numbering.stream
  rw [numbering.mss] at sent
  by_cases many : 255 < pieceCount 1376 message.length
  · rw [if_pos many] at sent
    have result : KcpWrapper.sendData link.peer message =
        (-2, { link.peer with kcp := some { peer with snd := peer.snd } }) := by
      rw [KcpWrapper.sendData, isPeer]
      dsimp only
      rw [sent]
    simp only [result]
    exact { sound with peer := ⟨peer, rfl, numbering⟩ }
  · rw [if_neg many] at sent
    have result : KcpWrapper.sendData link.peer message =
        (0, { link.peer with
                kcp := some { peer with snd := (ikcpSend peer.snd message).2 } }) := by
      rw [KcpWrapper.sendData, isPeer]
      dsimp only
      rw [sent]
    simp only [result, if_true]
    rw [sent]
    refine { sound with peer := ⟨_, rfl, ?_⟩, nonempty := ?_, inOrder := ?_ }
    · refine ⟨rfl, numbering.stream, numbering.next, ?_⟩
      rw [messagePieces_append, ← numbering.pieces, List.map_append,
        List.append_assoc]
      simp [messagePieces]
    · intro other member
      rcases List.mem_append.mp member with earlier | last
      · exact sound.nonempty other earlier
      · rw [List.mem_singleton] at last
        rw [last]
        exact nonempty
    · exact sound.inOrder.trans (List.prefix_append _ _)

theorem Sound.transmit {link : Link} (sound : Sound link) {wnd : Nat}
    {una : IUINT32} {next : Link}
    (steps : step link (.transmit wnd una) = some next) : Sound next := by
  obtain ⟨peer, isPeer, numbering⟩ := sound.peer
  obtain ⟨here, isHere, receiving⟩ := sound.here
  rw [step, isPeer] at steps
  cases queue : peer.snd.sndQueue with
  | nil => simp [moveToSndBuf, queue] at steps
  | cons newseg queued =>
      simp only [moveToSndBuf, queue, Option.bind_eq_bind, Option.bind_some,
        Option.pure_def, Option.some.injEq] at steps
      subst steps
      refine { sound with peer := ⟨_, rfl, ?_⟩, here := ?_, numbered := ?_ }
      · refine ⟨numbering.mss, numbering.stream, ?_, ?_⟩
        · dsimp only
          rw [numbering.next, serial_add_one, List.length_append,
            List.length_singleton]
        · rw [← numbering.pieces, queue]
          simp [Seg.piece]
      · exact ⟨here, isHere, receiving.extend _⟩
      · intro index seg logged
        rcases Nat.lt_trichotomy index link.log.length with
          earlier | last | beyond
        · rw [List.getElem?_append_left earlier] at logged
          exact sound.numbered index seg logged
        · subst last
          rw [List.getElem?_concat_length] at logged
          obtain rfl := Option.some.inj logged
          exact numbering.next
        · rw [List.getElem?_eq_none (by
            rw [List.length_append, List.length_singleton]
            exact beyond)] at logged
          cases logged

theorem Sound.peerUpdate {link : Link} (sound : Sound link) {kcp : IkcpCb}
    (keeps : ∀ peer ∈ link.peer.kcp, KeepsQueue peer.snd kcp.snd)
    {next : Link} (steps : step link (.peerUpdate kcp) = some next) :
    Sound next := by
  obtain rfl := Option.some.inj steps
  obtain ⟨peer, isPeer, numbering⟩ := sound.peer
  obtain ⟨mss, stream, number, queue⟩ := keeps peer isPeer
  refine { sound with peer := ⟨kcp, rfl, ?_⟩ }
  exact ⟨mss.trans numbering.mss, stream.trans numbering.stream,
    number.trans numbering.next, queue ▸ numbering.pieces⟩

theorem Sound.hereUpdate {link : Link} (sound : Sound link) {kcp : IkcpCb}
    (keeps : ∀ here ∈ link.here.kcp, KeepsReceiving here kcp)
    {next : Link} (steps : step link (.hereUpdate kcp) = some next) :
    Sound next := by
  obtain rfl := Option.some.inj steps
  obtain ⟨here, isHere, receiving⟩ := sound.here
  obtain ⟨-, same⟩ := keeps here isHere
  rw [← same] at receiving
  exact { sound with here := ⟨kcp, rfl, { receiving with }⟩ }

/-- A permitted datagram keeps the receive side in order. -/
theorem Sound.afterPacket {link : Link} (sound : Sound link) {here : IkcpCb}
    (isHere : link.here.kcp = some here) {packet : Option (List Seg)}
    (permits : Permits link (.receiveData packet)) :
    Receiving link.log link.taken
      (KcpWrapper.afterPacket here (packet.map datagram)).rcv := by
  obtain ⟨here', isHere', receiving⟩ := sound.here
  obtain rfl := Option.some.inj (isHere.symm.trans isHere')
  cases packet with
  | none => exact receiving
  | some segs =>
      obtain ⟨small, genuine⟩ := permits
      have whole : (datagram segs).take bufferSize = datagram segs := by
        apply List.take_of_length_le
        exact small.trans (by decide)
      have authentic : ∀ seg ∈ segs, Authentic link.log link.taken seg := by
        intro seg member push
        obtain ⟨index, sent, logged, number, piece, close⟩ :=
          (genuine seg member).2 push
        refine ⟨index, ⟨number.trans (sound.numbered index sent logged), ?_⟩,
          close⟩
        rw [List.getElem?_map, logged, piece]
        rfl
      simp only [Option.map_some, KcpWrapper.afterPacket, whole]
      split
      · rw [(ikcpInput_datagram here fun seg member =>
          (genuine seg member).1 here isHere).2]
        exact (receiving.acceptSegments authentic).1
      · exact receiving

/-- What `ikcp_recv` finds at the head of the queue: nothing complete, or the
next message of the peer with all its pieces. -/
inductive HeadCase (rcv : ReceiveSide) (pending : List (List UInt8)) : Prop
  | missing (none : ikcpPeeksize rcv = -1)
      (noHead : ∀ message rest, ¬ HeadMessage rcv.rcvQueue message rest)
      (short : ∀ message later, pending = message :: later →
        rcv.rcvQueue.length < pieceCount 1376 message.length)
  | complete (message : List UInt8) (later : List (List UInt8))
      (next : pending = message :: later)
      (present : pieceCount 1376 message.length ≤ rcv.rcvQueue.length)
      (size : ikcpPeeksize rcv = (message.length : Int))
      (merged : mergeFragments rcv.rcvQueue =
        (message, rcv.rcvQueue.drop (pieceCount 1376 message.length),
          pieceCount 1376 message.length))

theorem headCase {rcv : ReceiveSide} {pending : List (List UInt8)}
    (counted : rcv.nrcvQue = rcv.rcvQueue.length)
    (queued : rcv.rcvQueue.map Seg.piece <+:
      pending.flatMap (messagePieces 1376)) :
    HeadCase rcv pending := by
  cases pending with
  | nil =>
      have empty : rcv.rcvQueue = [] := by
        simpa using queued
      refine .missing (by rw [ikcpPeeksize, empty]) ?_ (by simp)
      rintro message rest ⟨segs, last, queue, -⟩
      simp [empty] at queue
  | cons message later =>
      rw [List.flatMap_cons, messagePieces] at queued
      by_cases present :
          pieceCount 1376 message.length ≤ rcv.rcvQueue.length
      · obtain ⟨count, isCount⟩ : ∃ count,
            pieceCount 1376 message.length = count + 1 :=
          Nat.exists_eq_succ_of_ne_zero
            (Nat.ne_of_gt (pieceCount_pos 1376 message.length (by decide)))
        have whole : message.take ((count + 1) * 1376) = message := by
          apply List.take_of_length_le
          rw [← isCount]
          exact length_le_pieceCount 1376 message.length (by decide)
        obtain ⟨unqueued, pieces⟩ := queued
        have split : ∃ more, rcv.rcvQueue.map Seg.piece =
            (fragment 1376 (count + 1) message).map Seg.piece ++ more := by
          rw [isCount] at pieces present
          apply (List.prefix_of_prefix_length_le (List.prefix_append _ _)
            ⟨unqueued, pieces⟩ ?_).imp
          · exact fun more same => same.symm
          · rw [List.length_map, List.length_map, length_fragment]
            exact present
        obtain ⟨more, split⟩ := split
        have size := ikcpPeeksize_of_pieces counted split
        have merged := mergeFragments_of_pieces split
        rw [whole] at size merged
        rw [← isCount] at merged
        exact .complete message later rfl present size merged
      · refine .missing
          (ikcpPeeksize_of_missing counted queued (by omega)) ?_ ?_
        · intro found rest head
          exact present (pieces_of_head head queued)
        · rintro _ _ ⟨⟩
          omega

/-- What a `receiveData` call does, given the control block after the datagram
it read and the messages still to be returned. -/
inductive ReceiveCase (before : IkcpCb) (pending : List (List UInt8))
    (result : Option (List UInt8)) (after : IkcpCb) : Prop
  | missing
      (noHead : ∀ message rest, ¬ HeadMessage before.rcv.rcvQueue message rest)
      (short : ∀ message later, pending = message :: later →
        before.rcv.rcvQueue.length < pieceCount 1376 message.length)
      (nothing : result = none) (same : after = before)
  | long (message : List UInt8) (later : List (List UInt8))
      (next : pending = message :: later) (long : bufferSize < message.length)
      (heads : ∀ found rest, HeadMessage before.rcv.rcvQueue found rest →
        found = message)
      (nothing : result = none) (same : after = before)
  | fits (message : List UInt8) (later : List (List UInt8))
      (next : pending = message :: later)
      (fits : message.length ≤ bufferSize)
      (heads : ∀ found rest, HeadMessage before.rcv.rcvQueue found rest →
        found = message ∧ rest = before.rcv.rcvQueue.drop
          (pieceCount 1376 message.length))
      (present :
        pieceCount 1376 message.length ≤ before.rcv.rcvQueue.length)
      (returned : result = some message)
      (moved : after.rcv = moveAvailable before.rcv.rcvBuf
        (takeSegments before.rcv (pieceCount 1376 message.length)))

theorem receiveData_open {wrapper : Wrapper} {kcp : IkcpCb}
    (isKcp : wrapper.kcp = some kcp) (isOpen : 0 ≤ wrapper.udpFd)
    (packet : Option (List UInt8)) :
    receiveData wrapper packet =
      (if 0 < (ikcpRecv (afterPacket kcp packet) bufferSize).1 then
          some (ikcpRecv (afterPacket kcp packet) bufferSize).2.1
        else none,
        { wrapper with
          kcp := some (ikcpRecv (afterPacket kcp packet) bufferSize).2.2 }) := by
  rw [receiveData, isKcp]
  exact if_neg (by omega)

theorem receiveCase {wrapper : Wrapper} {kcp : IkcpCb}
    (isKcp : wrapper.kcp = some kcp) (isOpen : 0 ≤ wrapper.udpFd)
    (packet : Option (List UInt8)) {pending : List (List UInt8)}
    (nonempty : ∀ message ∈ pending, message ≠ [])
    (head : HeadCase (afterPacket kcp packet).rcv pending) :
    ∃ after, (receiveData wrapper packet).2 = { wrapper with kcp := some after } ∧
      ReceiveCase (afterPacket kcp packet) pending
        (receiveData wrapper packet).1 after := by
  rw [receiveData_open isKcp isOpen packet]
  refine ⟨_, rfl, ?_⟩
  generalize afterPacket kcp packet = before at head
  cases head with
  | missing missing noHead short =>
      have none : (ikcpRecv before bufferSize).1 < 0 ∧
          (ikcpRecv before bufferSize).2.2 = before :=
        ikcpRecv_of_missing _ missing
      exact .missing noHead short (if_neg (by omega)) none.2
  | complete message later next present size merged =>
      have filled : message ≠ [] := by
        apply nonempty
        rw [next]
        exact List.mem_cons_self
      have positive := List.length_pos_iff.mpr filled
      have heads : ∀ found rest,
          HeadMessage before.rcv.rcvQueue found rest →
          found = message ∧ rest = before.rcv.rcvQueue.drop
            (pieceCount 1376 message.length) := by
        intro found rest head
        obtain ⟨count, foundMerged⟩ := mergeFragments_of_head head
        rw [merged] at foundMerged
        cases foundMerged
        exact ⟨rfl, rfl⟩
      by_cases fits : message.length ≤ bufferSize
      · have queue : before.rcv.rcvQueue ≠ [] := by
          intro empty
          rw [empty, List.length_nil] at present
          have := pieceCount_pos 1376 message.length (by decide)
          omega
        obtain ⟨code, data, rcv⟩ := ikcpRecv_of_fits queue size fits merged
        refine .fits message later next fits heads present ?_ rcv
        rw [if_pos (by omega), data]
      · have none : (ikcpRecv before bufferSize).1 < 0 ∧
            (ikcpRecv before bufferSize).2.2 = before :=
          ikcpRecv_of_long (by omega)
        exact .long message later next (by omega)
          (fun found rest head => (heads found rest head).1)
          (if_neg (by omega)) none.2

/-- The messages not yet returned. -/
def Link.pending (link : Link) : List (List UInt8) :=
  link.accepted.drop link.received.length

theorem Sound.accepted_eq {link : Link} (sound : Sound link) :
    link.accepted = link.received ++ link.pending :=
  (List.prefix_iff_eq_append.mp sound.inOrder).symm

/-- The receive queue holds the first pieces of the messages not yet
returned. -/
theorem Sound.queued {link : Link} (sound : Sound link) {rcv : ReceiveSide}
    (receiving : Receiving link.log link.taken rcv) :
    rcv.rcvQueue.map Seg.piece <+:
      link.pending.flatMap (messagePieces 1376) := by
  obtain ⟨peer, -, numbering⟩ := sound.peer
  have numbered : link.log.map Seg.piece <+:
      link.received.flatMap (messagePieces 1376) ++
        link.pending.flatMap (messagePieces 1376) := by
    rw [← messagePieces_append, ← sound.accepted_eq, ← numbering.pieces]
    exact List.prefix_append _ _
  have later := List.IsPrefix.drop numbered link.taken
  rw [Link.taken, List.drop_left] at later
  exact receiving.queued.trans later

/-- Every permitted `receiveData` call falls under `ReceiveCase`. -/
theorem Sound.receiveCase {link : Link} (sound : Sound link) {here : IkcpCb}
    (isHere : link.here.kcp = some here) {packet : Option (List Seg)}
    (permits : Permits link (.receiveData packet)) :
    ∃ after,
      (receiveData link.here (packet.map datagram)).2 =
          { link.here with kcp := some after } ∧
        ReceiveCase (KcpWrapper.afterPacket here (packet.map datagram))
          link.pending (receiveData link.here (packet.map datagram)).1 after := by
  have receiving := sound.afterPacket isHere permits
  apply KcpWrapper.receiveCase isHere sound.socketOpen _ _
    (headCase receiving.counted (sound.queued receiving))
  intro message member
  exact sound.nonempty message (List.mem_of_mem_drop member)

theorem Sound.receive {link : Link} (sound : Sound link)
    {packet : Option (List Seg)}
    (permits : Permits link (.receiveData packet)) {next : Link}
    (steps : step link (.receiveData packet) = some next) : Sound next := by
  obtain rfl := Option.some.inj steps
  obtain ⟨here, isHere, -⟩ := sound.here
  have receiving := sound.afterPacket isHere permits
  obtain ⟨after, left, outcome⟩ := sound.receiveCase isHere permits
  simp only [left]
  cases outcome with
  | missing noHead short nothing same =>
      rw [nothing]
      refine { sound with
        here := ⟨after, rfl, ?_⟩, inOrder := ?_ }
      · simpa [Link.taken, same] using receiving
      · simpa using sound.inOrder
  | long message later next long heads nothing same =>
      rw [nothing]
      refine { sound with
        here := ⟨after, rfl, ?_⟩, inOrder := ?_ }
      · simpa [Link.taken, same] using receiving
      · simpa using sound.inOrder
  | fits message later next fits heads present returned moved =>
      rw [returned]
      refine { sound with
        here := ⟨after, rfl, ?_⟩, inOrder := ?_ }
      · have popped := (Receiving.takeSegments receiving present).moveAvailable
        rw [moved]
        simp only [Link.taken, Option.toList_some, messagePieces_append,
          List.length_append, List.flatMap_singleton, length_messagePieces]
        exact popped.1
      · simp only [Option.toList_some]
        rw [sound.accepted_eq, next]
        exact ⟨later, by simp⟩

theorem Sound.step {link next : Link} (sound : Sound link) {event : Event}
    (permits : Permits link event)
    (steps : KcpWrapper.step link event = some next) : Sound next := by
  cases event with
  | sendData message => exact sound.sendData permits steps
  | transmit wnd una => exact sound.transmit steps
  | peerUpdate kcp => exact sound.peerUpdate permits steps
  | hereUpdate kcp => exact sound.hereUpdate permits steps
  | receiveData packet => exact sound.receive permits steps

theorem sound_of_reachable {link : Link}
    (reached : Reachable Initial step Permits link) : Sound link :=
  reached.invariant Sound (fun _ => sound_initial)
    fun _ _ _ sound permits steps => sound.step permits steps

/-! ## Delivery -/

/-- What `count` successive calls return when no datagram comes in. -/
def receiveMany : Nat → Wrapper → List (Option (List UInt8))
  | 0, _ => []
  | count + 1, wrapper =>
      (receiveData wrapper none).1 ::
        receiveMany count (receiveData wrapper none).2

/-- All segments of the accepted messages have been moved to the receive
queue. -/
def AllMoved (link : Link) : Prop :=
  ∀ here ∈ link.here.kcp, link.taken + here.rcv.rcvQueue.length =
    (link.accepted.flatMap (messagePieces 1376)).length

/-- Whatever datagram the next call reads, a complete message at the head of
the queue then has `property`. -/
def Heads (link : Link)
    (property : Option (List UInt8) → List UInt8 → List Seg → Prop) : Prop :=
  ∀ packet, Permits link (.receiveData packet) → ∀ here ∈ link.here.kcp,
    ∀ message rest,
      HeadMessage (afterPacket here (packet.map datagram)).rcv.rcvQueue
        message rest → property (packet.map datagram) message rest

/-- The call returns a complete message and removes it; what has been returned
is in order, and once everything has been moved to the receive queue
successive calls return the rest. -/
def DeliversWhole (link : Link) : Prop :=
  Heads link (Hands link.here) ∧ link.received <+: link.accepted ∧
    (AllMoved link →
      receiveMany link.pending.length link.here = link.pending.map some)

/-- Messages that are complete in the receive queue fit the buffer. -/
def MessagesFit (link : Link) : Prop :=
  Heads link (fun _ message _ => message.length ≤ bufferSize) ∧
    (AllMoved link → ∀ message ∈ link.pending, message.length ≤ bufferSize)

theorem Sound.hands_iff {link : Link} (sound : Sound link) {here : IkcpCb}
    (isHere : link.here.kcp = some here) {packet : Option (List Seg)}
    (permits : Permits link (.receiveData packet)) {message : List UInt8}
    {rest : List Seg}
    (head : HeadMessage
      (KcpWrapper.afterPacket here (packet.map datagram)).rcv.rcvQueue
      message rest) :
    Hands link.here (packet.map datagram) message rest ↔
      message.length ≤ bufferSize := by
  have receiving := sound.afterPacket isHere permits
  obtain ⟨after, left, outcome⟩ := sound.receiveCase isHere permits
  rw [Hands, left]
  cases outcome with
  | missing noHead short nothing same => exact absurd head (noHead _ _)
  | long next later pending long heads nothing same =>
      obtain rfl := heads _ _ head
      rw [nothing]
      exact iff_of_false (by simp) (by omega)
  | fits next later pending fits heads present returned moved =>
      obtain ⟨rfl, rfl⟩ := heads _ _ head
      refine iff_of_true ⟨returned, ?_⟩ fits
      rintro _ ⟨⟩
      rw [moved]
      exact (Receiving.takeSegments receiving present).moveAvailable.2

theorem Sound.mem_pending {link : Link} (sound : Sound link) {here : IkcpCb}
    (isHere : link.here.kcp = some here) {packet : Option (List Seg)}
    (permits : Permits link (.receiveData packet)) {message : List UInt8}
    {rest : List Seg}
    (head : HeadMessage
      (KcpWrapper.afterPacket here (packet.map datagram)).rcv.rcvQueue
      message rest) :
    message ∈ link.pending := by
  obtain ⟨after, -, outcome⟩ := sound.receiveCase isHere permits
  cases outcome with
  | missing noHead short nothing same => exact absurd head (noHead _ _)
  | long next later pending long heads nothing same =>
      rw [pending, heads _ _ head]
      exact List.mem_cons_self
  | fits next later pending fits heads present returned moved =>
      rw [pending, (heads _ _ head).1]
      exact List.mem_cons_self

/-- When everything is in the receive queue, it holds all the pieces of the
messages not yet returned. -/
theorem Sound.length_queue {link : Link} (sound : Sound link)
    (allMoved : AllMoved link) {here : IkcpCb}
    (isHere : link.here.kcp = some here) :
    here.rcv.rcvQueue.length =
      (link.pending.flatMap (messagePieces 1376)).length := by
  have moved := allMoved here isHere
  have accepted : (link.accepted.flatMap (messagePieces 1376)).length =
      link.taken + (link.pending.flatMap (messagePieces 1376)).length := by
    rw [Link.taken, ← List.length_append, ← messagePieces_append,
      ← sound.accepted_eq]
  omega

theorem Sound.receiveMany_iff {link : Link} (sound : Sound link)
    (allMoved : AllMoved link) :
    receiveMany link.pending.length link.here = link.pending.map some ↔
      ∀ message ∈ link.pending, message.length ≤ bufferSize := by
  generalize remaining : link.pending = pending
  induction pending generalizing link with
  | nil => simp [receiveMany]
  | cons message later ih =>
      obtain ⟨here, isHere, receiving⟩ := sound.here
      have length := sound.length_queue allMoved isHere
      rw [remaining, List.flatMap_cons, List.length_append,
        length_messagePieces] at length
      have permits : Permits link (.receiveData none) := trivial
      obtain ⟨after, left, outcome⟩ := sound.receiveCase isHere permits
      rw [Option.map_none] at left outcome
      rw [List.length_cons, receiveMany, List.map_cons, List.cons.injEq,
        List.forall_mem_cons]
      cases outcome with
      | missing noHead short nothing same =>
          have := short message later remaining
          rw [KcpWrapper.afterPacket] at this
          omega
      | long first others next long heads nothing same =>
          rw [remaining] at next
          cases next
          rw [nothing]
          exact iff_of_false (by simp) (by omega)
      | fits first others next fits heads present returned moved =>
          rw [remaining] at next
          cases next
          let link' : Link :=
            { link with
              here := (receiveData link.here none).2
              received := link.received ++
                (receiveData link.here none).1.toList }
          have sound' : Sound link' := sound.step permits rfl
          have pending' : link'.pending = later := by
            rw [Link.pending] at remaining ⊢
            have drop := congrArg (List.drop 1) remaining
            rw [List.drop_drop] at drop
            simpa [link', returned] using drop
          have isAfter : link'.here.kcp = some after := by
            simp [link', left]
          have allMoved' : AllMoved link' := by
            intro here' isHere'
            obtain rfl := Option.some.inj (isAfter.symm.trans isHere')
            obtain ⟨kcp, isKcp, receiving'⟩ := sound'.here
            obtain rfl := Option.some.inj (isAfter.symm.trans isKcp)
            have upper := (sound'.queued receiving').length_le
            rw [pending', List.length_map] at upper
            have lower : (here.rcv.rcvQueue.drop
                (pieceCount 1376 message.length)).length ≤
                  after.rcv.rcvQueue.length := by
              rw [moved]
              exact (Receiving.takeSegments receiving
                present).moveAvailable.2.length_le
            rw [List.length_drop] at lower
            have takes : link'.taken =
                link.taken + pieceCount 1376 message.length := by
              simp only [Link.taken, link', returned, Option.toList_some,
                messagePieces_append, List.length_append,
                List.flatMap_singleton, length_messagePieces]
            have total := allMoved here isHere
            rw [takes]
            change _ = (link.accepted.flatMap (messagePieces 1376)).length
            omega
          have rest := ih sound' allMoved' pending'
          rw [returned]
          exact and_congr (iff_of_true rfl fits) rest

/-- In every reachable state the delivery contract holds exactly when the
messages that are complete in the receive queue fit the receive buffer; in
particular it holds in every run whose messages all do. -/
theorem deliversWhole_iff_messagesFit {link : Link}
    (reached : Reachable Initial step Permits link) :
    (DeliversWhole link ↔ MessagesFit link) ∧
      ((∀ message ∈ link.accepted, message.length ≤ bufferSize) →
        DeliversWhole link) := by
  have sound := sound_of_reachable reached
  have exact' : DeliversWhole link ↔ MessagesFit link := by
    have heads : Heads link (Hands link.here) ↔
        Heads link (fun _ message _ => message.length ≤ bufferSize) := by
      constructor
      · intro hands packet permits here isHere message rest head
        exact (sound.hands_iff isHere permits head).mp
          (hands packet permits here isHere message rest head)
      · intro fit packet permits here isHere message rest head
        exact (sound.hands_iff isHere permits head).mpr
          (fit packet permits here isHere message rest head)
    constructor
    · rintro ⟨hands, -, drains⟩
      refine ⟨heads.mp hands, fun allMoved => ?_⟩
      exact (sound.receiveMany_iff allMoved).mp (drains allMoved)
    · rintro ⟨fit, fits⟩
      refine ⟨heads.mpr fit, sound.inOrder, fun allMoved => ?_⟩
      exact (sound.receiveMany_iff allMoved).mpr (fits allMoved)
  refine ⟨exact', fun short => exact'.mpr ⟨?_, ?_⟩⟩
  · intro packet permits here isHere message rest head
    apply short message
    exact List.mem_of_mem_drop (sound.mem_pending isHere permits head)
  · intro _ message member
    exact short message (List.mem_of_mem_drop member)

/-! ## A message of two pieces longer than the buffer -/

def sampleLink : Link where
  peer := initKcp {} 4 7
  here := initKcp {} 3 7

/-- The segments the peer makes of a message of two pieces. -/
def samplePiece (sn : IUINT32) (frg : Nat) (data : List UInt8) : Seg :=
  { conv := 7, cmd := ikcpCmdPush, frg, wnd := 128, sn, rto := 200, data }

def firstPiece (message : List UInt8) : Seg :=
  samplePiece 0 1 (message.take 1376)

def secondPiece (message : List UInt8) : Seg :=
  samplePiece 1 0 ((message.drop 1376).take 1376)

theorem sampleLink_reachable :
    Reachable Initial step Permits sampleLink :=
  .start ⟨3, 4, 7, by decide, by decide, rfl⟩

/-- The control block `initKcp` leaves at both ends. -/
def sampleKcp : IkcpCb :=
  ikcpWndsize (ikcpNodelay (ikcpCreate 7) 1 10 2 1) 128 128

theorem step_sendData_sample {message : List UInt8}
    (two : pieceCount 1376 message.length = 2) :
    step sampleLink (.sendData message) = some
      { sampleLink with
        peer :=
          { kcp := some { sampleKcp with snd := { sampleKcp.snd with
              sndQueue := fragment 1376 2 message, nsndQue := 2 } }
            udpFd := 4 }
        accepted := [message] } := by
  have count : pieceCount sampleKcp.snd.mss message.length = 2 := two
  have sent : ikcpSend sampleKcp.snd message =
      (0, { sampleKcp.snd with
              sndQueue := fragment 1376 2 message, nsndQue := 2 }) := by
    rw [ikcpSend_message message (by decide) rfl, count]
    rfl
  have result : sendData sampleLink.peer message =
      (0, { kcp := some { sampleKcp with snd := { sampleKcp.snd with
              sndQueue := fragment 1376 2 message, nsndQue := 2 } }
            udpFd := 4 }) := by
    change ((ikcpSend sampleKcp.snd message).1,
      ({ kcp := some { sampleKcp with snd := (ikcpSend sampleKcp.snd message).2 }
         udpFd := 4 } : Wrapper)) = _
    rw [sent]
  rw [step]
  simp only [result, if_true]
  rfl

/-- A message of two pieces is accepted and both its segments are numbered,
with nothing received yet. -/
theorem sent_reachable {message : List UInt8} (nonempty : message ≠ [])
    (two : pieceCount 1376 message.length = 2) :
    ∃ peer, Reachable Initial step Permits
      { sampleLink with
        peer
        log := [firstPiece message, secondPiece message]
        accepted := [message] } := by
  have permitted : Permits sampleLink (.sendData message) := nonempty
  have accepted := Reachable.next sampleLink_reachable permitted
    (step_sendData_sample two)
  have first := Reachable.next accepted
    (show Permits _ (.transmit 128 0) from trivial) rfl
  have second := Reachable.next first
    (show Permits _ (.transmit 128 0) from trivial) rfl
  exact ⟨_, second⟩

theorem readable_samplePiece {sn : IUINT32} {frg : Nat}
    {data : List UInt8} (small : frg < 256) (short : data.length ≤ 1376) :
    Readable 7 (samplePiece sn frg data) where
  conv := rfl
  known := .inl rfl
  fits :=
    { cmd := (by decide : ikcpCmdPush < 256)
      frg := small
      wnd := (by decide : 128 < 65536)
      len := Nat.lt_of_le_of_lt short (by decide) }

/-- What a datagram with one sample segment does to the receive side. -/
theorem afterPacket_samplePiece {kcp : IkcpCb} (conv : kcp.conv = 7)
    {frg : Nat} {data : List UInt8} (small : frg < 256)
    (short : data.length ≤ 1376) (sn : IUINT32) :
    (afterPacket kcp (some (datagram [samplePiece sn frg data]))).conv = 7 ∧
      (afterPacket kcp (some (datagram [samplePiece sn frg data]))).rcv =
        receivePush kcp.rcv (samplePiece sn frg data).wire ∧
          (datagram [samplePiece sn frg data]).length ≤ ikcpMtuDef := by
  have length : (datagram [samplePiece sn frg data]).length =
      24 + data.length := by
    rw [datagram_cons, List.length_append, length_ikcpEncodeSeg]
    rfl
  have whole : (datagram [samplePiece sn frg data]).take bufferSize =
      datagram [samplePiece sn frg data] := by
    apply List.take_of_length_le
    rw [length, bufferSize]
    omega
  have readable : ∀ seg ∈ [samplePiece sn frg data],
      Readable kcp.conv seg := by
    intro seg member
    rw [List.mem_singleton.mp member, conv]
    exact readable_samplePiece small short
  have input := ikcpInput_datagram kcp readable
  rw [afterPacket, whole, if_pos (by omega), input.1, input.2, conv]
  refine ⟨rfl, rfl, ?_⟩
  rw [length, ikcpMtuDef]
  omega

/-- The expected segment goes straight to the receive queue when nothing is
buffered ahead of it. -/
theorem receivePush_next {rcv : ReceiveSide} {seg : Seg}
    (expected : seg.sn = rcv.rcvNxt) (window : rcv.rcvWnd = 128)
    (unbuffered : rcv.rcvBuf = []) (room : rcv.nrcvQue < 128) :
    receivePush rcv seg =
      { rcv with
        nrcvQue := rcv.nrcvQue + 1
        rcvQueue := rcv.rcvQueue ++ [seg]
        rcvNxt := rcv.rcvNxt + 1
        acklist := rcv.acklist ++ [(seg.sn, seg.ts)] } := by
  have here : itimediff rcv.rcvNxt rcv.rcvNxt = 0 := by
    rw [itimediff, serialDiff, BitVec.sub_self, BitVec.toInt_zero]
  have ahead : itimediff rcv.rcvNxt (rcv.rcvNxt + BitVec.ofNat 32 128) = -128 := by
    have distance : rcv.rcvNxt - (rcv.rcvNxt + BitVec.ofNat 32 128) =
        -BitVec.ofNat 32 128 := by
      bv_omega
    rw [itimediff, serialDiff, distance]
    decide
  rw [receivePush, expected, window, ahead, if_pos (by decide)]
  dsimp only
  rw [here, if_pos (by decide), ikcpParseData, expected]
  dsimp only
  have inside : ¬ ((0 : Int) ≤ -128 ∨ (0 : Int) < 0) := by decide
  rw [ahead, here, if_neg inside, unbuffered]
  simp only [List.reverse_nil, insertFromTail, List.reverse_singleton,
    moveAvailable, expected, true_and, if_pos room, Nat.add_sub_cancel]

/-- After a datagram with each segment, a message of two pieces is complete at
the head of the queue. -/
theorem head_reachable {message : List UInt8} (nonempty : message ≠ [])
    (two : pieceCount 1376 message.length = 2)
    (short : message.length ≤ 2752) :
    ∃ link here packet rest, Reachable Initial step Permits link ∧
      link.here.kcp = some here ∧ Permits link (.receiveData packet) ∧
        HeadMessage (afterPacket here (packet.map datagram)).rcv.rcvQueue
          message rest := by
  obtain ⟨peer, reached⟩ := sent_reachable nonempty two
  have firstShort : (message.take 1376).length ≤ 1376 :=
    List.length_take_le 1376 message
  have secondShort : ((message.drop 1376).take 1376).length ≤ 1376 :=
    List.length_take_le 1376 _
  have frgs : 1 < 256 ∧ 0 < 256 := by decide
  obtain ⟨firstConv, firstRcv, firstSmall⟩ :=
    afterPacket_samplePiece (show sampleKcp.conv = 7 from rfl) frgs.1
      firstShort (0 : IUINT32)
  rw [receivePush_next rfl rfl rfl (by decide)] at firstRcv
  obtain ⟨-, secondRcv, secondSmall⟩ :=
    afterPacket_samplePiece firstConv frgs.2 secondShort (1 : IUINT32)
  rw [firstRcv, receivePush_next rfl rfl rfl (show 1 < 128 by decide)]
    at secondRcv
  have firstPermits : Permits
      { sampleLink with
        peer
        log := [firstPiece message, secondPiece message]
        accepted := [message] }
      (.receiveData (some [firstPiece message])) := by
    refine ⟨firstSmall, ?_⟩
    intro seg member
    rw [List.mem_singleton] at member
    subst member
    have close : Close 0 0 := by decide
    refine ⟨?_, fun _ => ⟨0, _, rfl, rfl, rfl, close⟩⟩
    rintro _ ⟨⟩
    exact readable_samplePiece frgs.1 firstShort
  have waits : ikcpPeeksize (afterPacket sampleKcp
      (some (datagram [firstPiece message]))).rcv = -1 := by
    change ikcpPeeksize (afterPacket sampleKcp (some (datagram
      [samplePiece 0 1 (message.take 1376)]))).rcv = -1
    rw [firstRcv]
    rfl
  have result : receiveData sampleLink.here
      (some (datagram [firstPiece message])) =
        (none,
          { kcp := some (afterPacket sampleKcp
              (some (datagram [firstPiece message])))
            udpFd := 3 }) := by
    have none := ikcpRecv_of_missing (bufferSize : Int) waits
    rw [receiveData_open (show sampleLink.here.kcp = some sampleKcp from rfl)
      (by decide), none.2, if_neg (by omega)]
    rfl
  have received := Reachable.next reached firstPermits
    (show step _ _ = some
      { peer
        here :=
          { kcp := some (afterPacket sampleKcp
              (some (datagram [firstPiece message])))
            udpFd := 3 }
        log := [firstPiece message, secondPiece message]
        accepted := [message] } by
      simp only [step, Option.map_some, result]
      rfl)
  refine ⟨_, _, some [secondPiece message], [], received, rfl, ?_, ?_⟩
  · refine ⟨secondSmall, ?_⟩
    intro seg member
    rw [List.mem_singleton] at member
    subst member
    have close : Close 0 1 := by decide
    refine ⟨?_, fun _ => ⟨1, _, rfl, rfl, rfl, close⟩⟩
    intro kcp same
    obtain rfl := Option.some.inj same
    rw [show (afterPacket sampleKcp (some (datagram
      [firstPiece message]))).conv = 7 from firstConv]
    exact readable_samplePiece frgs.2 secondShort
  · refine ⟨[(firstPiece message).wire], (secondPiece message).wire, ?_, ?_,
      rfl, ?_⟩
    · have bothRcv : (afterPacket (afterPacket sampleKcp
          (some (datagram [firstPiece message])))
            (some (datagram [secondPiece message]))).rcv = _ := secondRcv
      rw [Option.map_some, bothRcv]
      rfl
    · simp [firstPiece, samplePiece, Seg.wire]
    · have rest : (message.drop 1376).length ≤ 1376 := by
        rw [List.length_drop]
        omega
      simp only [firstPiece, secondPiece, samplePiece, Seg.wire,
        List.cons_append, List.nil_append, List.flatMap_cons,
        List.flatMap_nil, List.append_nil, List.take_of_length_le rest,
        List.take_append_drop]

/-- The contract fails: a message of 1501 bytes is complete at the head of the
receive queue and `receiveData` does not return it. -/
theorem not_forall_deliversWhole :
    ¬ ∀ link, Reachable Initial step Permits link → DeliversWhole link := by
  intro delivers
  let message : List UInt8 := List.replicate 1501 0
  have length : message.length = 1501 := List.length_replicate
  have nonempty : message ≠ [] := by
    rw [← List.length_pos_iff, length]
    decide
  have two : pieceCount 1376 message.length = 2 := by
    rw [length]
    decide
  obtain ⟨link, here, packet, rest, reached, isHere, permits, head⟩ :=
    head_reachable nonempty two (by omega)
  have hands := (delivers link reached).1 packet permits here isHere message
    rest head
  have fits := ((sound_of_reachable reached).hands_iff isHere permits
    head).mp hands
  rw [length] at fits
  exact absurd fits (by decide)

/-- A link that has accepted and numbered the one-byte message `[42]`. -/
theorem deliversWhole_one_byte :
    ∃ link, link.accepted = [[42]] ∧ link.log.length = 1 ∧
      DeliversWhole link := by
  have permitted : Permits sampleLink (.sendData [42]) := by
    simp [Permits]
  have accepted := Reachable.next sampleLink_reachable permitted rfl
  have numbered := Reachable.next accepted
    (show Permits _ (.transmit 128 0) from trivial) rfl
  refine ⟨_, rfl, rfl, (deliversWhole_iff_messagesFit numbered).2 ?_⟩
  intro message member
  obtain rfl := List.mem_singleton.mp member
  decide

end KcpWrapper

end MbedtlsKcp
