import MbedtlsKcp.CommonIkcpCollecting
import MbedtlsKcp.CommonIkcpSending

/-!
# One end of a KCP connection

A control block is the sender of one direction and the receiver of the other.
Its flushes put only genuine segments into the network: data under its number,
acknowledgements of what has been received, and the number below which nothing
is missing.  Genuine datagrams, whenever and however often they arrive, are
steps of the two abstract ends.
-/

namespace MbedtlsKcp

namespace CommonIkcp

open ByteBuffers PacketBuffers SelectiveRepeat Ikcp

/-- What one end may put into the network: `x` is the direction it sends in,
`y` the one it receives from. -/
structure Genuine (x y : State Piece) (seg : Seg) : Prop where
  fits : seg.Fits
  push : seg.cmd = ikcpCmdPush → entry seg ∈ x.sent
  ack : seg.cmd = ikcpCmdAck → seg.sn.toNat ∈ y.acks
  una : seg.una.toNat ∈ y.limits

/-- A control block in the state `x` as a sender and `y` as a receiver. -/
structure Endpoint (conv : IUINT32) (x y : State Piece)
    (accepted handed : List UInt8) (kcp : IkcpCb) : Prop where
  session : kcp.conv = conv
  sending : Sending conv x accepted kcp.snd
  collecting : Collecting y handed kcp.rcv
  acked : Acked y kcp.rcv.acklist

variable {conv : IUINT32} {x y x' y' : State Piece}
variable {accepted handed : List UInt8} {kcp after : IkcpCb}

theorem Genuine.grow {seg : Seg} (genuine : Genuine x y seg)
    (sender : Grown x x') (receiver : Grown y y') : Genuine x' y' seg where
  fits := genuine.fits
  push := fun push => sender.sent (genuine.push push)
  ack := fun ack => receiver.acks (genuine.ack ack)
  una := receiver.limits genuine.una

/-! ## Flushing -/

section Gathering

variable {genuine : Seg → Prop} {out : Outgoing 32}

theorem Gathered.flushAcks (gathered : Gathered genuine out) (mtu : Nat)
    {seg : Seg} {acklist : List (IUINT32 × IUINT32)}
    (genuines : ∀ ack ∈ acklist,
      genuine (narrowed { seg with sn := ack.1, ts := ack.2 })) :
    Gathered genuine (CommonIkcp.flushAcks mtu seg acklist out) := by
  induction acklist generalizing out with
  | nil => exact gathered
  | cons ack rest ih =>
      obtain ⟨first, others⟩ := List.forall_mem_cons.mp genuines
      exact ih (gathered.gather first _ _) others

theorem Gathered.flushProbe (gathered : Gathered genuine out)
    (ask : IUINT32) (cmd : Nat) {seg : Seg}
    (isGenuine : genuine (narrowed { seg with cmd })) :
    Gathered genuine (CommonIkcp.flushProbe kcp ask cmd seg out) := by
  rw [CommonIkcp.flushProbe]
  split
  · exact gathered.gather isGenuine _ _
  · exact gathered

/-- The loop over the send buffer gathers segments that carry what stands in
it. -/
theorem Gathered.flushData {flush : DataFlush} {wnd : Nat} {segs : List Seg}
    (gathered : Gathered genuine flush.out)
    (genuines : ∀ seg ∈ segs, ∀ other, core other = core seg →
      other.una = kcp.rcv.rcvNxt → genuine (narrowed other)) :
    Gathered genuine (CommonIkcp.flushData kcp wnd segs flush).2.out := by
  induction segs generalizing flush with
  | nil => exact gathered
  | cons seg rest ih =>
      obtain ⟨first, others⟩ := List.forall_mem_cons.mp genuines
      rw [CommonIkcp.flushData]
      apply ih _ others
      rw [flushSegment]
      split
      · exact gathered
      case h_2 why _ =>
        apply gathered.gather
        exact first _ (core_retime kcp seg why) rfl

theorem Gathered.finish (gathered : Gathered genuine out) :
    Gathered genuine out.finish := by
  rw [Outgoing.finish]
  split
  · exact gathered.count.handOn
  · exact gathered

end Gathering

theorem probeWindow_frame (kcp : IkcpCb) :
    (probeWindow kcp).conv = kcp.conv ∧ (probeWindow kcp).snd = kcp.snd ∧
      (probeWindow kcp).rcv = kcp.rcv := by
  rw [probeWindow]
  dsimp only
  split
  · split
    · exact ⟨rfl, rfl, rfl⟩
    · split <;> exact ⟨rfl, rfl, rfl⟩
  · exact ⟨rfl, rfl, rfl⟩

theorem restartPeriod_frame (kcp : IkcpCb) :
    (restartPeriod kcp).conv = kcp.conv ∧
      (restartPeriod kcp).snd = kcp.snd ∧
      (restartPeriod kcp).rcv = kcp.rcv := by
  rw [restartPeriod]
  split <;> exact ⟨rfl, rfl, rfl⟩

/-- A command has nothing but acknowledgements to be genuine about. -/
theorem genuine_command (cmd : Nat) {seg : Seg} (isCmd : seg.cmd = cmd)
    (small : cmd < 256) (notPush : cmd ≠ ikcpCmdPush) (frg : seg.frg = 0)
    (data : seg.data = [])
    (ack : cmd = ikcpCmdAck → seg.sn.toNat ∈ y.acks)
    (una : seg.una.toNat ∈ y.limits) : Genuine x y (narrowed seg) where
  fits :=
    { cmd := isCmd ▸ small
      frg := by simp [narrowed, frg]
      wnd := Nat.mod_lt _ (by decide)
      len := by simp [narrowed, data] }
  push := fun push => absurd (isCmd.symm.trans push) notPush
  ack := fun isAck => ack (isCmd.symm.trans isAck)
  una := una

theorem lastAck_frame (seg : Seg) (acklist : List (IUINT32 × IUINT32)) :
    (lastAck seg acklist).frg = seg.frg ∧
      (lastAck seg acklist).una = seg.una ∧
      (lastAck seg acklist).data = seg.data := by
  rw [lastAck]
  split <;> exact ⟨rfl, rfl, rfl⟩

theorem flushCommands_frame (kcp : IkcpCb) :
    (flushCommands kcp).2.conv = kcp.conv ∧
      (flushCommands kcp).2.snd = kcp.snd ∧
      (flushCommands kcp).2.rcv = { kcp.rcv with acklist := [] } :=
  probeWindow_frame { kcp with rcv := { kcp.rcv with acklist := [] } }

/-- The acknowledgements and window commands of a flush are genuine. -/
theorem Endpoint.flushCommands
    (endpoint : Endpoint conv x y accepted handed kcp)
    (una : kcp.rcv.rcvNxt.toNat ∈ y.limits) :
    Gathered (Genuine x y) (flushCommands kcp).1 ∧
      Endpoint conv x y accepted handed (flushCommands kcp).2 := by
  obtain ⟨sameConv, snd, rcv⟩ := flushCommands_frame kcp
  constructor
  · have acks : Gathered (Genuine x y) (CommonIkcp.flushAcks kcp.mtu
        { conv := kcp.conv, cmd := ikcpCmdAck, wnd := ikcpWndUnused kcp.rcv
          una := kcp.rcv.rcvNxt, data := [] } kcp.rcv.acklist
        { total := kcp.txBytesTotal }) := by
      apply (gathered_start kcp.txBytesTotal).flushAcks
      intro ack member
      exact genuine_command ikcpCmdAck rfl (by decide) (by decide)
        rfl rfl (fun _ => endpoint.acked ack member) una
    obtain ⟨frg, sameUna, data⟩ := lastAck_frame
      { conv := kcp.conv, cmd := ikcpCmdAck, wnd := ikcpWndUnused kcp.rcv
        una := kcp.rcv.rcvNxt, data := [] } kcp.rcv.acklist
    apply Gathered.flushProbe
    · apply Gathered.flushProbe acks
      exact genuine_command ikcpCmdWask rfl (by decide) (by decide)
        frg data (fun isAck => absurd isAck (by decide)) (sameUna ▸ una)
    · exact genuine_command ikcpCmdWins rfl (by decide) (by decide)
        frg data (fun isAck => absurd isAck (by decide)) (sameUna ▸ una)
  · exact
      { session := sameConv.trans endpoint.session
        sending := snd ▸ endpoint.sending
        collecting := rcv ▸ { endpoint.collecting with }
        acked := by
          rw [rcv]
          simp [Acked] }

/-- The segments that are numbered in this flush, and all that stand in the
send buffer. -/
def afterMoving (kcp : IkcpCb) : SendSide :=
  moveQueued kcp.conv (ikcpWndUnused kcp.rcv) kcp.rcv.rcvNxt
    (sendWindow kcp.snd) kcp.snd.sndQueue.length kcp.snd

theorem keepsWindow_flushData {snd : SendSide} (moved : IkcpCb) (wnd : Nat)
    (start : DataFlush) (same : moved.snd = snd) :
    KeepsWindow snd
      { moved.snd with
        sndBuf := (flushData moved wnd moved.snd.sndBuf start).1 } := by
  subst same
  exact { KeepsWindow.refl moved.snd with
    buffer := core_flushData moved wnd moved.snd.sndBuf start }

/-- A flush gathers what stands in the send buffer after it has been filled
up, and changes timers beside. -/
theorem flushBehind_eq (kcp : IkcpCb) (out : Outgoing 32) :
    ∃ (moved : IkcpCb) (wnd : Nat) (start : DataFlush),
      moved.snd = afterMoving kcp ∧ moved.rcv = kcp.rcv ∧ start.out = out ∧
      (flushBehind kcp out).1 =
        (flushData moved wnd moved.snd.sndBuf start).2.out.finish ∧
      (flushBehind kcp out).2.conv = kcp.conv ∧
      (flushBehind kcp out).2.rcv = kcp.rcv ∧
      KeepsWindow (afterMoving kcp) (flushBehind kcp out).2.snd := by
  obtain ⟨sameConv, snd, rcv⟩ :=
    restartPeriod_frame { kcp with snd := afterMoving kcp }
  refine ⟨restartPeriod { kcp with snd := afterMoving kcp },
    ikcpWndUnused kcp.rcv, _, snd, rcv, rfl, rfl, sameConv, rcv, ?_⟩
  exact (keepsWindow_flushData _ _ _ snd).trans
    (keepsWindow_shrinkCwnd _ _ _ _ _)

/-- Data that may be in the network is genuine under its number. -/
theorem genuine_data {log : List Piece} {seg other : Seg}
    (outbound : Outbound conv log seg) (sent : entry seg ∈ x.sent)
    (same : core other = core seg) (una : other.una.toNat ∈ y.limits) :
    Genuine x y (narrowed other) := by
  have carried := outbound.of_core same.symm
  have cmd := carried.cmd
  have len := carried.len
  exact
    { fits :=
        { cmd := by
            show other.cmd < 256
            rw [cmd]
            decide
          frg := carried.frg
          wnd := Nat.mod_lt _ (by decide)
          len := Nat.lt_of_le_of_lt len (by decide) }
      push := fun _ => by
        have moved : entry (core other) = entry (core seg) :=
          congrArg entry same
        exact moved ▸ sent
      ack := fun isAck => absurd (cmd.symm.trans isAck) (by decide)
      una := una }

/-- The data of a flush is genuine once it has been numbered. -/
theorem Endpoint.flushBehind
    (endpoint : Endpoint conv x y accepted handed kcp) {out : Outgoing 32}
    (una : kcp.rcv.rcvNxt.toNat ∈ y.limits)
    {count : Nat} (length : (afterMoving kcp).sndBuf.length =
      kcp.snd.sndBuf.length + count)
    (small : x.log.length + count < 2 ^ 31)
    (gathered : Gathered (Genuine x y) out) :
    ∃ x', SenderOnly x x' ∧ x'.log.length = x.log.length + count ∧
      Gathered (Genuine x' y) (flushBehind kcp out).1 ∧
      Endpoint conv x' y accepted handed (flushBehind kcp out).2 := by
  obtain rfl := endpoint.session
  obtain ⟨x₁, steps, log, numbered⟩ :=
    endpoint.sending.moveQueued _ _ _ _ length small
  obtain ⟨x', more, same, transmitted, all⟩ := numbered.transmitted
  obtain ⟨moved, wnd, start, snd, rcv, started, packets, sameConv, sameRcv,
    keeps⟩ := flushBehind_eq kcp out
  have grown := (steps.trans more).steps.grown
  have still : Grown y y := Steps.grown .refl
  refine ⟨x', steps.trans more, (congrArg List.length same).trans log,
    ?_, ?_⟩
  · rw [packets]
    apply Gathered.finish
    apply Gathered.flushData
    · rw [started]
      exact gathered.mono fun _ genuine => genuine.grow grown still
    · intro seg inside other core sameUna
      rw [snd] at inside
      rw [rcv] at sameUna
      exact genuine_data (transmitted.buffered seg inside) (all seg inside)
        core (sameUna ▸ una)
  · exact
      { session := sameConv
        sending := transmitted.keep keeps.toKeepsData
        collecting := sameRcv ▸ endpoint.collecting
        acked := sameRcv ▸ endpoint.acked }

/-- Timers and counters are not part of the two ends. -/
theorem Endpoint.keep (endpoint : Endpoint conv x y accepted handed kcp)
    (session : after.conv = kcp.conv) (keeps : KeepsData kcp.snd after.snd)
    (rcv : after.rcv = kcp.rcv) :
    Endpoint conv x y accepted handed after where
  session := session.trans endpoint.session
  sending := endpoint.sending.keep keeps
  collecting := rcv ▸ endpoint.collecting
  acked := rcv ▸ endpoint.acked

/-- The number below which nothing is missing may be announced at any time. -/
theorem Endpoint.announce (endpoint : Endpoint conv x y accepted handed kcp) :
    ∃ y', ReceiverOnly y y' ∧ kcp.rcv.rcvNxt.toNat ∈ y'.limits ∧
      Endpoint conv x y' accepted handed kcp :=
  ⟨_, receiverOnly_announce y, .inl endpoint.collecting.next,
    { endpoint with
      collecting := { endpoint.collecting with }
      acked := endpoint.acked }⟩

theorem length_of_keepsData {snd next : SendSide}
    (keeps : KeepsData snd next) : next.sndBuf.length = snd.sndBuf.length := by
  simpa using congrArg List.length keeps.buffer

/-- Everything that a flush passes on is genuine. -/
theorem Endpoint.flush (endpoint : Endpoint conv x y accepted handed kcp)
    {sent : List (List UInt8)} (flushes : ikcpFlush kcp = some (sent, after))
    {count : Nat}
    (length : after.snd.sndBuf.length = kcp.snd.sndBuf.length + count)
    (small : x.log.length + count < 2 ^ 31) :
    ∃ x' y', SenderOnly x x' ∧ ReceiverOnly y y' ∧
      x'.log.length = x.log.length + count ∧
      (∀ data ∈ sent, Encodes (Genuine x' y') data) ∧
      Endpoint conv x' y' accepted handed after := by
  rcases ikcpFlush_cases flushes with ⟨-, rfl, rfl⟩ | ⟨-, rfl, rfl⟩
  · obtain rfl : count = 0 := by omega
    exact ⟨x, y, .refl x, .refl y, rfl, by simp, endpoint⟩
  · obtain ⟨y', announces, una, announced⟩ := endpoint.announce
    obtain ⟨commands, ready⟩ := announced.flushCommands una
    obtain ⟨-, sameBuf, sameRcv⟩ := flushCommands_frame kcp
    have sameNxt :
        (CommonIkcp.flushCommands kcp).2.rcv.rcvNxt = kcp.rcv.rcvNxt := by
      rw [sameRcv]
    obtain ⟨-, -, -, -, -, -, -, -, -, keeps⟩ :=
      flushBehind_eq (CommonIkcp.flushCommands kcp).2
        (CommonIkcp.flushCommands kcp).1
    rw [length_of_keepsData keeps.toKeepsData, ← sameBuf] at length
    obtain ⟨x', numbers, log, gathered, flushed⟩ :=
      ready.flushBehind (sameNxt ▸ una) length small commands
    exact ⟨x', y', numbers, announces, log, gathered.packets, flushed⟩

/-- A flush takes nothing out of the send buffer. -/
theorem length_le_ikcpFlush {sent : List (List UInt8)}
    (flushes : ikcpFlush kcp = some (sent, after)) :
    kcp.snd.sndBuf.length ≤ after.snd.sndBuf.length := by
  rcases ikcpFlush_cases flushes with ⟨-, rfl, rfl⟩ | ⟨-, rfl, rfl⟩
  · exact Nat.le_refl _
  · obtain ⟨-, -, -, -, -, -, -, -, -, keeps⟩ :=
      flushBehind_eq (flushCommands kcp).2 (flushCommands kcp).1
    obtain ⟨-, same, -⟩ := flushCommands_frame kcp
    rw [length_of_keepsData keeps.toKeepsData, ← same]
    exact length_le_moveQueued _ _ _ _ _ _

theorem measureTraffic_frame (kcp : IkcpCb) (current : IUINT32) :
    (measureTraffic kcp current).toIkcpCb = kcp.toIkcpCb := by
  rw [measureTraffic]
  split
  · rfl
  · split <;> rfl

theorem schedule_frame (kcp : IkcpCb) (current : IUINT32) :
    (schedule kcp current).2.conv = kcp.conv ∧
      KeepsWindow kcp.snd (schedule kcp current).2.snd ∧
      (schedule kcp current).2.rcv = kcp.rcv := by
  rw [schedule]
  dsimp only
  split_ifs <;> exact ⟨rfl, { KeepsWindow.refl kcp.snd with }, rfl⟩

theorem length_le_ikcpUpdate {sent : List (List UInt8)} {current : IUINT32}
    (updates : ikcpUpdate kcp current = some (sent, after)) :
    kcp.snd.sndBuf.length ≤ after.snd.sndBuf.length := by
  obtain ⟨-, keeps, -⟩ := schedule_frame kcp current
  rw [ikcpUpdate, Option.map_eq_some_iff] at updates
  obtain ⟨⟨packets, flushed⟩, flushes, same⟩ := updates
  simp only [Prod.mk.injEq] at same
  obtain ⟨rfl, rfl⟩ := same
  rw [congrArg Ikcp.IkcpCb.snd (measureTraffic_frame flushed current),
    ← length_of_keepsData keeps.toKeepsData]
  split at flushes
  · exact length_le_ikcpFlush flushes
  · simp only [Option.some.injEq, Prod.mk.injEq] at flushes
    exact flushes.2 ▸ Nat.le_refl _

theorem Endpoint.update (endpoint : Endpoint conv x y accepted handed kcp)
    {sent : List (List UInt8)} {current : IUINT32}
    (updates : ikcpUpdate kcp current = some (sent, after)) {count : Nat}
    (length : after.snd.sndBuf.length = kcp.snd.sndBuf.length + count)
    (small : x.log.length + count < 2 ^ 31) :
    ∃ x' y', SenderOnly x x' ∧ ReceiverOnly y y' ∧
      x'.log.length = x.log.length + count ∧
      (∀ data ∈ sent, Encodes (Genuine x' y') data) ∧
      Endpoint conv x' y' accepted handed after := by
  obtain ⟨sameConv, keeps, rcv⟩ := schedule_frame kcp current
  have scheduled := endpoint.keep sameConv keeps.toKeepsData rcv
  rw [ikcpUpdate, Option.map_eq_some_iff] at updates
  obtain ⟨⟨packets, flushed⟩, flushes, same⟩ := updates
  simp only [Prod.mk.injEq] at same
  obtain ⟨rfl, rfl⟩ := same
  have frame := measureTraffic_frame flushed current
  have sameSnd : (measureTraffic flushed current).snd = flushed.snd :=
    congrArg Ikcp.IkcpCb.snd frame
  have measured : KeepsData flushed.snd (measureTraffic flushed current).snd :=
    sameSnd ▸ ⟨rfl, rfl, rfl, rfl⟩
  rw [sameSnd, ← length_of_keepsData keeps.toKeepsData] at length
  split at flushes
  case isTrue =>
    obtain ⟨x', y', sender, receiver, log, genuine, kept⟩ :=
      scheduled.flush flushes length small
    exact ⟨x', y', sender, receiver, log, genuine,
      kept.keep (congrArg Ikcp.IkcpCb.conv frame) measured
        (congrArg Ikcp.IkcpCb.rcv frame)⟩
  case isFalse =>
    simp only [Option.some.injEq, Prod.mk.injEq] at flushes
    obtain ⟨rfl, rfl⟩ := flushes
    obtain rfl : count = 0 := by omega
    exact ⟨x, y, .refl x, .refl y, rfl, by simp,
      scheduled.keep (congrArg Ikcp.IkcpCb.conv frame) measured
        (congrArg Ikcp.IkcpCb.rcv frame)⟩

/-! ## Datagrams from the other end -/

/-- One genuine segment of the other end. -/
theorem Endpoint.inputSegment (endpoint : Endpoint conv x y accepted handed kcp)
    (soundX : Sound x) (soundY : Sound y) (smallX : x.log.length < 2 ^ 31)
    (smallY : y.log.length < 2 ^ 31) (maxack : Option IUINT32) {seg : Seg}
    (genuine : Genuine y x seg) (rest : List UInt8) (rxBytesTotal : IUINT32) :
    ∃ x' y', SenderOnly x x' ∧ ReceiverOnly y y' ∧ x'.log = x.log ∧
      Endpoint conv x' y' accepted handed
        { kcp with
          toIkcpCb := (Ikcp.inputSegment kcp.toIkcpCb maxack seg.header
            (seg.data ++ rest)).1
          rxBytesTotal } := by
  have una : seg.header.una.toNat ∈ x.limits := genuine.una
  obtain ⟨x', sender, log, sending⟩ := endpoint.sending.inputSegment soundX
    smallX maxack (seg.data ++ rest) una genuine.ack
  obtain ⟨y', receiver, collecting, acked⟩ := endpoint.collecting.inputSegment
    endpoint.acked soundY smallY maxack rest genuine.push
  exact ⟨x', y', sender, receiver, log,
    { session := (inputSegment_conv _ _ _ _).trans endpoint.session
      sending, collecting, acked }⟩

/-- A datagram of genuine segments, read to its end or not. -/
theorem Endpoint.inputLoop (endpoint : Endpoint conv x y accepted handed kcp)
    (soundX : Sound x) (soundY : Sound y) (smallX : x.log.length < 2 ^ 31)
    (smallY : y.log.length < 2 ^ 31) (maxack : Option IUINT32)
    {segs : List Seg} (genuine : ∀ seg ∈ segs, Genuine y x seg) :
    ∃ x' y', SenderOnly x x' ∧ ReceiverOnly y y' ∧ x'.log = x.log ∧
      Endpoint conv x' y' accepted handed
        (CommonIkcp.inputLoop kcp maxack (datagram segs)).2.1 := by
  have stops : ∃ x' y', SenderOnly x x' ∧ ReceiverOnly y y' ∧
      x'.log = x.log ∧ Endpoint conv x' y' accepted handed kcp :=
    ⟨x, y, .refl x, .refl y, rfl, endpoint⟩
  induction segs generalizing x y kcp maxack with
  | nil =>
      rw [CommonIkcp.inputLoop, if_pos (by simp [datagram, ikcpOverhead])]
      exact stops
  | cons seg segs ih =>
      obtain ⟨first, others⟩ := List.forall_mem_cons.mp genuine
      rw [CommonIkcp.inputLoop]
      split
      · exact stops
      · simp only [datagram_cons, decodeHeader_encode first.fits,
          drop_ikcpEncodeSeg]
        split
        · exact stops
        · split
          · exact stops
          · split
            · exact stops
            · have rest : (seg.data ++ datagram segs).drop seg.header.len =
                  datagram segs := List.drop_left
              rw [rest]
              obtain ⟨x₁, y₁, sender, receiver, log, next⟩ :=
                endpoint.inputSegment soundX soundY smallX smallY maxack first
                  (datagram segs) _
              obtain ⟨x', y', moreSender, moreReceiver, same, last⟩ :=
                ih next (soundX.steps sender.steps)
                  (soundY.steps receiver.steps) (log ▸ smallX)
                  (receiver.log ▸ smallY) _
                  (fun other member => (others other member).grow
                    receiver.steps.grown sender.steps.grown)
                  ⟨x₁, y₁, .refl _, .refl _, rfl, next⟩
              exact ⟨x', y', sender.trans moreSender,
                receiver.trans moreReceiver, same.trans log, last⟩

/-- `ikcp_input` with a datagram that the other end has sent at some time. -/
theorem Endpoint.input (endpoint : Endpoint conv x y accepted handed kcp)
    (soundX : Sound x) (soundY : Sound y) (smallX : x.log.length < 2 ^ 31)
    (smallY : y.log.length < 2 ^ 31) {data : List UInt8}
    (genuine : Encodes (Genuine y x) data) :
    ∃ x' y', SenderOnly x x' ∧ ReceiverOnly y y' ∧ x'.log = x.log ∧
      Endpoint conv x' y' accepted handed (ikcpInput kcp data).2 := by
  obtain ⟨segs, rfl, all⟩ := genuine
  rw [ikcpInput]
  split
  · exact ⟨x, y, .refl x, .refl y, rfl, endpoint⟩
  · obtain ⟨x', y', sender, receiver, log, kept⟩ :=
      endpoint.inputLoop soundX soundY smallX smallY none all
    refine ⟨x', y', sender, receiver, log, ?_⟩
    dsimp only
    split
    · exact kept
    · refine Endpoint.keep kept rfl ?_ rfl
      apply KeepsData.trans _ (keepsWindow_growCwnd _ _).toKeepsData
      split
      · exact (keepsWindow_parseFastack _ _).toKeepsData
      · exact ⟨rfl, rfl, rfl, rfl⟩

end CommonIkcp

end MbedtlsKcp
