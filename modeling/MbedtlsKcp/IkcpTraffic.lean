import MbedtlsKcp.CommonIkcp
import MbedtlsKcp.IkcpReceiver

/-!
# What the traffic counter misses

`ikcp_flush` adds the length of every packet of acknowledgements and data to
`tx_bytes_total`, but not that of a packet it sends to make room for a window
command.  The counter is exact as long as no window command meets a full
packet.
-/

namespace MbedtlsKcp

namespace CommonIkcp

open Ikcp PacketBuffers

/-- The remote window is asked for: it is still to be, or it has been closed
for long enough. -/
def Asks (kcp : IkcpCb) : Prop :=
  kcp.probe &&& ikcpAskSend ≠ 0 ∨
    kcp.snd.rmtWnd = 0 ∧ kcp.probeWait ≠ 0 ∧
      0 ≤ itimediff kcp.snd.current kcp.tsProbe

instance (kcp : IkcpCb) : Decidable (Asks kcp) :=
  inferInstanceAs (Decidable (_ ∨ _ ∧ _ ∧ _))

/-- The own window is told. -/
def Tells (kcp : IkcpCb) : Prop :=
  kcp.probe &&& ikcpAskTell ≠ 0

instance (kcp : IkcpCb) : Decidable (Tells kcp) :=
  inferInstanceAs (Decidable (_ ≠ _))

/-- The commands before the one that tells the window: the acknowledgements,
and the one that asks. -/
def commandsBefore (kcp : IkcpCb) : Nat :=
  kcp.rcv.acklist.length + if Asks kcp then 1 else 0

/-- No window command comes when the commands before it fill whole packets. -/
def CommandsFit (kcp : IkcpCb) : Prop :=
  (Asks kcp →
    ¬ FillsPackets (kcp.mtu / ikcpOverhead) kcp.rcv.acklist.length) ∧
  (Tells kcp →
    ¬ FillsPackets (kcp.mtu / ikcpOverhead) (commandsBefore kcp))

/-- The `mtu` is one that `ikcp_setmtu` accepts. -/
def MtuInRange (kcp : IkcpCb) : Prop :=
  50 ≤ kcp.mtu ∧ kcp.mtu ≤ intMax

/-! ## The range of the `mtu` -/

section Mtu

variable {kcp after : IkcpCb}

theorem probeWindow_mtu : (probeWindow kcp).mtu = kcp.mtu := by
  rw [probeWindow]
  dsimp only
  split_ifs <;> rfl

theorem flushCommands_mtu : (flushCommands kcp).2.mtu = kcp.mtu :=
  probeWindow_mtu

theorem restartPeriod_mtu : (restartPeriod kcp).mtu = kcp.mtu := by
  rw [restartPeriod]
  split
  · rfl
  · rfl

theorem flushBehind_mtu (out : Outgoing 32) :
    (flushBehind kcp out).2.mtu = kcp.mtu :=
  restartPeriod_mtu

/-- What a flush that returns has done. -/
theorem ikcpFlush_cases {sent : List (List UInt8)}
    (returned : ikcpFlush kcp = some (sent, after)) :
    kcp.updated = false ∧ sent = [] ∧ after = kcp ∨
      kcp.updated = true ∧
        let flushed := flushBehind (flushCommands kcp).2 (flushCommands kcp).1
        sent = flushed.1.packets ∧ after = flushed.2 := by
  rw [ikcpFlush] at returned
  cases started : kcp.updated with
  | false =>
      rw [if_pos started] at returned
      obtain ⟨rfl, rfl⟩ := Prod.mk.inj (Option.some.inj returned)
      exact .inl ⟨rfl, rfl, rfl⟩
  | true =>
      rw [if_neg (by simp [started])] at returned
      dsimp only at returned
      split at returned
      · obtain ⟨rfl, rfl⟩ := Prod.mk.inj (Option.some.inj returned)
        exact .inr ⟨rfl, rfl, rfl⟩
      · cases returned

theorem ikcpFlush_mtu {sent : List (List UInt8)}
    (returned : ikcpFlush kcp = some (sent, after)) : after.mtu = kcp.mtu := by
  obtain ⟨-, -, rfl⟩ | ⟨-, -, left⟩ := ikcpFlush_cases returned
  · rfl
  · rw [left, flushBehind_mtu, flushCommands_mtu]

theorem schedule_mtu (current : IUINT32) :
    (schedule kcp current).2.mtu = kcp.mtu := by
  rw [schedule]
  dsimp only
  split_ifs <;> rfl

theorem measureTraffic_mtu (current : IUINT32) :
    (measureTraffic kcp current).mtu = kcp.mtu := by
  rw [measureTraffic]
  split_ifs <;> rfl

theorem ikcpUpdate_mtu {sent : List (List UInt8)} {current : IUINT32}
    (returned : ikcpUpdate kcp current = some (sent, after)) :
    after.mtu = kcp.mtu := by
  rw [ikcpUpdate, Option.map_eq_some_iff] at returned
  obtain ⟨⟨packets, flushed⟩, called, same⟩ := returned
  obtain ⟨-, rfl⟩ := Prod.mk.inj same
  rw [measureTraffic_mtu]
  split at called
  · rw [ikcpFlush_mtu called, schedule_mtu]
  · obtain ⟨-, rfl⟩ := Prod.mk.inj (Option.some.inj called)
    exact schedule_mtu current

theorem inputLoop_mtu (kcp : IkcpCb) (maxack : Option IUINT32) (data : List UInt8) :
    (inputLoop kcp maxack data).2.1.mtu = kcp.mtu := by
  induction length : data.length using Nat.strongRecOn
    generalizing kcp maxack data with
  | ind count ih =>
    rw [inputLoop]
    by_cases short : data.length < ikcpOverhead
    · rw [if_pos short]
    · have smaller : ((data.drop ikcpOverhead).drop
          (decodeHeader data).len).length < count := by
        rw [List.length_drop, List.length_drop]
        rw [ikcpOverhead] at short ⊢
        omega
      rw [if_neg short]
      dsimp only
      split
      · rfl
      · split
        · rfl
        · split
          · rfl
          · exact ih _ smaller _ _ _ rfl

theorem ikcpInput_mtu (data : List UInt8) :
    (ikcpInput kcp data).2.mtu = kcp.mtu := by
  have loop := inputLoop_mtu kcp none data
  rw [ikcpInput]
  dsimp only
  split_ifs
  · rfl
  · exact loop
  · exact loop

theorem ikcpSetmtu_inRange {mtu : Int} (valid : mtu ≤ intMax)
    (inRange : MtuInRange kcp) : MtuInRange (ikcpSetmtu kcp mtu) := by
  rw [ikcpSetmtu]
  split
  · exact inRange
  case isFalse accepted =>
    constructor
    · have low : 50 ≤ mtu.toNat := by omega
      exact low
    · have high : mtu.toNat ≤ intMax := by omega
      exact high

/-- Only `ikcp_setmtu` changes the `mtu`. -/
theorem call_inRange {label : Call} (inRange : MtuInRange kcp)
    (valid : label.Valid) (returned : call kcp label = some after) :
    MtuInRange after := by
  have kept (same : after.mtu = kcp.mtu) : MtuInRange after := by
    rw [MtuInRange, same]
    exact inRange
  cases label with
  | setmtu mtu =>
      obtain rfl := Option.some.inj returned
      exact ikcpSetmtu_inRange valid inRange
  | input data =>
      obtain rfl := Option.some.inj returned
      exact kept (ikcpInput_mtu data)
  | update current =>
      obtain ⟨⟨sent, _⟩, called, rfl⟩ := Option.map_eq_some_iff.1 returned
      exact kept (ikcpUpdate_mtu called)
  | flush =>
      obtain ⟨⟨sent, _⟩, called, rfl⟩ := Option.map_eq_some_iff.1 returned
      exact kept (ikcpFlush_mtu called)
  | _ =>
      obtain rfl := Option.some.inj returned
      exact kept rfl

theorem InUse.mtuInRange (inUse : InUse kcp) : MtuInRange kcp := by
  refine TransitionRuns.Reachable.invariant MtuInRange ?_ ?_ inUse
  · rintro kcp ⟨conv, stream, fastlimit, deadLink, rfl⟩
    have low : 50 ≤ ikcpMtuDef := by decide
    have high : ikcpMtuDef ≤ intMax := by decide
    exact ⟨low, high⟩
  · exact fun before label after inRange valid returned =>
      call_inRange inRange valid returned

end Mtu

/-! ## The window commands -/

section Commands

variable {kcp : IkcpCb} {start : IUINT32} {missing items : Nat}
variable {seg : Seg} {out : Outgoing 32}

/-- The remote window has been closed for long enough. -/
def ProbeDue (kcp : IkcpCb) : Prop :=
  kcp.snd.rmtWnd = 0 ∧ kcp.probeWait ≠ 0 ∧
    0 ≤ itimediff kcp.snd.current kcp.tsProbe

theorem probeWindow_due (isDue : ProbeDue kcp) :
    (probeWindow kcp).probe = kcp.probe ||| ikcpAskSend := by
  obtain ⟨closed, waiting, late⟩ := isDue
  rw [probeWindow]
  simp only [closed, waiting, late, if_true, if_false]

theorem probeWindow_early (early : ¬ ProbeDue kcp) :
    (probeWindow kcp).probe = kcp.probe := by
  rw [probeWindow]
  dsimp only
  split
  case isTrue closed =>
    split
    · rfl
    case isFalse waiting =>
      rw [if_neg fun late => early ⟨closed, waiting, late⟩]
  · rfl

theorem probeWindow_asks :
    (probeWindow kcp).probe &&& ikcpAskSend ≠ 0 ↔ Asks kcp := by
  by_cases isDue : ProbeDue kcp
  · have asked : (kcp.probe ||| ikcpAskSend) &&& ikcpAskSend ≠ 0 := by
      rw [BitVec.and_or_distrib_right, BitVec.and_self]
      intro none
      exact absurd (BitVec.or_eq_zero_iff.1 none).2 (by decide)
    rw [probeWindow_due isDue]
    exact ⟨fun _ => .inr isDue, fun _ => asked⟩
  · rw [probeWindow_early isDue]
    exact ⟨.inl, fun asks => asks.resolve_right isDue⟩

theorem probeWindow_tells :
    (probeWindow kcp).probe &&& ikcpAskTell ≠ 0 ↔ Tells kcp := by
  by_cases isDue : ProbeDue kcp
  · have apart : ikcpAskSend &&& ikcpAskTell = 0#32 := by decide
    rw [probeWindow_due isDue, BitVec.and_or_distrib_right, apart,
      BitVec.or_zero]
    rfl
  · rw [probeWindow_early isDue]
    rfl

theorem flushAcks_misses (misses : out.Misses start missing) (mtu : Nat)
    (seg : Seg) (acklist : List (IUINT32 × IUINT32)) :
    (flushAcks mtu seg acklist out).Misses start missing := by
  induction acklist generalizing out with
  | nil => exact misses
  | cons ack acklist ih => exact ih misses.gather_counted

/-- The buffer holds this number of headers. -/
def Holds (mtu items : Nat) (out : Outgoing 32) : Prop :=
  out.buffer.length = ikcpOverhead * inBuffer (mtu / ikcpOverhead) items

theorem Holds.gather {mtu : Nat} (holds : Holds mtu items out)
    (inRange : 50 ≤ mtu) (seg : Seg) (empty : seg.data = []) (counts : Bool) :
    Holds mtu (items + 1)
      (out.gather (limits mtu) counts (ikcpEncodeSeg seg)) := by
  have long : (ikcpEncodeSeg seg).length = ikcpOverhead := by
    rw [length_ikcpEncodeSeg, empty, List.length_nil, Nat.add_zero]
  exact length_gather (limits mtu) (by decide)
    (Nat.le_trans (by decide) inRange) long holds counts

theorem Holds.flushAcks {mtu : Nat} (holds : Holds mtu items out)
    (inRange : 50 ≤ mtu) (seg : Seg) (empty : seg.data = [])
    (acklist : List (IUINT32 × IUINT32)) :
    Holds mtu (items + acklist.length) (flushAcks mtu seg acklist out) := by
  induction acklist generalizing out items with
  | nil => exact holds
  | cons ack acklist ih =>
      have next := ih (holds.gather inRange
        { seg with sn := ack.1, ts := ack.2 } empty true)
      rwa [Nat.add_assoc, Nat.add_comm 1] at next

theorem flushProbe_misses {ask : IUINT32} {mtu : Nat} {asked : Prop}
    [Decidable asked] (cmd : Nat) (misses : out.Misses start missing)
    (holds : Holds mtu items out) (inRange : 50 ≤ mtu) (same : kcp.mtu = mtu)
    (asks : kcp.probe &&& ask ≠ 0 ↔ asked) (empty : seg.data = []) :
    (flushProbe kcp ask cmd seg out).Misses start (missing +
      if asked ∧ FillsPackets (mtu / ikcpOverhead) items then
        ikcpOverhead * (mtu / ikcpOverhead)
      else 0) := by
  have small : ikcpOverhead ≤ mtu := Nat.le_trans (by decide) inRange
  have long : (ikcpEncodeSeg { seg with cmd }).length = ikcpOverhead := by
    rw [length_ikcpEncodeSeg, empty, List.length_nil, Nat.add_zero]
  have full := full_iff_fillsPackets (limits mtu) (by decide)
    small long holds
  rw [flushProbe, same]
  by_cases due : asked
  · have gathered : (out.gather (limits mtu) false
        (ikcpEncodeSeg { seg with cmd })).Misses start _ := misses.gather false
    rw [if_pos (asks.2 due)]
    by_cases fills : FillsPackets (mtu / ikcpOverhead) items
    · have whole : out.buffer.length = ikcpOverhead * (mtu / ikcpOverhead) := by
        rw [holds, (inBuffer_eq_iff (Nat.div_pos small (by decide)) items).2
          fills]
      rw [if_pos ⟨rfl, full.2 fills⟩, whole] at gathered
      rwa [if_pos ⟨due, fills⟩]
    · rw [if_neg fun both => fills (full.1 both.2)] at gathered
      rwa [if_neg fun both => fills both.2]
  · rw [if_neg (mt asks.1 due), if_neg fun both => due both.1]
    exact misses

theorem Holds.flushProbe {ask : IUINT32} {mtu : Nat} {asked : Prop}
    [Decidable asked] (holds : Holds mtu items out) (cmd : Nat) (inRange : 50 ≤ mtu)
    (same : kcp.mtu = mtu) (asks : kcp.probe &&& ask ≠ 0 ↔ asked)
    (empty : seg.data = []) :
    Holds mtu (items + if asked then 1 else 0)
      (flushProbe kcp ask cmd seg out) := by
  rw [CommonIkcp.flushProbe, same]
  by_cases due : asked
  · rw [if_pos due, if_pos (asks.2 due)]
    exact holds.gather inRange { seg with cmd } empty false
  · rw [if_neg due, if_neg (mt asks.1 due)]
    exact holds

theorem lastAck_data (acklist : List (IUINT32 × IUINT32)) :
    (lastAck seg acklist).data = seg.data := by
  rw [lastAck]
  split
  · rfl
  · rfl

/-- What the counter misses of a flush. -/
def missed (kcp : IkcpCb) : Nat :=
  let per := kcp.mtu / ikcpOverhead
  (if Asks kcp ∧ FillsPackets per kcp.rcv.acklist.length then
    ikcpOverhead * per else 0) +
  if Tells kcp ∧ FillsPackets per (commandsBefore kcp) then
    ikcpOverhead * per else 0

theorem flushCommands_misses (inRange : 50 ≤ kcp.mtu) :
    (flushCommands kcp).1.Misses kcp.txBytesTotal (missed kcp) := by
  let ack : Seg :=
    { conv := kcp.conv, cmd := ikcpCmdAck, wnd := ikcpWndUnused kcp.rcv
      una := kcp.rcv.rcvNxt, data := [] }
  let probed := probeWindow { kcp with rcv := { kcp.rcv with acklist := [] } }
  have same : probed.mtu = kcp.mtu := probeWindow_mtu
  have asks : probed.probe &&& ikcpAskSend ≠ 0 ↔ Asks kcp := probeWindow_asks
  have tells : probed.probe &&& ikcpAskTell ≠ 0 ↔ Tells kcp :=
    probeWindow_tells
  have empty : (lastAck ack kcp.rcv.acklist).data = [] := lastAck_data _
  have unsent : ({ total := kcp.txBytesTotal } : Outgoing 32).Misses
      kcp.txBytesTotal 0 := rfl
  have nothing : Holds kcp.mtu 0 { total := kcp.txBytesTotal } := rfl
  have acked := flushAcks_misses unsent kcp.mtu ack kcp.rcv.acklist
  have acks := nothing.flushAcks inRange ack rfl kcp.rcv.acklist
  rw [Nat.zero_add] at acks
  have asked := flushProbe_misses ikcpCmdWask acked acks inRange same asks empty
  have asking := acks.flushProbe ikcpCmdWask inRange same asks empty
  have told := flushProbe_misses ikcpCmdWins asked asking inRange same tells
    empty
  rw [Nat.zero_add] at told
  have commands : (flushCommands kcp).1 =
      flushProbe probed ikcpAskTell ikcpCmdWins (lastAck ack kcp.rcv.acklist)
        (flushProbe probed ikcpAskSend ikcpCmdWask
          (lastAck ack kcp.rcv.acklist)
          (flushAcks kcp.mtu ack kcp.rcv.acklist
            { total := kcp.txBytesTotal })) := rfl
  rw [commands, missed, commandsBefore]
  exact told

theorem missed_eq_zero_iff (inRange : 50 ≤ kcp.mtu) :
    missed kcp = 0 ↔ CommandsFit kcp := by
  have whole : ikcpOverhead * (kcp.mtu / ikcpOverhead) ≠ 0 := by
    rw [ikcpOverhead]
    omega
  have none {condition : Prop} [Decidable condition] :
      (if condition then ikcpOverhead * (kcp.mtu / ikcpOverhead) else 0) = 0 ↔
        ¬ condition := by
    split
    case isTrue meets => simp [whole, meets]
    case isFalse fails => simp [fails]
  rw [missed, CommandsFit, Nat.add_eq_zero_iff, none, none, not_and, not_and]

theorem missed_lt (inRange : MtuInRange kcp) : missed kcp < 2 ^ 32 := by
  obtain ⟨-, high⟩ := inRange
  have whole : ikcpOverhead * (kcp.mtu / ikcpOverhead) ≤ kcp.mtu :=
    Nat.mul_div_le kcp.mtu ikcpOverhead
  rw [missed]
  rw [intMax] at high
  split_ifs <;> omega

end Commands

/-! ## The data and the whole flush -/

section Flush

variable {kcp after : IkcpCb} {start : IUINT32} {missing wnd : Nat}

theorem flushSegment_misses {flush : DataFlush}
    (misses : flush.out.Misses start missing) (seg : Seg) :
    (flushSegment kcp wnd seg flush).2.out.Misses start missing := by
  rw [flushSegment]
  split
  · exact misses
  · exact misses.gather_counted

theorem flushData_misses (segs : List Seg) {flush : DataFlush}
    (misses : flush.out.Misses start missing) :
    (flushData kcp wnd segs flush).2.out.Misses start missing := by
  induction segs generalizing flush with
  | nil => exact misses
  | cons seg rest ih => exact ih (flushSegment_misses misses seg)

theorem flushBehind_misses (kcp : IkcpCb) {out : Outgoing 32}
    (misses : out.Misses start missing) :
    (flushBehind kcp out).1.Misses start missing :=
  (flushData_misses _ misses).finish

theorem flushBehind_total (out : Outgoing 32) :
    (flushBehind kcp out).2.txBytesTotal = (flushBehind kcp out).1.total :=
  rfl

/-- A check of the flush after some calls. -/
theorem exists_flush (labels : List Call)
    (check : IkcpCb → List (List UInt8) × IkcpCb → Bool)
    (valid : ∀ label ∈ labels, label.Valid)
    (checks : ((TransitionRuns.run call (ikcpCreate 0) labels).any fun kcp =>
      (ikcpFlush kcp).any (check kcp)) = true) :
    ∃ kcp sent after, InUse kcp ∧ ikcpFlush kcp = some (sent, after) ∧
      check kcp (sent, after) = true := by
  obtain ⟨kcp, runs, flushes⟩ := (Option.any_eq_true _ _).1 checks
  obtain ⟨⟨sent, after⟩, returned, checked⟩ :=
    (Option.any_eq_true _ _).1 flushes
  have fresh : Fresh (ikcpCreate 0) := ⟨0, false, 5, 20, rfl⟩
  exact ⟨kcp, sent, after, (TransitionRuns.Reachable.start fresh).append_run
    (TransitionRuns.stepsMeet_of_forall (fun label member _ =>
      valid label member) _) runs, returned, checked⟩

/-- A flush is counted in full exactly when no window command meets a full
packet. -/
theorem ikcpFlush_counts_iff {sent : List (List UInt8)} (inUse : InUse kcp)
    (returned : ikcpFlush kcp = some (sent, after)) :
    after.txBytesTotal = kcp.txBytesTotal +
        BitVec.ofNat 32 (sent.map List.length).sum ↔
      kcp.updated = false ∨ CommandsFit kcp := by
  have inRange := inUse.mtuInRange
  obtain ⟨idle, rfl, rfl⟩ | ⟨started, packets, left⟩ :=
    ikcpFlush_cases returned
  · have none : ([] : List (List UInt8)).map List.length = [] := rfl
    simp [idle, none]
  · have misses := flushBehind_misses (flushCommands kcp).2
      (flushCommands_misses inRange.1)
    have counted := (misses.exact_iff (missed_lt inRange)).trans
      (missed_eq_zero_iff inRange.1)
    have awake : ¬ kcp.updated = false := by simp [started]
    have lengths (out : Outgoing 32) :
        (out.packets.map List.length).sum = out.lengths := rfl
    rw [or_iff_right awake, left, packets, flushBehind_total, lengths]
    exact counted

/-- A byte that is sent. -/
theorem ikcpFlush_counts_byte : ∃ kcp sent after, InUse kcp ∧
    ikcpFlush kcp = some (sent, after) ∧ sent.length = 1 ∧
      (after.txBytesTotal = kcp.txBytesTotal +
          BitVec.ofNat 32 (sent.map List.length).sum ↔
        kcp.updated = false ∨ CommandsFit kcp) := by
  obtain ⟨kcp, sent, after, inUse, returned, checked⟩ := exists_flush
    [.update 0, .send [7]] (fun _ flushed => flushed.1.length = 1)
    (by simp [Call.Valid, intMax]) (by decide +kernel)
  exact ⟨kcp, sent, after, inUse, returned, by simpa using checked,
    ikcpFlush_counts_iff inUse returned⟩

/-- With an `mtu` of 50 two acknowledgements fill a packet, and the window
command sends it. -/
theorem not_forall_flush_counts : ¬ ∀ kcp sent after, InUse kcp →
    ikcpFlush kcp = some (sent, after) →
      after.txBytesTotal = kcp.txBytesTotal +
        BitVec.ofNat 32 (sent.map List.length).sum := by
  intro all
  obtain ⟨kcp, sent, after, inUse, returned, checked⟩ := exists_flush
    [.update 0, .setmtu 50,
      .input (ikcpEncodeSeg { cmd := ikcpCmdPush, sn := 0, data := [1] }),
      .input (ikcpEncodeSeg { cmd := ikcpCmdPush, sn := 1, data := [2] }),
      .input (ikcpEncodeSeg { cmd := ikcpCmdWask, data := [] })]
    (fun kcp flushed => flushed.2.txBytesTotal ≠ kcp.txBytesTotal +
      BitVec.ofNat 32 (flushed.1.map List.length).sum)
    (by simp [Call.Valid, intMax, ikcpOverhead]) (by decide +kernel)
  exact of_decide_eq_true checked (all kcp sent after inUse returned)

end Flush

end CommonIkcp

end MbedtlsKcp
