import MbedtlsKcp.BleReceiver
import MbedtlsKcp.TransitionRuns

/-!
# What the BLE reassembly delivers

The receiver keeps the number of stored packets, the next sequence number, the
type and the buffered length, but not the announced total.  While every stored
packet announces a non-zero total that agrees with the bundle it continues,
each delivery is one whole message; and the receiver is empty whenever it is
idle exactly as long as no packet leaves a residue behind.
-/

namespace MbedtlsKcp

namespace BleReceiver

open ByteBuffers TransitionRuns

section Aggregation

variable {m : BleMgr} {packet : BlePacket}

@[simp]
theorem bleDataClear_curBundlingState (m : BleMgr) :
    (bleDataClear m).curBundlingState = .idle :=
  rfl

@[simp]
theorem bleDataClear_dataBufLen (m : BleMgr) :
    (bleDataClear m).dataBufLen = 0 :=
  rfl

@[simp]
theorem bleDataClear_dataBufPacketNum (m : BleMgr) :
    (bleDataClear m).dataBufPacketNum = 0 :=
  rfl

@[simp]
theorem bleDataClear_recvCb (m : BleMgr) :
    (bleDataClear m).recvCb = m.recvCb :=
  rfl

/-- Filing a message only touches the network settings. -/
theorem bleMgrParse_eq (m : BleMgr) (type : UInt8) (buf : List UInt8)
    (size : Nat) :
    bleMgrParse m type buf size =
      { m with connectInfo := (bleMgrParse m type buf size).connectInfo } := by
  unfold bleMgrParse
  dsimp only
  split_ifs <;> rfl

@[simp]
theorem bleMgrParse_recvCb (m : BleMgr) (type : UInt8) (buf : List UInt8)
    (size : Nat) : (bleMgrParse m type buf size).recvCb = m.recvCb := by
  rw [bleMgrParse_eq]

@[simp]
theorem bleMgrParse_curPacketType (m : BleMgr) (type : UInt8)
    (buf : List UInt8) (size : Nat) :
    (bleMgrParse m type buf size).curPacketType = m.curPacketType := by
  rw [bleMgrParse_eq]

@[simp]
theorem bleMgrParse_dataBuf (m : BleMgr) (type : UInt8) (buf : List UInt8)
    (size : Nat) : (bleMgrParse m type buf size).dataBuf = m.dataBuf := by
  rw [bleMgrParse_eq]

@[simp]
theorem bleMgrParse_dataBufLen (m : BleMgr) (type : UInt8)
    (buf : List UInt8) (size : Nat) :
    (bleMgrParse m type buf size).dataBufLen = m.dataBufLen := by
  rw [bleMgrParse_eq]

theorem aggregation_of_rejects (rejects : ¬ bleAccepts m packet) :
    bleMgrDataAggregation m packet = (bleDataClear m, none) :=
  if_neg rejects

/-- A packet that completes its message is delivered and clears the
receiver. -/
theorem aggregation_of_completes (accepts : bleAccepts m packet)
    (completes : packet.packet_total_num.toNat = m.dataBufPacketNum + 1)
    (registered : m.recvCb = true) :
    ∃ parsed : BleMgr, parsed.recvCb = true ∧
      bleMgrDataAggregation m packet =
        (bleDataClear parsed,
          some ⟨packet.type, (bleStorePacket m packet).dataBuf.take
            (bleStorePacket m packet).dataBufLen⟩) := by
  let complete : BleMgr :=
    { bleStorePacket m packet with curBundlingState := .idle }
  refine ⟨bleMgrParse complete complete.curPacketType complete.dataBuf
    complete.dataBufLen, (bleMgrParse_recvCb ..).trans registered, ?_⟩
  simp only [bleMgrDataAggregation, if_pos accepts]
  rw [if_pos (by exact completes), if_pos (by exact registered)]
  simp only [bleMgrParse_curPacketType, bleMgrParse_dataBuf,
    bleMgrParse_dataBufLen]
  rfl

theorem aggregation_of_completes_unregistered
    (accepts : bleAccepts m packet)
    (completes : packet.packet_total_num.toNat = m.dataBufPacketNum + 1)
    (unregistered : m.recvCb = false) :
    bleMgrDataAggregation m packet =
      ({ bleStorePacket m packet with curBundlingState := .idle }, none) := by
  simp only [bleMgrDataAggregation, if_pos accepts]
  rw [if_pos (by exact completes), if_neg]
  simpa [bleStorePacket] using unregistered

theorem aggregation_of_continues (accepts : bleAccepts m packet)
    (continues : m.dataBufPacketNum + 1 < packet.packet_total_num.toNat) :
    bleMgrDataAggregation m packet =
      ({ bleStorePacket m packet with
          curBundlingState := .bundling
          nextPacketIndex := packet.packet_seq.toNat + 1 }, none) := by
  simp only [bleMgrDataAggregation, if_pos accepts]
  rw [if_neg (by simp only [bleStorePacket]; omega),
    if_pos (by exact continues)]

/-- The branch the source leaves out: the count has overtaken the announced
total, and the packet stays in the buffer. -/
theorem aggregation_of_exceeds (accepts : bleAccepts m packet)
    (exceeds : packet.packet_total_num.toNat < m.dataBufPacketNum + 1) :
    bleMgrDataAggregation m packet = (bleStorePacket m packet, none) := by
  simp only [bleMgrDataAggregation, if_pos accepts]
  rw [if_neg (by simp only [bleStorePacket]; omega),
    if_neg (by simp only [bleStorePacket]; omega)]

end Aggregation

/-- The receiver's buffer holds exactly the packets of `bundle`. -/
structure BufferHolds (m : BleMgr) (bundle : List BlePacket) : Prop where
  capacity : m.dataBuf.length = MAX_BLE_DATA_SIZE
  count : m.dataBufPacketNum = bundle.length
  length : m.dataBufLen = (bundle.flatMap BlePacket.data).length
  bytes : m.dataBuf.take m.dataBufLen = bundle.flatMap BlePacket.data

theorem bufferHolds_clear (m : BleMgr) : BufferHolds (bleDataClear m) [] where
  capacity := List.length_replicate
  count := rfl
  length := rfl
  bytes := rfl

theorem bufferHolds_init (recvCb : Bool) :
    BufferHolds (bleMgrInit recvCb) [] where
  capacity := List.length_replicate
  count := rfl
  length := rfl
  bytes := rfl

theorem BufferHolds.store {m : BleMgr} {bundle : List BlePacket}
    (holds : BufferHolds m bundle) {packet : BlePacket}
    (accepts : bleAccepts m packet)
    (carries : packet.data.length = packet.payload_len.toNat) :
    BufferHolds (bleStorePacket m packet) (bundle ++ [packet]) := by
  have room := accepts.1
  simp only [BLE_MIN_PACKET_SIZE, MAX_BLE_DATA_SIZE] at room
  have capacity : m.dataBuf.length = 2048 := holds.capacity
  constructor
  · rw [bleStorePacket, length_overwrite (by omega)]
    exact holds.capacity
  · simp [bleStorePacket, holds.count]
  · simp only [bleStorePacket, List.flatMap_append, List.flatMap_cons,
      List.flatMap_nil, List.append_nil, List.length_append, carries,
      holds.length]
  · simp only [bleStorePacket, List.flatMap_append, List.flatMap_cons,
      List.flatMap_nil, List.append_nil]
    rw [← carries, take_overwrite _ (by omega), holds.bytes]

/-- A run of packets of one message: one type, one total and consecutive
sequence numbers from the first packet on. -/
structure IsBundle (bundle : List BlePacket) (first : BlePacket) : Prop where
  head : bundle.head? = some first
  type : ∀ packet ∈ bundle, packet.type = first.type
  total : ∀ packet ∈ bundle,
    packet.packet_total_num = first.packet_total_num
  seq : ∀ index (inside : index < bundle.length),
    (bundle[index]).packet_seq.toNat = first.packet_seq.toNat + index

theorem isBundle_singleton (packet : BlePacket) :
    IsBundle [packet] packet where
  head := rfl
  type := by simp
  total := by simp
  seq := by
    intro index inside
    obtain rfl : index = 0 := by simpa using inside
    rfl

theorem IsBundle.snoc {bundle : List BlePacket} {first packet : BlePacket}
    (isBundle : IsBundle bundle first) (type : packet.type = first.type)
    (total : packet.packet_total_num = first.packet_total_num)
    (seq : packet.packet_seq.toNat =
      first.packet_seq.toNat + bundle.length) :
    IsBundle (bundle ++ [packet]) first where
  head := by
    have nonempty : bundle ≠ [] := by
      rintro rfl
      simpa using isBundle.head
    rw [List.head?_append_of_ne_nil _ nonempty]
    exact isBundle.head
  type := by
    intro other member
    rcases List.mem_append.mp member with old | new
    · exact isBundle.type other old
    · rw [List.mem_singleton.mp new, type]
  total := by
    intro other member
    rcases List.mem_append.mp member with old | new
    · exact isBundle.total other old
    · rw [List.mem_singleton.mp new, total]
  seq := by
    intro index inside
    rw [List.length_append, List.length_singleton] at inside
    by_cases old : index < bundle.length
    · rw [List.getElem_append_left old]
      exact isBundle.seq index old
    · obtain rfl : index = bundle.length := by omega
      rw [List.getElem_concat_length rfl]
      exact seq

/-- The receiver together with the packets it has been given. -/
structure BleHistory where
  mgr : BleMgr
  received : List BlePacket

def bleHistoryInit (recvCb : Bool) : BleHistory :=
  ⟨bleMgrInit recvCb, []⟩

/-- One call of `ble_mgr_data_recv_uart` with its packet recorded. -/
def bleHistoryStep (history : BleHistory) (umsg : Option UartMsg) :
    Option BleHistory :=
  some ⟨(bleMgrDataRecvUart history.mgr umsg).1,
    history.received ++ (receivedPacket umsg).toList⟩

/-- A delivery is the concatenation of the last `total` packets received, and
these form one message. -/
def Genuine (received : List BlePacket) (delivery : Delivery) : Prop :=
  ∃ before bundle first, received = before ++ bundle ∧
    IsBundle bundle first ∧
    bundle.length = first.packet_total_num.toNat ∧
    delivery = ⟨first.type, bundle.flatMap BlePacket.data⟩

/-- A stored packet announces a non-zero total, and inside a bundle the same
total as the packet before it. -/
def TotalsAgree (history : BleHistory) (umsg : Option UartMsg) : Prop :=
  ∀ packet, receivedPacket umsg = some packet →
    bleAccepts history.mgr packet →
      packet.packet_total_num ≠ 0 ∧
        (history.mgr.curBundlingState = .bundling →
          ∀ last ∈ history.received.getLast?,
            packet.packet_total_num = last.packet_total_num)

/-- What the receiver holds between two calls: nothing while idle, and the
open bundle at the end of the history while bundling. -/
inductive Collecting (history : BleHistory) : Prop
  | idle (state : history.mgr.curBundlingState = .idle)
      (empty : BufferHolds history.mgr []) : Collecting history
  | bundling {before bundle : List BlePacket} {first : BlePacket}
      (state : history.mgr.curBundlingState = .bundling)
      (suffix : history.received = before ++ bundle)
      (isBundle : IsBundle bundle first)
      (holds : BufferHolds history.mgr bundle)
      (short : bundle.length < first.packet_total_num.toNat)
      (next : history.mgr.nextPacketIndex =
        first.packet_seq.toNat + bundle.length)
      (type : history.mgr.curPacketType = first.type) : Collecting history

/-- The bundle that an accepted packet extends. -/
theorem Collecting.extend {history : BleHistory}
    (collecting : Collecting history) {packet : BlePacket}
    {umsg : Option UartMsg} (received : receivedPacket umsg = some packet)
    (agree : TotalsAgree history umsg)
    (accepts : bleAccepts history.mgr packet) :
    ∃ before bundle first, history.received ++ [packet] = before ++ bundle ∧
      IsBundle bundle first ∧ packet.type = first.type ∧
      packet.packet_total_num = first.packet_total_num ∧
      packet.packet_seq.toNat + 1 =
        first.packet_seq.toNat + bundle.length ∧
      bundle.length = history.mgr.dataBufPacketNum + 1 ∧
      bundle.length ≤ packet.packet_total_num.toNat ∧
      BufferHolds (bleStorePacket history.mgr packet) bundle := by
  have carries := (receivedPacket_data received).2
  obtain ⟨nonzero, sameTotal⟩ := agree packet received accepts
  cases collecting with
  | idle state empty =>
      have positive : packet.packet_total_num.toNat ≠ 0 := by
        intro zero
        exact nonzero (UInt8.toNat_inj.mp zero)
      have stored := empty.store accepts carries
      refine ⟨history.received, [packet], packet, rfl,
        isBundle_singleton packet, rfl, rfl, rfl, ?_, ?_,
        by simpa using stored⟩
      · simp [empty.count]
      · simp only [List.length_singleton]
        omega
  | @bundling before bundle first state suffix isBundle holds short next type =>
      obtain ⟨seqEq, typeEq⟩ := accepts.2 state
      have nonempty : bundle ≠ [] := by
        rintro rfl
        simpa using isBundle.head
      have lastMember : bundle.getLast nonempty ∈ history.received.getLast? := by
        rw [suffix, List.getLast?_append_of_ne_nil _ nonempty,
          List.getLast?_eq_some_getLast nonempty]
        rfl
      have totalEq : packet.packet_total_num = first.packet_total_num :=
        (sameTotal state _ lastMember).trans
          (isBundle.total _ (List.getLast_mem nonempty))
      refine ⟨before, bundle ++ [packet], first, by simp [suffix],
        isBundle.snoc (typeEq.trans type) totalEq (seqEq.trans next),
        typeEq.trans type, totalEq, ?_, ?_, ?_,
        holds.store accepts carries⟩
      · rw [seqEq, next, List.length_append, List.length_singleton]
        omega
      · simp [holds.count]
      · rw [totalEq, List.length_append, List.length_singleton]
        exact short

theorem collecting_init (recvCb : Bool) :
    Collecting (bleHistoryInit recvCb) :=
  .idle rfl (bufferHolds_init recvCb)

theorem Collecting.step {history next : BleHistory} {umsg : Option UartMsg}
    (collecting : Collecting history) (registered : history.mgr.recvCb = true)
    (agree : TotalsAgree history umsg)
    (steps : bleHistoryStep history umsg = some next) :
    Collecting next ∧ next.mgr.recvCb = true := by
  obtain rfl := Option.some.inj steps
  cases received : receivedPacket umsg with
  | none =>
      obtain ⟨code, unchanged⟩ :=
        bleMgrDataRecvUart_of_rejected (m := history.mgr) received
      simp only [unchanged, Option.toList_none, List.append_nil]
      exact ⟨collecting, registered⟩
  | some packet =>
      rw [bleMgrDataRecvUart_of_packet received]
      by_cases accepts : bleAccepts history.mgr packet
      · obtain ⟨before, bundle, first, suffix, isBundle, typeEq, totalEq,
          seqEq, count, bounded, stored⟩ :=
          collecting.extend received agree accepts
        by_cases completes : packet.packet_total_num.toNat =
            history.mgr.dataBufPacketNum + 1
        · obtain ⟨parsed, parsedCb, result⟩ :=
            aggregation_of_completes accepts completes registered
          rw [result]
          exact ⟨.idle rfl (bufferHolds_clear parsed), parsedCb⟩
        · have continues : history.mgr.dataBufPacketNum + 1 <
              packet.packet_total_num.toNat := by omega
          rw [aggregation_of_continues accepts continues]
          refine ⟨.bundling rfl suffix isBundle
            ⟨stored.capacity, stored.count, stored.length, stored.bytes⟩
            ?_ seqEq typeEq, registered⟩
          rw [← totalEq, count]
          exact continues
      · rw [aggregation_of_rejects accepts]
        exact ⟨.idle rfl (bufferHolds_clear _), registered⟩

/-- The delivery of a call in a given history. -/
def bleDelivery (history : BleHistory) (umsg : Option UartMsg) :
    Option Delivery :=
  (bleMgrDataRecvUart history.mgr umsg).2.2

/-- Only an accepted packet that completes its count is delivered. -/
theorem bleDelivery_cases {history : BleHistory} {umsg : Option UartMsg}
    {delivery : Delivery} (delivers : bleDelivery history umsg = some delivery) :
    ∃ packet, receivedPacket umsg = some packet ∧
      bleAccepts history.mgr packet ∧ history.mgr.recvCb = true ∧
      packet.packet_total_num.toNat = history.mgr.dataBufPacketNum + 1 ∧
      delivery = ⟨packet.type,
        (bleStorePacket history.mgr packet).dataBuf.take
          (bleStorePacket history.mgr packet).dataBufLen⟩ := by
  cases received : receivedPacket umsg with
  | none =>
      obtain ⟨code, unchanged⟩ :=
        bleMgrDataRecvUart_of_rejected (m := history.mgr) received
      simp [bleDelivery, unchanged] at delivers
  | some packet =>
      rw [bleDelivery, bleMgrDataRecvUart_of_packet received] at delivers
      by_cases accepts : bleAccepts history.mgr packet
      · rcases lt_trichotomy packet.packet_total_num.toNat
          (history.mgr.dataBufPacketNum + 1) with exceeds | completes | continues
        · simp [aggregation_of_exceeds accepts exceeds] at delivers
        · cases registered : history.mgr.recvCb with
          | false =>
              simp [aggregation_of_completes_unregistered accepts completes
                registered] at delivers
          | true =>
              obtain ⟨parsed, _, result⟩ :=
                aggregation_of_completes accepts completes registered
              rw [result] at delivers
              exact ⟨packet, rfl, accepts, rfl, completes,
                (Option.some.inj delivers).symm⟩
        · simp [aggregation_of_continues accepts continues] at delivers
      · simp [aggregation_of_rejects accepts] at delivers

theorem recvCb_bleHistoryStep {history next : BleHistory}
    {umsg : Option UartMsg}
    (steps : bleHistoryStep history umsg = some next) :
    next.mgr.recvCb = history.mgr.recvCb := by
  obtain rfl := Option.some.inj steps
  cases received : receivedPacket umsg with
  | none =>
      obtain ⟨code, unchanged⟩ :=
        bleMgrDataRecvUart_of_rejected (m := history.mgr) received
      simp [unchanged]
  | some packet =>
      rw [bleMgrDataRecvUart_of_packet received]
      simp only [bleMgrDataAggregation]
      split
      · split
        · split <;> simp [bleStorePacket]
        · split <;> rfl
      · rfl

/-- The receiver collects one message at a time while the announced totals
agree, whatever else the packets contain. -/
theorem collecting_of_reachable {recvCb : Bool} {history : BleHistory}
    (reached : Reachable (· = bleHistoryInit recvCb) bleHistoryStep
      TotalsAgree history) (registered : history.mgr.recvCb = true) :
    Collecting history := by
  have kept : history.mgr.recvCb = true → Collecting history := by
    refine reached.invariant
      (fun other => other.mgr.recvCb = true → Collecting other) ?_ ?_
    · rintro _ rfl _
      exact collecting_init recvCb
    · intro before umsg after collecting agree steps afterCb
      have beforeCb := (recvCb_bleHistoryStep steps).symm.trans afterCb
      exact ((collecting beforeCb).step beforeCb agree steps).1
  exact kept registered

/-- While every stored packet announces a non-zero total that agrees with the
bundle it continues, every delivery is one whole message. -/
theorem genuine_of_totalsAgree {recvCb : Bool} {history : BleHistory}
    (reached : Reachable (· = bleHistoryInit recvCb) bleHistoryStep
      TotalsAgree history) {umsg : Option UartMsg}
    (agree : TotalsAgree history umsg) {delivery : Delivery}
    (delivers : bleDelivery history umsg = some delivery) :
    Genuine (history.received ++ (receivedPacket umsg).toList) delivery := by
  obtain ⟨packet, received, accepts, registered, completes, rfl⟩ :=
    bleDelivery_cases delivers
  obtain ⟨before, bundle, first, suffix, isBundle, typeEq, totalEq, _,
    count, _, stored⟩ :=
    (collecting_of_reachable reached registered).extend received agree accepts
  refine ⟨before, bundle, first, by simpa [received] using suffix, isBundle,
    ?_, ?_⟩
  · rw [count, ← totalEq, completes]
  · rw [typeEq, stored.bytes]

/-- A message of two packets is delivered whole. -/
theorem genuine_two_packets :
    ∃ history delivery,
      bleDelivery history (some (bleUartMsg 6 2 1 [0xBB])) = some delivery ∧
        Genuine (history.received ++
          (receivedPacket (some (bleUartMsg 6 2 1 [0xBB]))).toList)
          delivery := by
  let first : Option UartMsg := some (bleUartMsg 6 2 0 [0xAA])
  let second : Option UartMsg := some (bleUartMsg 6 2 1 [0xBB])
  let middle : BleHistory :=
    ⟨(bleMgrDataRecvUart (bleMgrInit true) first).1,
      (receivedPacket first).toList⟩
  have firstAgrees : TotalsAgree (bleHistoryInit true) first := by
    intro packet received _
    have total : (receivedPacket first).map (·.packet_total_num) = some 2 := by
      decide +kernel
    rw [received] at total
    refine ⟨by simp_all, ?_⟩
    intro bundling
    cases bundling
  have secondAgrees : TotalsAgree middle second := by
    intro packet received _
    have total : (receivedPacket second).map (·.packet_total_num) = some 2 := by
      decide +kernel
    have lastTotal : middle.received.getLast?.map (·.packet_total_num) =
        some 2 := by decide +kernel
    rw [received] at total
    refine ⟨by simp_all, ?_⟩
    intro _ last isLast
    rw [Option.mem_def.mp isLast] at lastTotal
    simp_all
  have delivers : bleDelivery middle second = some ⟨6, [0xAA, 0xBB]⟩ := by
    decide +kernel
  exact ⟨middle, _, delivers,
    genuine_of_totalsAgree (.next (.start rfl) firstAgrees rfl) secondAgrees
      delivers⟩

/-- A stored packet that announces no packets at all stays in the buffer, and
the next message is delivered with its bytes in front. -/
theorem not_forall_delivery_genuine :
    ¬ ∀ (recvCb : Bool) (history : BleHistory) (umsg : Option UartMsg)
      (delivery : Delivery),
      Reachable (· = bleHistoryInit recvCb) bleHistoryStep
        (fun _ _ => True) history →
      bleDelivery history umsg = some delivery →
        Genuine (history.received ++ (receivedPacket umsg).toList)
          delivery := by
  intro claim
  let residue : Option UartMsg := some (bleUartMsg 5 0 7 [0xAA])
  let opening : Option UartMsg := some (bleUartMsg 6 2 0 [0xBB])
  let middle : BleHistory :=
    ⟨(bleMgrDataRecvUart (bleMgrInit true) residue).1,
      (receivedPacket residue).toList⟩
  have delivers : bleDelivery middle opening = some ⟨6, [0xAA, 0xBB]⟩ := by
    decide +kernel
  obtain ⟨before, bundle, first, suffix, isBundle, _, delivered⟩ :=
    claim true middle opening _ (.next (.start rfl) trivial rfl) delivers
  have received : (middle.received ++ (receivedPacket opening).toList).map
      (fun packet => (packet.type, packet.data)) =
      [(5, [0xAA]), (6, [0xBB])] := by
    decide +kernel
  rw [suffix, List.map_append] at received
  simp only [Delivery.mk.injEq] at delivered
  obtain ⟨typeEq, bytesEq⟩ := delivered
  match before, received with
  | [], received =>
      match bundle, isBundle.head with
      | opener :: rest, head =>
          obtain rfl := Option.some.inj head
          simp [← typeEq] at received
  | [_], received =>
      match bundle with
      | [] => simp at received
      | [only] =>
          have : only.data = [0xBB] := by
            simp only [List.map_cons, List.map_nil, List.singleton_append,
              List.cons.injEq, Prod.mk.injEq] at received
            exact received.2.1.2
          simp [this] at bytesEq
      | _ :: _ :: _ => simp at received
  | [_, _], received =>
      obtain ⟨_, _, rfl⟩ : _ ∧ _ ∧ bundle = [] := by simpa using received
      simpa using isBundle.head
  | _ :: _ :: _ :: _, received => simp at received

/-- Nothing is left over while the receiver is idle. -/
def IdleEmpty (m : BleMgr) : Prop :=
  m.curBundlingState = .idle → m.dataBufLen = 0 ∧ m.dataBufPacketNum = 0

/-- One call of `ble_mgr_data_recv_uart`. -/
def bleStep (m : BleMgr) (umsg : Option UartMsg) : Option BleMgr :=
  some (bleMgrDataRecvUart m umsg).1

/-- An accepted packet announces at least one packet when it opens a message,
and completes a message only if there is a callback to take it. -/
def ResidueFree (m : BleMgr) (umsg : Option UartMsg) : Prop :=
  ∀ packet, receivedPacket umsg = some packet → bleAccepts m packet →
    (m.curBundlingState = .idle → packet.packet_total_num ≠ 0) ∧
      (m.recvCb = false →
        packet.packet_total_num.toNat ≠ m.dataBufPacketNum + 1)

/-- A step empties the idle receiver exactly if it leaves no residue. -/
theorem idleEmpty_step_iff {m next : BleMgr} {umsg : Option UartMsg}
    (empty : IdleEmpty m) (steps : bleStep m umsg = some next) :
    IdleEmpty next ↔ ResidueFree m umsg := by
  obtain rfl := Option.some.inj steps
  cases received : receivedPacket umsg with
  | none =>
      obtain ⟨code, unchanged⟩ := bleMgrDataRecvUart_of_rejected (m := m) received
      simp [unchanged, empty, ResidueFree, received]
  | some packet =>
      rw [bleMgrDataRecvUart_of_packet received]
      have residueFree_iff : ResidueFree m umsg ↔
          (bleAccepts m packet →
            (m.curBundlingState = .idle → packet.packet_total_num ≠ 0) ∧
              (m.recvCb = false →
                packet.packet_total_num.toNat ≠ m.dataBufPacketNum + 1)) := by
        simp [ResidueFree, received]
      rw [residueFree_iff]
      have nonzero_iff : packet.packet_total_num ≠ 0 ↔
          packet.packet_total_num.toNat ≠ 0 := by
        rw [ne_eq, ne_eq, ← UInt8.toNat_inj]
        rfl
      rw [nonzero_iff]
      by_cases accepts : bleAccepts m packet
      · simp only [accepts, true_implies]
        rcases lt_trichotomy packet.packet_total_num.toNat
          (m.dataBufPacketNum + 1) with exceeds | completes | continues
        · rw [aggregation_of_exceeds accepts exceeds]
          cases state : m.curBundlingState with
          | idle =>
              have noPackets := (empty state).2
              constructor
              · intro after
                exact absurd (after state).2 (Nat.succ_ne_zero _)
              · rintro ⟨nonzero, _⟩
                exact absurd (nonzero rfl) (by omega)
          | bundling =>
              simp only [IdleEmpty, bleStorePacket, state, reduceCtorEq,
                false_implies, true_and, true_iff]
              omega
        · cases registered : m.recvCb with
          | false =>
              rw [aggregation_of_completes_unregistered accepts completes
                registered]
              simp [IdleEmpty, bleStorePacket, completes]
          | true =>
              obtain ⟨parsed, _, result⟩ :=
                aggregation_of_completes accepts completes registered
              rw [result]
              simp only [IdleEmpty, bleDataClear_curBundlingState,
                bleDataClear_dataBufLen, bleDataClear_dataBufPacketNum]
              simp [completes]
        · rw [aggregation_of_continues accepts continues]
          simp only [IdleEmpty, reduceCtorEq, false_implies, true_iff]
          omega
      · simp [aggregation_of_rejects accepts, accepts, IdleEmpty]

/-- The deliveries of a list of calls, in order. -/
def bleDeliveries : BleMgr → List (Option UartMsg) → List Delivery
  | _, [] => []
  | m, umsg :: calls =>
      (bleMgrDataRecvUart m umsg).2.2.toList ++
        bleDeliveries (bleMgrDataRecvUart m umsg).1 calls

/-- A message as a sender splits it: one type, the number of packets as their
total, consecutive sequence numbers, and payloads that fit the buffer
together. -/
structure WellFormed (message : List BlePacket) (first : BlePacket) : Prop
    extends IsBundle message first where
  complete : first.packet_total_num.toNat = message.length
  fits : (message.flatMap BlePacket.data).length + BLE_MIN_PACKET_SIZE <
    MAX_BLE_DATA_SIZE

/-- The receiver after the packets `stored` of a message whose packet
`first` came first. -/
structure Bundled (m : BleMgr) (stored : List BlePacket)
    (first : BlePacket) : Prop where
  holds : BufferHolds m stored
  idle : stored = [] → m.curBundlingState = .idle
  bundling : stored ≠ [] → m.curBundlingState = .bundling ∧
    m.nextPacketIndex = first.packet_seq.toNat + stored.length ∧
    m.curPacketType = first.type

/-- The rest of a well-formed message is accepted packet by packet and
delivered at its end. -/
theorem deliveries_of_rest {m : BleMgr} {first : BlePacket}
    {stored rest : List BlePacket} {calls : List (Option UartMsg)}
    (registered : m.recvCb = true)
    (message : WellFormed (stored ++ rest) first)
    (bundled : Bundled m stored first) (remains : rest ≠ [])
    (carry : calls.map receivedPacket = rest.map some) :
    bleDeliveries m calls =
      [⟨first.type, (stored ++ rest).flatMap BlePacket.data⟩] := by
  induction rest generalizing m stored calls with
  | nil => exact absurd rfl remains
  | cons packet rest ih =>
      obtain ⟨umsg, calls, rfl⟩ : ∃ umsg others, calls = umsg :: others := by
        cases calls with
        | nil => simp at carry
        | cons umsg others => exact ⟨umsg, others, rfl⟩
      simp only [List.map_cons, List.cons.injEq] at carry
      obtain ⟨received, carryRest⟩ := carry
      have carries := (receivedPacket_data received).2
      have member : packet ∈ stored ++ packet :: rest := by simp
      have total : packet.packet_total_num.toNat =
          stored.length + 1 + rest.length := by
        rw [message.total packet member, message.complete]
        simp only [List.length_append, List.length_cons]
        omega
      have seq : packet.packet_seq.toNat =
          first.packet_seq.toNat + stored.length := by
        simpa using message.seq stored.length (by simp)
      have accepts : bleAccepts m packet := by
        constructor
        · have fits := message.fits
          simp only [List.flatMap_append, List.flatMap_cons,
            List.length_append] at fits
          rw [bundled.holds.length, ← carries]
          omega
        · intro bundling
          have nonempty : stored ≠ [] := by
            intro empty
            rw [bundled.idle empty] at bundling
            cases bundling
          obtain ⟨_, next, type⟩ := bundled.bundling nonempty
          exact ⟨seq.trans next.symm,
            (message.type packet member).trans type.symm⟩
      have holds := bundled.holds.store accepts carries
      have count := bundled.holds.count
      rw [bleDeliveries, bleMgrDataRecvUart_of_packet received]
      cases rest with
      | nil =>
          obtain ⟨parsed, _, result⟩ := aggregation_of_completes accepts
            (by rw [total, count]; simp) registered
          obtain rfl : calls = [] := by simpa using carryRest
          rw [result]
          simp [bleDeliveries, holds.bytes, message.type packet member]
      | cons other rest =>
          rw [aggregation_of_continues accepts
            (by rw [total, count]; simp)]
          have rejoined : stored ++ [packet] ++ other :: rest =
              stored ++ packet :: other :: rest := by simp
          rw [← rejoined]
          refine ih registered (rejoined ▸ message)
            ⟨⟨holds.capacity, holds.count, holds.length, holds.bytes⟩,
              by simp, fun _ => ⟨rfl, ?_, message.type packet member⟩⟩
            (by simp) carryRest
          simp only [List.length_append, List.length_singleton]
          omega

theorem recvCb_and_capacity_bleStep {m next : BleMgr}
    {umsg : Option UartMsg} (capacity : m.dataBuf.length = MAX_BLE_DATA_SIZE)
    (steps : bleStep m umsg = some next) :
    next.recvCb = m.recvCb ∧ next.dataBuf.length = MAX_BLE_DATA_SIZE := by
  have callback : (bleMgrDataRecvUart m umsg).1.recvCb = m.recvCb :=
    recvCb_bleHistoryStep (Eq.refl (bleHistoryStep ⟨m, []⟩ umsg))
  obtain rfl := Option.some.inj steps
  refine ⟨callback, ?_⟩
  cases received : receivedPacket umsg with
  | none =>
      obtain ⟨code, unchanged⟩ := bleMgrDataRecvUart_of_rejected (m := m) received
      rw [unchanged]
      exact capacity
  | some packet =>
      rw [bleMgrDataRecvUart_of_packet received]
      by_cases accepts : bleAccepts m packet
      · have stored : (bleStorePacket m packet).dataBuf.length =
            MAX_BLE_DATA_SIZE := by
          have room := accepts.1
          rw [← (receivedPacket_data received).2, ← capacity] at room
          rw [bleStorePacket, length_overwrite (by omega)]
          exact capacity
        simp only [bleMgrDataAggregation, if_pos accepts]
        split
        · split
          · exact List.length_replicate
          · exact stored
        · split <;> exact stored
      · rw [aggregation_of_rejects accepts]
        exact List.length_replicate

theorem recvCb_and_capacity_run {m last : BleMgr}
    {calls : List (Option UartMsg)}
    (capacity : m.dataBuf.length = MAX_BLE_DATA_SIZE)
    (runs : run bleStep m calls = some last) :
    last.recvCb = m.recvCb ∧ last.dataBuf.length = MAX_BLE_DATA_SIZE := by
  induction calls generalizing m with
  | nil =>
      obtain rfl := Option.some.inj runs
      exact ⟨rfl, capacity⟩
  | cons umsg calls ih =>
      rw [run_cons, Option.bind_eq_some_iff] at runs
      obtain ⟨next, steps, rest⟩ := runs
      obtain ⟨callback, kept⟩ := recvCb_and_capacity_bleStep capacity steps
      obtain ⟨lastCallback, lastKept⟩ := ih kept rest
      exact ⟨lastCallback.trans callback, lastKept⟩

theorem idleEmpty_init (recvCb : Bool) : IdleEmpty (bleMgrInit recvCb) :=
  fun _ => ⟨rfl, rfl⟩

/-- The receiver is empty in every idle state of a history exactly if no call
leaves a residue; and after such a history that ends idle, a well-formed
message is delivered exactly once with exactly its bytes. -/
theorem idleEmpty_iff_residueFree_and_resynchronises (recvCb : Bool)
    (calls : List (Option UartMsg)) :
    (StatesMeet bleStep IdleEmpty (bleMgrInit recvCb) calls ↔
      StepsMeet bleStep ResidueFree (bleMgrInit recvCb) calls) ∧
    (StepsMeet bleStep ResidueFree (bleMgrInit recvCb) calls →
      recvCb = true →
      ∀ m, run bleStep (bleMgrInit recvCb) calls = some m →
        m.curBundlingState = .idle →
        ∀ message first messageCalls, WellFormed message first →
          messageCalls.map receivedPacket = message.map some →
            bleDeliveries m messageCalls =
              [⟨first.type, message.flatMap BlePacket.data⟩]) := by
  have exact_runs := statesMeet_iff_stepsMeet
    (fun _ empty => empty)
    (fun m umsg _ _ blocks => nomatch blocks)
    (fun _ _ _ empty _ meets steps =>
      (idleEmpty_step_iff empty steps).mpr meets)
    (fun _ _ _ empty _ unmet steps =>
      mt (idleEmpty_step_iff empty steps).mp unmet)
    (idleEmpty_init recvCb)
    (stepsMeet_true bleStep (bleMgrInit recvCb) calls)
  refine ⟨exact_runs, ?_⟩
  intro residueFree registered m runs idle message first messageCalls
    wellFormed carry
  obtain ⟨callback, capacity⟩ := recvCb_and_capacity_run
    (m := bleMgrInit recvCb) List.length_replicate runs
  obtain ⟨noBytes, noPackets⟩ :=
    (exact_runs.mpr residueFree).last runs idle
  have nonempty : message ≠ [] := by
    rintro rfl
    simpa using wellFormed.head
  have delivered := @deliveries_of_rest m first [] message messageCalls
  refine delivered (callback.trans registered) wellFormed ⟨⟨capacity, noPackets, noBytes, ?_⟩, fun _ => idle, ?_⟩
    nonempty carry
  · rw [noBytes]
    rfl
  · intro stored
    exact absurd rfl stored

/-- A packet that announces no packets is stored while idle, and the receiver
stays idle with it. -/
theorem not_forall_idleEmpty :
    ¬ ∀ (recvCb : Bool) (calls : List (Option UartMsg)),
      StatesMeet bleStep IdleEmpty (bleMgrInit recvCb) calls := by
  intro claim
  let residue : Option UartMsg := some (bleUartMsg 5 0 7 [0xAA])
  have after : (bleMgrDataRecvUart (bleMgrInit true) residue).1.curBundlingState
        = .idle ∧
      (bleMgrDataRecvUart (bleMgrInit true) residue).1.dataBufPacketNum = 1 := by
    decide +kernel
  have empty := (claim true [residue]).last rfl after.1
  omega

end BleReceiver

end MbedtlsKcp
