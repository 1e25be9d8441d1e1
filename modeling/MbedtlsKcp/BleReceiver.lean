import MbedtlsKcp.ByteBuffers
import Mathlib.Data.List.Range

/-!
# The BLE packet receiver

`ble_mgr_data_recv_uart` checks one UART payload, unpacks it into a BLE packet
and hands it to `ble_mgr_data_aggregation`, which collects the packets of a
message in `dataBuf` and calls the registered callback once the announced
number of packets has arrived.
-/

namespace MbedtlsKcp

namespace BleReceiver

open ByteBuffers

def BLE_HEAD : UInt8 := 0x5a
def BLE_MIN_PACKET_SIZE : Nat := 6
def MAX_BLE_PACKET_SIZE : Nat := 30
def MAX_BLE_DATA_SIZE : Nat := 2048
def DEFAULT_MAX_UNPACK_SIZE : Nat := 512

def BLE_ERROR_CODE_BASE : Int := 0x20000
def BLE_ERROR_CODE_HEAD_ERROR : Int := BLE_ERROR_CODE_BASE + 1
def BLE_ERROR_CODE_PAYLOAD_LEN_ERROR : Int := BLE_ERROR_CODE_BASE + 2

def BLE_MSG_TYPE_UNKNOWN : UInt8 := 0
def BLE_MSG_TYPE_SEND_HTTPS : UInt8 := 3
def BLE_MSG_TYPE_SEND_TOKEN : UInt8 := 4
def BLE_MSG_TYPE_SEND_SSID : UInt8 := 5
def BLE_MSG_TYPE_SEND_PASSWD : UInt8 := 6
def BLE_MSG_TYPE_SEND_UTC : UInt8 := 0x0B

def MAX_BLE_HTTPS_SIZE : Nat := 256
def MAX_BLE_TOKEN_SIZE : Nat := 128
def MAX_BLE_SSID_SIZE : Nat := 256
def MAX_BLE_PASSWD_SIZE : Nat := 256
def MAX_BLE_UTC_SIZE : Nat := 128

/-- A UART message: `payload` is the whole fixed array, of which the first
`payloadLen` bytes were received. -/
structure UartMsg where
  payloadLen : UInt16
  payload : Vector UInt8 DEFAULT_MAX_UNPACK_SIZE

/-- A BLE packet as unpacked from a UART payload. -/
structure BlePacket where
  head : UInt8
  type : UInt8
  packet_total_num : UInt8
  packet_seq : UInt8
  payload_len : UInt8
  payload : List UInt8
  checksum : UInt8
  deriving DecidableEq

/-- The bytes a packet carries. -/
def BlePacket.data (packet : BlePacket) : List UInt8 :=
  packet.payload.take packet.payload_len.toNat

/-- The network settings received so far, each a fixed array. -/
structure BleConnetInfo where
  https : List UInt8
  token : List UInt8
  ssid : List UInt8
  passwd : List UInt8
  utc : List UInt8

inductive BLE_PACKET_STATE
  | idle
  | bundling
  deriving DecidableEq

/-- The receiver.  `recvCb` says whether a callback is registered. -/
structure BleMgr where
  curBundlingState : BLE_PACKET_STATE
  curPacketType : UInt8
  nextPacketIndex : Nat
  recvCb : Bool
  dataBufLen : Nat
  dataBufPacketNum : Nat
  dataBuf : List UInt8
  connectInfo : BleConnetInfo

/-- One call of the registered callback: the message type and the
`dataBufLen` bytes it is given. -/
structure Delivery where
  type : UInt8
  bytes : List UInt8
  deriving DecidableEq

/-- `BLE_DATA_CLEAR`. -/
def bleDataClear (m : BleMgr) : BleMgr :=
  { m with
    dataBufLen := 0
    nextPacketIndex := 0
    dataBufPacketNum := 0
    curPacketType := BLE_MSG_TYPE_UNKNOWN
    curBundlingState := .idle
    dataBuf := List.replicate MAX_BLE_DATA_SIZE 0 }

/-- `ble_mgr_init`. -/
def bleMgrInit (recvCb : Bool) : BleMgr where
  curBundlingState := .idle
  curPacketType := BLE_MSG_TYPE_UNKNOWN
  nextPacketIndex := 0
  recvCb := recvCb
  dataBufLen := 0
  dataBufPacketNum := 0
  dataBuf := List.replicate MAX_BLE_DATA_SIZE 0
  connectInfo :=
    { https := List.replicate MAX_BLE_HTTPS_SIZE 0
      token := List.replicate MAX_BLE_TOKEN_SIZE 0
      ssid := List.replicate MAX_BLE_SSID_SIZE 0
      passwd := List.replicate MAX_BLE_PASSWD_SIZE 0
      utc := List.replicate MAX_BLE_UTC_SIZE 0 }

/-- `strncpy`: the string up to its terminator, padded with zeros to
`count`. -/
def strncpy (source : List UInt8) (count : Nat) : List UInt8 :=
  let text := (source.take count).takeWhile (· ≠ 0)
  text ++ List.replicate (count - text.length) 0

/-- `BLE_UPDATE_CONNECT_INFO` on one field. -/
def bleUpdateConnectInfo (var buf : List UInt8) (size : Nat) : List UInt8 :=
  let csize := min size (var.length - 1)
  overwrite var 0 (strncpy buf csize ++ [0])

/-- `ble_mgr_parse`: file a complete message under its setting.  The answer
that `ble_mgr_send_response` prepares in `sendBuf` is never read. -/
def bleMgrParse (m : BleMgr) (type : UInt8) (buf : List UInt8)
    (size : Nat) : BleMgr :=
  if size = 0 then
    m
  else
    let conn := m.connectInfo
    if type = BLE_MSG_TYPE_SEND_HTTPS then
      { m with connectInfo :=
          { conn with https := bleUpdateConnectInfo conn.https buf size } }
    else if type = BLE_MSG_TYPE_SEND_TOKEN then
      { m with connectInfo :=
          { conn with token := bleUpdateConnectInfo conn.token buf size } }
    else if type = BLE_MSG_TYPE_SEND_SSID then
      { m with connectInfo :=
          { conn with ssid := bleUpdateConnectInfo conn.ssid buf size } }
    else if type = BLE_MSG_TYPE_SEND_PASSWD then
      { m with connectInfo :=
          { conn with passwd := bleUpdateConnectInfo conn.passwd buf size } }
    else if type = BLE_MSG_TYPE_SEND_UTC then
      { m with connectInfo :=
          { conn with utc := bleUpdateConnectInfo conn.utc buf size } }
    else
      m

/-- The three `PARAM_EXIT2` checks at the head of the aggregation. -/
def bleAccepts (m : BleMgr) (packet : BlePacket) : Prop :=
  m.dataBufLen + packet.payload_len.toNat + BLE_MIN_PACKET_SIZE <
      MAX_BLE_DATA_SIZE ∧
    (m.curBundlingState = .bundling →
      packet.packet_seq.toNat = m.nextPacketIndex ∧
        packet.type = m.curPacketType)

instance (m : BleMgr) (packet : BlePacket) :
    Decidable (bleAccepts m packet) :=
  inferInstanceAs (Decidable (_ ∧ (_ → _)))

/-- Step 3.1 of the aggregation: append the payload to the buffer. -/
def bleStorePacket (m : BleMgr) (packet : BlePacket) : BleMgr :=
  { m with
    curPacketType := packet.type
    dataBuf := overwrite m.dataBuf m.dataBufLen packet.data
    dataBufLen := m.dataBufLen + packet.payload_len.toNat
    dataBufPacketNum := m.dataBufPacketNum + 1 }

/-- `ble_mgr_data_aggregation`: the receiver after one packet, and the
delivery it triggers, if any. -/
def bleMgrDataAggregation (m : BleMgr) (packet : BlePacket) :
    BleMgr × Option Delivery :=
  if bleAccepts m packet then
    let stored := bleStorePacket m packet
    if packet.packet_total_num.toNat = stored.dataBufPacketNum then
      let complete := { stored with curBundlingState := .idle }
      if complete.recvCb then
        let parsed := bleMgrParse complete complete.curPacketType
          complete.dataBuf complete.dataBufLen
        (bleDataClear parsed,
          some ⟨parsed.curPacketType, parsed.dataBuf.take parsed.dataBufLen⟩)
      else
        (complete, none)
    else if stored.dataBufPacketNum < packet.packet_total_num.toNat then
      ({ stored with
          curBundlingState := .bundling
          nextPacketIndex := packet.packet_seq.toNat + 1 }, none)
    else
      (stored, none)
  else
    (bleDataClear m, none)

/-- The checks and the unpacking of `ble_mgr_data_recv_uart`: the packet that
reaches the aggregation, or the error code.  The checksum is read but not
compared, since the comparison is commented out in the source. -/
def bleUnpack (umsg : UartMsg) : Except Int BlePacket :=
  if umsg.payload[0] ≠ BLE_HEAD then
    .error BLE_ERROR_CODE_HEAD_ERROR
  else if umsg.payloadLen.toNat < BLE_MIN_PACKET_SIZE then
    .error BLE_ERROR_CODE_PAYLOAD_LEN_ERROR
  else
    let payload_len := umsg.payload[4]
    if umsg.payloadLen.toNat ≠ payload_len.toNat + BLE_MIN_PACKET_SIZE then
      .error BLE_ERROR_CODE_PAYLOAD_LEN_ERROR
    else if MAX_BLE_PACKET_SIZE ≤ payload_len.toNat then
      .error BLE_ERROR_CODE_PAYLOAD_LEN_ERROR
    else
      .ok
        { head := umsg.payload[0]
          type := umsg.payload[1]
          packet_total_num := umsg.payload[2]
          packet_seq := umsg.payload[3]
          payload_len := payload_len
          payload := overwrite (List.replicate MAX_BLE_PACKET_SIZE 0) 0
            (slice umsg.payload.toList 5 payload_len.toNat)
          checksum := umsg.payload.toList.getD (5 + payload_len.toNat) 0 }

/-- `ble_mgr_data_recv_uart`: the receiver afterwards, the return code and the
delivery. -/
def bleMgrDataRecvUart (m : BleMgr) (umsg : Option UartMsg) :
    BleMgr × Int × Option Delivery :=
  match umsg with
  | none => (m, -1, none)
  | some umsg =>
      match bleUnpack umsg with
      | .error code => (m, code, none)
      | .ok packet =>
          let (next, delivery) := bleMgrDataAggregation m packet
          (next, 0, delivery)

/-- The packet of a call that passes the header checks. -/
def receivedPacket (umsg : Option UartMsg) : Option BlePacket :=
  umsg.bind fun umsg => (bleUnpack umsg).toOption

/-- The packets that reach the aggregation, in the order they were passed. -/
def receivedPackets (calls : List (Option UartMsg)) : List BlePacket :=
  calls.filterMap receivedPacket

/-- A call is seen by the receiver through its packet only. -/
theorem bleMgrDataRecvUart_of_packet {m : BleMgr} {umsg : Option UartMsg}
    {packet : BlePacket} (received : receivedPacket umsg = some packet) :
    bleMgrDataRecvUart m umsg =
      ((bleMgrDataAggregation m packet).1, 0,
        (bleMgrDataAggregation m packet).2) := by
  cases umsg with
  | none => simp [receivedPacket] at received
  | some umsg =>
      cases unpacked : bleUnpack umsg with
      | error code => simp [receivedPacket, unpacked, Except.toOption] at received
      | ok other =>
          obtain rfl : other = packet := by
            simpa [receivedPacket, unpacked, Except.toOption] using received
          simp [bleMgrDataRecvUart, unpacked]

/-- A call whose header is rejected leaves the receiver unchanged. -/
theorem bleMgrDataRecvUart_of_rejected {m : BleMgr} {umsg : Option UartMsg}
    (rejected : receivedPacket umsg = none) :
    ∃ code, bleMgrDataRecvUart m umsg = (m, code, none) := by
  cases umsg with
  | none => exact ⟨-1, rfl⟩
  | some umsg =>
      cases unpacked : bleUnpack umsg with
      | error code => exact ⟨code, by simp [bleMgrDataRecvUart, unpacked]⟩
      | ok packet => simp [receivedPacket, unpacked, Except.toOption] at rejected

/-- What the header checks establish about an unpacked packet. -/
theorem receivedPacket_data {umsg : Option UartMsg} {packet : BlePacket}
    (received : receivedPacket umsg = some packet) :
    packet.payload_len.toNat < MAX_BLE_PACKET_SIZE ∧
      packet.data.length = packet.payload_len.toNat := by
  cases umsg with
  | none => simp [receivedPacket] at received
  | some umsg =>
      simp only [receivedPacket, Option.bind_some, bleUnpack] at received
      split at received
      · simp [Except.toOption] at received
      · split at received
        · simp [Except.toOption] at received
        · split at received
          · simp [Except.toOption] at received
          · split at received
            · simp [Except.toOption] at received
            · rename_i short
              simp only [Except.toOption, Option.some.injEq] at received
              subst packet
              have small : umsg.payload[4].toNat < 30 := by
                simpa [MAX_BLE_PACKET_SIZE] using short
              have capacity : umsg.payload.toList.length = 512 :=
                umsg.payload.length_toList
              have read := length_slice
                (show 5 + umsg.payload[4].toNat ≤
                  umsg.payload.toList.length by rw [capacity]; omega)
              refine ⟨small, ?_⟩
              simp only [BlePacket.data, List.length_take]
              rw [length_overwrite (by
                rw [read, List.length_replicate, MAX_BLE_PACKET_SIZE]
                omega), List.length_replicate]
              exact Nat.min_eq_left small.le

/-- The UART message that carries one BLE packet with the given header
fields and data. -/
def bleUartMsg (type total seq : UInt8) (data : List UInt8) : UartMsg where
  payloadLen := UInt16.ofNat (data.length + BLE_MIN_PACKET_SIZE)
  payload :=
    ⟨((BLE_HEAD :: type :: total :: seq :: UInt8.ofNat data.length :: data ++
        List.replicate DEFAULT_MAX_UNPACK_SIZE 0).take
          DEFAULT_MAX_UNPACK_SIZE).toArray, by
      rw [List.size_toArray, List.length_take, List.length_append,
        List.length_replicate]
      omega⟩

end BleReceiver

end MbedtlsKcp
