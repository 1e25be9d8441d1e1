import MbedtlsKcp.TcpClient
import MbedtlsKcp.AesRoundTrip

/-!
# How a handshake ends

The memory of the TCP client is followed through the handshake once.  What
remains is `Outcomes.ending`, which decides from the outcomes of the calls
alone what is returned, which bytes have passed the socket, and whether the
client still counts as connected when it is released.
-/

namespace MbedtlsKcp

namespace TcpClient

open ByteBuffers AesWrapper RepeaterAes

/-- The client with its three blocks live and its socket open. -/
structure Process.Attached (process : Process) (sock : Int)
    (connected : Bool) (data : List UInt8) : Prop where
  client : process.client = .live {
    init := true
    sock := sock
    serverIp := true
    serverPort := tcpServerPort
    buffer := true
    bufferSize := tcpClientBufferSize
    connected := connected }
  serverIp : ∃ ip, process.serverIp = .live ip
  buffer : process.buffer = .live data
  size : data.length = tcpClientBufferSize
  opened : process.openedSockets = [sock]
  closed : process.closedSockets = []
  valid : 0 < sock

/-- Everything is released; the socket only when the client was connected. -/
structure Process.Detached (process : Process) (sock : Int)
    (connected : Bool) : Prop where
  client : process.client = .freed
  serverIp : process.serverIp = .freed
  buffer : process.buffer = .freed
  opened : process.openedSockets = [sock]
  closed : process.closedSockets = if connected then [sock] else []

section Memory

variable {process : Process} {sock : Int} {connected : Bool}
  {data : List UInt8}

theorem tcpClientDeinit_of_attached
    (attached : process.Attached sock connected data) :
    ∃ after, tcpClientDeinit process = some (0, after) ∧
      after.Detached sock connected ∧ after.sent = process.sent ∧
      after.received = process.received := by
  obtain ⟨client, ⟨ip, serverIp⟩, buffer, size, opened, closed, valid⟩ :=
    attached
  cases connected with
  | true =>
      refine ⟨{ process with
        client := .freed, serverIp := .freed, buffer := .freed
        closedSockets := process.closedSockets ++ [sock] }, ?_, ?_, rfl, rfl⟩
      · simp [tcpClientDeinit, tcpClientDisconnect, client, serverIp, buffer,
          Cell.read, Cell.free, valid]
      · exact ⟨rfl, rfl, rfl, opened, by simp [closed]⟩
  | false =>
      refine ⟨{ process with
        client := .freed, serverIp := .freed, buffer := .freed },
        ?_, ?_, rfl, rfl⟩
      · simp [tcpClientDeinit, tcpClientDisconnect, client, serverIp, buffer,
          Cell.read, Cell.free]
      · exact ⟨rfl, rfl, rfl, opened, closed⟩

theorem length_tcpFrameBytes (garbage : Nat → UInt8) (frameType : Nat)
    (mac : Mac) (iv : AesKey) (timestamp : Nat) (payload : List UInt8) :
    (tcpFrameBytes garbage frameType mac iv timestamp payload).length =
      sizeofTcpFrame + payload.length := by
  have keeps : ∀ (frame source : List UInt8) (position : Nat),
      frame.length = sizeofTcpFrame + payload.length →
      position + source.length ≤ sizeofTcpFrame + payload.length →
      (overwrite frame position source).length =
        sizeofTcpFrame + payload.length := by
    intro frame source position length fits
    rw [length_overwrite (by omega), length]
  have stores : ∀ (frame : List UInt8) (position width value : Nat),
      frame.length = sizeofTcpFrame + payload.length →
      position + width ≤ sizeofTcpFrame →
      (storeLE frame position width value).length =
        sizeofTcpFrame + payload.length := by
    intro frame position width value length fits
    exact keeps _ _ _ length (by rw [length_encodeLE]; omega)
  have header : sizeofTcpFrame = 48 := rfl
  unfold tcpFrameBytes
  dsimp only
  apply keeps
  · have timed := stores _ 8 8 timestamp
      (keeps _ mac.toList 32
        (stores _ 4 4 payload.length
          (stores _ 2 2 frameType
            (stores ((List.range (sizeofTcpFrame + payload.length)).map
              garbage) 0 2 magicHead (by simp) (by omega)) (by omega))
          (by omega)) (by simp; omega)) (by omega)
    split
    case isTrue => exact keeps _ _ _ timed (by simp; omega)
    case isFalse => exact timed
  · exact Nat.le_refl _

theorem length_frameBytes (process : Process) (outcome : FrameOutcome)
    (frameType : Nat) (payload : List UInt8) :
    (process.frameBytes outcome frameType payload).length =
      sizeofTcpFrame + payload.length :=
  length_tcpFrameBytes _ _ _ _ _ _

/-- A frame with a payload of the given length leaves completely. -/
def FrameOutcome.Delivers (outcome : FrameOutcome) (payloadLen : Nat) :
    Prop :=
  outcome.malloc = true ∧
    (commSockSendData (sizeofTcpFrame + payloadLen) 0 outcome.sends).2 =
      sizeofTcpFrame + payloadLen

instance (outcome : FrameOutcome) (payloadLen : Nat) :
    Decidable (outcome.Delivers payloadLen) :=
  inferInstanceAs (Decidable (_ ∧ _))

/-- A complete frame is counted, anything else is an error; an incomplete one
leaves the client disconnected. -/
theorem tcpClientSendFrame_of_attached
    (attached : process.Attached sock true data) (outcome : FrameOutcome)
    (frameType : Nat) {payload : List UInt8} (nonempty : payload ≠ []) :
    (outcome.Delivers payload.length →
      tcpClientSendFrame outcome frameType payload process =
        some (((sizeofTcpFrame + payload.length : Nat) : Int),
          { process with sent :=
              process.sent ++ process.frameBytes outcome frameType payload })) ∧
    (¬ outcome.Delivers payload.length →
      ∃ after, tcpClientSendFrame outcome frameType payload process =
          some (-1, after) ∧
        after.Attached sock (!outcome.malloc) data ∧
        after.received = process.received) := by
  have client := attached.client
  have length := length_frameBytes process outcome frameType payload
  have frame : process.frameBytes outcome frameType payload ≠ [] := by
    apply List.ne_nil_of_length_pos
    rw [length]
    exact Nat.lt_of_lt_of_le (by decide) (Nat.le_add_right _ _)
  constructor
  · rintro ⟨allocates, sends⟩
    rw [tcpClientSendFrame, client]
    simp only [Cell.read, Option.bind_eq_bind, Option.bind_some,
      Bool.true_eq_false, if_false, nonempty, allocates]
    rw [tcpClientSendData, client]
    simp only [Cell.read, Option.bind_eq_bind, Option.bind_some,
      Bool.true_eq_false, if_false, frame, length, sends, ne_eq,
      not_true_eq_false]
    rw [List.take_of_length_le (by omega)]
    simp
  · intro incomplete
    cases allocates : outcome.malloc with
    | false =>
        refine ⟨process, ?_, attached, rfl⟩
        rw [tcpClientSendFrame, client]
        simp [Cell.read, nonempty, allocates]
    | true =>
        have short : ¬ sizeofTcpFrame + payload.length =
            (commSockSendData (sizeofTcpFrame + payload.length) 0
              outcome.sends).2 :=
          fun same => incomplete ⟨allocates, same.symm⟩
        refine ⟨{ process with
          sent := process.sent ++
            (process.frameBytes outcome frameType payload).take
              (commSockSendData (sizeofTcpFrame + payload.length) 0
                outcome.sends).2
          client := .live {
            init := true
            sock := sock
            serverIp := true
            serverPort := tcpServerPort
            buffer := true
            bufferSize := tcpClientBufferSize
            connected := false } }, ?_, ?_, rfl⟩
        · rw [tcpClientSendFrame, client]
          simp only [Cell.read, Option.bind_eq_bind, Option.bind_some,
            Bool.true_eq_false, if_false, nonempty, allocates]
          rw [tcpClientSendData, client]
          simp only [Cell.read, Option.bind_eq_bind, Option.bind_some,
            Bool.true_eq_false, if_false, frame, length, short, ne_eq,
            not_false_eq_true, if_true, Option.pure_def]
          rw [if_pos (by omega)]
        · exact ⟨rfl, attached.serverIp, attached.buffer, attached.size,
            attached.opened, attached.closed, attached.valid⟩

theorem length_commSockRecvData_le {needReadLen trycnt : Nat}
    {read : List UInt8} {arrivals : List Arrival}
    (inside : read.length ≤ needReadLen) :
    (commSockRecvData needReadLen trycnt read arrivals).2.1.length ≤
      needReadLen := by
  induction arrivals generalizing trycnt read with
  | nil => exact inside
  | cons arrival arrivals ih =>
      cases arrival with
      | bytes bytes =>
          have fits : (read ++
              bytes.take (needReadLen - read.length)).length ≤
                needReadLen := by
            rw [List.length_append, List.length_take]
            omega
          simp only [commSockRecvData]
          split_ifs
          · exact inside
          · exact ih fits
          · exact fits
          · exact fits
      | interrupted => exact ih inside
      | again elapsedMs =>
          simp only [commSockRecvData]
          split_ifs
          · exact ih inside
          · exact ih inside
          · exact inside
      | failed => exact inside

/-- The bytes that arrive are stored from `position` on; too few of them leave
the client disconnected. -/
theorem tcpClientRecvData_of_attached
    (attached : process.Attached sock true data) {position size need : Nat}
    (positive : 0 < size) (room : need ≤ size)
    (inside : position + size ≤ tcpClientBufferSize) :
    ∃ after, tcpClientRecvData position size need process =
        some (if (commSockRecvData need 3 [] process.arrivals).2.1.length =
          need then (need : Int) else -1, after) ∧
      after.Attached sock
        ((commSockRecvData need 3 [] process.arrivals).2.1.length == need)
        (overwrite data position
          (commSockRecvData need 3 [] process.arrivals).2.1) ∧
      after.arrivals = (commSockRecvData need 3 [] process.arrivals).2.2 ∧
      after.aesContext = process.aesContext ∧ after.sent = process.sent ∧
      after.received = process.received ++
        (commSockRecvData need 3 [] process.arrivals).2.1 := by
  have client := attached.client
  have bounded : (commSockRecvData need 3 [] process.arrivals).2.1.length ≤
      need := length_commSockRecvData_le (Nat.zero_le _)
  generalize received : commSockRecvData need 3 [] process.arrivals = result
    at bounded ⊢
  obtain ⟨ret, read, arrivals⟩ := result
  dsimp only at bounded ⊢
  have fits : position + read.length ≤ data.length := by
    rw [attached.size]
    omega
  by_cases complete : read.length = need
  · refine ⟨{ process with
      arrivals := arrivals
      received := process.received ++ read
      buffer := .live (overwrite data position read) },
      ?_, ?_, rfl, rfl, rfl, rfl⟩
    · rw [tcpClientRecvData, client]
      simp only [Cell.read, Option.bind_eq_bind, Option.bind_some,
        Bool.true_eq_false, if_false, false_or, received, attached.buffer,
        copyInto_eq_some fits, complete, if_true, ne_eq, not_true_eq_false]
      rw [if_neg (by omega), if_neg (by omega)]
      rfl
    · rw [complete, beq_self_eq_true]
      exact ⟨client, attached.serverIp, rfl,
        by rw [length_overwrite fits, attached.size], attached.opened,
        attached.closed, attached.valid⟩
  · refine ⟨{ process with
      arrivals := arrivals
      received := process.received ++ read
      buffer := .live (overwrite data position read)
      client := .live {
        init := true
        sock := sock
        serverIp := true
        serverPort := tcpServerPort
        buffer := true
        bufferSize := tcpClientBufferSize
        connected := false } },
      ?_, ?_, rfl, rfl, rfl, rfl⟩
    · rw [tcpClientRecvData, client]
      simp only [Cell.read, Option.bind_eq_bind, Option.bind_some,
        Bool.true_eq_false, if_false, false_or, received, attached.buffer,
        copyInto_eq_some fits, complete, if_true, ne_eq, not_false_eq_true]
      rw [if_neg (by omega), if_neg (by omega)]
      rfl
    · rw [beq_false_of_ne complete]
      exact ⟨rfl, attached.serverIp, rfl,
        by rw [length_overwrite fits, attached.size], attached.opened,
        attached.closed, attached.valid⟩

end Memory

/-- How a handshake on an open connection ends: with a result other than zero
and the client connected or not, or with zero after the given bytes have been
sent and received. -/
inductive Ending
  | failed (ret : Int) (connected : Bool)
  | succeeded (sent received : List UInt8)
deriving DecidableEq

def Ending.ret : Ending → Int
  | .failed ret _ => ret
  | .succeeded _ _ => 0

def Ending.connected : Ending → Bool
  | .failed _ connected => connected
  | .succeeded _ _ => true

section Endings

variable (mbedtls : Mbedtls) (outcomes : Outcomes) (mac : Mac)
  (key : AesKey)

/-- What the encrypter leaves of a message. -/
def encryptedPayload (iv : AesKey) (message : List UInt8) : List UInt8 :=
  mbedtls.encryptInPlace (mbedtls.setkeyEnc mbedtls.aesInit key) iv
    (aesPaddingPkcs7Set message)

/-- What the decrypter leaves of a payload in a zeroed buffer. -/
def decryptedPayload (iv : AesKey) (payload : List UInt8) : List UInt8 :=
  match mbedtls.cryptCbcDecrypt (mbedtls.setkeyDec mbedtls.aesInit key) iv
      payload with
  | some (_, plain) => plain
  | none => List.replicate payload.length 0

/-- The frames that the client sends. -/
def helloFrameBytes : List UInt8 :=
  tcpFrameBytes outcomes.helloFrame.garbage frameTypeClientHello mac
    outcomes.iv outcomes.helloFrame.utcTimeMs
    (encryptedPayload mbedtls key outcomes.iv clientHello)

def ackFrameBytes : List UInt8 :=
  tcpFrameBytes outcomes.ackFrame.garbage frameTypeServerHelloAck mac
    outcomes.iv outcomes.ackFrame.utcTimeMs
    (encryptedPayload mbedtls key outcomes.iv serverHelloAck)

/-- From the complete payload of a server hello on. -/
def payloadEnding (header payload : List UInt8) : Option Ending :=
  let rejected := Ending.failed payload.length true
  if 255 < payload.length ∨ outcomes.callocDec = false then some rejected
  else do
    let plain := decryptedPayload mbedtls key outcomes.iv payload
    let len ← aesPaddingPkcs7Get plain
    if len ≠ serverHello.length ∨
        plain.take serverHello.length ≠ serverHello ∨
        outcomes.mallocAck = false ∨ outcomes.callocAckEnc = false then
      return rejected
    else if outcomes.ackFrame.Delivers 32 then
      return .succeeded
        (helloFrameBytes mbedtls outcomes mac key ++
          ackFrameBytes mbedtls outcomes mac key)
        (header ++ payload)
    else return .failed payload.length (!outcomes.ackFrame.malloc)

/-- From the complete header on, with what has still to arrive. -/
def headerEnding (header : List UInt8) (arrivals : List Arrival) :
    Option Ending :=
  let frameSize := loadLE header 4 4
  if loadLE header 0 2 ≠ magicHead ∨
      loadLE header 2 2 ≠ frameTypeServerHello ∨ 2000 < frameSize then
    some (.failed 48 true)
  else if frameSize = 0 then
    some (.succeeded (helloFrameBytes mbedtls outcomes mac key) header)
  else
    let payload := (commSockRecvData frameSize 3 [] arrivals).2.1
    if payload.length = frameSize then
      payloadEnding mbedtls outcomes mac key header payload
    else some (.failed (-1) false)

/-- From the client hello on.  There is no ending when memory is used that is
not the client's any more: after a client hello that could not be sent, for a
descriptor outside the `fd_set`, or for a payload that the unpadding leaves
at its front. -/
def ending : Option Ending :=
  if outcomes.mallocHello = false ∨ outcomes.callocHelloEnc = false then
    some (.failed (-1) true)
  else if ¬ outcomes.helloFrame.Delivers 16 ∨
      fdSetsize ≤ outcomes.socket then
    none
  else
    match outcomes.select with
    | .expired => some (.failed (-2) true)
    | .ready true =>
        let (_, header, arrivals) :=
          commSockRecvData sizeofTcpFrame 3 [] outcomes.arrivals
        if header.length = sizeofTcpFrame then
          headerEnding mbedtls outcomes mac key header arrivals
        else some (.failed (-1) false)
    | _ =>
        some (.succeeded (helloFrameBytes mbedtls outcomes mac key) [])

end Endings

/-- The client part of the registry holds the keys of this handshake. -/
structure Process.Keyed (process : Process) (mac : Mac) (key iv : AesKey) :
    Prop where
  mac : process.aesContext.clientQuadruples.mac = mac
  key : process.aesContext.clientQuadruples.key = key
  iv : process.aesContext.clientQuadruples.iv = iv

/-- A result on the open connection has the given ending; without an ending,
the client is gone. -/
def Reaches (sock : Int) (result : Option (Int × Process)) :
    Option Ending → Prop
  | none => ∀ ret after, result = some (ret, after) → after.client = .freed
  | some (.failed ret connected) => ∃ after data, result = some (ret, after) ∧
      after.Attached sock connected data
  | some (.succeeded sent received) => ∃ after data,
      result = some (0, after) ∧ after.Attached sock true data ∧
      after.sent = sent ∧ after.received = received

section Refinement

variable {mbedtls : Mbedtls} {outcomes : Outcomes} {mac : Mac}
  {key : AesKey} {process : Process} {sock : Int} {data : List UInt8}

theorem repeaterClientAesEncGet_encrypts (mbedtls : Mbedtls)
    (keyed : process.Keyed mac key outcomes.iv) {message : List UInt8}
    (short : message.length < 336) :
    ∃ enc, repeaterClientAesEncGet mbedtls true process = some enc ∧
      aesEncrypoData enc message =
        some (enc, (getAesEncOutLen message.length : Int),
          encryptedPayload mbedtls key outcomes.iv message) := by
  refine ⟨_, rfl, ?_⟩
  have length : (encryptedPayload mbedtls key outcomes.iv message).length =
      getAesEncOutLen message.length := by
    rw [encryptedPayload, length_encryptInPlace, length_aesPaddingPkcs7Set]
  obtain ⟨hexBuf, dumps⟩ := Option.isSome_iff_exists.mp
    ((hexDump_blocks_isSome_iff length).mpr short)
  unfold encryptedPayload at dumps ⊢
  simp only [aesEncrypoData, aesEncrypoOpt, keyed.key, keyed.iv,
    Bool.false_eq_true, if_false, if_true, length_aesPaddingPkcs7Set, dumps,
    Option.bind_eq_bind, Option.bind_some, Option.pure_def]

theorem length_decryptedPayload (mbedtls : Mbedtls) (key iv : AesKey)
    (payload : List UInt8) :
    (decryptedPayload mbedtls key iv payload).length = payload.length := by
  unfold decryptedPayload
  split
  case h_1 crypts => exact mbedtls.length_cryptCbcDecrypt crypts
  case h_2 => exact List.length_replicate

theorem repeaterClientAesDecGet_decrypts (mbedtls : Mbedtls)
    (keyed : process.Keyed mac key outcomes.iv) {payload : List UInt8}
    (short : payload.length ≤ 255) :
    ∃ dec decData, repeaterClientAesDecGet mbedtls true process = some dec ∧
      aesDecrypoData dec payload (List.replicate 256 0) =
        (aesPaddingPkcs7Get
          (decryptedPayload mbedtls key outcomes.iv payload)).bind
            (fun len => some (dec, len, decData)) ∧
      ∀ count ≤ payload.length, decData.take count =
        (decryptedPayload mbedtls key outcomes.iv payload).take count := by
  have length := length_decryptedPayload mbedtls key outcomes.iv payload
  have fits : 0 + (decryptedPayload mbedtls key outcomes.iv
      payload).length ≤ (List.replicate 256 (0 : UInt8)).length := by
    rw [length, List.length_replicate]
    omega
  have written := length_overwrite fits
  have readBack : readFrom (overwrite (List.replicate 256 0) 0
      (decryptedPayload mbedtls key outcomes.iv payload)) 0 payload.length =
      some (decryptedPayload mbedtls key outcomes.iv payload) := by
    rw [readFrom_eq_some (by rw [written, List.length_replicate]; omega)]
    rw [← length, slice_overwrite_same _ (Nat.zero_le _)]
  have prefixes : ∀ count ≤ payload.length,
      (overwrite (List.replicate 256 0) 0
        (decryptedPayload mbedtls key outcomes.iv payload)).take count =
      (decryptedPayload mbedtls key outcomes.iv payload).take count := by
    intro count inside
    rw [overwrite, List.take_zero, List.nil_append,
      List.take_append_of_le_length (by omega)]
  refine ⟨_, overwrite (List.replicate 256 0) 0
    (decryptedPayload mbedtls key outcomes.iv payload), rfl, ?_, prefixes⟩
  have stored : mbedtls.decryptInto (mbedtls.setkeyDec mbedtls.aesInit key)
      outcomes.iv payload (List.replicate 256 0) =
      some (overwrite (List.replicate 256 0) 0
        (decryptedPayload mbedtls key outcomes.iv payload)) := by
    cases crypts : mbedtls.cryptCbcDecrypt
        (mbedtls.setkeyDec mbedtls.aesInit key) outcomes.iv payload with
    | some left =>
        have plain : decryptedPayload mbedtls key outcomes.iv payload =
            left.2 := by rw [decryptedPayload, crypts]
        rw [Mbedtls.decryptInto, crypts, plain]
        rw [plain] at fits
        exact copyInto_eq_some fits
    | none =>
        have zeros : decryptedPayload mbedtls key outcomes.iv payload =
            List.replicate payload.length 0 := by
          rw [decryptedPayload, crypts]
        have total : payload.length + (256 - (0 + payload.length)) = 256 := by
          omega
        rw [Mbedtls.decryptInto, crypts, zeros, overwrite, List.take_zero,
          List.nil_append, List.length_replicate, List.drop_replicate,
          List.replicate_append_replicate, total]
  simp only [aesDecrypoData, aesDecrypoOpt, keyed.key, keyed.iv,
    Bool.false_eq_true, if_false, if_true]
  rw [stored]
  simp only [Option.bind_eq_bind, Option.bind_some, readBack,
    Option.pure_def]

theorem helloFrame_eq (keyed : process.Keyed mac key outcomes.iv) :
    process.frameBytes outcomes.helloFrame frameTypeClientHello
        (encryptedPayload mbedtls key outcomes.iv clientHello) =
      helloFrameBytes mbedtls outcomes mac key := by
  rw [Process.frameBytes, keyed.mac, keyed.iv]
  rfl

theorem ackFrame_eq (keyed : process.Keyed mac key outcomes.iv) :
    process.frameBytes outcomes.ackFrame frameTypeServerHelloAck
        (encryptedPayload mbedtls key outcomes.iv serverHelloAck) =
      ackFrameBytes mbedtls outcomes mac key := by
  rw [Process.frameBytes, keyed.mac, keyed.iv]
  rfl

theorem length_encryptedPayload (mbedtls : Mbedtls) (key iv : AesKey)
    (message : List UInt8) :
    (encryptedPayload mbedtls key iv message).length =
      getAesEncOutLen message.length := by
  rw [encryptedPayload, length_encryptInPlace, length_aesPaddingPkcs7Set]

theorem encryptedPayload_ne_nil (mbedtls : Mbedtls) (key iv : AesKey)
    (message : List UInt8) :
    encryptedPayload mbedtls key iv message ≠ [] := by
  apply List.ne_nil_of_length_pos
  rw [length_encryptedPayload]
  unfold getAesEncOutLen aesBlockSize
  omega

/-- The answer to a complete server hello. -/
theorem recvServerHello_reaches {header payload : List UInt8}
    (attached : process.Attached sock true data)
    (keyed : process.Keyed mac key outcomes.iv)
    (isSize : loadLE data 4 4 = payload.length)
    (isPayload : slice data sizeofTcpFrame payload.length = payload)
    (fits : payload.length ≤ 2000)
    (sent : process.sent = helloFrameBytes mbedtls outcomes mac key)
    (received : process.received = header ++ payload) :
    Reaches sock
      (do
        let (accepted, process) ← recvServerHello mbedtls outcomes process
        if accepted ≠ 0 then return ((payload.length : Int), process)
        else return (0, process))
      (payloadEnding mbedtls outcomes mac key header payload) := by
  have readFits : sizeofTcpFrame + payload.length ≤ data.length := by
    rw [attached.size]
    unfold sizeofTcpFrame tcpClientBufferSize
    omega
  rw [recvServerHello, attached.buffer]
  simp only [Cell.read, Option.bind_eq_bind, Option.bind_some, isSize]
  by_cases refused : 255 < payload.length ∨ outcomes.callocDec = false
  · have ended : payloadEnding mbedtls outcomes mac key header payload =
        some (.failed payload.length true) := if_pos refused
    rw [ended]
    refine ⟨process, data, ?_, attached⟩
    by_cases long : 255 < payload.length
    · rw [if_pos long]
      rfl
    · have isCalloc := refused.resolve_left long
      rw [if_neg long, readFrom_eq_some readFits, isCalloc]
      rfl
  obtain ⟨short, isCalloc⟩ := not_or.mp refused
  rw [Bool.not_eq_false] at isCalloc
  obtain ⟨dec, decData, gets, decrypts, prefixes⟩ :=
    repeaterClientAesDecGet_decrypts mbedtls keyed
      (by omega : payload.length ≤ 255)
  have ended : payloadEnding mbedtls outcomes mac key header payload =
      (aesPaddingPkcs7Get
        (decryptedPayload mbedtls key outcomes.iv payload)).bind _ :=
    if_neg refused
  rw [if_neg short, readFrom_eq_some readFits, isPayload, Option.bind_some,
    isCalloc, gets, ended]
  simp only [decrypts]
  cases unpads : aesPaddingPkcs7Get
      (decryptedPayload mbedtls key outcomes.iv payload) with
  | none =>
      intro ret after isSome
      cases isSome
  | some len =>
      simp only [Option.bind_some]
      by_cases wrongLength : len ≠ serverHello.length
      · rw [if_pos wrongLength, if_pos (.inl wrongLength)]
        exact ⟨process, data, rfl, attached⟩
      have isLen : len = serverHello.length := by simpa using wrongLength
      have enough : serverHello.length ≤ payload.length := by
        obtain ⟨message, ⟨count, _, _, isPlain⟩, length⟩ :=
          padded_of_aesPaddingPkcs7Get unpads (by rw [isLen]; decide)
        have total := congrArg List.length isPlain
        rw [length_decryptedPayload, List.length_append] at total
        omega
      rw [if_neg wrongLength, prefixes _ enough]
      by_cases wrongText : (decryptedPayload mbedtls key outcomes.iv
          payload).take serverHello.length ≠ serverHello
      · rw [if_pos wrongText, if_pos (.inr (.inl wrongText))]
        exact ⟨process, data, rfl, attached⟩
      rw [if_neg wrongText]
      by_cases noAck : outcomes.mallocAck = false
      · rw [if_pos noAck, if_pos (.inr (.inr (.inl noAck)))]
        exact ⟨process, data, rfl, attached⟩
      rw [if_neg noAck]
      by_cases noEnc : outcomes.callocAckEnc = false
      · rw [if_pos (.inr (.inr (.inr noEnc))), noEnc]
        exact ⟨process, data, rfl, attached⟩
      have isEnc : outcomes.callocAckEnc = true := by simpa using noEnc
      have accepted : ¬ (len ≠ serverHello.length ∨
          (decryptedPayload mbedtls key outcomes.iv payload).take
            serverHello.length ≠ serverHello ∨
          outcomes.mallocAck = false ∨ outcomes.callocAckEnc = false) := by
        simp only [not_or]
        exact ⟨wrongLength, wrongText, noAck, noEnc⟩
      obtain ⟨enc, encGets, encrypts⟩ :=
        repeaterClientAesEncGet_encrypts mbedtls keyed
          (by decide : serverHelloAck.length < 336)
      rw [if_neg accepted, isEnc, encGets]
      simp only [encrypts, Option.bind_some, ne_eq, not_true_eq_false,
        if_false]
      have sends := tcpClientSendFrame_of_attached attached outcomes.ackFrame
        frameTypeServerHelloAck
        (encryptedPayload_ne_nil mbedtls key outcomes.iv serverHelloAck)
      have ackLength : getAesEncOutLen serverHelloAck.length = 32 := rfl
      rw [length_encryptedPayload, ackLength, ackFrame_eq keyed] at sends
      by_cases delivers : outcomes.ackFrame.Delivers 32
      · rw [sends.1 delivers, if_pos delivers]
        refine ⟨_, data, rfl, ⟨attached.client, attached.serverIp,
          attached.buffer, attached.size, attached.opened, attached.closed,
          attached.valid⟩, ?_, received⟩
        rw [sent]
      · obtain ⟨after, fails, left, _⟩ := sends.2 delivers
        rw [fails, if_neg delivers]
        exact ⟨after, data, rfl, left⟩

/-- The header fields are read back from the front of the buffer. -/
theorem loadLE_overwrite_leading {old source : List UInt8}
    {position width : Nat} (inside : position + width ≤ source.length) :
    loadLE (overwrite old 0 source) position width =
      loadLE source position width := by
  unfold loadLE slice overwrite
  rw [List.take_zero, List.nil_append, List.drop_append_of_le_length
    (by omega), List.take_append_of_le_length
      (by rw [List.length_drop]; omega)]

/-- What follows a complete header. -/
theorem receiveServerHello_reaches
    (attached : process.Attached sock true data)
    (keyed : process.Keyed mac key outcomes.iv)
    (sent : process.sent = helloFrameBytes mbedtls outcomes mac key)
    (received : process.received = [])
    (arrivals : process.arrivals = outcomes.arrivals) :
    Reaches sock (receiveServerHello mbedtls outcomes process)
      (let (_, header, arrivals) :=
        commSockRecvData sizeofTcpFrame 3 [] outcomes.arrivals
      if header.length = sizeofTcpFrame then
        headerEnding mbedtls outcomes mac key header arrivals
      else some (.failed (-1) false)) := by
  obtain ⟨after, receives, afterAttached, left, context, sameSent,
      nowReceived⟩ := tcpClientRecvData_of_attached attached
    (by decide : 0 < tcpClientBufferSize)
    (by decide : sizeofTcpFrame ≤ tcpClientBufferSize)
    (Nat.le_of_eq (Nat.zero_add _))
  rw [arrivals] at receives afterAttached left nowReceived
  rw [receiveServerHello, attached.client]
  simp only [Cell.read, Option.bind_eq_bind, Option.bind_some, receives]
  generalize commSockRecvData sizeofTcpFrame 3 [] outcomes.arrivals = first
    at afterAttached left nowReceived ⊢
  obtain ⟨_, header, rest⟩ := first
  dsimp only at afterAttached left nowReceived ⊢
  by_cases complete : header.length = sizeofTcpFrame
  case neg =>
    rw [beq_false_of_ne complete] at afterAttached
    rw [if_neg complete, if_neg complete, if_neg (by decide)]
    exact ⟨after, _, rfl, afterAttached⟩
  rw [if_pos complete, if_pos complete, if_pos (by decide),
    afterAttached.buffer]
  rw [complete, beq_self_eq_true] at afterAttached
  simp only [Option.bind_some]
  have header48 : header.length = 48 := complete
  rw [loadLE_overwrite_leading (by omega), loadLE_overwrite_leading (by omega),
    loadLE_overwrite_leading (by omega)]
  unfold headerEnding
  dsimp only
  by_cases wrongMagic : loadLE header 0 2 ≠ magicHead
  · rw [if_pos wrongMagic, if_pos (.inl wrongMagic)]
    exact ⟨after, _, rfl, afterAttached⟩
  rw [if_neg wrongMagic]
  by_cases wrongType : loadLE header 2 2 ≠ frameTypeServerHello
  · rw [if_pos wrongType, if_pos (.inr (.inl wrongType))]
    exact ⟨after, _, rfl, afterAttached⟩
  rw [if_neg wrongType]
  have available : tcpClientBufferSize - sizeofTcpFrame = 2000 := rfl
  rw [available]
  by_cases long : 2000 < loadLE header 4 4
  · rw [if_pos (by omega), if_pos long, if_pos (.inr (.inr long))]
    exact ⟨after, _, rfl, afterAttached⟩
  have inOrder : ¬ (loadLE header 0 2 ≠ magicHead ∨
      loadLE header 2 2 ≠ frameTypeServerHello ∨
      2000 < loadLE header 4 4) := by
    simp only [not_or]
    exact ⟨wrongMagic, wrongType, long⟩
  rw [if_neg inOrder]
  by_cases empty : loadLE header 4 4 = 0
  · rw [if_neg (by omega), if_pos empty]
    refine ⟨after, _, rfl, afterAttached, sameSent.trans sent, ?_⟩
    rw [nowReceived, received, List.nil_append]
  rw [if_pos (by omega), if_neg long, if_neg empty]
  obtain ⟨last, receivesLast, lastAttached, _, lastContext, lastSent,
      lastReceived⟩ := tcpClientRecvData_of_attached afterAttached
    (by omega : 0 < 2000) (by omega : loadLE header 4 4 ≤ 2000)
    (by decide : sizeofTcpFrame + 2000 ≤ tcpClientBufferSize)
  rw [left] at receivesLast lastAttached lastReceived
  rw [receivesLast]
  simp only [Option.bind_some]
  generalize commSockRecvData (loadLE header 4 4) 3 [] rest = second
    at lastAttached lastReceived ⊢
  obtain ⟨_, payload, _⟩ := second
  dsimp only at lastAttached lastReceived ⊢
  by_cases whole : payload.length = loadLE header 4 4
  case neg =>
    rw [beq_false_of_ne whole] at lastAttached
    rw [if_neg whole, if_neg whole, if_neg (by omega)]
    exact ⟨last, _, rfl, lastAttached⟩
  rw [whole, beq_self_eq_true] at lastAttached
  rw [if_pos whole, if_pos whole, if_pos rfl, ← whole]
  have headerFits : sizeofTcpFrame ≤ (overwrite data 0 header).length := by
    rw [afterAttached.size]
    decide
  have isSize : loadLE (overwrite (overwrite data 0 header) sizeofTcpFrame
      payload) 4 4 = payload.length := by
    rw [loadLE, slice_overwrite_before headerFits (by decide), ← loadLE,
      loadLE_overwrite_leading (by omega), whole]
  have isPayload : slice (overwrite (overwrite data 0 header) sizeofTcpFrame
      payload) sizeofTcpFrame payload.length = payload :=
    slice_overwrite_same payload headerFits
  have stillKeyed : last.Keyed mac key outcomes.iv := by
    constructor
    · rw [lastContext, context, keyed.mac]
    · rw [lastContext, context, keyed.key]
    · rw [lastContext, context, keyed.iv]
  apply recvServerHello_reaches lastAttached stillKeyed isSize isPayload
    (by omega)
  · rw [lastSent, sameSent, sent]
  · rw [lastReceived, nowReceived, received, List.nil_append]

/-- The exchange on an open connection reaches its ending. -/
theorem exchangeHello_reaches
    (attached : process.Attached outcomes.socket true data)
    (keyed : process.Keyed mac key outcomes.iv)
    (sent : process.sent = []) (received : process.received = [])
    (arrivals : process.arrivals = outcomes.arrivals) :
    Reaches outcomes.socket (exchangeHello mbedtls outcomes process)
      (ending mbedtls outcomes mac key) := by
  rw [exchangeHello, sendClientHello]
  by_cases noMalloc : outcomes.mallocHello = false
  · rw [if_pos noMalloc, ending, if_pos (.inl noMalloc)]
    exact ⟨process, data, rfl, attached⟩
  rw [if_neg noMalloc]
  by_cases noEnc : outcomes.callocHelloEnc = false
  · rw [ending, if_pos (.inr noEnc), noEnc]
    exact ⟨process, data, rfl, attached⟩
  have isEnc : outcomes.callocHelloEnc = true := by simpa using noEnc
  obtain ⟨enc, gets, encrypts⟩ := repeaterClientAesEncGet_encrypts mbedtls
    keyed (by decide : clientHello.length < 336)
  have sends := tcpClientSendFrame_of_attached attached outcomes.helloFrame
    frameTypeClientHello
    (encryptedPayload_ne_nil mbedtls key outcomes.iv clientHello)
  have helloLength : getAesEncOutLen clientHello.length = 16 := rfl
  rw [length_encryptedPayload, helloLength, helloFrame_eq keyed] at sends
  rw [ending, if_neg (not_or.mpr ⟨noMalloc, noEnc⟩), isEnc, gets]
  simp only [encrypts, Option.bind_eq_bind, Option.bind_some, ne_eq,
    not_true_eq_false, if_false]
  by_cases delivers : outcomes.helloFrame.Delivers 16
  case neg =>
    obtain ⟨after, fails, left, _⟩ := sends.2 delivers
    obtain ⟨gone, deinits, detached, _, _⟩ := tcpClientDeinit_of_attached left
    rw [fails, if_pos (.inl delivers)]
    simp only [Option.bind_some]
    rw [if_pos (by decide), deinits]
    intro ret last isSome
    obtain ⟨_, rfl⟩ := Prod.mk.inj (Option.some.inj isSome)
    exact detached.client
  rw [sends.1 delivers]
  generalize isAfter : ({ process with
    sent := process.sent ++ helloFrameBytes mbedtls outcomes mac key } :
      Process) = after
  have afterAttached : after.Attached outcomes.socket true data := by
    rw [← isAfter]
    exact ⟨attached.client, attached.serverIp, attached.buffer,
      attached.size, attached.opened, attached.closed, attached.valid⟩
  have afterSent : after.sent = helloFrameBytes mbedtls outcomes mac key := by
    rw [← isAfter]
    dsimp only
    rw [sent, List.nil_append]
  have afterReceived : after.received = [] := by rw [← isAfter, received]
  simp only [Option.bind_some]
  rw [if_neg (by decide)]
  simp only [Option.pure_def, Option.bind_some, not_true_eq_false, if_false,
    afterAttached.client, Cell.read]
  by_cases outside : fdSetsize ≤ outcomes.socket
  · have refuses : fdSet outcomes.socket = none :=
      if_neg fun inside => by omega
    rw [if_pos (.inr outside), refuses]
    intro ret last isSome
    cases isSome
  have valid := attached.valid
  have sets : fdSet outcomes.socket = some () :=
    if_pos ⟨by omega, by omega⟩
  have proceeds : ¬ (¬ outcomes.helloFrame.Delivers 16 ∨
      fdSetsize ≤ outcomes.socket) :=
    not_or.mpr ⟨not_not.mpr delivers, outside⟩
  rw [if_neg proceeds, sets, Option.bind_some]
  cases outcomes.select with
  | failed => exact ⟨after, data, rfl, afterAttached, afterSent, afterReceived⟩
  | expired => exact ⟨after, data, rfl, afterAttached⟩
  | ready isset =>
      cases isset with
      | false =>
          exact ⟨after, data, rfl, afterAttached, afterSent, afterReceived⟩
      | true =>
          have afterKeyed : after.Keyed mac key outcomes.iv := by
            rw [← isAfter]
            exact ⟨keyed.mac, keyed.key, keyed.iv⟩
          exact receiveServerHello_reaches afterAttached afterKeyed afterSent
            afterReceived (by rw [← isAfter, arrivals])

end Refinement

end TcpClient

end MbedtlsKcp
