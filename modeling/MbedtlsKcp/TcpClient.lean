import MbedtlsKcp.RepeaterAes

/-!
# The TCP client

The handshake of `tcp_client.c` with the socket loops of `common_sock.c`.
The outcomes of the system and library calls are inputs.  Heap blocks are
cells, sockets are listed when they are opened and when they are closed, and
`none` stands for an access to a freed block, to a null pointer or outside a
buffer.
-/

namespace MbedtlsKcp

namespace TcpClient

open ByteBuffers AesWrapper RepeaterAes

/-- A heap block that is allocated at most once. -/
inductive Cell (α : Type)
  | unallocated
  | live (value : α)
  | freed

def Cell.read {α : Type} : Cell α → Option α
  | .live value => some value
  | _ => none

def Cell.free {α : Type} : Cell α → Option (Cell α)
  | .live _ => some .freed
  | _ => none

/-- The `TcpClient` structure.  The two pointers are either null or point to
the block of their name. -/
structure Client where
  init : Bool
  sock : Int
  serverIp : Bool
  serverPort : Int
  buffer : Bool
  bufferSize : Nat
  connected : Bool

/-- What `calloc` leaves. -/
def Client.zero : Client where
  init := false
  sock := 0
  serverIp := false
  serverPort := 0
  buffer := false
  bufferSize := 0
  connected := false

/-- What a receiving socket meets: bytes that can be read, or a failing call
with its error.  `again` carries the milliseconds since the first call. -/
inductive Arrival
  | bytes (data : List UInt8)
  | interrupted
  | again (elapsedMs : Nat)
  | failed

/-- What one call of `send` does. -/
inductive SendOutcome
  | accepted (count : Nat)
  | again
  | failed

inductive SelectOutcome
  | failed
  | expired
  | ready (isset : Bool)

inductive ConnectOutcome
  | done
  | inProgress (select : SelectOutcome) (soError : Int)
  | failed

/-- The calls of one `tcp_client_send_frame`: the allocation, the bytes it
leaves in the block, the clock and the sends. -/
structure FrameOutcome where
  malloc : Bool
  garbage : Nat → UInt8
  utcTimeMs : Nat
  sends : List SendOutcome

/-- The outcomes of all calls of one handshake; an allocation is `true` when
it succeeds. -/
structure Outcomes where
  callocClient : Bool
  socket : Int
  strdup : Bool
  callocBuffer : Bool
  inetPton : Int
  connect : ConnectOutcome
  iv : AesKey
  inetAddr : UInt32
  mallocHello : Bool
  callocHelloEnc : Bool
  helloFrame : FrameOutcome
  select : SelectOutcome
  arrivals : List Arrival
  callocDec : Bool
  mallocAck : Bool
  callocAckEnc : Bool
  ackFrame : FrameOutcome

/-- The memory and the sockets of the process; `sent` and `received` are the
bytes that have passed through the socket. -/
structure Process where
  aesContext : RepeaterAesContext
  client : Cell Client
  serverIp : Cell String
  buffer : Cell (List UInt8)
  openedSockets : List Int
  closedSockets : List Int
  arrivals : List Arrival
  sent : List UInt8
  received : List UInt8

def tcpClientBufferSize : Nat := 2048

def tcpServerPort : Int := 1600

/-- The number of descriptors an `fd_set` has room for. -/
def fdSetsize : Int := 1024

def magicHead : Nat := 0xAF55

def frameTypeClientHello : Nat := 0

def frameTypeServerHello : Nat := 1

def frameTypeServerHelloAck : Nat := 2

/-- `sizeof(TcpFrame)`. -/
def sizeofTcpFrame : Nat := 48

/-- `client hello`. -/
def clientHello : List UInt8 :=
  [99, 108, 105, 101, 110, 116, 32, 104, 101, 108, 108, 111]

/-- `server hello`. -/
def serverHello : List UInt8 :=
  [115, 101, 114, 118, 101, 114, 32, 104, 101, 108, 108, 111]

/-- `server hello ack`. -/
def serverHelloAck : List UInt8 :=
  [115, 101, 114, 118, 101, 114, 32, 104, 101, 108, 108, 111, 32, 97, 99, 107]

/-- The loop of `Comm_sock_send_data`, from `realSendSize` bytes on: the
result and the number of bytes sent.  When the outcomes are used up the call
fails. -/
def commSockSendData (needSendSize : Nat) :
    Nat → List SendOutcome → Int × Nat
  | realSendSize, [] => (-2, realSendSize)
  | realSendSize, .accepted count :: outcomes =>
      let ret := min count (needSendSize - realSendSize)
      if ret = 0 then (-1, realSendSize)
      else if realSendSize + ret < needSendSize then
        commSockSendData needSendSize (realSendSize + ret) outcomes
      else (0, realSendSize + ret)
  | realSendSize, .again :: outcomes =>
      commSockSendData needSendSize realSendSize outcomes
  | realSendSize, .failed :: _ => (-2, realSendSize)

/-- The loop of `Comm_sock_recv_data` with the bytes read so far: the result,
the bytes, and what has still to arrive.  Bytes that are not asked for stay in
the socket, and when nothing is left to arrive the peer has closed. -/
def commSockRecvData (needReadLen : Nat) :
    Nat → List UInt8 → List Arrival → Int × List UInt8 × List Arrival
  | _, read, [] => (-1, read, [])
  | trycnt, read, .bytes data :: arrivals =>
      let taken := data.take (needReadLen - read.length)
      let left := data.drop (needReadLen - read.length)
      if taken = [] then (-1, read, arrivals)
      else if (read ++ taken).length < needReadLen then
        commSockRecvData needReadLen trycnt (read ++ taken) arrivals
      else
        (0, read ++ taken,
          if left = [] then arrivals else .bytes left :: arrivals)
  | trycnt, read, .interrupted :: arrivals =>
      commSockRecvData needReadLen trycnt read arrivals
  | trycnt, read, .again elapsedMs :: arrivals =>
      if 0 < trycnt then
        commSockRecvData needReadLen (trycnt - 1) read arrivals
      else if elapsedMs < 500 then
        commSockRecvData needReadLen trycnt read arrivals
      else (-2, read, arrivals)
  | _, read, .failed :: arrivals => (-2, read, arrivals)

/-- `FD_SET` writes inside its `fd_set` only for small descriptors. -/
def fdSet (sock : Int) : Option Unit :=
  if 0 ≤ sock ∧ sock < fdSetsize then some () else none

def tcpClientConnect (outcomes : Outcomes) (process : Process) :
    Option (Int × Process) := do
  let client ← process.client.read
  if client.init = false then return (-1, process)
  else if ¬ 0 < client.sock then return (-1, process)
  else if client.connected then return (0, process)
  else
    let _serverIp ←
      if client.serverIp then process.serverIp.read else none
    if outcomes.inetPton ≠ 1 then return (-1, process)
    else
      let connected : Process :=
        { process with client := .live { client with connected := true } }
      match outcomes.connect with
      | .done => return (0, connected)
      | .failed => return (-1, process)
      | .inProgress select soError =>
          let _writefds ← fdSet client.sock
          match select with
          | .ready _ =>
              if soError = 0 then return (0, connected)
              else return (-1, process)
          | _ => return (-1, process)

def tcpClientDisconnect (process : Process) : Option (Int × Process) := do
  let client ← process.client.read
  if client.connected ∧ 0 < client.sock then
    return (0, { process with
      closedSockets := process.closedSockets ++ [client.sock]
      client := .live { client with sock := 0, connected := false } })
  else return (0, process)

def tcpClientDeinit (process : Process) : Option (Int × Process) := do
  let (_, process) ← tcpClientDisconnect process
  let client ← process.client.read
  let serverIp ←
    if client.serverIp then process.serverIp.free else some process.serverIp
  let buffer ←
    if client.buffer then process.buffer.free else some process.buffer
  let cell ← process.client.free
  return (0, { process with
    serverIp := serverIp, buffer := buffer, client := cell })

/-- Whether the result is not `NULL`. -/
def tcpClientInit (outcomes : Outcomes) (serverIp : String)
    (serverPort : Int) (process : Process) : Option (Bool × Process) :=
  if serverIp = "" ∨ ¬ (0 < serverPort ∧ serverPort ≤ 65535) then
    some (false, process)
  else if outcomes.callocClient = false then some (false, process)
  else
    let process := { process with client := .live Client.zero }
    let process := if 0 ≤ outcomes.socket then
        { process with
          openedSockets := process.openedSockets ++ [outcomes.socket] }
      else process
    if ¬ 0 < outcomes.socket then some (false, process)
    else
      let client : Client :=
        { Client.zero with
          sock := outcomes.socket
          serverIp := outcomes.strdup
          serverPort := serverPort
          bufferSize := tcpClientBufferSize
          buffer := outcomes.callocBuffer }
      let process := { process with
        serverIp :=
          if outcomes.strdup then .live serverIp else process.serverIp
        buffer :=
          if outcomes.callocBuffer then
            .live (List.replicate tcpClientBufferSize 0)
          else process.buffer
        client := .live client }
      if outcomes.callocBuffer = false then do
        let (_, process) ← tcpClientDeinit process
        return (false, process)
      else
        let process :=
          { process with client := .live { client with init := true } }
        do
          let (ret, process) ← tcpClientConnect outcomes process
          if ret = 0 then return (true, process)
          else
            let (_, process) ← tcpClientDeinit process
            return (false, process)

def tcpClientSendData (sends : List SendOutcome) (data : List UInt8)
    (process : Process) : Option (Int × Process) := do
  let client ← process.client.read
  if client.init = false then return (-1, process)
  else if client.connected = false then return (-1, process)
  else if data = [] then return (-1, process)
  else
    let (_, sendSize) := commSockSendData data.length 0 sends
    let process := { process with sent := process.sent ++ data.take sendSize }
    if data.length ≠ sendSize then
      return (-1, { process with
        client := .live { client with connected := false } })
    else return ((sendSize : Int), process)

/-- Receives into the buffer of the client from `position` on. -/
def tcpClientRecvData (position bufferSize needReadLen : Nat)
    (process : Process) : Option (Int × Process) := do
  let client ← process.client.read
  if client.init = false then return (-1, process)
  else if client.connected = false then return (-1, process)
  else if client.buffer = false ∨ bufferSize = 0 then return (-1, process)
  else if bufferSize < needReadLen then return (-1, process)
  else
    let (_, read, arrivals) :=
      commSockRecvData needReadLen 3 [] process.arrivals
    let old ← process.buffer.read
    let buffer ← copyInto old position read
    let process := { process with
      arrivals := arrivals
      received := process.received ++ read
      buffer := .live buffer }
    if read.length ≠ needReadLen then
      return (-1, { process with
        client := .live { client with connected := false } })
    else return ((read.length : Int), process)

/-- The frame that is filled into a block with the given contents.  Only a
client hello carries the iv, and the reserved bytes are never written. -/
def tcpFrameBytes (garbage : Nat → UInt8) (frameType : Nat) (mac : Mac)
    (iv : AesKey) (timestamp : Nat) (payload : List UInt8) : List UInt8 :=
  let frame := (List.range (sizeofTcpFrame + payload.length)).map garbage
  let frame := storeLE frame 0 2 magicHead
  let frame := storeLE frame 2 2 frameType
  let frame := storeLE frame 4 4 payload.length
  let frame := overwrite frame 32 mac.toList
  let frame := storeLE frame 8 8 timestamp
  let frame := if frameType = frameTypeClientHello then
      overwrite frame 16 iv.toList
    else frame
  overwrite frame sizeofTcpFrame payload

/-- The frame that the handshake's context gives. -/
def Process.frameBytes (process : Process) (outcome : FrameOutcome)
    (frameType : Nat) (payload : List UInt8) : List UInt8 :=
  tcpFrameBytes outcome.garbage frameType
    process.aesContext.clientQuadruples.mac
    process.aesContext.clientQuadruples.iv outcome.utcTimeMs payload

def tcpClientSendFrame (outcome : FrameOutcome) (frameType : Nat)
    (payload : List UInt8) (process : Process) : Option (Int × Process) := do
  let client ← process.client.read
  if client.init = false then return (-1, process)
  else if client.connected = false then return (-1, process)
  else if payload = [] then return (-1, process)
  else if outcome.malloc = false then return (-1, process)
  else
    let (ret, process) ← tcpClientSendData outcome.sends
      (process.frameBytes outcome frameType payload) process
    if ret ≠ ((sizeofTcpFrame + payload.length : Nat) : Int) then
      return (-1, process)
    else return (ret, process)

variable (mbedtls : Mbedtls)

/-- `repeater_client_aes_enc_get`: an encrypter on a zeroed block. -/
def repeaterClientAesEncGet (calloc : Bool) (process : Process) :
    Option (Aes128CbcEncrypo mbedtls) :=
  if calloc then
    some (aesEncrypoOpt
      { isInit := false, aes := mbedtls.aesInit,
        key := Vector.replicate 16 0, iv := Vector.replicate 16 0 }
      process.aesContext.clientQuadruples.key
      process.aesContext.clientQuadruples.iv .encInit).2
  else none

/-- `repeater_client_aes_dec_get`: a decrypter on a zeroed block. -/
def repeaterClientAesDecGet (calloc : Bool) (process : Process) :
    Option (Aes128CbcDecrypo mbedtls) :=
  if calloc then
    some (aesDecrypoOpt
      { isInit := false, aes := mbedtls.aesInit,
        key := Vector.replicate 16 0, iv := Vector.replicate 16 0 }
      process.aesContext.clientQuadruples.key
      process.aesContext.clientQuadruples.iv .decInit).2
  else none

def sendClientHello (outcomes : Outcomes) (process : Process) :
    Option (Int × Process) := do
  let payloadEncLen := getAesEncOutLen clientHello.length
  if outcomes.mallocHello = false then return (-1, process)
  else
    match repeaterClientAesEncGet mbedtls outcomes.callocHelloEnc process with
    | none => return (-1, process)
    | some enc =>
        let (_, encLen, payloadEnc) ← aesEncrypoData enc clientHello
        if encLen ≠ payloadEncLen then return (-1, process)
        else
          let (ret, process) ← tcpClientSendFrame outcomes.helloFrame
            frameTypeClientHello payloadEnc process
          if ret < 0 then
            let (_, process) ← tcpClientDeinit process
            return (-1, process)
          else return (0, process)

/-- The received frame is in the buffer of the client. -/
def recvServerHello (outcomes : Outcomes) (process : Process) :
    Option (Int × Process) := do
  let recvFrame ← process.buffer.read
  let frameSize := loadLE recvFrame 4 4
  if 255 < frameSize then return (-1, process)
  else
    let tmp ← readFrom recvFrame sizeofTcpFrame frameSize
    match repeaterClientAesDecGet mbedtls outcomes.callocDec process with
    | none => return (-1, process)
    | some dec =>
        let (_, decLen, decData) ←
          aesDecrypoData dec tmp (List.replicate 256 0)
        if decLen ≠ serverHello.length then return (-1, process)
        else if decData.take serverHello.length ≠ serverHello then
          return (-1, process)
        else
          let payloadEncLen := getAesEncOutLen serverHelloAck.length
          if outcomes.mallocAck = false then return (-1, process)
          else
            match repeaterClientAesEncGet mbedtls outcomes.callocAckEnc
                process with
            | none => return (-1, process)
            | some enc =>
                let (_, encLen, payloadEnc) ←
                  aesEncrypoData enc serverHelloAck
                if encLen ≠ payloadEncLen then return (-1, process)
                else
                  let (ret, process) ← tcpClientSendFrame outcomes.ackFrame
                    frameTypeServerHelloAck payloadEnc process
                  if ret < 0 then return (-1, process)
                  else return (0, process)

/-- From the receipt of the header on: the value of `ret` at `exit`. -/
def receiveServerHello (outcomes : Outcomes) (process : Process) :
    Option (Int × Process) := do
  let client ← process.client.read
  let (ret, process) ← tcpClientRecvData 0 client.bufferSize sizeofTcpFrame
    process
  if 0 < ret then
    let recvFrame ← process.buffer.read
    let frameSize := loadLE recvFrame 4 4
    if loadLE recvFrame 0 2 ≠ magicHead then return (ret, process)
    else if loadLE recvFrame 2 2 ≠ frameTypeServerHello then
      return (ret, process)
    else if 0 < frameSize then
      if client.bufferSize - sizeofTcpFrame < frameSize then
        return (ret, process)
      else
        let (ret, process) ← tcpClientRecvData sizeofTcpFrame
          (client.bufferSize - sizeofTcpFrame) frameSize process
        if ret = frameSize then
          let (accepted, process) ← recvServerHello mbedtls outcomes process
          if accepted ≠ 0 then return (ret, process)
          else return (0, process)
        else return (ret, process)
    else return (0, process)
  else return (ret, process)

/-- From the client hello on: the value of `ret` at `exit`. -/
def exchangeHello (outcomes : Outcomes) (process : Process) :
    Option (Int × Process) := do
  let (ret, process) ← sendClientHello mbedtls outcomes process
  if ret ≠ 0 then return (ret, process)
  else
    let client ← process.client.read
    let _readfds ← fdSet client.sock
    match outcomes.select with
    | .failed => return (ret, process)
    | .expired => return (-2, process)
    | .ready isset =>
        if isset then receiveServerHello mbedtls outcomes process
        else return (0, process)

def tcpClientSendHello (outcomes : Outcomes) (serverIp : Option String)
    (mac master : Mac) (aesKey : AesKey) (process : Process) :
    Option (Int × Process) :=
  match serverIp with
  | none => some (-1, process)
  | some serverIp =>
      if serverIp = "" then some (-1, process)
      else do
        let process := { process with
          aesContext := { process.aesContext with masterMac := master } }
        let (initialised, process) ←
          tcpClientInit outcomes serverIp tcpServerPort process
        if initialised = false then return (-1, process)
        else
          let process := { process with
            aesContext := { process.aesContext with
              clientQuadruples :=
                { ip := outcomes.inetAddr, mac := mac, key := aesKey,
                  iv := outcomes.iv } } }
          let (ret, process) ← exchangeHello mbedtls outcomes process
          let (_, process) ← tcpClientDeinit process
          return (ret, process)

end TcpClient

end MbedtlsKcp
