import MbedtlsKcp.RepeaterRegistry
import MbedtlsKcp.TcpHandshake

/-!
# Authentication and resources of the TCP handshake

What `tcp_client_send_hello` returns and releases, for every outcome of the
calls it makes and every byte the server sends.  It returns the wrong sign
when `select` fails, for frames of a wrong kind or size, and when the answer
is refused; it leaks the socket when the connection or a transfer fails, and
frees the client twice when the client hello cannot be sent.
-/

namespace MbedtlsKcp

namespace TcpClient

open ByteBuffers AesWrapper RepeaterAes Pkcs7Padding

/-- The process before the handshake. -/
def Process.start (aesContext : RepeaterAesContext)
    (arrivals : List Arrival) : Process where
  aesContext := aesContext
  client := .unallocated
  serverIp := .unallocated
  buffer := .unallocated
  openedSockets := []
  closedSockets := []
  arrivals := arrivals
  sent := []
  received := []

/-- Whether the socket gets connected; `none` when waiting for it writes
outside the `fd_set`. -/
def Outcomes.connectResult (outcomes : Outcomes) : Option Bool :=
  if outcomes.inetPton ≠ 1 then some false
  else
    match outcomes.connect with
    | .done => some true
    | .failed => some false
    | .inProgress select soError =>
        if outcomes.socket < fdSetsize then
          match select with
          | .ready _ => some (soError == 0)
          | _ => some false
        else none

section Init

variable {outcomes : Outcomes} {serverIp : String}
  {aesContext : RepeaterAesContext}

theorem tcpClientConnect_idle {process : Process} {data : List UInt8}
    (attached : process.Attached outcomes.socket false data) :
    match outcomes.connectResult with
    | none => tcpClientConnect outcomes process = none
    | some false => tcpClientConnect outcomes process = some (-1, process)
    | some true => ∃ after,
        tcpClientConnect outcomes process = some (0, after) ∧
        after.Attached outcomes.socket true data ∧
        after.sent = process.sent ∧ after.received = process.received ∧
        after.arrivals = process.arrivals ∧
        after.aesContext = process.aesContext := by
  obtain ⟨ip, hasIp⟩ := attached.serverIp
  have valid := attached.valid
  rw [tcpClientConnect, attached.client]
  simp only [Cell.read, hasIp, Option.bind_eq_bind, Option.bind_some,
    Bool.true_eq_false, Bool.false_eq_true, if_false, if_true, valid,
    not_true_eq_false]
  unfold Outcomes.connectResult
  by_cases badAddress : outcomes.inetPton ≠ 1
  · rw [if_pos badAddress, if_pos badAddress]
    rfl
  rw [if_neg badAddress, if_neg badAddress]
  cases outcomes.connect with
  | done => exact ⟨_, rfl, ⟨rfl, ⟨ip, rfl⟩, attached.buffer, attached.size,
      attached.opened, attached.closed, valid⟩, rfl, rfl, rfl, rfl⟩
  | failed => rfl
  | inProgress select soError =>
      dsimp only
      by_cases inside : outcomes.socket < fdSetsize
      case neg =>
        have refuses : fdSet outcomes.socket = none :=
          if_neg fun both => inside both.2
        rw [if_neg inside, refuses]
        rfl
      have sets : fdSet outcomes.socket = some () :=
        if_pos ⟨by omega, inside⟩
      rw [if_pos inside, sets, Option.bind_some]
      cases select with
      | failed => rfl
      | expired => rfl
      | ready isset =>
          by_cases noError : soError = 0
          · rw [noError]
            exact ⟨_, rfl, ⟨rfl, ⟨ip, rfl⟩, attached.buffer, attached.size,
              attached.opened, attached.closed, valid⟩, rfl, rfl, rfl, rfl⟩
          · rw [beq_false_of_ne noError]
            dsimp only
            rw [if_neg noError]
            rfl

/-- The process when the socket is open and the blocks are allocated. -/
def Process.allocated (outcomes : Outcomes) (serverIp : String)
    (aesContext : RepeaterAesContext) (arrivals : List Arrival) : Process where
  aesContext := aesContext
  client := .live {
    init := true
    sock := outcomes.socket
    serverIp := outcomes.strdup
    serverPort := tcpServerPort
    buffer := true
    bufferSize := tcpClientBufferSize
    connected := false }
  serverIp := if outcomes.strdup then .live serverIp else .unallocated
  buffer := .live (List.replicate tcpClientBufferSize 0)
  openedSockets := [outcomes.socket]
  closedSockets := []
  arrivals := arrivals
  sent := []
  received := []

theorem tcpClientInit_allocated (nonempty : serverIp ≠ "")
    (arrivals : List Arrival) (hasClient : outcomes.callocClient = true)
    (isSocket : 0 < outcomes.socket)
    (hasBuffer : outcomes.callocBuffer = true) :
    tcpClientInit outcomes serverIp tcpServerPort
        (.start aesContext arrivals) = do
      let (ret, process) ← tcpClientConnect outcomes
        (.allocated outcomes serverIp aesContext arrivals)
      if ret = 0 then return (true, process)
      else
        let (_, process) ← tcpClientDeinit process
        return (false, process) := by
  have proceeds : ¬ (serverIp = "" ∨
      ¬ (0 < tcpServerPort ∧ tcpServerPort ≤ 65535)) := by
    rintro (empty | outside)
    · exact nonempty empty
    · exact outside (by decide)
  rw [tcpClientInit, if_neg proceeds, if_neg (by simp [hasClient]),
    if_neg (by omega), if_neg (by simp [hasBuffer]), hasBuffer,
    if_pos (by omega : (0 : Int) ≤ outcomes.socket)]
  rfl

/-- What an initialisation that fails has done: it was refused before
anything was allocated, or it leaves a socket or the client behind. -/
theorem tcpClientInit_start (outcomes : Outcomes)
    (aesContext : RepeaterAesContext) (nonempty : serverIp ≠ "")
    (arrivals : List Arrival) :
    (outcomes.callocClient = false →
      tcpClientInit outcomes serverIp tcpServerPort
          (.start aesContext arrivals) =
        some (false, .start aesContext arrivals)) ∧
    (outcomes.callocClient = true → outcomes.socket ≤ 0 → ∃ after client,
      tcpClientInit outcomes serverIp tcpServerPort
          (.start aesContext arrivals) = some (false, after) ∧
        after.client = .live client) ∧
    (outcomes.callocClient = true → 0 < outcomes.socket →
      outcomes.callocBuffer = false → ∃ after,
        tcpClientInit outcomes serverIp tcpServerPort
            (.start aesContext arrivals) = some (false, after) ∧
          after.openedSockets = [outcomes.socket] ∧
          after.closedSockets = []) ∧
    (outcomes.callocClient = true → 0 < outcomes.socket →
      outcomes.callocBuffer = true → outcomes.strdup = false →
        tcpClientInit outcomes serverIp tcpServerPort
          (.start aesContext arrivals) = none) ∧
    (outcomes.callocClient = true → 0 < outcomes.socket →
      outcomes.callocBuffer = true → outcomes.strdup = true →
        match outcomes.connectResult with
        | none => tcpClientInit outcomes serverIp tcpServerPort
            (.start aesContext arrivals) = none
        | some false => ∃ after,
            tcpClientInit outcomes serverIp tcpServerPort
                (.start aesContext arrivals) = some (false, after) ∧
              after.openedSockets = [outcomes.socket] ∧
              after.closedSockets = []
        | some true => ∃ after data,
            tcpClientInit outcomes serverIp tcpServerPort
                (.start aesContext arrivals) = some (true, after) ∧
              after.Attached outcomes.socket true data ∧
              after.sent = [] ∧ after.received = [] ∧
              after.arrivals = arrivals ∧ after.aesContext = aesContext) := by
  have proceeds : ¬ (serverIp = "" ∨
      ¬ (0 < tcpServerPort ∧ tcpServerPort ≤ 65535)) := by
    rintro (empty | outside)
    · exact nonempty empty
    · exact outside (by decide)
  refine ⟨?_, ?_, ?_, ?_, ?_⟩
  · intro noClient
    rw [tcpClientInit, if_neg proceeds, if_pos noClient]
  · intro hasClient noSocket
    rw [tcpClientInit, if_neg proceeds, if_neg (by simp [hasClient]),
      if_pos (by omega)]
    refine ⟨_, Client.zero, rfl, ?_⟩
    split <;> rfl
  · intro hasClient isSocket noBuffer
    rw [tcpClientInit, if_neg proceeds, if_neg (by simp [hasClient]),
      if_neg (by omega), if_pos noBuffer, if_pos (by omega), noBuffer]
    cases outcomes.strdup <;> exact ⟨_, rfl, rfl, rfl⟩
  · intro hasClient isSocket hasBuffer noIp
    rw [tcpClientInit_allocated nonempty arrivals hasClient isSocket hasBuffer]
    simp [tcpClientConnect, Process.allocated, Cell.read, isSocket, noIp]
  · intro hasClient isSocket hasBuffer hasIp
    rw [tcpClientInit_allocated nonempty arrivals hasClient isSocket hasBuffer]
    have attached : (Process.allocated outcomes serverIp aesContext
        arrivals).Attached outcomes.socket false
          (List.replicate tcpClientBufferSize 0) := by
      refine ⟨?_, ⟨serverIp, ?_⟩, rfl, List.length_replicate, rfl, rfl,
        isSocket⟩ <;> simp [Process.allocated, hasIp]
    have connects := tcpClientConnect_idle attached
    cases result : outcomes.connectResult with
    | none =>
        rw [result] at connects
        rw [connects]
        rfl
    | some connected =>
        rw [result] at connects
        cases connected with
        | false =>
            obtain ⟨after, deinits, detached, _⟩ :=
              tcpClientDeinit_of_attached attached
            dsimp only at connects ⊢
            simp only [connects, Option.bind_eq_bind, Option.bind_some]
            rw [if_neg (by decide), deinits]
            exact ⟨after, rfl, detached.opened, detached.closed⟩
        | true =>
            obtain ⟨after, connects, left, sent, received, same, context⟩ :=
              connects
            dsimp only
            rw [connects]
            exact ⟨after, _, rfl, left, sent, received, same, context⟩

end Init

/-- How a call of `tcp_client_send_hello` ends. -/
inductive Verdict
  | refused
  | leaksClient
  | leaksSocket
  | faults
  | ended (ending : Ending)
deriving DecidableEq

section Verdicts

variable (mbedtls : Mbedtls) (outcomes : Outcomes) (mac : Mac) (key : AesKey)

def verdict : Option String → Verdict
  | none => .refused
  | some serverIp =>
      if serverIp = "" ∨ outcomes.callocClient = false then .refused
      else if outcomes.socket ≤ 0 then .leaksClient
      else if outcomes.callocBuffer = false then .leaksSocket
      else if outcomes.strdup = false then .faults
      else
        match outcomes.connectResult with
        | none => .faults
        | some false => .leaksSocket
        | some true =>
            match ending mbedtls outcomes mac key with
            | none => .faults
            | some ending => .ended ending

end Verdicts

/-- The result and the process that a verdict stands for. -/
def Verdict.Describes (sock : Int) (result : Option (Int × Process)) :
    Verdict → Prop
  | .refused => ∃ after, result = some (-1, after) ∧
      after.client = .unallocated ∧ after.serverIp = .unallocated ∧
      after.buffer = .unallocated ∧ after.openedSockets = [] ∧
      after.closedSockets = []
  | .leaksClient => ∃ after client, result = some (-1, after) ∧
      after.client = .live client
  | .leaksSocket => ∃ after, result = some (-1, after) ∧
      after.openedSockets = [sock] ∧ after.closedSockets = []
  | .faults => result = none
  | .ended ending => ∃ after, result = some (ending.ret, after) ∧
      after.Detached sock ending.connected ∧
      ∀ sent received, ending = .succeeded sent received →
        after.sent = sent ∧ after.received = received

variable {mbedtls : Mbedtls} {outcomes : Outcomes} {mac master : Mac}
  {key : AesKey} {serverIp : Option String}
  {aesContext : RepeaterAesContext}

theorem tcpClientDeinit_of_freed {process : Process}
    (freed : process.client = .freed) : tcpClientDeinit process = none := by
  rw [tcpClientDeinit, tcpClientDisconnect, freed]
  rfl

/-- Releasing the client turns the ending of the exchange into the verdict. -/
theorem describes_of_reaches {result : Option (Int × Process)} {sock : Int}
    {reached : Option Ending} (reaches : Reaches sock result reached) :
    (match reached with
      | none => Verdict.faults
      | some ending => .ended ending).Describes sock
      (do
        let (ret, process) ← result
        let (_, process) ← tcpClientDeinit process
        return (ret, process)) := by
  cases reached with
  | none =>
      cases result with
      | none => rfl
      | some pair =>
          obtain ⟨ret, after⟩ := pair
          have gone := tcpClientDeinit_of_freed (reaches ret after rfl)
          dsimp only [Verdict.Describes]
          rw [Option.bind_eq_bind, Option.bind_some, gone]
          rfl
  | some ending =>
      cases ending with
      | failed ret connected =>
          obtain ⟨after, data, rfl, attached⟩ := reaches
          obtain ⟨last, deinits, detached, _⟩ :=
            tcpClientDeinit_of_attached attached
          refine ⟨last, ?_, detached, by simp⟩
          dsimp only [Option.bind_eq_bind, Option.bind_some]
          rw [deinits]
          rfl
      | succeeded sent received =>
          obtain ⟨after, data, rfl, attached, isSent, isReceived⟩ := reaches
          obtain ⟨last, deinits, detached, sameSent, sameReceived⟩ :=
            tcpClientDeinit_of_attached attached
          refine ⟨last, ?_, detached, ?_⟩
          · dsimp only [Option.bind_eq_bind, Option.bind_some]
            rw [deinits]
            rfl
          · intro other otherReceived same
            obtain ⟨rfl, rfl⟩ := Ending.succeeded.inj same
            exact ⟨sameSent.trans isSent, sameReceived.trans isReceived⟩

/-- The code ends as its verdict says. -/
theorem tcpClientSendHello_verdict :
    (verdict mbedtls outcomes mac key serverIp).Describes outcomes.socket
      (tcpClientSendHello mbedtls outcomes serverIp mac master key
        (.start aesContext outcomes.arrivals)) := by
  cases serverIp with
  | none => exact ⟨_, rfl, rfl, rfl, rfl, rfl, rfl⟩
  | some ip =>
      rw [tcpClientSendHello, verdict]
      by_cases empty : ip = ""
      · rw [if_pos empty, if_pos (.inl empty)]
        exact ⟨_, rfl, rfl, rfl, rfl, rfl, rfl⟩
      rw [if_neg empty]
      have isStart : ({ Process.start aesContext outcomes.arrivals with
          aesContext := { (Process.start aesContext
            outcomes.arrivals).aesContext with masterMac := master } } :
          Process) = .start { aesContext with masterMac := master }
            outcomes.arrivals := rfl
      rw [isStart]
      dsimp only
      obtain ⟨noClient, noSocket, noBuffer, noIp, ready⟩ :=
        tcpClientInit_start outcomes { aesContext with masterMac := master }
          empty outcomes.arrivals
      by_cases isClient : outcomes.callocClient = false
      · rw [if_pos (.inr isClient), noClient isClient]
        exact ⟨_, rfl, rfl, rfl, rfl, rfl, rfl⟩
      rw [if_neg (not_or.mpr ⟨empty, isClient⟩)]
      rw [Bool.not_eq_false] at isClient
      by_cases isSocket : outcomes.socket ≤ 0
      · obtain ⟨after, client, fails, live⟩ := noSocket isClient isSocket
        rw [if_pos isSocket, fails]
        exact ⟨after, client, rfl, live⟩
      rw [if_neg isSocket]
      rw [Int.not_le] at isSocket
      by_cases isBuffer : outcomes.callocBuffer = false
      · obtain ⟨after, fails, opened, closed⟩ :=
          noBuffer isClient isSocket isBuffer
        rw [if_pos isBuffer, fails]
        exact ⟨after, rfl, opened, closed⟩
      rw [if_neg isBuffer]
      rw [Bool.not_eq_false] at isBuffer
      by_cases isIp : outcomes.strdup = false
      · rw [if_pos isIp, noIp isClient isSocket isBuffer isIp]
        rfl
      rw [if_neg isIp]
      rw [Bool.not_eq_false] at isIp
      have connects := ready isClient isSocket isBuffer isIp
      cases result : outcomes.connectResult with
      | none =>
          rw [result] at connects
          dsimp only at connects ⊢
          rw [connects]
          rfl
      | some connected =>
          rw [result] at connects
          cases connected with
          | false =>
              obtain ⟨after, fails, opened, closed⟩ := connects
              rw [fails]
              exact ⟨after, rfl, opened, closed⟩
          | true =>
              obtain ⟨after, data, succeeds, attached, sent, received,
                arrivals, context⟩ := connects
              rw [succeeds]
              generalize isKeyed : ({ after with
                aesContext := { after.aesContext with
                  clientQuadruples :=
                    { ip := outcomes.inetAddr, mac := mac, key := key,
                      iv := outcomes.iv } } } : Process) = keyed
              have keyedAttached :
                  keyed.Attached outcomes.socket true data := by
                rw [← isKeyed]
                exact ⟨attached.client, attached.serverIp, attached.buffer,
                  attached.size, attached.opened, attached.closed,
                  attached.valid⟩
              have reaches : Reaches outcomes.socket
                  (exchangeHello mbedtls outcomes keyed)
                  (ending mbedtls outcomes mac key) :=
                exchangeHello_reaches keyedAttached
                  (by rw [← isKeyed]; exact ⟨rfl, rfl, rfl⟩)
                  (by rw [← isKeyed, sent]) (by rw [← isKeyed, received])
                  (by rw [← isKeyed, arrivals])
              rw [← isKeyed] at reaches
              exact describes_of_reaches reaches

section Answer

variable (outcomes : Outcomes)

/-- The bytes that arrive of the header. -/
def Outcomes.header : List UInt8 :=
  (commSockRecvData sizeofTcpFrame 3 [] outcomes.arrivals).2.1

/-- The bytes that arrive of the payload which the header announces. -/
def Outcomes.payload : List UInt8 :=
  (commSockRecvData (loadLE outcomes.header 4 4) 3 []
    (commSockRecvData sizeofTcpFrame 3 [] outcomes.arrivals).2.2).2.1

/-- A server hello that fits into the buffer. -/
structure ServerHelloHeader (header : List UInt8) : Prop where
  magic : loadLE header 0 2 = magicHead
  frameType : loadLE header 2 2 = frameTypeServerHello
  fits : loadLE header 4 4 ≤ 2000

theorem serverHelloHeader_iff (header : List UInt8) :
    ServerHelloHeader header ↔
      ¬ (loadLE header 0 2 ≠ magicHead ∨
        loadLE header 2 2 ≠ frameTypeServerHello ∨
        2000 < loadLE header 4 4) := by
  constructor
  · rintro ⟨magic, frameType, fits⟩ (wrong | wrong | long)
    · exact wrong magic
    · exact wrong frameType
    · omega
  · intro inOrder
    simp only [not_or, not_not, Nat.not_lt] at inOrder
    exact ⟨inOrder.1, inOrder.2.1, inOrder.2.2⟩

end Answer

/-- Every socket that was opened has been closed, once, and no block of the
client is left. -/
structure Process.Released (process : Process) : Prop where
  sockets : process.closedSockets = process.openedSockets
  client : ∀ client, process.client ≠ .live client
  serverIp : ∀ ip, process.serverIp ≠ .live ip
  buffer : ∀ data, process.buffer ≠ .live data

/-- The call returns without using memory it does not own and has released
everything. -/
def ReleasesAll (result : Option (Int × Process)) : Prop :=
  ∃ ret after, result = some (ret, after) ∧ after.Released

/-- The exchange ends with the client connected. -/
def StaysConnected (ending : Option Ending) : Prop :=
  ∃ last, ending = some last ∧ last.connected = true

theorem releasesAll_iff {result : Option (Int × Process)} {sock : Int}
    {verdict : Verdict} (describes : verdict.Describes sock result) :
    ReleasesAll result ↔
      verdict = .refused ∨
        ∃ ending, verdict = .ended ending ∧ ending.connected = true := by
  cases verdict with
  | refused =>
      obtain ⟨after, rfl, client, serverIp, buffer, opened, closed⟩ :=
        describes
      refine iff_of_true ⟨-1, after, rfl, ?_, ?_, ?_, ?_⟩ (.inl rfl)
      · rw [closed, opened]
      · simp [client]
      · simp [serverIp]
      · simp [buffer]
  | leaksClient =>
      obtain ⟨after, client, rfl, live⟩ := describes
      refine iff_of_false ?_ (by simp)
      rintro ⟨_, other, isSome, released⟩
      obtain ⟨_, rfl⟩ := Prod.mk.inj (Option.some.inj isSome)
      exact released.client client live
  | leaksSocket =>
      obtain ⟨after, rfl, opened, closed⟩ := describes
      refine iff_of_false ?_ (by simp)
      rintro ⟨_, other, isSome, released⟩
      obtain ⟨_, rfl⟩ := Prod.mk.inj (Option.some.inj isSome)
      have same := released.sockets
      rw [opened, closed] at same
      cases same
  | faults =>
      refine iff_of_false ?_ (by simp)
      rintro ⟨_, _, isSome, _⟩
      rw [show result = none from describes] at isSome
      cases isSome
  | ended ending =>
      obtain ⟨after, rfl, detached, _⟩ := describes
      have isEnded : (Verdict.ended ending = .refused ∨
          ∃ other, Verdict.ended ending = .ended other ∧
            other.connected = true) ↔ ending.connected = true := by
        simp
      rw [isEnded]
      constructor
      · rintro ⟨_, other, isSome, released⟩
        obtain ⟨_, rfl⟩ := Prod.mk.inj (Option.some.inj isSome)
        have same := released.sockets
        rw [detached.opened, detached.closed] at same
        apply Classical.byContradiction
        intro disconnected
        rw [if_neg disconnected] at same
        cases same
      · intro connected
        refine ⟨_, after, rfl, ?_, ?_, ?_, ?_⟩
        · rw [detached.opened, detached.closed, if_pos connected]
        · simp [detached.client]
        · simp [detached.serverIp]
        · simp [detached.buffer]

section Resources

variable (mbedtls : Mbedtls) (outcomes : Outcomes) (key : AesKey)

/-- The answer to a complete server hello keeps the client connected: no
acknowledgement is sent, or it is sent completely, and the unpadding stays
inside the payload. -/
def AnswerKeepsConnection (payload : List UInt8) : Prop :=
  255 < payload.length ∨ outcomes.callocDec = false ∨
    ∃ len, aesPaddingPkcs7Get
        (decryptedPayload mbedtls key outcomes.iv payload) = some len ∧
      (len ≠ serverHello.length ∨
        (decryptedPayload mbedtls key outcomes.iv payload).take
          serverHello.length ≠ serverHello ∨
        outcomes.mallocAck = false ∨ outcomes.callocAckEnc = false ∨
        outcomes.ackFrame.malloc = false ∨ outcomes.ackFrame.Delivers 32)

/-- No socket call fails that the client waits for, except in `select`. -/
def TransfersSucceed (serverIp : Option String) : Prop :=
  serverIp = none ∨ serverIp = some "" ∨ outcomes.callocClient = false ∨
    (0 < outcomes.socket ∧ outcomes.callocBuffer = true ∧
      outcomes.strdup = true ∧ outcomes.connectResult = some true ∧
      (outcomes.mallocHello = false ∨ outcomes.callocHelloEnc = false ∨
        (outcomes.helloFrame.Delivers 16 ∧ outcomes.socket < fdSetsize ∧
          (outcomes.select = .ready true →
            outcomes.header.length = sizeofTcpFrame ∧
            (ServerHelloHeader outcomes.header →
              loadLE outcomes.header 4 4 ≠ 0 →
                outcomes.payload.length = loadLE outcomes.header 4 4 ∧
                AnswerKeepsConnection mbedtls outcomes key
                  outcomes.payload)))))

variable {mbedtls outcomes key} {mac : Mac} {serverIp : Option String}

theorem staysConnected_payloadEnding (header payload : List UInt8) :
    StaysConnected (payloadEnding mbedtls outcomes mac key header payload) ↔
      AnswerKeepsConnection mbedtls outcomes key payload := by
  unfold payloadEnding AnswerKeepsConnection
  dsimp only
  split
  case isTrue refused =>
    refine iff_of_true ⟨_, rfl, rfl⟩ ?_
    rcases refused with long | noDec
    · exact .inl long
    · exact .inr (.inl noDec)
  case isFalse proceeds =>
    obtain ⟨short, hasDec⟩ := not_or.mp proceeds
    rw [or_iff_right short, or_iff_right hasDec]
    cases aesPaddingPkcs7Get
        (decryptedPayload mbedtls key outcomes.iv payload) with
    | none =>
        refine iff_of_false ?_ (by simp)
        rintro ⟨_, isSome, _⟩
        cases isSome
    | some len =>
        simp only [Option.bind_eq_bind, Option.bind_some, Option.some.injEq,
          exists_eq_left']
        split
        case isTrue rejected =>
          refine iff_of_true ⟨_, rfl, rfl⟩ ?_
          tauto
        case isFalse accepted =>
          split
          case isTrue delivers =>
            exact iff_of_true ⟨_, rfl, rfl⟩ (by tauto)
          case isFalse incomplete =>
            have isKept : StaysConnected (pure (Ending.failed
                payload.length (!outcomes.ackFrame.malloc))) ↔
                outcomes.ackFrame.malloc = false := by
              constructor
              · rintro ⟨_, isSome, connected⟩
                obtain rfl := Option.some.inj isSome
                simpa [Ending.connected] using connected
              · intro noMalloc
                exact ⟨_, rfl, by simp [Ending.connected, noMalloc]⟩
            rw [isKept]
            tauto

theorem staysConnected_headerEnding (header : List UInt8)
    (arrivals : List Arrival) :
    StaysConnected (headerEnding mbedtls outcomes mac key header arrivals) ↔
      (ServerHelloHeader header → loadLE header 4 4 ≠ 0 →
        (commSockRecvData (loadLE header 4 4) 3 [] arrivals).2.1.length =
            loadLE header 4 4 ∧
          AnswerKeepsConnection mbedtls outcomes key
            (commSockRecvData (loadLE header 4 4) 3 [] arrivals).2.1) := by
  unfold headerEnding
  dsimp only
  by_cases inOrder : ServerHelloHeader header
  case neg =>
    have wrong := not_not.mp (mt (serverHelloHeader_iff header).mpr inOrder)
    rw [if_pos wrong]
    exact iff_of_true ⟨_, rfl, rfl⟩ fun isHeader => absurd isHeader inOrder
  rw [if_neg ((serverHelloHeader_iff header).mp inOrder)]
  by_cases empty : loadLE header 4 4 = 0
  · rw [if_pos empty]
    exact iff_of_true ⟨_, rfl, rfl⟩ fun _ nonempty => absurd empty nonempty
  rw [if_neg empty]
  simp only [inOrder, empty, ne_eq, not_false_eq_true, forall_const]
  split
  case isTrue whole =>
    rw [staysConnected_payloadEnding, and_iff_right whole]
  case isFalse short =>
    refine iff_of_false ?_ fun both => short both.1
    rintro ⟨_, isSome, connected⟩
    obtain rfl := Option.some.inj isSome
    cases connected

theorem staysConnected_ending :
    StaysConnected (ending mbedtls outcomes mac key) ↔
      (outcomes.mallocHello = false ∨ outcomes.callocHelloEnc = false ∨
        (outcomes.helloFrame.Delivers 16 ∧ outcomes.socket < fdSetsize ∧
          (outcomes.select = .ready true →
            outcomes.header.length = sizeofTcpFrame ∧
            (ServerHelloHeader outcomes.header →
              loadLE outcomes.header 4 4 ≠ 0 →
                outcomes.payload.length = loadLE outcomes.header 4 4 ∧
                AnswerKeepsConnection mbedtls outcomes key
                  outcomes.payload)))) := by
  unfold ending
  by_cases noHello : outcomes.mallocHello = false ∨
      outcomes.callocHelloEnc = false
  · rw [if_pos noHello, ← or_assoc]
    exact iff_of_true ⟨_, rfl, rfl⟩ (.inl noHello)
  rw [if_neg noHello, ← or_assoc, or_iff_right noHello]
  by_cases fails : ¬ outcomes.helloFrame.Delivers 16 ∨
      fdSetsize ≤ outcomes.socket
  · rw [if_pos fails]
    refine iff_of_false ?_ ?_
    · rintro ⟨_, isSome, _⟩
      cases isSome
    · rintro ⟨delivers, inside, _⟩
      rcases fails with incomplete | outside
      · exact incomplete delivers
      · omega
  rw [if_neg fails]
  obtain ⟨delivers, inside⟩ := not_or.mp fails
  rw [and_iff_right (not_not.mp delivers), and_iff_right (by omega)]
  cases isSelect : outcomes.select with
  | failed => exact iff_of_true ⟨_, rfl, rfl⟩ (by simp)
  | expired => exact iff_of_true ⟨_, rfl, rfl⟩ (by simp)
  | ready isset =>
      cases isset with
      | false => exact iff_of_true ⟨_, rfl, rfl⟩ (by simp)
      | true =>
          rw [forall_prop_of_true rfl]
          unfold Outcomes.payload Outcomes.header
          generalize commSockRecvData sizeofTcpFrame 3 [] outcomes.arrivals =
            first
          obtain ⟨_, header, arrivals⟩ := first
          dsimp only
          split
          case isTrue complete =>
            rw [staysConnected_headerEnding, and_iff_right complete]
          case isFalse short =>
            refine iff_of_false ?_ fun both => short both.1
            rintro ⟨_, isSome, connected⟩
            obtain rfl := Option.some.inj isSome
            cases connected

theorem verdict_ended_iff :
    (verdict mbedtls outcomes mac key serverIp = .refused ∨
        ∃ ending, verdict mbedtls outcomes mac key serverIp = .ended ending ∧
          ending.connected = true) ↔
      serverIp = none ∨ serverIp = some "" ∨ outcomes.callocClient = false ∨
        (0 < outcomes.socket ∧ outcomes.callocBuffer = true ∧
          outcomes.strdup = true ∧ outcomes.connectResult = some true ∧
          StaysConnected (ending mbedtls outcomes mac key)) := by
  cases serverIp with
  | none => exact iff_of_true (.inl rfl) (.inl rfl)
  | some ip =>
      rw [verdict]
      by_cases refused : ip = "" ∨ outcomes.callocClient = false
      · rw [if_pos refused]
        refine iff_of_true (.inl rfl) ?_
        rcases refused with rfl | noClient
        · exact .inr (.inl rfl)
        · exact .inr (.inr (.inl noClient))
      rw [if_neg refused]
      obtain ⟨nonempty, hasClient⟩ := not_or.mp refused
      simp only [reduceCtorEq, Option.some.injEq, nonempty, hasClient,
        false_or]
      by_cases noSocket : outcomes.socket ≤ 0
      · rw [if_pos noSocket]
        exact iff_of_false (by simp) fun all => by omega
      rw [if_neg noSocket, and_iff_right (by omega)]
      by_cases noBuffer : outcomes.callocBuffer = false
      · rw [if_pos noBuffer, noBuffer]
        exact iff_of_false (by simp) (by simp)
      rw [if_neg noBuffer, and_iff_right (by simpa using noBuffer)]
      by_cases noIp : outcomes.strdup = false
      · rw [if_pos noIp, noIp]
        exact iff_of_false (by simp) (by simp)
      rw [if_neg noIp, and_iff_right (by simpa using noIp)]
      unfold StaysConnected
      cases outcomes.connectResult with
      | none => exact iff_of_false (by simp) (by simp)
      | some connected =>
          cases connected with
          | false => exact iff_of_false (by simp) (by simp)
          | true =>
              cases ending mbedtls outcomes mac key with
              | none => exact iff_of_false (by simp) (by simp)
              | some last => simp

/-- A handshake returns with everything released, and without use of freed
memory, exactly if no call that it waits for fails on the open socket. -/
theorem releasesAll_iff_transfersSucceed (mbedtls : Mbedtls)
    (outcomes : Outcomes) (serverIp : Option String) (mac master : Mac)
    (key : AesKey) (aesContext : RepeaterAesContext) :
    ReleasesAll (tcpClientSendHello mbedtls outcomes serverIp mac master key
        (.start aesContext outcomes.arrivals)) ↔
      TransfersSucceed mbedtls outcomes key serverIp := by
  rw [releasesAll_iff tcpClientSendHello_verdict, verdict_ended_iff,
    staysConnected_ending]
  rfl

/-- A frame whose allocation succeeds and that leaves in one send. -/
def sampleFrameOutcome : FrameOutcome where
  malloc := true
  garbage := fun _ => 0
  utcTimeMs := 0
  sends := [.accepted 2048]

/-- Every call succeeds, and the server closes without an answer. -/
def sampleOutcomes : Outcomes where
  callocClient := true
  socket := 3
  strdup := true
  callocBuffer := true
  inetPton := 1
  connect := .done
  iv := sampleKey
  inetAddr := 0
  mallocHello := true
  callocHelloEnc := true
  helloFrame := sampleFrameOutcome
  select := .ready true
  arrivals := []
  callocDec := true
  mallocAck := true
  callocAckEnc := true
  ackFrame := sampleFrameOutcome

/-- Without a socket the client stays allocated. -/
theorem client_leaks_without_socket :
    ¬ ∀ (mbedtls : Mbedtls) (outcomes : Outcomes) (serverIp : Option String)
        (mac master : Mac) (key : AesKey) (aesContext : RepeaterAesContext),
      ReleasesAll (tcpClientSendHello mbedtls outcomes serverIp mac master key
        (.start aesContext outcomes.arrivals)) := by
  intro always
  obtain ⟨ret, after, returns, released⟩ := always sampleMbedtls
    { sampleOutcomes with socket := -1 } (some "127.0.0.1")
    (Vector.replicate 6 0) (Vector.replicate 6 0) sampleKey .initial
  obtain ⟨_, rfl⟩ := Prod.mk.inj (Option.some.inj returns)
  exact released.client _ rfl

end Resources

section Authentication

variable (mbedtls : Mbedtls) (outcomes : Outcomes) (mac : Mac)
  (key : AesKey)

/-- The payload decrypts under the key and iv of the handshake to a padded
`server hello`. -/
def Authentic (payload : List UInt8) : Prop :=
  ∃ leftIv plain, mbedtls.cryptCbcDecrypt
      (mbedtls.setkeyDec mbedtls.aesInit key) outcomes.iv payload =
        some (leftIv, plain) ∧
    Padded serverHello plain

/-- A complete authentic server hello was received and the complete
acknowledgement frame has been sent behind the client hello. -/
def Authenticated (sent received : List UInt8) : Prop :=
  (∃ header payload, received = header ++ payload ∧
    header.length = sizeofTcpFrame ∧ loadLE header 0 2 = magicHead ∧
    loadLE header 2 2 = frameTypeServerHello ∧
    loadLE header 4 4 = payload.length ∧
    Authentic mbedtls outcomes key payload) ∧
  sent = helloFrameBytes mbedtls outcomes mac key ++
    ackFrameBytes mbedtls outcomes mac key

/-- The call returns zero after an authenticated handshake and a negative
value otherwise. -/
def ReportsHandshake (result : Option (Int × Process)) : Prop :=
  ∃ ret after, result = some (ret, after) ∧
    ((ret = 0 ∧ Authenticated mbedtls outcomes mac key after.sent
        after.received) ∨ ret < 0)

/-- The same for an ending of the exchange. -/
def ReportsEnding : Option Ending → Prop
  | none => False
  | some (.failed ret _) => ret < 0
  | some (.succeeded sent received) =>
      Authenticated mbedtls outcomes mac key sent received

/-- The answer of the server is a server hello that is acknowledged. -/
def AnswerAccepted (payload : List UInt8) : Prop :=
  payload.length ≤ 255 ∧ outcomes.callocDec = true ∧
    Authentic mbedtls outcomes key payload ∧ outcomes.mallocAck = true ∧
    outcomes.callocAckEnc = true ∧ outcomes.ackFrame.Delivers 32

/-- The handshake is cut short before a server hello is complete, or the
server answers with an authentic one. -/
def AnswerInOrder : SelectOutcome → Prop
  | .expired => True
  | .ready true => outcomes.header.length = sizeofTcpFrame →
      ServerHelloHeader outcomes.header ∧ loadLE outcomes.header 4 4 ≠ 0 ∧
        (outcomes.payload.length = loadLE outcomes.header 4 4 →
          AnswerAccepted mbedtls outcomes key outcomes.payload)
  | _ => False

/-- No memory is used that is not the client's, and after the client hello
either too little arrives or an authentic server hello. -/
def HandshakeInOrder (serverIp : Option String) : Prop :=
  serverIp = none ∨ serverIp = some "" ∨ outcomes.callocClient = false ∨
    outcomes.socket ≤ 0 ∨ outcomes.callocBuffer = false ∨
    (outcomes.strdup = true ∧
      (outcomes.connectResult = some false ∨
        (outcomes.connectResult = some true ∧
          (outcomes.mallocHello = false ∨ outcomes.callocHelloEnc = false ∨
            (outcomes.helloFrame.Delivers 16 ∧
              outcomes.socket < fdSetsize ∧
              AnswerInOrder mbedtls outcomes key outcomes.select)))))

variable {mbedtls outcomes mac key}

theorem padded_serverHello_iff (plain : List UInt8) :
    Padded serverHello plain ↔
      aesPaddingPkcs7Get plain = some (serverHello.length : Int) ∧
        plain.take serverHello.length = serverHello := by
  constructor
  · intro padded
    refine ⟨aesPaddingPkcs7Get_of_padded padded, ?_⟩
    obtain ⟨count, _, _, rfl⟩ := padded
    exact List.take_left' rfl
  · rintro ⟨gets, isText⟩
    obtain ⟨message, padded, length⟩ :=
      padded_of_aesPaddingPkcs7Get gets (by decide)
    have sameLength : message.length = serverHello.length := by
      exact_mod_cast length
    have isMessage : plain.take serverHello.length = message := by
      obtain ⟨count, _, _, rfl⟩ := padded
      exact List.take_left' sameLength
    rwa [← isText, isMessage]

/-- The code's check of a decrypted payload is authenticity. -/
theorem authentic_iff (payload : List UInt8) :
    Authentic mbedtls outcomes key payload ↔
      Padded serverHello (decryptedPayload mbedtls key outcomes.iv payload) :=
    by
  unfold Authentic decryptedPayload
  cases mbedtls.cryptCbcDecrypt (mbedtls.setkeyDec mbedtls.aesInit key)
      outcomes.iv payload with
  | some left =>
      obtain ⟨leftIv, plain⟩ := left
      constructor
      · rintro ⟨_, _, isSome, padded⟩
        obtain ⟨_, rfl⟩ := Prod.mk.inj (Option.some.inj isSome)
        exact padded
      · intro padded
        exact ⟨leftIv, plain, rfl, padded⟩
  | none =>
      refine iff_of_false (by simp) ?_
      rintro ⟨count, _, _, isZeros⟩
      have first := congrArg (fun bytes => bytes[0]?) isZeros
      rw [List.getElem?_append_left (by decide),
        List.getElem?_replicate] at first
      split at first <;> exact absurd first (by decide)

theorem ackFrameBytes_ne_nil :
    ackFrameBytes mbedtls outcomes mac key ≠ [] := by
  apply List.ne_nil_of_length_pos
  rw [ackFrameBytes, length_tcpFrameBytes]
  exact Nat.lt_of_lt_of_le (by decide) (Nat.le_add_right _ _)

/-- Without an acknowledgement nothing is authenticated. -/
theorem not_authenticated_hello (received : List UInt8) :
    ¬ Authenticated mbedtls outcomes mac key
      (helloFrameBytes mbedtls outcomes mac key) received := by
  rintro ⟨_, sent⟩
  exact ackFrameBytes_ne_nil (List.append_cancel_left
    ((List.append_nil _).trans sent)).symm

theorem reportsEnding_payloadEnding {header payload : List UInt8}
    (complete : header.length = sizeofTcpFrame)
    (isHeader : ServerHelloHeader header)
    (isSize : loadLE header 4 4 = payload.length) :
    ReportsEnding mbedtls outcomes mac key
        (payloadEnding mbedtls outcomes mac key header payload) ↔
      AnswerAccepted mbedtls outcomes key payload := by
  unfold payloadEnding AnswerAccepted
  rw [authentic_iff, padded_serverHello_iff]
  dsimp only
  split
  case isTrue refused =>
    refine iff_of_false (by simp [ReportsEnding]) ?_
    rintro ⟨short, hasDec, _⟩
    rcases refused with long | noDec
    · omega
    · rw [hasDec] at noDec
      cases noDec
  case isFalse proceeds =>
    obtain ⟨short, hasDec⟩ := not_or.mp proceeds
    rw [and_iff_right (by omega), and_iff_right (by simpa using hasDec)]
    cases unpads : aesPaddingPkcs7Get
        (decryptedPayload mbedtls key outcomes.iv payload) with
    | none => exact iff_of_false (by simp [ReportsEnding]) (by simp)
    | some len =>
        simp only [Option.bind_eq_bind, Option.bind_some,
          Option.some.injEq]
        split
        case isTrue rejected =>
          refine iff_of_false (by simp [ReportsEnding]) ?_
          rintro ⟨⟨isLen, isText⟩, hasAck, hasEnc, _⟩
          rcases rejected with wrong | wrong | noAck | noEnc
          · exact wrong isLen
          · exact wrong isText
          · simp [hasAck] at noAck
          · simp [hasEnc] at noEnc
        case isFalse accepted =>
          simp only [not_or, not_not, Bool.not_eq_false] at accepted
          obtain ⟨isLen, isText, hasAck, hasEnc⟩ := accepted
          split
          case isTrue delivers =>
            refine iff_of_true ⟨⟨header, payload, rfl, complete,
              isHeader.magic, isHeader.frameType, isSize, ?_⟩, rfl⟩
              ⟨⟨isLen, isText⟩, hasAck, hasEnc, delivers⟩
            rw [authentic_iff, padded_serverHello_iff, unpads, isLen]
            exact ⟨rfl, isText⟩
          case isFalse incomplete =>
            exact iff_of_false (by simp [ReportsEnding]) fun all =>
              incomplete all.2.2.2

theorem reportsEnding_headerEnding {header : List UInt8}
    {arrivals : List Arrival} (complete : header.length = sizeofTcpFrame) :
    ReportsEnding mbedtls outcomes mac key
        (headerEnding mbedtls outcomes mac key header arrivals) ↔
      ServerHelloHeader header ∧ loadLE header 4 4 ≠ 0 ∧
        ((commSockRecvData (loadLE header 4 4) 3 [] arrivals).2.1.length =
            loadLE header 4 4 →
          AnswerAccepted mbedtls outcomes key
            (commSockRecvData (loadLE header 4 4) 3 [] arrivals).2.1) := by
  unfold headerEnding
  dsimp only
  by_cases isHeader : ServerHelloHeader header
  case neg =>
    have wrong := not_not.mp (mt (serverHelloHeader_iff header).mpr isHeader)
    rw [if_pos wrong]
    exact iff_of_false (by simp [ReportsEnding]) fun all =>
      isHeader all.1
  rw [if_neg ((serverHelloHeader_iff header).mp isHeader),
    and_iff_right isHeader]
  by_cases empty : loadLE header 4 4 = 0
  · rw [if_pos empty]
    exact iff_of_false (not_authenticated_hello header) fun both =>
      both.1 empty
  rw [if_neg empty, and_iff_right empty]
  split
  case isTrue whole =>
    rw [reportsEnding_payloadEnding complete isHeader whole.symm,
      forall_prop_of_true whole]
  case isFalse short =>
    exact iff_of_true (by simp [ReportsEnding]) fun whole =>
      absurd whole short

theorem reportsEnding_ending :
    ReportsEnding mbedtls outcomes mac key
        (ending mbedtls outcomes mac key) ↔
      (outcomes.mallocHello = false ∨ outcomes.callocHelloEnc = false ∨
        (outcomes.helloFrame.Delivers 16 ∧ outcomes.socket < fdSetsize ∧
          AnswerInOrder mbedtls outcomes key outcomes.select)) := by
  unfold ending
  by_cases noHello : outcomes.mallocHello = false ∨
      outcomes.callocHelloEnc = false
  · rw [if_pos noHello, ← or_assoc]
    exact iff_of_true (by simp [ReportsEnding]) (.inl noHello)
  rw [if_neg noHello, ← or_assoc, or_iff_right noHello]
  by_cases fails : ¬ outcomes.helloFrame.Delivers 16 ∨
      fdSetsize ≤ outcomes.socket
  · rw [if_pos fails]
    refine iff_of_false id ?_
    rintro ⟨delivers, inside, _⟩
    rcases fails with incomplete | outside
    · exact incomplete delivers
    · omega
  rw [if_neg fails]
  obtain ⟨delivers, inside⟩ := not_or.mp fails
  rw [and_iff_right (not_not.mp delivers), and_iff_right (by omega)]
  cases outcomes.select with
  | failed => exact iff_of_false (not_authenticated_hello []) id
  | expired => exact iff_of_true (by simp [ReportsEnding]) trivial
  | ready isset =>
      cases isset with
      | false => exact iff_of_false (not_authenticated_hello []) id
      | true =>
          unfold AnswerInOrder Outcomes.payload Outcomes.header
          generalize commSockRecvData sizeofTcpFrame 3 [] outcomes.arrivals =
            first
          obtain ⟨_, header, arrivals⟩ := first
          dsimp only
          split
          case isTrue complete =>
            rw [reportsEnding_headerEnding complete,
              forall_prop_of_true complete]
          case isFalse short =>
            exact iff_of_true (by simp [ReportsEnding]) fun complete =>
              absurd complete short

theorem payloadEnding_ne_failed_zero {header payload : List UInt8}
    (nonempty : payload.length ≠ 0) (connected : Bool) :
    payloadEnding mbedtls outcomes mac key header payload ≠
      some (.failed 0 connected) := by
  have isNonzero : ∀ other, Ending.failed (payload.length : Int) other ≠
      .failed 0 connected := by
    intro other same
    exact nonempty (by exact_mod_cast (Ending.failed.inj same).1)
  unfold payloadEnding
  dsimp only
  split
  case isTrue => exact fun same => isNonzero _ (Option.some.inj same)
  case isFalse =>
    cases aesPaddingPkcs7Get
        (decryptedPayload mbedtls key outcomes.iv payload) with
    | none => simp
    | some len =>
        simp only [Option.bind_eq_bind, Option.bind_some]
        split
        case isTrue => exact fun same => isNonzero _ (Option.some.inj same)
        case isFalse =>
          split
          case isTrue => simp
          case isFalse =>
            exact fun same => isNonzero _ (Option.some.inj same)

/-- A result of zero is never given up for another reason. -/
theorem ending_ne_failed_zero (connected : Bool) :
    ending mbedtls outcomes mac key ≠ some (.failed 0 connected) := by
  unfold ending
  split
  case isTrue => simp
  case isFalse =>
    split
    case isTrue => simp
    case isFalse =>
      split
      case h_1 => simp
      case h_2 =>
        dsimp only
        split
        case isFalse => simp
        case isTrue =>
          unfold headerEnding
          dsimp only
          split_ifs with wrong empty whole
          · simp
          · simp
          · exact payloadEnding_ne_failed_zero
              (by rw [whole]; exact empty) connected
          · simp
      case h_3 => simp

theorem verdict_ne_failed_zero (connected : Bool) :
    verdict mbedtls outcomes mac key serverIp ≠
      .ended (.failed 0 connected) := by
  unfold verdict
  split
  case h_1 => simp
  case h_2 =>
    split_ifs
    · simp
    · simp
    · simp
    · simp
    · split
      case h_1 => simp
      case h_2 => simp
      case h_3 =>
        have proper : ending mbedtls outcomes mac key ≠
            some (.failed 0 connected) := ending_ne_failed_zero connected
        split
        case h_1 => simp
        case h_2 last isLast =>
          intro same
          rw [Verdict.ended.inj same] at isLast
          exact proper isLast

/-- What a verdict says about the reported handshake. -/
theorem reportsHandshake_iff {result : Option (Int × Process)} {sock : Int}
    {verdict : Verdict} (describes : verdict.Describes sock result)
    (proper : ∀ connected, verdict ≠ .ended (.failed 0 connected)) :
    ReportsHandshake mbedtls outcomes mac key result ↔
      verdict = .refused ∨ verdict = .leaksClient ∨
        verdict = .leaksSocket ∨
        ∃ ending, verdict = .ended ending ∧
          ReportsEnding mbedtls outcomes mac key (some ending) := by
  cases verdict with
  | refused =>
      obtain ⟨after, rfl, _⟩ := describes
      exact iff_of_true ⟨-1, after, rfl, .inr (by decide)⟩ (by simp)
  | leaksClient =>
      obtain ⟨after, _, rfl, _⟩ := describes
      exact iff_of_true ⟨-1, after, rfl, .inr (by decide)⟩ (by simp)
  | leaksSocket =>
      obtain ⟨after, rfl, _⟩ := describes
      exact iff_of_true ⟨-1, after, rfl, .inr (by decide)⟩ (by simp)
  | faults =>
      refine iff_of_false ?_ (by simp)
      rintro ⟨_, _, isSome, _⟩
      rw [show result = none from describes] at isSome
      cases isSome
  | ended last =>
      obtain ⟨after, rfl, _, bytes⟩ := describes
      simp only [reduceCtorEq, Verdict.ended.injEq, exists_eq_left',
        false_or]
      have isResult : ReportsHandshake mbedtls outcomes mac key
          (some (last.ret, after)) ↔
          (last.ret = 0 ∧ Authenticated mbedtls outcomes mac key after.sent
            after.received) ∨ last.ret < 0 := by
        constructor
        · rintro ⟨ret, other, isSome, reports⟩
          obtain ⟨rfl, rfl⟩ := Prod.mk.inj (Option.some.inj isSome)
          exact reports
        · exact fun reports => ⟨_, after, rfl, reports⟩
      rw [isResult]
      cases last with
      | failed ret connected =>
          have nonzero : ret ≠ 0 := fun zero => proper connected (by rw [zero])
          simp [Ending.ret, ReportsEnding, nonzero]
      | succeeded sent received =>
          obtain ⟨rfl, rfl⟩ := bytes sent received rfl
          simp [Ending.ret, ReportsEnding]

/-- A handshake returns zero after an authenticated exchange and a negative
value otherwise exactly if it is in order: `select` does not fail, and a
server hello that arrives is complete, not empty and authentic. -/
theorem reportsHandshake_iff_handshakeInOrder (mbedtls : Mbedtls)
    (outcomes : Outcomes) (serverIp : Option String) (mac master : Mac)
    (key : AesKey) (aesContext : RepeaterAesContext) :
    ReportsHandshake mbedtls outcomes mac key
        (tcpClientSendHello mbedtls outcomes serverIp mac master key
          (.start aesContext outcomes.arrivals)) ↔
      HandshakeInOrder mbedtls outcomes key serverIp := by
  rw [reportsHandshake_iff tcpClientSendHello_verdict
    verdict_ne_failed_zero]
  have isEnding : ReportsEnding mbedtls outcomes mac key
      (ending mbedtls outcomes mac key) ↔ _ := reportsEnding_ending
  rw [HandshakeInOrder, ← isEnding]
  cases serverIp with
  | none => exact iff_of_true (.inl rfl) (.inl rfl)
  | some ip =>
      rw [verdict]
      by_cases refused : ip = "" ∨ outcomes.callocClient = false
      · rw [if_pos refused]
        refine iff_of_true (.inl rfl) ?_
        rcases refused with rfl | noClient
        · exact .inr (.inl rfl)
        · exact .inr (.inr (.inl noClient))
      rw [if_neg refused]
      obtain ⟨nonempty, hasClient⟩ := not_or.mp refused
      simp only [reduceCtorEq, Option.some.injEq, nonempty, hasClient,
        false_or]
      by_cases noSocket : outcomes.socket ≤ 0
      · rw [if_pos noSocket]
        exact iff_of_true (by simp) (.inl noSocket)
      rw [if_neg noSocket, or_iff_right noSocket]
      by_cases noBuffer : outcomes.callocBuffer = false
      · rw [if_pos noBuffer]
        exact iff_of_true (by simp) (.inl noBuffer)
      rw [if_neg noBuffer, or_iff_right noBuffer]
      by_cases noIp : outcomes.strdup = false
      · rw [if_pos noIp, noIp]
        exact iff_of_false (by simp) (by simp)
      rw [if_neg noIp, and_iff_right (by simpa using noIp)]
      cases outcomes.connectResult with
      | none => exact iff_of_false (by simp) (by simp)
      | some connected =>
          cases connected with
          | false => exact iff_of_true (by simp) (by simp)
          | true =>
              cases ending mbedtls outcomes mac key with
              | none => simp [ReportsEnding]
              | some last => simp

/-- The server is reached, but `select` fails. -/
def selectFails : Outcomes :=
  { sampleOutcomes with select := .failed }

/-- When `select` fails, the call returns zero. -/
theorem failed_select_returns_zero :
    ¬ ∀ (mbedtls : Mbedtls) (outcomes : Outcomes) (serverIp : Option String)
        (mac master : Mac) (key : AesKey) (aesContext : RepeaterAesContext),
      ReportsHandshake mbedtls outcomes mac key
        (tcpClientSendHello mbedtls outcomes serverIp mac master key
          (.start aesContext outcomes.arrivals)) := by
  intro always
  have reports := always sampleMbedtls selectFails (some "127.0.0.1")
    sampleQuadruples.mac sampleQuadruples.mac sampleKey .initial
  rw [reportsHandshake_iff tcpClientSendHello_verdict
    verdict_ne_failed_zero] at reports
  have ends : ending sampleMbedtls selectFails sampleQuadruples.mac
      sampleKey = some (.succeeded (helloFrameBytes sampleMbedtls selectFails
        sampleQuadruples.mac sampleKey) []) := by
    unfold ending
    rw [if_neg (by simp [selectFails, sampleOutcomes]),
      if_neg (by decide)]
    rfl
  have isVerdict : verdict sampleMbedtls selectFails sampleQuadruples.mac
      sampleKey (some "127.0.0.1") =
        .ended (.succeeded (helloFrameBytes sampleMbedtls selectFails
          sampleQuadruples.mac sampleKey) []) := by
    have connects : selectFails.connectResult = some true := rfl
    have accepted : ¬ ("127.0.0.1" = "" ∨ selectFails.callocClient = false) :=
      by decide
    rw [verdict, if_neg accepted,
      if_neg (by decide : ¬ selectFails.socket ≤ 0),
      if_neg (by decide : ¬ selectFails.callocBuffer = false),
      if_neg (by decide : ¬ selectFails.strdup = false), connects]
    dsimp only
    rw [ends]
  rw [isVerdict] at reports
  simp only [reduceCtorEq, Verdict.ended.injEq, exists_eq_left',
    false_or] at reports
  exact not_authenticated_hello [] reports

end Authentication

end TcpClient

end MbedtlsKcp
