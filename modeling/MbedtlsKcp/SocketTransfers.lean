import MbedtlsKcp.ByteBuffers
import MbedtlsKcp.TcpClient

/-!
# Whole transfers over a socket

`Comm_sock_send_data` and `Comm_sock_recv_data` call `send` and `recv` until
the requested length is through or a call ends them.  Here the loops keep the
bytes themselves: what has been passed to the socket, what the caller's block
holds and what is still in the stream.
-/

namespace MbedtlsKcp

namespace CommSock

open ByteBuffers
open TcpClient (SendOutcome Arrival)

/-- What one call of `recv` does.  A call that finds nothing is followed by
the reading of the clock in milliseconds. -/
inductive RecvOutcome
  | received (count : Nat)
  | interrupted
  | again (nowMs : Int)
  | failed

/-- How `Comm_sock_send_data` ends: its result, the size it leaves to the
caller, and the bytes that `send` has accepted. -/
structure SendReport where
  ret : Int
  realSendSize : Option Nat
  passed : List UInt8
  deriving DecidableEq

/-- How `Comm_sock_recv_data` ends: its result, the size and the block it
leaves to the caller, and what it leaves in the stream. -/
structure RecvReport where
  ret : Int
  readLen : Option Nat
  rBuf : List UInt8
  stream : List UInt8
  deriving DecidableEq

/-- The loop of `Comm_sock_send_data`; `none` when the outcomes do not end
it.  A call of `send` takes at most what it is given. -/
def sendLoop (data : List UInt8) (needSendSize : Nat) :
    Nat → List UInt8 → List SendOutcome → Option SendReport
  | _, _, [] => none
  | realSendSize, passed, .accepted count :: outcomes =>
      let ret := min count (needSendSize - realSendSize)
      if ret = 0 then some ⟨-1, some realSendSize, passed⟩
      else if realSendSize + ret < needSendSize then
        sendLoop data needSendSize (realSendSize + ret)
          (passed ++ slice data realSendSize ret) outcomes
      else
        some ⟨0, some (realSendSize + ret),
          passed ++ slice data realSendSize ret⟩
  | realSendSize, passed, .again :: outcomes =>
      -- `continue` goes to the condition of the `do while`
      if realSendSize < needSendSize then
        sendLoop data needSendSize realSendSize passed outcomes
      else some ⟨0, some realSendSize, passed⟩
  | realSendSize, passed, .failed :: _ =>
      some ⟨-2, some realSendSize, passed⟩

/-- `Comm_sock_send_data`; a pointer is `none` when it is null. -/
def commSockSendData (socket : Int) (data : Option (List UInt8))
    (needSendSize : Nat) (realSendSize : Option Nat)
    (outcomes : List SendOutcome) : Option SendReport :=
  match data, realSendSize with
  | some data, some _ =>
      if socket = 0 then some ⟨-1, realSendSize, []⟩
      else sendLoop data needSendSize 0 [] outcomes
  | _, _ => some ⟨-1, realSendSize, []⟩

/-- The loop of `Comm_sock_recv_data`; `none` when the outcomes do not end
it. -/
def recvLoop (needReadLen : Nat) (startMs : Int) :
    Nat → Nat → List UInt8 → List UInt8 → List RecvOutcome →
      Option RecvReport
  | _, _, _, _, [] => none
  | trycnt, readLen, rBuf, stream, .received count :: outcomes =>
      let asked := min count (needReadLen - readLen)
      let taken := stream.take asked
      if taken = [] then some ⟨-1, some readLen, rBuf, stream⟩
      else if readLen + taken.length < needReadLen then
        recvLoop needReadLen startMs trycnt (readLen + taken.length)
          (overwrite rBuf readLen taken) (stream.drop asked) outcomes
      else
        some ⟨0, some (readLen + taken.length),
          overwrite rBuf readLen taken, stream.drop asked⟩
  | trycnt, readLen, rBuf, stream, .interrupted :: outcomes =>
      if readLen < needReadLen then
        recvLoop needReadLen startMs trycnt readLen rBuf stream outcomes
      else some ⟨0, some readLen, rBuf, stream⟩
  | trycnt, readLen, rBuf, stream, .again nowMs :: outcomes =>
      if 0 < trycnt then
        if readLen < needReadLen then
          recvLoop needReadLen startMs (trycnt - 1) readLen rBuf stream
            outcomes
        else some ⟨0, some readLen, rBuf, stream⟩
      else if nowMs - startMs < 500 then
        if readLen < needReadLen then
          recvLoop needReadLen startMs trycnt readLen rBuf stream outcomes
        else some ⟨0, some readLen, rBuf, stream⟩
      else some ⟨-2, some readLen, rBuf, stream⟩
  | _, readLen, rBuf, stream, .failed :: _ =>
      some ⟨-2, some readLen, rBuf, stream⟩

/-- `Comm_sock_recv_data`, with the stream that the socket will deliver. -/
def commSockRecvData (sockfd : Int) (rBuf : Option (List UInt8))
    (needReadLen : Int) (readLen : Option Nat) (startMs : Int)
    (stream : List UInt8) (outcomes : List RecvOutcome) :
    Option RecvReport :=
  match rBuf, readLen with
  | some rBuf, some _ =>
      if 0 < sockfd ∧ 0 < needReadLen then
        recvLoop needReadLen.toNat startMs 3 0 rBuf stream outcomes
      else some ⟨-1, readLen, rBuf, stream⟩
  | rBuf, readLen => some ⟨-1, readLen, rBuf.getD [], stream⟩

/-- The bytes that moved are the first `size` ones of `source`, and no more
than were asked for. -/
def InOrder (source moved : List UInt8) (need size : Nat) : Prop :=
  moved = source.take size ∧ size ≤ need

/-- A result of 0 says that all that was asked for has moved. -/
def TellsWhole (ret : Int) (need size : Nat) : Prop :=
  ret = 0 ↔ size = need

/-- What `send` has accepted when the call ends. -/
def SendReport.InOrder (report : SendReport) (data : List UInt8)
    (need size : Nat) : Prop :=
  report.realSendSize = some size ∧
    CommSock.InOrder data report.passed need size

/-- What the caller's block holds when the call ends: the start is from the
stream, the rest as it was, and nothing that was taken is lost. -/
def RecvReport.InOrder (report : RecvReport) (rBuf stream : List UInt8)
    (need size : Nat) : Prop :=
  report.readLen = some size ∧
    CommSock.InOrder stream (report.rBuf.take size) need size ∧
    report.rBuf.drop size = rBuf.drop size ∧
    report.stream = stream.drop size

/-- What a caller may read off a report of `Comm_sock_send_data`. -/
def SendReport.Sound (report : SendReport) (data : List UInt8)
    (need : Nat) : Prop :=
  ∃ size, report.InOrder data need size ∧ TellsWhole report.ret need size

/-- What a caller may read off a report of `Comm_sock_recv_data`. -/
def RecvReport.Sound (report : RecvReport) (before source : List UInt8)
    (need : Nat) : Prop :=
  ∃ size, report.InOrder before source need size ∧
    TellsWhole report.ret need size

section Sending

variable {data : List UInt8} {needSendSize : Nat}

/-- Another accepted piece keeps what has been passed a start of the data. -/
theorem take_append_slice (position count : Nat) :
    data.take position ++ slice data position count =
      data.take (position + count) := by
  rw [slice, List.take_add]

theorem sendLoop_inOrder {realSendSize : Nat}
    {outcomes : List SendOutcome} {report : SendReport}
    (inside : realSendSize ≤ needSendSize)
    (ends : sendLoop data needSendSize realSendSize
      (data.take realSendSize) outcomes = some report) :
    ∃ size, report.InOrder data needSendSize size := by
  induction outcomes generalizing realSendSize with
  | nil => simp [sendLoop] at ends
  | cons outcome outcomes ih =>
      -- a report at the current size
      have stays : ∀ ret : Int, some ⟨ret, some realSendSize,
          data.take realSendSize⟩ = some report →
          ∃ size, report.InOrder data needSendSize size := by
        intro ret same
        obtain rfl := Option.some.inj same
        exact ⟨realSendSize, rfl, rfl, inside⟩
      cases outcome with
      | failed => exact stays _ ends
      | again =>
          simp only [sendLoop] at ends
          split at ends
          · exact ih inside ends
          · exact stays _ ends
      | accepted count =>
          have fits : realSendSize + min count (needSendSize - realSendSize) ≤
              needSendSize := by
            omega
          simp only [sendLoop, take_append_slice] at ends
          split at ends
          · exact stays _ ends
          · split at ends
            · exact ih fits ends
            · obtain rfl := Option.some.inj ends
              exact ⟨_, rfl, rfl, fits⟩

theorem sendLoop_tellsWhole {realSendSize : Nat} {passed : List UInt8}
    {outcomes : List SendOutcome} {report : SendReport}
    (short : realSendSize < needSendSize)
    (ends : sendLoop data needSendSize realSendSize passed outcomes =
      some report) :
    ∀ size, report.realSendSize = some size →
      TellsWhole report.ret needSendSize size := by
  induction outcomes generalizing realSendSize passed with
  | nil => simp [sendLoop] at ends
  | cons outcome outcomes ih =>
      -- a failing report comes while bytes are missing
      have fails : ∀ ret : Int, ret ≠ 0 →
          some ⟨ret, some realSendSize, passed⟩ = some report →
          ∀ size, report.realSendSize = some size →
            TellsWhole report.ret needSendSize size := by
        intro ret nonzero same size sizeEq
        obtain rfl := Option.some.inj same
        obtain rfl := Option.some.inj sizeEq
        exact iff_of_false nonzero (by omega)
      cases outcome with
      | failed => exact fails (-2) (by decide) ends
      | again =>
          simp only [sendLoop, if_pos short] at ends
          exact ih short ends
      | accepted count =>
          simp only [sendLoop] at ends
          split at ends
          · exact fails (-1) (by decide) ends
          · split at ends
            next more => exact ih more ends
            next whole =>
              intro size sizeEq
              obtain rfl := Option.some.inj ends
              obtain rfl := Option.some.inj sizeEq
              exact iff_of_true rfl (by omega)

end Sending

section Receiving

variable {needReadLen : Nat} {startMs : Int}

/-- What holds of the block and the stream between two calls of `recv`, when
the block was `before` and the stream `source`. -/
structure Filled (before source : List UInt8) (readLen : Nat)
    (rBuf stream : List UInt8) : Prop where
  size : rBuf.length = before.length
  delivered : readLen ≤ source.length
  start : rBuf.take readLen = source.take readLen
  rest : rBuf.drop readLen = before.drop readLen
  left : stream = source.drop readLen

variable {before source : List UInt8}

/-- A call takes the next bytes of the stream, as many as are asked for or as
there are. -/
theorem Filled.taken {readLen : Nat} {rBuf stream : List UInt8}
    (filled : Filled before source readLen rBuf stream) (asked : Nat) :
    ∃ count ≤ asked, readLen + count ≤ source.length ∧
      stream.take asked = slice source readLen count ∧
      stream.drop asked = source.drop (readLen + count) := by
  have delivered := filled.delivered
  have left : stream.length = source.length - readLen := by
    rw [filled.left, List.length_drop]
  refine ⟨min asked stream.length, Nat.min_le_left .., by omega, ?_, ?_⟩
  · rw [slice, ← filled.left]
    simp
  · rw [← List.drop_drop, ← filled.left]
    by_cases whole : asked ≤ stream.length
    · rw [Nat.min_eq_left whole]
    · rw [List.drop_eq_nil_of_le (by omega),
        List.drop_eq_nil_of_le (by omega)]

theorem Filled.received {readLen count : Nat} {rBuf stream : List UInt8}
    (filled : Filled before source readLen rBuf stream)
    (fits : readLen + count ≤ before.length)
    (delivered : readLen + count ≤ source.length) :
    Filled before source (readLen + count)
      (overwrite rBuf readLen (slice source readLen count))
      (source.drop (readLen + count)) := by
  have counted : (slice source readLen count).length = count :=
    length_slice delivered
  have inside : readLen + count ≤ rBuf.length := by
    rw [filled.size]
    exact fits
  refine ⟨?_, delivered, ?_, ?_, rfl⟩
  · rw [length_overwrite (by rw [counted]; exact inside), filled.size]
  · have written : (overwrite rBuf readLen
        (slice source readLen count)).take (readLen + count) =
          rBuf.take readLen ++ slice source readLen count := by
      have whole := take_overwrite (slice source readLen count)
        (show readLen ≤ rBuf.length by omega)
      rw [counted] at whole
      exact whole
    rw [written, filled.start, take_append_slice]
  · have after : (overwrite rBuf readLen
        (slice source readLen count)).drop readLen =
          slice source readLen count ++ rBuf.drop (readLen + count) := by
      rw [drop_overwrite (by omega), counted]
    calc (overwrite rBuf readLen (slice source readLen count)).drop
          (readLen + count)
        = rBuf.drop (readLen + count) := by
          rw [← List.drop_drop, after, List.drop_left' counted]
      _ = before.drop (readLen + count) := by
          rw [← List.drop_drop, filled.rest, List.drop_drop]

/-- What a call of `recv` reports while bytes are missing. -/
theorem Filled.report {readLen : Nat} {rBuf stream : List UInt8}
    (filled : Filled before source readLen rBuf stream)
    (inside : readLen ≤ needReadLen) (ret : Int) :
    (RecvReport.mk ret (some readLen) rBuf stream).InOrder before source
      needReadLen readLen :=
  ⟨rfl, ⟨filled.start, inside⟩, filled.rest, filled.left⟩

theorem recvLoop_sound {trycnt readLen : Nat} {rBuf stream : List UInt8}
    {outcomes : List RecvOutcome} {report : RecvReport}
    (room : needReadLen ≤ before.length) (short : readLen < needReadLen)
    (filled : Filled before source readLen rBuf stream)
    (ends : recvLoop needReadLen startMs trycnt readLen rBuf stream outcomes =
      some report) :
    report.Sound before source needReadLen := by
  induction outcomes generalizing trycnt readLen rBuf stream with
  | nil => simp [recvLoop] at ends
  | cons outcome outcomes ih =>
      -- a failing report comes while bytes are missing
      have fails : ∀ ret : Int, ret ≠ 0 →
          some ⟨ret, some readLen, rBuf, stream⟩ = some report →
          report.Sound before source needReadLen := by
        intro ret nonzero same
        obtain rfl := Option.some.inj same
        exact ⟨readLen, filled.report short.le ret,
          iff_of_false nonzero short.ne⟩
      cases outcome with
      | failed => exact fails (-2) (by decide) ends
      | interrupted =>
          simp only [recvLoop, if_pos short] at ends
          exact ih short filled ends
      | again nowMs =>
          simp only [recvLoop, if_pos short] at ends
          split at ends
          · exact ih short filled ends
          · split at ends
            · exact ih short filled ends
            · exact fails (-2) (by decide) ends
      | received count =>
          obtain ⟨moved, most, delivered, taken, left⟩ :=
            filled.taken (min count (needReadLen - readLen))
          have fits : readLen + moved ≤ needReadLen := by
            omega
          have next := filled.received (by omega) delivered
          simp only [recvLoop, taken, left, length_slice delivered] at ends
          split at ends
          · exact fails (-1) (by decide) ends
          · split at ends
            · rename_i more
              exact ih more next ends
            · rename_i whole
              obtain rfl := Option.some.inj ends
              exact ⟨readLen + moved, next.report fits 0,
                iff_of_true rfl (by omega)⟩

end Receiving

/-- Whatever passes the checks on the parameters is transferred exactly,
however the calls go. -/
def TransfersExact : Prop :=
  (∀ (socket : Int) (data : List UInt8) (needSendSize realSendSize : Nat)
      (outcomes : List SendOutcome) (report : SendReport),
    socket ≠ 0 → needSendSize ≤ data.length →
      commSockSendData socket (some data) needSendSize (some realSendSize)
        outcomes = some report →
      report.Sound data needSendSize) ∧
  ∀ (sockfd : Int) (rBuf : List UInt8) (needReadLen : Int) (readLen : Nat)
      (startMs : Int) (stream : List UInt8) (outcomes : List RecvOutcome)
      (report : RecvReport),
    0 < sockfd → 0 < needReadLen → needReadLen ≤ rBuf.length →
      commSockRecvData sockfd (some rBuf) needReadLen (some readLen) startMs
        stream outcomes = some report →
      report.Sound rBuf stream needReadLen.toNat

/-- A call that is asked to send nothing meets a `send` of no bytes, and takes
it for the end of the connection. -/
theorem not_transfersExact : ¬ TransfersExact := by
  intro exact
  obtain ⟨size, ⟨-, -, within⟩, whole⟩ :=
    exact.1 1 [] 0 0 [.accepted 0] ⟨-1, some 0, []⟩ (by decide) (by decide)
      (by decide)
  have failed : (-1 : Int) = 0 := whole.2 (Nat.le_zero.1 within)
  exact absurd failed (by decide)

/-- What passes the checks is transferred in order and never beyond the
request, and when there is something to send a result of 0 says that all of it
went through. -/
theorem transfersExact_of_request :
    (∀ (socket : Int) (data : List UInt8) (needSendSize realSendSize : Nat)
        (outcomes : List SendOutcome) (report : SendReport),
      socket ≠ 0 → needSendSize ≤ data.length →
        commSockSendData socket (some data) needSendSize (some realSendSize)
          outcomes = some report →
        ∃ size, report.InOrder data needSendSize size ∧
          (0 < needSendSize → TellsWhole report.ret needSendSize size)) ∧
    ∀ (sockfd : Int) (rBuf : List UInt8) (needReadLen : Int) (readLen : Nat)
        (startMs : Int) (stream : List UInt8) (outcomes : List RecvOutcome)
        (report : RecvReport),
      0 < sockfd → 0 < needReadLen → needReadLen ≤ rBuf.length →
        commSockRecvData sockfd (some rBuf) needReadLen (some readLen)
          startMs stream outcomes = some report →
        report.Sound rBuf stream needReadLen.toNat := by
  constructor
  · intro socket data needSendSize realSendSize outcomes report opened _ ends
    simp only [commSockSendData, if_neg opened] at ends
    obtain ⟨size, inOrder⟩ := sendLoop_inOrder (Nat.zero_le _) ends
    exact ⟨size, inOrder, fun asked =>
      sendLoop_tellsWhole asked ends size inOrder.1⟩
  · intro sockfd rBuf needReadLen readLen startMs stream outcomes report
      opened asked room ends
    simp only [commSockRecvData, if_pos (And.intro opened asked)] at ends
    refine recvLoop_sound (by omega) (by omega) ?_ ends
    exact ⟨rfl, Nat.zero_le _, rfl, rfl, rfl⟩

/-- Two bytes go out in two pieces with an interruption in between, and three
come in from a stream of four. -/
theorem transfersExact_of_request_pieces :
    (∃ size, (SendReport.mk 0 (some 2) [7, 8]).InOrder [7, 8, 9] 2 size ∧
      (0 < 2 → TellsWhole 0 2 size)) ∧
    (RecvReport.mk 0 (some 3) [1, 2, 3, 0] [4]).Sound [0, 0, 0, 0]
      [1, 2, 3, 4] 3 :=
  ⟨transfersExact_of_request.1 5 [7, 8, 9] 2 0
      [.accepted 1, .again, .accepted 4] ⟨0, some 2, [7, 8]⟩ (by decide)
      (by decide) (by decide),
    transfersExact_of_request.2 5 [0, 0, 0, 0] 3 0 100 [1, 2, 3, 4]
      [.received 2, .interrupted, .again 120, .received 2]
      ⟨0, some 3, [1, 2, 3, 0], [4]⟩ (by decide) (by decide) (by decide)
      (by decide)⟩

/-- A call whose parameters fail the check moves nothing. -/
theorem commSockSendData_refused {socket : Int} {data : Option (List UInt8)}
    {realSendSize : Option Nat} (needSendSize : Nat)
    (outcomes : List SendOutcome)
    (invalid : socket = 0 ∨ data = none ∨ realSendSize = none) :
    commSockSendData socket data needSendSize realSendSize outcomes =
      some ⟨-1, realSendSize, []⟩ := by
  obtain rfl | rfl | rfl := invalid
  · cases data <;> cases realSendSize <;> rfl
  · cases realSendSize <;> rfl
  · cases data <;> rfl

theorem commSockRecvData_refused {sockfd needReadLen : Int}
    (rBuf : List UInt8) (readLen : Option Nat) (startMs : Int)
    (stream : List UInt8) (outcomes : List RecvOutcome)
    (invalid : sockfd ≤ 0 ∨ needReadLen ≤ 0 ∨ readLen = none) :
    commSockRecvData sockfd (some rBuf) needReadLen readLen startMs stream
        outcomes =
      some ⟨-1, readLen, rBuf, stream⟩ := by
  cases readLen with
  | none => rfl
  | some readLen =>
      have refused : ¬ (0 < sockfd ∧ 0 < needReadLen) := by
        obtain closed | none_asked | absent := invalid
        · omega
        · omega
        · cases absent
      simp only [commSockRecvData, if_neg refused]

/-! ## The loops of the client model -/

/-- A transfer that ends is the one the client model computes from the sizes
alone. -/
theorem sendLoop_eq_client {data passed : List UInt8}
    {needSendSize realSendSize : Nat} {outcomes : List SendOutcome}
    {report : SendReport} (short : realSendSize < needSendSize)
    (ends : sendLoop data needSendSize realSendSize passed outcomes =
      some report) :
    ∃ size, report.realSendSize = some size ∧
      TcpClient.commSockSendData needSendSize realSendSize outcomes =
        (report.ret, size) := by
  induction outcomes generalizing realSendSize passed with
  | nil => simp [sendLoop] at ends
  | cons outcome outcomes ih =>
      cases outcome with
      | failed =>
          obtain rfl := Option.some.inj ends
          exact ⟨realSendSize, rfl, rfl⟩
      | again =>
          simp only [sendLoop, if_pos short] at ends
          exact ih short ends
      | accepted count =>
          simp only [sendLoop] at ends
          split at ends
          · rename_i ended
            obtain rfl := Option.some.inj ends
            exact ⟨realSendSize, rfl, if_pos ended⟩
          · rename_i moved
            simp only [TcpClient.commSockSendData, if_neg moved]
            split at ends
            · rename_i more
              rw [if_pos more]
              exact ih more ends
            · rename_i whole
              rw [if_neg whole]
              obtain rfl := Option.some.inj ends
              exact ⟨_, rfl, rfl⟩

/-- What the calls of `recv` bring, as the client model's socket has it. -/
def arrivals (needReadLen : Nat) (startMs : Int) :
    Nat → List UInt8 → List RecvOutcome → List Arrival
  | _, _, [] => []
  | readLen, stream, .received count :: outcomes =>
      let asked := min count (needReadLen - readLen)
      .bytes (stream.take asked) ::
        arrivals needReadLen startMs (readLen + (stream.take asked).length)
          (stream.drop asked) outcomes
  | readLen, stream, .interrupted :: outcomes =>
      .interrupted :: arrivals needReadLen startMs readLen stream outcomes
  | readLen, stream, .again nowMs :: outcomes =>
      .again (nowMs - startMs).toNat ::
        arrivals needReadLen startMs readLen stream outcomes
  | readLen, stream, .failed :: outcomes =>
      .failed :: arrivals needReadLen startMs readLen stream outcomes

/-- A read that ends is the one the client model computes from the arrivals:
it has the same result, and the bytes that stand in the block. -/
theorem recvLoop_eq_client {needReadLen trycnt readLen : Nat} {startMs : Int}
    {before source rBuf stream : List UInt8} {outcomes : List RecvOutcome}
    {report : RecvReport} (room : needReadLen ≤ before.length)
    (short : readLen < needReadLen)
    (filled : Filled before source readLen rBuf stream)
    (ends : recvLoop needReadLen startMs trycnt readLen rBuf stream outcomes =
      some report) :
    ∃ size left, report.readLen = some size ∧
      TcpClient.commSockRecvData needReadLen trycnt (source.take readLen)
          (arrivals needReadLen startMs readLen stream outcomes) =
        (report.ret, report.rBuf.take size, left) := by
  induction outcomes generalizing trycnt readLen rBuf stream with
  | nil => simp [recvLoop] at ends
  | cons outcome outcomes ih =>
      have fails : ∀ (ret : Int) (left : List Arrival),
          some ⟨ret, some readLen, rBuf, stream⟩ = some report →
          ∃ size rest, report.readLen = some size ∧
            (ret, source.take readLen, left) =
              (report.ret, report.rBuf.take size, rest) := by
        intro ret left same
        obtain rfl := Option.some.inj same
        exact ⟨readLen, left, rfl, by rw [filled.start]⟩
      cases outcome with
      | failed => exact fails _ _ ends
      | interrupted =>
          simp only [recvLoop, if_pos short] at ends
          exact ih short filled ends
      | again nowMs =>
          have same : (nowMs - startMs).toNat < 500 ↔
              nowMs - startMs < 500 := by
            omega
          simp only [recvLoop, if_pos short] at ends
          simp only [arrivals, TcpClient.commSockRecvData, same]
          split at ends
          · rename_i retries
            rw [if_pos retries]
            exact ih short filled ends
          · rename_i spent
            rw [if_neg spent]
            split at ends
            · rename_i early
              rw [if_pos early]
              exact ih short filled ends
            · rename_i late
              rw [if_neg late]
              exact fails _ _ ends
      | received count =>
          obtain ⟨moved, most, delivered, taken, left⟩ :=
            filled.taken (min count (needReadLen - readLen))
          have next := filled.received (by omega) delivered
          have movedLength : (slice source readLen moved).length = moved :=
            length_slice delivered
          have counted : (source.take readLen).length = readLen := by
            simp [filled.delivered]
          -- the client model is given no more than is asked for
          have all : (slice source readLen moved).take
              (needReadLen - readLen) = slice source readLen moved :=
            List.take_of_length_le (by omega)
          have nothing : (slice source readLen moved).drop
              (needReadLen - readLen) = [] :=
            List.drop_eq_nil_of_le (by omega)
          simp only [recvLoop, taken, left, movedLength] at ends
          simp only [arrivals, TcpClient.commSockRecvData, taken, left,
            movedLength, counted, all, nothing, List.length_append]
          split at ends
          · rename_i ended
            rw [if_pos ended]
            exact fails _ _ ends
          · rename_i progress
            rw [if_neg progress, take_append_slice]
            split at ends
            · rename_i more
              rw [if_pos more]
              exact ih more next ends
            · rename_i whole
              rw [if_neg whole]
              obtain rfl := Option.some.inj ends
              exact ⟨_, _, rfl, by rw [next.start]⟩

end CommSock

end MbedtlsKcp
