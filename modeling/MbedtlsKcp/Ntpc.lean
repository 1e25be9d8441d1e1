import MbedtlsKcp.ByteBuffers
import MbedtlsKcp.TransitionRuns

/-!
# The NTP client

`ntpc.c` sends requests until a reply passes its checks and then sets the clock
to the time that the reply was sent.  The buffer for replies keeps what shorter
packets do not overwrite.
-/

namespace MbedtlsKcp

namespace Ntpc

open ByteBuffers TransitionRuns

/-- `struct ntptime`, of 32-bit numbers. -/
structure NtpTime where
  coarse : Nat
  fine : Nat
deriving DecidableEq

def jan1970 : Nat := 0x83aa7e80

/-- `NTPFRAC`, in 32 bits. -/
def ntpFrac (x : Nat) : Nat :=
  (4294 * x + 1981 * x % 2 ^ 32 / 2 ^ 11) % 2 ^ 32

/-- `USEC`, in 32 bits. -/
def usec (x : Nat) : Nat :=
  (((x / 2 ^ 12 : Nat) -
    759 * ((x / 2 ^ 10 + 32768) % 2 ^ 32 / 2 ^ 16 : Nat) : Int) % 2 ^ 32).toNat

/-- `struct timespec`; the seconds are a 64-bit number. -/
structure Timespec where
  tvSec : Nat
  tvNsec : Nat
deriving DecidableEq

/-- The time that `set_time` gives the clock. -/
def setting (time : NtpTime) : Timespec where
  tvSec := ((time.coarse - jan1970 : Int) % 2 ^ 32).toNat
  tvNsec := usec time.fine * 1000 % 2 ^ 32

/-- What `ntpc_gettime` makes of the clock. -/
def ntpcGettime (now : Timespec) : NtpTime where
  coarse := (jan1970 + now.tvSec) % 2 ^ 32
  fine := ntpFrac (now.tvNsec / 1000)

/-- `Data(i)`, a big-endian word. -/
def data (incoming : List UInt8) (i : Nat) : Nat :=
  decodeLE (slice incoming (4 * i) 4).reverse

/-- What `rfc1305print` reads of a packet. -/
structure Packet where
  li : Nat
  vn : Nat
  mode : Nat
  stratum : Nat
  delay : Int
  disp : Int
  orgtime : NtpTime
  xmttime : NtpTime
deriving DecidableEq

def readPacket (incoming : List UInt8) : Packet where
  li := data incoming 0 / 2 ^ 30 % 4
  vn := data incoming 0 / 2 ^ 27 % 8
  mode := data incoming 0 / 2 ^ 24 % 8
  stratum := data incoming 0 / 2 ^ 16 % 256
  delay := Int.bmod (data incoming 1) (2 ^ 32)
  disp := Int.bmod (data incoming 2) (2 ^ 32)
  orgtime := ⟨data incoming 6, data incoming 7⟩
  xmttime := ⟨data incoming 10, data incoming 11⟩

/-- `struct ntp_control`, with `live` not set. -/
structure NtpControl where
  timeOfSend : NtpTime
  setClock : Bool
  probeCount : Nat
  cycleTime : Nat
  crossCheck : Bool
  syncStatus : Bool
deriving DecidableEq

/-- The checks of `rfc1305print`. -/
def fails (packet : Packet) (timeOfSend : NtpTime) : Bool :=
  packet.li = 3 || packet.vn < 3 || packet.mode ≠ 4 ||
    packet.orgtime.coarse ≠ timeOfSend.coarse ||
    packet.orgtime.fine ≠ timeOfSend.fine ||
    (packet.xmttime.coarse = 0 && packet.xmttime.fine = 0) ||
    (packet.delay > 65536 || packet.delay < -65536) ||
    (packet.disp > 65536 || packet.disp < -65536) || packet.stratum = 0

/-- What `primary_loop` returns after its loop. -/
def syncResult (control : NtpControl) : Int :=
  if control.syncStatus then 1 else 0

/-- `primary_loop` between two calls of `select`.  `sent` and `clock` hold the
requests and the settings of the clock so far, `waits` the timeouts of the calls
of `select` that have returned. -/
structure Client where
  control : NtpControl
  probesSent : Nat
  currentTimeout : Nat
  incoming : List UInt8
  sent : List NtpTime
  waits : List Nat
  clock : List Timespec
  result : Option Int
deriving DecidableEq

/-- How `select` and `recvfrom` return; `now` is read by `send_packet`, and
`sets` says whether `clock_settime` succeeds. -/
inductive Event
  | interrupted
  | selectError
  | timeout (now : Timespec)
  | notReady
  | recvError
  | datagram (bytes : List UInt8) (port : Nat) (sets : Bool)
deriving DecidableEq

def Event.isTimeout : Event → Bool
  | .timeout _ => true
  | _ => false

def ntpPort : Nat := 123

def sizeofIncoming : Nat := 1300

def sendPacket (client : Client) (now : Timespec) : Client :=
  { client with
    control := { client.control with timeOfSend := ntpcGettime now }
    sent := client.sent ++ [ntpcGettime now] }

/-- `rfc1305print` and what the loop does with its result. -/
def rfc1305print (client : Client) (sets : Bool) : Client :=
  let packet := readPacket client.incoming
  if client.control.crossCheck && fails packet client.control.timeOfSend then
    client
  else
    let client :=
      if client.control.setClock && sets then
        { client with
          control := { client.control with syncStatus := true }
          clock := client.clock ++ [setting packet.xmttime] }
      else client
    { client with result := some (syncResult client.control) }

/-- What the loop does with the rest of a turn after `recvfrom`. -/
def receive (client : Client) (bytes : List UInt8) (port : Nat) (sets : Bool) :
    Client :=
  let packLen := min bytes.length sizeofIncoming
  let client := { client with
    incoming := overwrite client.incoming 0 (bytes.take sizeofIncoming) }
  if packLen > 0 ∧ packLen < sizeofIncoming then
    if port ≠ ntpPort then client else rfc1305print client sets
  else if client.probesSent ≥ client.control.probeCount ∧
      client.control.probeCount ≠ 0 then
    { client with
      control := { client.control with setClock := false }
      result := some (syncResult client.control) }
  else client

/-- What the loop does once `select` has returned. -/
def selected (client : Client) (event : Event) : Client :=
  match event with
  | .interrupted => client
  | .selectError => { client with result := some (-2) }
  | .timeout now =>
      if client.probesSent ≥ client.control.probeCount ∧
          client.control.probeCount ≠ 0 then
        { client with result := some (-2) }
      else if client.control.probeCount = 0 then
        { client with result := some (-2) }
      else
        let client := sendPacket client now
        let probesSent := client.probesSent + 1
        { client with
          probesSent
          currentTimeout := min (client.control.cycleTime * probesSent) 60 }
  | .notReady =>
      { client with currentTimeout := client.control.cycleTime }
  | .recvError =>
      { client with currentTimeout := client.control.cycleTime }
  | .datagram bytes port sets =>
      receive { client with currentTimeout := client.control.cycleTime }
        bytes port sets

/-- One turn of the loop; none when it has ended. -/
def turn (client : Client) (event : Event) : Option Client :=
  if client.result.isSome then none
  else if client.probesSent ≤ client.control.probeCount ∨
      client.control.probeCount = 0 then
    some (selected
      { client with waits := client.waits ++ [client.currentTimeout] } event)
  else some { client with result := some (syncResult client.control) }

/-- `primary_loop` up to its first `select`; `incoming` is what earlier calls
left in the buffer. -/
def primaryLoop (control : NtpControl) (incoming : List UInt8)
    (now : Timespec) : Client :=
  let client : Client :=
    { control
      probesSent := 0
      currentTimeout := control.cycleTime
      incoming
      sent := []
      waits := []
      clock := []
      result := none }
  { sendPacket client now with probesSent := 1 }

/-- The control of `ntpc`, before the first request. -/
def control : NtpControl where
  timeOfSend := ⟨0, 0⟩
  setClock := true
  probeCount := 3
  cycleTime := 15
  crossCheck := true
  syncStatus := false

/-- What `ntpc` returns for the result of the loop. -/
def ntpcResult (syncResult : Int) : Int :=
  if syncResult = 1 then 0 else if syncResult = -2 then -1 else -2

section Conversions

/-- Nothing wraps in `USEC`. -/
theorem usec_eq {x : Nat} (word : x < 2 ^ 32) :
    usec x = x / 4096 - 759 * ((x / 1024 + 32768) / 65536) ∧
      759 * ((x / 1024 + 32768) / 65536) ≤ x / 4096 := by
  have small : x / 1024 + 32768 < 2 ^ 32 := by omega
  have less : 759 * ((x / 1024 + 32768) / 65536) ≤ x / 4096 := by omega
  refine ⟨?_, less⟩
  have same : (x / 2 ^ 10 + 32768) % 2 ^ 32 = x / 1024 + 32768 :=
    Nat.mod_eq_of_lt small
  rw [usec, same]
  omega

/-- `USEC` gives microseconds of a second, 381 of them off at the most. -/
theorem usec_near {x : Nat} (word : x < 2 ^ 32) :
    usec x < 1000000 ∧ usec x * 2 ^ 32 < x * 1000000 + 381 * 2 ^ 32 ∧
      x * 1000000 < (usec x + 381) * 2 ^ 32 := by
  obtain ⟨same, less⟩ := usec_eq word
  have round : (x / 1024 + 32768) / 65536 ≤ 64 := by omega
  rw [same]
  omega

/-- Nothing wraps in `NTPFRAC`. -/
theorem ntpFrac_eq {x : Nat} (micros : x < 1000000) :
    ntpFrac x = 4294 * x + 1981 * x / 2048 ∧ ntpFrac x < 2 ^ 32 := by
  have small : 1981 * x % 2 ^ 32 = 1981 * x := Nat.mod_eq_of_lt (by omega)
  rw [ntpFrac, small]
  omega

/-- Microseconds that are converted and back. -/
theorem usec_ntpFrac_near {x : Nat} (micros : x < 1000000) :
    usec (ntpFrac x) < 1000000 ∧ usec (ntpFrac x) ≤ x + 381 ∧
      x ≤ usec (ntpFrac x) + 381 := by
  obtain ⟨frac, word⟩ := ntpFrac_eq micros
  obtain ⟨under, upper, lower⟩ := usec_near word
  generalize usec (ntpFrac x) = read at under upper lower ⊢
  rw [frac] at upper lower
  omega

/-- The time that was read from the clock is set again to the same second, and
less than 382 microseconds off. -/
theorem setting_ntpcGettime {now : Timespec} (second : now.tvNsec < 10 ^ 9)
    (era : now.tvSec < 2 ^ 32) :
    (setting (ntpcGettime now)).tvSec = now.tvSec ∧
      (setting (ntpcGettime now)).tvNsec < 10 ^ 9 ∧
        (setting (ntpcGettime now)).tvNsec ≤ now.tvNsec + 381000 ∧
          now.tvNsec < (setting (ntpcGettime now)).tvNsec + 382000 := by
  have micros : now.tvNsec / 1000 < 1000000 := by omega
  obtain ⟨under, upper, lower⟩ := usec_ntpFrac_near micros
  simp only [setting, ntpcGettime, jan1970]
  generalize usec (ntpFrac (now.tvNsec / 1000)) = read at under upper lower ⊢
  have small : read * 1000 % 2 ^ 32 = read * 1000 :=
    Nat.mod_eq_of_lt (by omega)
  rw [small]
  omega

theorem setting_ntpcGettime_lastMicro :
    (setting (ntpcGettime ⟨1700000000, 999999999⟩)).tvSec = 1700000000 ∧
      (setting (ntpcGettime ⟨1700000000, 999999999⟩)).tvNsec < 10 ^ 9 ∧
        (setting (ntpcGettime ⟨1700000000, 999999999⟩)).tvNsec ≤
          999999999 + 381000 ∧
          999999999 < (setting (ntpcGettime ⟨1700000000, 999999999⟩)).tvNsec +
            382000 :=
  setting_ntpcGettime (by decide) (by decide)

end Conversions

section Runs

/-- What a reply has to say to be believed. -/
structure Authentic (packet : Packet) (request : NtpTime) : Prop where
  synchronized : packet.li ≠ 3
  version : 3 ≤ packet.vn
  server : packet.mode = 4
  answers : packet.orgtime = request
  time : packet.xmttime ≠ ⟨0, 0⟩
  delay : packet.delay.natAbs ≤ 65536
  dispersion : packet.disp.natAbs ≤ 65536
  stratum : packet.stratum ≠ 0

variable {control : NtpControl} {client after : Client} {event : Event}

theorem fails_eq_false_iff (packet : Packet) (request : NtpTime) :
    fails packet request = false ↔ Authentic packet request := by
  have fields : packet.orgtime = request ↔
      packet.orgtime.coarse = request.coarse ∧
        packet.orgtime.fine = request.fine := by
    cases packet.orgtime
    cases request
    simp
  have zero : packet.xmttime = ⟨0, 0⟩ ↔
      packet.xmttime.coarse = 0 ∧ packet.xmttime.fine = 0 := by
    cases packet.xmttime
    simp
  constructor
  · intro passes
    simp only [fails, Bool.or_eq_false_iff, Bool.and_eq_false_imp,
      decide_eq_false_iff_not, decide_eq_true_eq, not_not] at passes
    obtain ⟨⟨⟨⟨⟨⟨⟨⟨synchronized, version⟩, server⟩, coarse⟩, fine⟩, time⟩,
      delay⟩, dispersion⟩, stratum⟩ := passes
    exact
      { synchronized
        version := by omega
        server
        answers := fields.2 ⟨coarse, fine⟩
        time := fun none => time (zero.1 none).1 (zero.1 none).2
        delay := by omega
        dispersion := by omega
        stratum }
  · intro authentic
    obtain ⟨coarse, fine⟩ := fields.1 authentic.answers
    have time := mt zero.2 authentic.time
    have version := authentic.version
    have delay := authentic.delay
    have dispersion := authentic.dispersion
    simp only [fails, Bool.or_eq_false_iff, Bool.and_eq_false_imp,
      decide_eq_false_iff_not, decide_eq_true_eq, not_not]
    refine ⟨⟨⟨⟨⟨⟨⟨⟨authentic.synchronized, by omega⟩, authentic.server⟩,
      coarse⟩, fine⟩, ?_⟩, by omega⟩, by omega⟩, authentic.stratum⟩
    exact fun first second => time ⟨first, second⟩

instance (packet : Packet) (request : NtpTime) :
    Decidable (Authentic packet request) :=
  decidable_of_iff _ (fails_eq_false_iff packet request)

/-- A client that waits for a reply to its last request. -/
structure Waiting (control : NtpControl) (client : Client) : Prop where
  settings : client.control =
    { control with timeOfSend := client.control.timeOfSend }
  unfinished : client.result = none
  requested : client.sent.getLast? = some client.control.timeOfSend
  requests : client.sent.length = client.probesSent
  probes : client.probesSent ≤ control.probeCount
  incoming : client.incoming.length = sizeofIncoming
  clock : client.clock = []
  current : client.currentTimeout ≤ max control.cycleTime 60
  waits : ∀ wait ∈ client.waits, wait ≤ max control.cycleTime 60

theorem primaryLoop_waiting (control : NtpControl) {incoming : List UInt8}
    (now : Timespec) (positive : 0 < control.probeCount)
    (size : incoming.length = sizeofIncoming) :
    Waiting control (primaryLoop control incoming now) where
  settings := rfl
  unfinished := rfl
  requested := rfl
  requests := rfl
  probes := positive
  incoming := size
  clock := rfl
  current := le_max_left _ _
  waits := by simp [primaryLoop, sendPacket]

/-- A reply that the client believes ends the loop. -/
theorem rfc1305print_eq (client : Client) (sets : Bool) :
    rfc1305print client sets =
      if client.control.crossCheck = true →
          Authentic (readPacket client.incoming) client.control.timeOfSend then
        if client.control.setClock ∧ sets then
          { client with
            control := { client.control with syncStatus := true }
            clock := client.clock ++
              [setting (readPacket client.incoming).xmttime]
            result := some 1 }
        else { client with result := some (syncResult client.control) }
      else client := by
  have believed := fails_eq_false_iff (readPacket client.incoming)
    client.control.timeOfSend
  have rejected : (client.control.crossCheck &&
      fails (readPacket client.incoming) client.control.timeOfSend) = true ↔
        ¬ (client.control.crossCheck = true →
          Authentic (readPacket client.incoming)
            client.control.timeOfSend) := by
    rw [← believed]
    simp
  simp only [rfc1305print]
  by_cases fail : (client.control.crossCheck &&
      fails (readPacket client.incoming) client.control.timeOfSend) = true
  · rw [if_pos fail, if_neg (rejected.1 fail)]
  · rw [if_neg fail, if_pos (not_not.1 (mt rejected.2 fail))]
    by_cases both : client.control.setClock ∧ sets
    · simp [both, syncResult]
    · rw [if_neg both, if_neg (by simpa using both)]

/-- A packet that is not cut is what the reply said. -/
theorem readPacket_overwrite {incoming bytes : List UInt8}
    (whole : 48 ≤ bytes.length) :
    readPacket (overwrite incoming 0 bytes) = readPacket bytes := by
  have front : (overwrite incoming 0 bytes).take bytes.length = bytes := by
    have taken : (overwrite incoming 0 bytes).take (0 + bytes.length) =
        incoming.take 0 ++ bytes :=
      take_overwrite bytes (Nat.zero_le _)
    simpa using taken
  have same (i : Nat) (inside : i < 12) :
      data (overwrite incoming 0 bytes) i = data bytes i := by
    have kept : slice ((overwrite incoming 0 bytes).take bytes.length)
        (4 * i) 4 = slice (overwrite incoming 0 bytes) (4 * i) 4 :=
      slice_take (by omega)
    rw [data, data, ← kept, front]
  simp [readPacket, same]

/-- The loop has ended with this event. -/
structure Ended (control : NtpControl) (client : Client) (event : Event)
    (after : Client) : Prop where
  sent : after.sent = client.sent
  ends : after.result.isSome
  fails : after.result = some (-2) ↔
    event.isTimeout = true ∨ event = .selectError
  last : event.isTimeout = true → client.probesSent = control.probeCount

/-- The client has believed a reply with these bytes. -/
structure SetBy (request : NtpTime) (bytes : List UInt8) (packet : Packet)
    (client : Client) : Prop where
  nonempty : 0 < bytes.length
  short : bytes.length < sizeofIncoming
  whole : 48 ≤ bytes.length → packet = readPacket bytes
  authentic : client.control.crossCheck = true → Authentic packet request
  clock : client.clock = [setting packet.xmttime]
  result : client.result = some 1

namespace Waiting

theorem positive (waiting : Waiting control client) :
    0 < client.probesSent := by
  rw [← waiting.requests]
  apply List.length_pos_of_mem
  exact List.mem_of_getLast? waiting.requested

/-- The client once `select` has returned. -/
theorem wait (waiting : Waiting control client) :
    Waiting control
      { client with waits := client.waits ++ [client.currentTimeout] } :=
  { waiting with
    waits := by
      intro wait inside
      rw [List.mem_append, List.mem_singleton] at inside
      obtain inside | rfl := inside
      · exact waiting.waits wait inside
      · exact waiting.current }

theorem reset (waiting : Waiting control client) :
    Waiting control
      { client with currentTimeout := client.control.cycleTime } :=
  { waiting with
    current := by
      rw [waiting.settings]
      exact le_max_left _ _ }

theorem send (waiting : Waiting control client) (now : Timespec)
    (more : client.probesSent < control.probeCount) :
    Waiting control
      { sendPacket client now with
        probesSent := client.probesSent + 1
        currentTimeout :=
          min (client.control.cycleTime * (client.probesSent + 1)) 60 } where
  settings :=
    congrArg (fun settings : NtpControl =>
      { settings with timeOfSend := ntpcGettime now }) waiting.settings
  unfinished := waiting.unfinished
  requested := by simp [sendPacket]
  requests := by simp [sendPacket, waiting.requests]
  probes := more
  incoming := waiting.incoming
  clock := waiting.clock
  current := (min_le_right _ _).trans (le_max_right _ _)
  waits := waiting.waits

/-- What a datagram does to a client that waits. -/
theorem receive (waiting : Waiting control client) (bytes : List UInt8)
    (port : Nat) (sets : Bool) {after : Client}
    (received : Ntpc.receive client bytes port sets = after) :
    after.sent = client.sent ∧ after.waits = client.waits ∧
      after.control.crossCheck = control.crossCheck ∧
      (Waiting control after ∧ after.probesSent = client.probesSent ∨
        after.clock = [] ∧ after.result = some (syncResult control) ∨
        port = ntpPort ∧ sets = true ∧
          ∃ packet, SetBy client.control.timeOfSend bytes packet after) := by
  have settings := waiting.settings
  have overwritten : Waiting control { client with
      incoming :=
        overwrite client.incoming 0 (bytes.take sizeofIncoming) } :=
    { waiting with
      incoming := by
        rw [← waiting.incoming]
        exact length_overwrite (by simp) }
  have checked : client.control.crossCheck = control.crossCheck := by
    rw [settings]
  have synced : some (syncResult client.control) =
      some (syncResult control) := by
    rw [settings]
    rfl
  subst received
  simp only [Ntpc.receive]
  split_ifs with fits foreign last
  · exact ⟨rfl, rfl, checked, .inl ⟨overwritten, rfl⟩⟩
  · rw [rfc1305print_eq]
    split_ifs with believed both
    · have short : bytes.length < sizeofIncoming := by omega
      refine ⟨rfl, rfl, checked,
        .inr (.inr ⟨not_not.1 foreign, both.2, ?_⟩)⟩
      exact ⟨_,
        { nonempty := by omega
          short
          whole := by
            intro whole
            rw [List.take_of_length_le short.le]
            exact readPacket_overwrite whole
          authentic := believed
          clock := by simp [waiting.clock]
          result := rfl }⟩
    · exact ⟨rfl, rfl, checked, .inr (.inl ⟨waiting.clock, synced⟩)⟩
    · exact ⟨rfl, rfl, checked, .inl ⟨overwritten, rfl⟩⟩
  · exact ⟨rfl, rfl, checked, .inr (.inl ⟨waiting.clock, synced⟩)⟩
  · exact ⟨rfl, rfl, checked, .inl ⟨overwritten, rfl⟩⟩

theorem turn_eq (waiting : Waiting control client) (event : Event) :
    turn client event = some (selected
      { client with waits := client.waits ++ [client.currentTimeout] }
      event) := by
  have probes : client.probesSent ≤ client.control.probeCount := by
    rw [waiting.settings]
    exact waiting.probes
  rw [turn, waiting.unfinished, if_neg (by simp), if_pos (.inl probes)]

/-- A client that waits for the last time ends with a timeout, and every other
sends another request. -/
theorem selected_timeout (waiting : Waiting control client) (now : Timespec) :
    client.probesSent < control.probeCount ∧
        Waiting control (selected client (.timeout now)) ∧
          (selected client (.timeout now)).probesSent =
            client.probesSent + 1 ∨
      client.probesSent = control.probeCount ∧
        selected client (.timeout now) =
          { client with result := some (-2) } := by
  have count : client.control.probeCount = control.probeCount := by
    rw [waiting.settings]
  have positive := waiting.positive
  have probes := waiting.probes
  by_cases more : client.probesSent < control.probeCount
  · left
    rw [selected, if_neg (by omega), if_neg (by omega)]
    exact ⟨more, waiting.send now more, rfl⟩
  · right
    rw [selected, if_pos (by omega)]
    exact ⟨by omega, rfl⟩

/-- What a return of `select` does to a client that waits. -/
theorem selected_cases (waiting : Waiting control client) (event : Event) :
    (selected client event).waits = client.waits ∧
      (Waiting control (selected client event) ∧
          (selected client event).probesSent =
            client.probesSent + [event].countP Event.isTimeout ∧
          event ≠ .selectError ∨
        Ended control client event (selected client event)) := by
  cases event with
  | interrupted => exact ⟨rfl, .inl ⟨waiting, rfl, by simp⟩⟩
  | selectError =>
    refine ⟨rfl, .inr ?_⟩
    exact
      { sent := rfl
        ends := rfl
        fails := by simp [selected]
        last := by simp [Event.isTimeout] }
  | timeout now =>
    obtain ⟨-, next, sent⟩ | ⟨same, last⟩ := waiting.selected_timeout now
    · refine ⟨?_, .inl ⟨next, sent, by simp⟩⟩
      rw [selected]
      split_ifs <;> rfl
    · rw [last]
      refine ⟨rfl, .inr ?_⟩
      exact
        { sent := rfl
          ends := rfl
          fails := by simp [Event.isTimeout]
          last := fun _ => same }
  | notReady => exact ⟨rfl, .inl ⟨waiting.reset, rfl, by simp⟩⟩
  | recvError => exact ⟨rfl, .inl ⟨waiting.reset, rfl, by simp⟩⟩
  | datagram bytes port sets =>
    obtain ⟨sent, waits, -, received⟩ :=
      waiting.reset.receive bytes port sets rfl
    have ended {code : Int} (other : code ≠ -2)
        (result : (selected client (.datagram bytes port sets)).result =
          some code) :
        Ended control client (.datagram bytes port sets)
          (selected client (.datagram bytes port sets)) :=
      { sent
        ends := by simp [result]
        fails := by simp [result, Event.isTimeout, other]
        last := by simp [Event.isTimeout] }
    refine ⟨waits, ?_⟩
    obtain ⟨next, probes⟩ | ⟨-, result⟩ | ⟨-, -, packet, set⟩ := received
    · exact .inl ⟨next, probes, by simp⟩
    · have other : syncResult control ≠ -2 := by
        rw [syncResult]
        split_ifs <;> decide
      exact .inr (ended other result)
    · exact .inr (ended (by decide) set.result)

/-- Only a reply that is believed sets the clock. -/
theorem selected_clock (waiting : Waiting control client)
    (unsynced : control.syncStatus = false) (event : Event) :
    (selected client event).clock = [] ∧
        (selected client event).result ≠ some 1 ∨
      ∃ bytes packet, event = .datagram bytes ntpPort true ∧
        (selected client event).control.crossCheck = control.crossCheck ∧
          SetBy client.control.timeOfSend bytes packet
            (selected client event) := by
  have unfinished (after : Client) (next : Waiting control after) :
      after.clock = [] ∧ after.result ≠ some 1 := by
    rw [next.unfinished]
    exact ⟨next.clock, by simp⟩
  cases event with
  | interrupted => exact .inl (unfinished _ waiting)
  | selectError => exact .inl ⟨waiting.clock, by simp [selected]⟩
  | timeout now =>
    left
    obtain ⟨-, next, -⟩ | ⟨-, last⟩ := waiting.selected_timeout now
    · exact unfinished _ next
    · rw [last]
      exact ⟨waiting.clock, by simp⟩
  | notReady => exact .inl (unfinished _ waiting.reset)
  | recvError => exact .inl (unfinished _ waiting.reset)
  | datagram bytes port sets =>
    obtain ⟨-, -, checks, received⟩ :=
      waiting.reset.receive bytes port sets rfl
    obtain ⟨next, -⟩ | ⟨clock, result⟩ | ⟨rfl, rfl, packet, set⟩ := received
    · exact .inl (unfinished _ next)
    · left
      rw [selected, result, syncResult, unsynced]
      exact ⟨clock, by simp⟩
    · exact .inr ⟨bytes, packet, rfl, checks, set⟩

/-- A turn of the loop. -/
theorem turn_cases (waiting : Waiting control client) (event : Event) :
    ∃ next, turn client event = some next ∧
      (Waiting control next ∧
          next.probesSent =
            client.probesSent + [event].countP Event.isTimeout ∧
          event ≠ .selectError ∨
        Ended control client event next ∧
          ∀ wait ∈ next.waits, wait ≤ max control.cycleTime 60) := by
  refine ⟨_, waiting.turn_eq event, ?_⟩
  obtain ⟨waits, next | ended⟩ := waiting.wait.selected_cases event
  · exact .inl next
  · right
    rw [waits]
    exact ⟨⟨ended.sent, ended.ends, ended.fails, ended.last⟩,
      waiting.wait.waits⟩

/-- Only timeouts use up the requests. -/
theorem run (waiting : Waiting control client) {events : List Event}
    (runs : TransitionRuns.run turn client events = some after) :
    client.probesSent + events.countP Event.isTimeout ≤
        control.probeCount + 1 ∧
      after.sent.length = min (client.probesSent +
        events.countP Event.isTimeout) control.probeCount ∧
      (after.result = some (-2) ↔
        client.probesSent + events.countP Event.isTimeout =
            control.probeCount + 1 ∨
          .selectError ∈ events) ∧
      ∀ wait ∈ after.waits, wait ≤ max control.cycleTime 60 := by
  have probes := waiting.probes
  induction events generalizing client with
  | nil =>
    obtain rfl : client = after := by simpa [run_nil] using runs
    have requests := waiting.requests
    rw [waiting.unfinished]
    refine ⟨by simp; omega, by simp; omega, ?_, waiting.waits⟩
    simp
    omega
  | cons event events ih =>
    obtain ⟨next, turns, outcome⟩ := waiting.turn_cases event
    rw [run_cons, turns, Option.bind_some] at runs
    have counts : (event :: events).countP Event.isTimeout =
        [event].countP Event.isTimeout + events.countP Event.isTimeout := by
      simp [List.countP_cons, Nat.add_comm]
    rw [counts, ← Nat.add_assoc, List.mem_cons]
    obtain ⟨waits, sent, goes⟩ | ⟨ended, waited⟩ := outcome
    · rw [← sent, or_iff_right goes.symm]
      exact ih waits runs waits.probes
    · cases events with
      | nil =>
        obtain rfl : next = after := by simpa [run_nil] using runs
        have requests := waiting.requests
        rw [ended.sent, ended.fails, requests]
        by_cases timeout : event.isTimeout = true
        · have full := ended.last timeout
          have one : [event].countP Event.isTimeout = 1 := by simp [timeout]
          rw [one, List.countP_nil]
          exact ⟨by omega, by omega, by simp [timeout, full], waited⟩
        · have none : [event].countP Event.isTimeout = 0 := by simp [timeout]
          rw [none, List.countP_nil]
          have below : client.probesSent ≠ control.probeCount + 1 := by omega
          exact ⟨by omega, by omega, by simp [timeout, below, eq_comm], waited⟩
      | cons second rest =>
        rw [run_cons, turn, if_pos ended.ends] at runs
        simp at runs

end Waiting

/-- The client after any returns of `select` and `recvfrom`. -/
abbrev Reached (control : NtpControl) : Client → Prop :=
  Reachable
    (fun client => ∃ incoming now, incoming.length = sizeofIncoming ∧
      client = primaryLoop control incoming now)
    turn fun _ _ => True

theorem Reached.waiting (positive : 0 < control.probeCount)
    (reached : Reached control client) (unfinished : client.result = none) :
    Waiting control client := by
  refine reached.invariant
    (fun client => client.result = none → Waiting control client)
    ?_ ?_ unfinished
  · rintro - ⟨incoming, now, size, rfl⟩ -
    exact primaryLoop_waiting control now positive size
  · intro before event after waiting _ turns still
    by_cases unfinished : before.result = none
    · obtain ⟨next, same, ⟨waits, -⟩ | ⟨ended, -⟩⟩ :=
        (waiting unfinished).turn_cases event
      · rw [same, Option.some.injEq] at turns
        rwa [turns] at waits
      · rw [same, Option.some.injEq] at turns
        have ends := ended.ends
        rw [turns, still] at ends
        simp at ends
    · rw [turn, if_pos (Option.isSome_iff_ne_none.2 unfinished)] at turns
      simp at turns

theorem ntpcResult_eq_zero_iff (result : Option Int) :
    result.map ntpcResult = some 0 ↔ result = some 1 := by
  cases result with
  | none => simp
  | some code =>
    simp only [Option.map_some, Option.some.injEq, ntpcResult]
    split_ifs <;> simp_all

theorem ntpcResult_eq_neg_one_iff (result : Option Int) :
    result.map ntpcResult = some (-1) ↔ result = some (-2) := by
  cases result with
  | none => simp
  | some code =>
    simp only [Option.map_some, Option.some.injEq, ntpcResult]
    split_ifs <;> simp_all

/-- Whatever comes in, the clock is set once and last of all, to the time in a
reply to the last request that passes the checks.  The checks of a short packet
read what an earlier one left behind. -/
theorem Reached.sets_clock (checks : control.crossCheck = true)
    (unsynced : control.syncStatus = false)
    (positive : 0 < control.probeCount) (reached : Reached control client)
    (turns : turn client event = some after) :
    after.clock = [] ∧ after.result.map ntpcResult ≠ some 0 ∨
      ∃ bytes packet request, event = .datagram bytes ntpPort true ∧
        0 < bytes.length ∧ bytes.length < sizeofIncoming ∧
        client.sent.getLast? = some request ∧ Authentic packet request ∧
        after.clock = [setting packet.xmttime] ∧
        after.result.map ntpcResult = some 0 ∧
        (48 ≤ bytes.length → packet = readPacket bytes) := by
  have unfinished : client.result = none := by
    by_contra finished
    rw [turn, if_pos (Option.isSome_iff_ne_none.2 finished)] at turns
    simp at turns
  have waiting := reached.waiting positive unfinished
  rw [waiting.turn_eq, Option.some.injEq] at turns
  have outcome := waiting.wait.selected_clock unsynced event
  rw [turns, Ne, ← ntpcResult_eq_zero_iff] at outcome
  obtain nothing | ⟨bytes, packet, datagram, same, set⟩ := outcome
  · exact .inl nothing
  · exact .inr ⟨bytes, packet, client.control.timeOfSend, datagram,
      set.nonempty, set.short, waiting.requested,
      set.authentic (same.trans checks), set.clock,
      (ntpcResult_eq_zero_iff _).2 set.result, set.whole⟩

/-- A reply of a server that does not answer yet. -/
def kissOfDeath : List UInt8 :=
  [36, 0, 0, 0] ++ List.replicate 20 0 ++ [131, 170, 126, 128, 0, 0, 0, 0] ++
    List.replicate 8 0 ++ [232, 0, 0, 0, 128, 0, 0, 0]

/-- The second packet, two bytes long, gets the first one believed. -/
theorem sets_clock_kissOfDeath : ∃ (client : Client) (packet : Packet)
    (request : NtpTime), client.sent.getLast? = some request ∧
      Authentic packet request ∧ client.clock = [setting packet.xmttime] ∧
        client.clock = [⟨1683325312, 500000000⟩] := by
  let first := primaryLoop Ntpc.control (List.replicate 1300 0) ⟨0, 0⟩
  have cut : ((run turn first
      [.datagram kissOfDeath 123 true]).any fun client =>
      (turn client (.datagram [36, 1] 123 true)).any fun after =>
        after.sent = client.sent ∧
          after.clock = [⟨1683325312, 500000000⟩]) = true := by
    decide +kernel
  obtain ⟨client, runs, rest⟩ := (Option.any_eq_true _ _).1 cut
  obtain ⟨after, turns, checked⟩ := (Option.any_eq_true _ _).1 rest
  obtain ⟨sent, clock⟩ := of_decide_eq_true checked
  have starts : Reached Ntpc.control first :=
    .start ⟨_, _, List.length_replicate, rfl⟩
  have reached : Reached Ntpc.control client :=
    starts.append_run (stepsMeet_true ..) runs
  obtain ⟨unset, -⟩ | ⟨-, packet, request, -, -, -, requested, authentic, set,
    -⟩ := reached.sets_clock rfl rfl (by decide) turns
  · rw [clock] at unset
    simp at unset
  · exact ⟨after, packet, request, sent ▸ requested, authentic, set, clock⟩

/-- Only timeouts make the client ask again, at most `probeCount` times in all.
The client reports a timeout when the last request is not answered in time or
`select` fails, and in no other case. -/
theorem primaryLoop_timeouts {incoming : List UInt8} {now : Timespec}
    {events : List Event} (positive : 0 < control.probeCount)
    (size : incoming.length = sizeofIncoming)
    (runs : run turn (primaryLoop control incoming now) events =
      some client) :
    events.countP Event.isTimeout ≤ control.probeCount ∧
      client.sent.length =
        min (events.countP Event.isTimeout + 1) control.probeCount ∧
      (client.result.map ntpcResult = some (-1) ↔
        events.countP Event.isTimeout = control.probeCount ∨
          .selectError ∈ events) ∧
      ∀ wait ∈ client.waits, wait ≤ max control.cycleTime 60 := by
  have waiting := primaryLoop_waiting control now positive size
  have first : (primaryLoop control incoming now).probesSent = 1 := rfl
  obtain ⟨bound, requests, result, waits⟩ := waiting.run runs
  rw [first] at bound requests result
  refine ⟨by omega, by omega, ?_, waits⟩
  rw [ntpcResult_eq_neg_one_iff, result]
  apply or_congr_left
  omega

/-- A packet from elsewhere between the timeouts. -/
theorem primaryLoop_timeouts_foreign : ∃ client : Client,
    client.result.map ntpcResult = some (-1) ∧ client.sent.length = 3 ∧
      client.waits = [15, 30, 15, 45] := by
  have cut : ((run turn
      (primaryLoop Ntpc.control (List.replicate 1300 0) ⟨0, 0⟩)
      [.timeout ⟨15, 0⟩, .datagram kissOfDeath 124 true, .timeout ⟨40, 0⟩,
        .timeout ⟨85, 0⟩]).any fun client =>
      client.waits = [15, 30, 15, 45]) = true := by
    decide +kernel
  obtain ⟨client, runs, checked⟩ := (Option.any_eq_true _ _).1 cut
  obtain ⟨-, requests, result, -⟩ :=
    primaryLoop_timeouts (by decide) List.length_replicate runs
  exact ⟨client, result.2 (.inl (by decide)), requests,
    of_decide_eq_true checked⟩

end Runs

end Ntpc

end MbedtlsKcp
