import MbedtlsKcp.RingBufIntegrity

/-!
# The readers of a media channel

`RING_BUF_GetOnePacket` reads the slot that the caller names and gives back the
number of the next one.  The writer does not know its readers, so a slot may
have left the live window when it is read; the reader only notices where the
slot is not one of an audio frame and its bytes no longer begin with a start
code.
-/

namespace MbedtlsKcp

namespace RingBufChannel

open CyclicWindows FallibleSteps TransitionRuns

def RINGBUF_FRAME_TYPE_AUDIO_AAC : Int := 3
def RINGBUF_FRAME_TYPE_AUDIO_G711A : Int := 4
def RINGBUF_FRAME_TYPE_AUDIO_PCM : Int := 5

/-- What a read stores through its pointers; the data is given by its place in
the byte buffer. -/
structure Packet where
  pDataBuf : Nat
  pFrameType : Int
  TimeStamp : UInt64
  wTimeStamp : UInt64
  frameIndex : UInt32

/-- The result of a read, with `*StartReadIndex` afterwards. -/
structure PacketAnswer where
  nLen : Int
  startReadIndex : Nat
  packet : Option Packet

/-- The frame of a slot passes the check of the reader: it is an audio frame,
or its bytes begin with a start code. -/
def passesCheck (ring : RingBuf) (uiReadIndex : Nat) : Prop :=
  let frame := ring.index uiReadIndex
  (frame.frameType = RINGBUF_FRAME_TYPE_AUDIO_AAC ∨
    frame.frameType = RINGBUF_FRAME_TYPE_AUDIO_G711A ∨
    frame.frameType = RINGBUF_FRAME_TYPE_AUDIO_PCM) ∨
  (ring.pRingBuf frame.offset = 0 ∧ ring.pRingBuf (frame.offset + 1) = 0 ∧
    ring.pRingBuf (frame.offset + 2) = 0 ∧
    ring.pRingBuf (frame.offset + 3) = 1)

instance (ring : RingBuf) (uiReadIndex : Nat) :
    Decidable (passesCheck ring uiReadIndex) :=
  inferInstanceAs (Decidable (_ ∨ _))

/-- The second half of `RING_BUF_GetOnePacket`: give the frame of the slot
unless nothing was filled in yet. -/
def givePacket (ring : RingBuf) (uiReadIndex : Nat) : PacketAnswer :=
  if ring.uiCurIndex ≠ uiReadIndex then
    let frame := ring.index uiReadIndex
    { nLen := frame.len
      startReadIndex := ringBufGetNextIndex uiReadIndex
      packet :=
        if frame.len ≠ 0 then
          some
            { pDataBuf := frame.offset
              pFrameType := frame.frameType
              TimeStamp := frame.pts
              wTimeStamp := frame.wTime
              frameIndex := frame.frameIndex }
        else none }
  else
    ⟨-1, uiReadIndex, none⟩

/-- `RING_BUF_GetOnePacket`; `hasDataBuf` says that `pDataBuf` is not null. -/
def ringBufGetOnePacket (ring : RingBuf) (hasDataBuf : Bool)
    (startReadIndex : Nat) : PacketAnswer :=
  if hasDataBuf = false ∨ MAX_INDEX ≤ startReadIndex then
    ⟨-1, if MAX_INDEX ≤ startReadIndex then ring.uinewIFrameIndex
      else startReadIndex, none⟩
  else if ring.nIsInit = false then
    ⟨-1, startReadIndex, none⟩
  else if ring.uiCurIndex ≠ startReadIndex ∧
      ¬ passesCheck ring startReadIndex then
    givePacket ring ring.uinewIFrameIndex
  else
    givePacket ring startReadIndex

/-- A channel with one reader. -/
structure Session where
  channel : Channel
  startReadIndex : Nat

/-- The calls of the writer and of the reader. -/
inductive Event
  | fillBuf (call : FillCall)
  | getOnePacket

/-- A reader that starts at a slot of a new channel. -/
def sessionInit (nChannel : Fin MAX_CHANNEL_NUM) (malloced : Nat → UInt8)
    (startReadIndex : Nat) : Session :=
  ⟨channelInit nChannel malloced, startReadIndex⟩

/-- A read at the reader's index. -/
def Session.answer (s : Session) : PacketAnswer :=
  ringBufGetOnePacket s.channel.ring true s.startReadIndex

/-- One call; the reader feeds `*StartReadIndex` back. -/
def Session.next (nChannel : Fin MAX_CHANNEL_NUM) (s : Session) :
    Event → Option Session
  | .fillBuf call =>
      (fillStep nChannel s.channel call).map fun channel =>
        ⟨channel, s.startReadIndex⟩
  | .getOnePacket => some ⟨s.channel, s.answer.startReadIndex⟩

/-- The packet is the frame that `call` stored in slot `i` of the live
window. -/
structure LivePacket (channel : Channel) (answer : PacketAnswer) (i : Nat)
    (call : FillCall) (packet : Packet) : Prop where
  live : i ∈ liveWindow channel.ring
  filled : channel.filledBy i = some call
  read : answer.startReadIndex = ringBufGetNextIndex i
  given : answer.packet = some packet
  len : answer.nLen = call.uiDataLen
  bytes : ∀ k < call.uiDataLen,
    channel.ring.pRingBuf (packet.pDataBuf + k) = call.pData k
  frameType : packet.pFrameType = call.frameType
  pts : packet.TimeStamp = call.pts
  wTime : packet.wTimeStamp = call.wTime
  frameIndex : packet.frameIndex = call.frameIndex

/-- A read that returns a positive length gives a live frame. -/
def ReturnsLive (s : Session) : Event → Prop
  | .fillBuf _ => True
  | .getOnePacket => 0 < s.answer.nLen →
      ∃ i call packet, LivePacket s.channel s.answer i call packet

/-- The slot gives nothing or is in the live window. -/
def Readable (ring : RingBuf) (i : Nat) : Prop :=
  i = ring.uiCurIndex ∨ (ring.index i).len = 0 ∨ i ∈ liveWindow ring

instance (ring : RingBuf) (i : Nat) : Decidable (Readable ring i) :=
  inferInstanceAs (Decidable (_ ∨ _))

/-- The writer has not lapped the reader: the slot at the reader's index is
readable, or it fails the check and the slot of the newest I frame is. -/
def KeepsUp (s : Session) : Event → Prop
  | .fillBuf _ => True
  | .getOnePacket =>
      s.startReadIndex < MAX_INDEX →
        s.startReadIndex ≠ s.channel.ring.uiCurIndex →
          if passesCheck s.channel.ring s.startReadIndex then
            Readable s.channel.ring s.startReadIndex
          else Readable s.channel.ring s.channel.ring.uinewIFrameIndex

instance (s : Session) : (event : Event) → Decidable (KeepsUp s event)
  | .fillBuf _ => isTrue trivial
  | .getOnePacket => inferInstanceAs (Decidable (_ → _ → ite _ _ _))

/-- The fills evict enough, see `EvictionSuffices`. -/
def FillsSuffice (nChannel : Fin MAX_CHANNEL_NUM) (s : Session) :
    Event → Prop
  | .fillBuf call => EvictionSuffices nChannel s.channel call
  | .getOnePacket => True

instance (nChannel : Fin MAX_CHANNEL_NUM) (s : Session) :
    (event : Event) → Decidable (FillsSuffice nChannel s event)
  | .fillBuf call =>
      inferInstanceAs (Decidable (EvictionSuffices nChannel s.channel call))
  | .getOnePacket => isTrue trivial

section Reads

variable {nChannel : Fin MAX_CHANNEL_NUM} {channel : Channel}

/-- The frame of a slot is given as a live one exactly if the slot is
readable. -/
theorem givePacket_live_iff {i : Nat} (inv : ChannelInv nChannel channel)
    (inside : i < MAX_INDEX) :
    (0 < (givePacket channel.ring i).nLen → ∃ j call packet,
        LivePacket channel (givePacket channel.ring i) j call packet) ↔
      Readable channel.ring i := by
  unfold givePacket
  by_cases current : channel.ring.uiCurIndex = i
  · rw [if_neg (not_not_intro current)]
    refine iff_of_true ?_ (.inl current.symm)
    intro positive
    exact absurd positive (by decide : ¬ (0 : Int) < -1)
  rw [if_pos current]
  by_cases empty : (channel.ring.index i).len = 0
  · refine iff_of_true ?_ (.inr (.inl empty))
    intro positive
    simp only [empty] at positive
    exact absurd positive (by decide)
  have readable : Readable channel.ring i ↔ i ∈ liveWindow channel.ring := by
    rw [Readable, or_iff_right (Ne.symm current), or_iff_right empty]
  rw [readable]
  constructor
  · intro returns
    obtain ⟨j, call, packet, isLive⟩ :=
      returns (Int.natCast_pos.mpr (Nat.pos_of_ne_zero empty))
    have bounded := mem_window_lt inv.laps.oldestBounded isLive.live
    have same : i = j := eq_of_next_eq inside bounded isLive.read
    exact same ▸ isLive.live
  · intro live _
    obtain ⟨call, stored⟩ := inv.laps.intact i live
    refine ⟨i, call, _, live, stored.filled, rfl, if_pos empty, ?_,
      stored.bytes, stored.frameType, stored.pts, stored.wTime,
      stored.frameIndex⟩
    exact congrArg Nat.cast stored.len

/-- A read gives a live frame exactly if the reader keeps up. -/
theorem returnsLive_iff {s : Session} (inv : ChannelInv nChannel s.channel)
    (newest : s.channel.ring.uinewIFrameIndex < MAX_INDEX) (event : Event) :
    ReturnsLive s event ↔ KeepsUp s event := by
  cases event with
  | fillBuf call => exact Iff.rfl
  | getOnePacket =>
      have init : ¬ s.channel.ring.nIsInit = false := by
        rw [inv.laps.init]
        decide
      by_cases outside : MAX_INDEX ≤ s.startReadIndex
      · have nothing : ¬ 0 < s.answer.nLen := by
          rw [Session.answer, ringBufGetOnePacket, if_pos (.inr outside)]
          exact (by decide : ¬ (0 : Int) < -1)
        exact iff_of_true (fun positive => absurd positive nothing)
          fun inside => absurd inside (Nat.not_lt_of_le outside)
      have inside := Nat.lt_of_not_le outside
      have given : s.answer =
          if s.channel.ring.uiCurIndex ≠ s.startReadIndex ∧
              ¬ passesCheck s.channel.ring s.startReadIndex then
            givePacket s.channel.ring s.channel.ring.uinewIFrameIndex
          else givePacket s.channel.ring s.startReadIndex := by
        rw [Session.answer, ringBufGetOnePacket,
          if_neg (by simp [outside]), if_neg init]
      rw [ReturnsLive, KeepsUp, given]
      by_cases current : s.startReadIndex = s.channel.ring.uiCurIndex
      · rw [if_neg fun both => both.1 current.symm,
          givePacket_live_iff inv inside]
        exact iff_of_true (.inl current) fun _ apart => absurd current apart
      have apart : s.channel.ring.uiCurIndex ≠ s.startReadIndex :=
        Ne.symm current
      simp only [inside, Ne, current, not_false_iff, true_imp_iff]
      by_cases passes : passesCheck s.channel.ring s.startReadIndex
      · rw [if_neg fun both => both.2 passes, if_pos passes,
          givePacket_live_iff inv inside]
      · rw [if_pos ⟨apart, passes⟩, if_neg passes,
          givePacket_live_iff inv newest]

/-- What is kept of a channel while its reader reads. -/
structure SessionInv (nChannel : Fin MAX_CHANNEL_NUM) (s : Session) :
    Prop where
  channel : ChannelInv nChannel s.channel
  newest : s.channel.ring.uinewIFrameIndex < MAX_INDEX

/-- What covering old frames changes: a restart goes back to the first byte,
and either way only the oldest frame moves on. -/
theorem coverData_eq_ok {before ring : RingBuf} {uiDataLen freed : Nat}
    (covers : coverData nChannel before uiDataLen = .ok (ring, freed)) :
    ∃ oldest,
      (evictFromHead before.index uiDataLen (evictionRounds uiDataLen) 0
          before.uiHeadIndex = .ok (freed, oldest) ∧
        ring = { before with
          uiCurPos := 0
          uiOldestIndex := oldest
          uiHeadIndex := before.uiCurIndex }) ∨
      (uiDataLen ≤ channelLen nChannel - before.uiCurPos ∧
        evictOldest before.index uiDataLen
          (before.uiMaxLen - before.uiCurPos) (evictionRounds uiDataLen)
          before.uiLeftLen before.uiOldestIndex = .ok (freed, oldest) ∧
        ring = { before with uiOldestIndex := oldest }) := by
  unfold coverData at covers
  split at covers
  · obtain ⟨⟨left, oldest⟩, evicts, rest⟩ := bind_eq_ok_iff.mp covers
    obtain ⟨rfl, rfl⟩ := Prod.mk.inj (pure_eq_ok_iff.mp rest)
    exact ⟨oldest, .inl ⟨evicts, rfl⟩⟩
  · rename_i fits
    obtain ⟨⟨left, oldest⟩, evicts, rest⟩ := bind_eq_ok_iff.mp covers
    obtain ⟨rfl, rfl⟩ := Prod.mk.inj (pure_eq_ok_iff.mp rest)
    exact ⟨oldest, .inr ⟨Nat.not_lt.mp fits, evicts, rfl⟩⟩

/-- Room is made by covering old frames, or it is there. -/
theorem makeRoom_eq_ok {before ring : RingBuf} {uiDataLen freed : Nat}
    (makes : makeRoom nChannel before uiDataLen = .ok (ring, freed)) :
    (∃ full, coverData nChannel { before with nIsFull := full } uiDataLen =
      .ok (ring, freed)) ∨
      (uiDataLen ≤ channelLen nChannel - before.uiCurPos ∧
        ring = before) := by
  unfold makeRoom at makes
  split at makes
  · exact .inl ⟨before.nIsFull, makes⟩
  · split at makes
    · exact .inl ⟨true, makes⟩
    · rename_i fits
      obtain ⟨rfl, _⟩ := Prod.mk.inj (Except.ok.inj makes)
      exact .inr ⟨Nat.not_lt.mp fits, rfl⟩

theorem makeRoom_indexes {before ring : RingBuf} {uiDataLen freed : Nat}
    (makes : makeRoom nChannel before uiDataLen = .ok (ring, freed)) :
    ring.uiCurIndex = before.uiCurIndex ∧
      ring.uinewIFrameIndex = before.uinewIFrameIndex := by
  obtain ⟨full, covers⟩ | ⟨_, rfl⟩ := makeRoom_eq_ok makes
  · obtain ⟨oldest, ⟨_, rfl⟩ | ⟨_, _, rfl⟩⟩ := coverData_eq_ok covers
    · exact ⟨rfl, rfl⟩
    · exact ⟨rfl, rfl⟩
  · exact ⟨rfl, rfl⟩

/-- A fill that returns stays inside the buffer. -/
theorem fillStep_some {call : FillCall} {after : Channel}
    (inv : ChannelInv nChannel channel)
    (steps : fillStep nChannel channel call = some after) :
    call.uiDataLen ≤ channelLen nChannel ∧
      (after.ring.uinewIFrameIndex = channel.ring.uinewIFrameIndex ∨
        after.ring.uinewIFrameIndex = channel.ring.uiCurIndex) := by
  unfold fillStep at steps
  split at steps
  swap
  · cases steps
  rename_i ring code fills
  obtain rfl := Option.some.inj steps
  rw [ringBufFillBuf, if_pos inv.laps.init] at fills
  obtain ⟨⟨middle, freed⟩, makes, rest⟩ := bind_eq_ok_iff.mp fills
  obtain ⟨current, newest⟩ := makeRoom_indexes makes
  dsimp only at rest
  split at rest
  swap
  · cases rest
  rename_i fits
  obtain ⟨rfl, _⟩ := Prod.mk.inj (pure_eq_ok_iff.mp rest)
  refine ⟨Nat.le_trans (Nat.le_add_left _ _) fits, ?_⟩
  rw [← current, ← newest]
  change (if _ then _ else _) = _ ∨ (if _ then _ else _) = _
  split
  · exact .inr rfl
  · exact .inl rfl

theorem SessionInv.next {s after : Session} {event : Event}
    (inv : SessionInv nChannel s) (suffices_ : FillsSuffice nChannel s event)
    (steps : s.next nChannel event = some after) :
    SessionInv nChannel after := by
  cases event with
  | getOnePacket =>
      obtain rfl := Option.some.inj steps
      exact ⟨inv.channel, inv.newest⟩
  | fillBuf call =>
      obtain ⟨channel, fills, rfl⟩ := Option.map_eq_some_iff.mp steps
      obtain ⟨wanted, newest⟩ := fillStep_some inv.channel fills
      obtain ⟨channel', fills', kept⟩ :=
        fillStep_inv inv.channel wanted suffices_
      obtain rfl := Option.some.inj (fills.symm.trans fills')
      refine ⟨kept, ?_⟩
      rcases newest with same | same
      · exact same ▸ inv.newest
      · exact same ▸ inv.channel.laps.curBounded

/-- While every fill evicts enough, all reads of a run give live frames exactly
if the reader keeps up at each of them. -/
theorem returnsLive_iff_keepsUp (nChannel : Fin MAX_CHANNEL_NUM)
    (malloced : Nat → UInt8) (startReadIndex : Nat) (events : List Event)
    (fills : StepsMeet (Session.next nChannel) (FillsSuffice nChannel)
      (sessionInit nChannel malloced startReadIndex) events) :
    StepsMeet (Session.next nChannel) ReturnsLive
        (sessionInit nChannel malloced startReadIndex) events ↔
      StepsMeet (Session.next nChannel) KeepsUp
        (sessionInit nChannel malloced startReadIndex) events := by
  have starts : SessionInv nChannel
      (sessionInit nChannel malloced startReadIndex) :=
    ⟨channelInv_init nChannel malloced, (by decide : 0 < MAX_INDEX)⟩
  have keeps : ∀ before event after, SessionInv nChannel before →
      FillsSuffice nChannel before event →
        before.next nChannel event = some after → SessionInv nChannel after :=
    fun _ _ _ inv meets steps => inv.next meets steps
  have states := statesMeet_of_stepsMeet keeps starts fills
  have same : ∀ s event, SessionInv nChannel s →
      (ReturnsLive s event ↔ KeepsUp s event) :=
    fun s event inv => returnsLive_iff inv.channel inv.newest event
  constructor
  · intro live
    exact states.steps (fun s event inv => (same s event inv).mp) live
  · intro keepsUp
    exact states.steps (fun s event inv => (same s event inv).mpr) keepsUp

/-- A call that stores an audio frame of one value. -/
def audioFill (uiDataLen : Nat) (value : UInt8) : FillCall :=
  ⟨RINGBUF_FRAME_TYPE_AUDIO_PCM, 0, 0, uiDataLen, fun _ => value, 0⟩

/-- A reader that follows the writer. -/
theorem returnsLive_following :
    StepsMeet (Session.next subChannel) ReturnsLive
      (sessionInit subChannel (fun _ => 0) 0)
      [.fillBuf (audioFill 1000 1), .getOnePacket,
        .fillBuf (audioFill 2000 2), .getOnePacket] :=
  (returnsLive_iff_keepsUp subChannel _ 0 _ (by decide +kernel)).mpr
    (by decide +kernel)

/-- An audio frame that was evicted and overwritten is still given. -/
theorem not_forall_returnsLive :
    ¬ ∀ (nChannel : Fin MAX_CHANNEL_NUM) (malloced : Nat → UInt8)
      (startReadIndex : Nat) (events : List Event),
      startReadIndex < MAX_INDEX →
      (∀ call, .fillBuf call ∈ events →
        0 < call.uiDataLen ∧ call.uiDataLen ≤ channelLen nChannel) →
      StepsMeet (Session.next nChannel) ReturnsLive
        (sessionInit nChannel malloced startReadIndex) events := by
  intro claimed
  have ends : ((run (Session.next subChannel)
      (sessionInit subChannel (fun _ => 0) 0)
      [.fillBuf (audioFill 200000 1), .fillBuf (audioFill 100000 2)]).map
        fun s => (s.answer.nLen, s.answer.startReadIndex,
          liveWindow s.channel.ring)) = some (200000, 1, [1]) := by
    decide +kernel
  obtain ⟨s, runs, facts⟩ := Option.map_eq_some_iff.mp ends
  simp only [Prod.mk.injEq] at facts
  obtain ⟨len, read, window⟩ := facts
  have meets := claimed subChannel (fun _ => 0) 0
    ([.fillBuf (audioFill 200000 1), .fillBuf (audioFill 100000 2)] ++
      [.getOnePacket]) (by decide) (by simp; decide)
  obtain ⟨i, call, packet, isLive⟩ :=
    meets.last runs (by rw [len]; decide)
  have live := isLive.live
  rw [window, List.mem_singleton] at live
  have reads := isLive.read
  rw [read, live] at reads
  exact absurd reads (by decide)

end Reads

end RingBufChannel

end MbedtlsKcp
