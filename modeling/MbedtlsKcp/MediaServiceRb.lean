import MbedtlsKcp.CRingBufFrames

/-!
# The media service on a ring

`media_service_rb_writer_trigger` requests a range, stores a message with its
frame in it and commits; `media_service_rb_reader_proc` requests a frame and
commits it before it returns the pointer to it.  The calls of the users run at
the same time, so a run is a sequence of their sections: the calls of the ring,
which hold its lock, and the copying in between.
-/

namespace MbedtlsKcp

namespace MediaServiceRb

open CRingBuf FallibleSteps TransitionRuns CyclicWindows

/-- `eMsgType`. -/
inductive MsgType
  | MSG_TYPE_VIDEO
  | MSG_TYPE_AUDIO
  | MSG_TYPE_RADAR
  deriving DecidableEq

def VIDEO_FRAME_I_FRAME : Nat := 2

/-- `media_message_t`.  `head` are the bytes of the structure itself; the length
of the whole is an `int`. -/
structure MediaMessage where
  meidaType : MsgType
  frametype : Nat
  wTimestamp : Int
  head : List UInt8
  framedata : List UInt8
  isInt : head.length + framedata.length < 2 ^ 31

namespace MediaMessage

variable (media : MediaMessage)

/-- The bytes that `media_service_rb_writer_trigger` stores. -/
def buffer : List UInt8 :=
  media.head ++ media.framedata

def iskey : Int :=
  match media.meidaType with
  | .MSG_TYPE_VIDEO =>
      if media.frametype = VIDEO_FRAME_I_FRAME then 0 else 1
  | MsgType.MSG_TYPE_AUDIO => 2
  | .MSG_TYPE_RADAR => -1

/-- The frame type that `ringbuffer_writer_data_request` asks for. -/
def type : FRAME_E :=
  if media.iskey = 2 then FRAME_E.CRB_FRAME_AUDIO
  else if media.iskey = 1 then .CRB_FRAME_P_SLICE
  else .CRB_FRAME_I_SLICE

/-- The time that is committed; other messages are not committed. -/
def frameTime : Option Int :=
  match media.meidaType with
  | .MSG_TYPE_VIDEO => some media.wTimestamp
  | MsgType.MSG_TYPE_AUDIO => some 0
  | .MSG_TYPE_RADAR => none

end MediaMessage

/-- What a reader was given: where the frame starts, and its bytes at the time
`media_service_rb_reader_proc` returned. -/
structure Returned where
  data : Nat
  bytes : List UInt8

/-- A ring with the triggers whose request was granted, the readers that are
between the two parts of `media_service_rb_reader_proc`, with `*data` and
`*datalen`, and what the readers were given by their last call. -/
structure MediaService where
  system : System
  writing : Nat → Option MediaMessage
  reading : Nat → Option (Nat × Nat)
  returned : Nat → Option Returned

/-- The sections of the calls. -/
inductive Section
  | writerDataRequest (handle : Nat) (media : MediaMessage)
      (mode : CRB_WRITE_MODE_E)
  | writerCopy (handle : Nat)
  | writerDataCommit (handle : Nat)
  | readerDataRequest (handle : Nat)
  | readerDataCommit (handle : Nat)
  | other (call : Call)

/-- Calls by which users come, go and move, with the reader that makes them. -/
def otherUser : Call → Option (Option Nat)
  | .tick _ => some none
  | .attachReader handle _ _ => some (some handle)
  | .attachWriter handle _ _ => some (some handle)
  | .destroy handle => some (some handle)
  | .discardAllData handle => some (some handle)
  | .indexMoveToSpecifiedTime handle _ _ => some (some handle)
  | .indexMoveToOldest handle => some (some handle)
  | .requestWriteFrame .. => none
  | .fill .. => none
  | .commitWrite .. => none
  | .resetAllUser .. => none
  | .requestReadFrame .. => none
  | .requestReadContinuousFrames .. => none
  | .commitRead .. => none

/-- The `count` bytes from `start` on. -/
def bytesAt (s : System) (start count : Nat) : List UInt8 :=
  (List.range count).map fun k => s.data ((start + k) % s.info.bufSize)

/-- What a successful request stores in `*data` and `*datalen`. -/
def givenFrame : Answer → Option (Nat × Nat)
  | .read answer =>
      match answer with
      | .frame offset length _ =>
          if 0 < length then some (offset, length) else none
      | .frames .. => none
      | .unavailable => none
  | .write _ => none
  | .done => none

/-- Whether a request of a writer was granted. -/
def isGranted : Answer → Bool
  | .write answer =>
      match answer with
      | .granted _ => true
      | .failed => false
      | .again => false
  | .read _ => false
  | .done => false

namespace MediaService

def fresh (bufSize now : Nat) (data : Nat → UInt8) : MediaService :=
  ⟨freshSystem bufSize now data, fun _ => none, fun _ => none, fun _ => none⟩

variable (m : MediaService)

/-- A round of the request of `media_service_rb_writer_trigger`. -/
def writerDataRequest (handle : Nat) (media : MediaMessage)
    (mode : CRB_WRITE_MODE_E) : Option MediaService :=
  (m.system.step (.requestWriteFrame handle media.buffer.length media.type
      mode)).toOption.map fun result =>
    { m with
      system := result.1
      writing := if isGranted result.2 then
          Function.update m.writing handle (some media)
        else m.writing }

/-- The two `memcpy` of `media_service_rb_writer_trigger`. -/
def writerCopy (handle : Nat) : Option MediaService :=
  (m.writing handle).bind fun media =>
    (m.system.next (.fill handle fun k => media.buffer.getD k 0)).map
      fun system => { m with system := system }

/-- The end of `media_service_rb_writer_trigger`. -/
def writerDataCommit (handle : Nat) : Option MediaService :=
  (m.writing handle).bind fun media =>
    (media.frameTime.elim (some m.system) fun frameTime =>
        m.system.next (.commitWrite handle none frameTime)).map
      fun system =>
        { m with
          system := system
          writing := Function.update m.writing handle none }

/-- The first part of `media_service_rb_reader_proc`. -/
def readerDataRequest (handle : Nat) : Option MediaService :=
  (m.system.step (.requestReadFrame handle .CRB_FRAME_ANY)).toOption.map
    fun result =>
      { m with
        system := result.1
        reading := Function.update m.reading handle (givenFrame result.2)
        returned := Function.update m.returned handle none }

/-- The second part, with which the call returns. -/
def readerDataCommit (handle : Nat) : Option MediaService :=
  (m.reading handle).bind fun given =>
    (m.system.next (.commitRead handle none)).map fun system =>
      { m with
        system := system
        reading := Function.update m.reading handle none
        returned := Function.update m.returned handle
          (some ⟨given.1, bytesAt system given.1 given.2⟩) }

/-- Another call of a user. -/
def otherCall (call : Call) : Option MediaService :=
  (otherUser call).bind fun user =>
    (m.system.next call).map fun system =>
      { m with
        system := system
        reading := user.elim m.reading fun handle =>
          Function.update m.reading handle none
        returned := user.elim m.returned fun handle =>
          Function.update m.returned handle none }

def next : Section → Option MediaService
  | .writerDataRequest handle media mode =>
      m.writerDataRequest handle media mode
  | .writerCopy handle => m.writerCopy handle
  | .writerDataCommit handle => m.writerDataCommit handle
  | .readerDataRequest handle => m.readerDataRequest handle
  | .readerDataCommit handle => m.readerDataCommit handle
  | .other call => m.otherCall call

/-- The bytes that a reader was given are unchanged. -/
def Valid : Prop :=
  ∀ handle given, m.returned handle = some given →
    bytesAt m.system given.data given.bytes.length = given.bytes

/-- Where the range of a copy meets one that a reader was given, the copy stores
the same bytes. -/
def Clear : Section → Prop
  | .writerCopy handle => ∀ media ∈ m.writing handle,
      ∀ obj ∈ m.system.writer handle, ∀ reader given,
        m.returned reader = some given → ∀ k (inside : k < given.bytes.length),
          (given.data + k) % m.system.info.bufSize < m.system.info.bufSize →
          m.system.info.bufferLen (m.system.info.writeAddress obj)
              ((given.data + k) % m.system.info.bufSize) <
            obj.m_lastWriteBytes →
          media.buffer.getD
              (m.system.info.bufferLen (m.system.info.writeAddress obj)
                ((given.data + k) % m.system.info.bufSize)) 0 =
            given.bytes.get ⟨k, inside⟩
  | _ => True

section Sections

variable {m} {s t : System}

theorem length_bytesAt (start count : Nat) :
    (bytesAt s start count).length = count := by
  simp [bytesAt]

theorem bytesAt_eq_iff {start : Nat} {bytes : List UInt8} :
    bytesAt s start bytes.length = bytes ↔
      ∀ k (inside : k < bytes.length),
        s.data ((start + k) % s.info.bufSize) = bytes.get ⟨k, inside⟩ := by
  constructor
  · intro same k inside
    have at_k := congrArg (fun list : List UInt8 => list[k]?) same
    simpa [bytesAt, inside] using at_k
  · intro same
    apply List.ext_get (length_bytesAt _ _)
    intro k _ inside
    simpa [bytesAt] using same k inside

theorem bytesAt_congr {start count : Nat} (data : t.data = s.data)
    (bufSize : t.info.bufSize = s.info.bufSize) :
    bytesAt t start count = bytesAt s start count := by
  simp only [bytesAt, data, bufSize]

/-- What a call of the ring that does not copy keeps. -/
theorem keeps_of_next {call : Call} (holds : s.FramesHold)
    (fills : ∀ handle bytes, call ≠ .fill handle bytes)
    (steps : s.next call = some t) :
    t.FramesHold ∧ ∀ start count,
      bytesAt t start count = bytesAt s start count := by
  obtain ⟨answer, returns⟩ := System.next_eq_some_iff.mp steps
  refine ⟨holds.step returns, fun start count => ?_⟩
  exact bytesAt_congr (System.data_step fills returns)
    (System.frameStep holds.proper returns).table.1

theorem Valid.keep {writing : Nat → Option MediaMessage}
    {reading : Nat → Option (Nat × Nat)} (valid : m.Valid)
    (same : ∀ start count,
      bytesAt t start count = bytesAt m.system start count) :
    Valid ⟨t, writing, reading, m.returned⟩ := by
  intro handle given found
  rw [same]
  exact valid handle given found

/-- A reader that calls again gives its frame up. -/
theorem Valid.forget {returned : Nat → Option Returned} {handle : Nat}
    {writing : Nat → Option MediaMessage} {reading : Nat → Option (Nat × Nat)}
    (valid : Valid ⟨s, writing, reading, returned⟩) :
    Valid ⟨s, writing, reading, Function.update returned handle none⟩ := by
  intro other given found
  dsimp only at found
  by_cases same : other = handle
  · rw [same, Function.update_self] at found
    cases found
  · rw [Function.update_of_ne same] at found
    exact valid other given found

theorem Valid.give {returned : Nat → Option Returned}
    {handle start count : Nat} {writing : Nat → Option MediaMessage}
    {reading : Nat → Option (Nat × Nat)}
    (valid : Valid ⟨s, writing, reading, returned⟩) :
    Valid ⟨s, writing, reading, Function.update returned handle
      (some ⟨start, bytesAt s start count⟩)⟩ := by
  intro other given found
  dsimp only at found ⊢
  by_cases same : other = handle
  · rw [same, Function.update_self] at found
    obtain rfl := Option.some.inj found
    rw [length_bytesAt]
  · rw [Function.update_of_ne same] at found
    exact valid other given found

theorem writerCopy_eq_some {handle : Nat} {after : MediaService}
    (copies : m.writerCopy handle = some after) :
    ∃ media ∈ m.writing handle,
      m.system.writer handle = none ∧ after = m ∨
        ∃ obj ∈ m.system.writer handle,
          after = { m with
            system := { m.system with
              data := m.system.fillRange obj fun k =>
                media.buffer.getD k 0 } } := by
  obtain ⟨media, isWriting, rest⟩ := Option.bind_eq_some_iff.mp copies
  obtain ⟨system, fills, rfl⟩ := Option.map_eq_some_iff.mp rest
  obtain ⟨answer, returns⟩ := System.next_eq_some_iff.mp fills
  refine ⟨media, isWriting, ?_⟩
  rw [System.step] at returns
  cases found : m.system.writer handle with
  | none =>
      rw [found] at returns
      cases returns
      exact .inl ⟨rfl, rfl⟩
  | some obj =>
      rw [found] at returns
      cases returns
      exact .inr ⟨obj, rfl, rfl⟩

/-- A copy is never stuck. -/
theorem writing_eq_none_of_stuck {handle : Nat}
    (stuck : m.writerCopy handle = none) : m.writing handle = none := by
  cases isWriting : m.writing handle with
  | none => rfl
  | some media =>
      rw [writerCopy, isWriting] at stuck
      cases found : m.system.writer handle with
      | none => simp [System.next, System.step, found, Except.toOption] at stuck
      | some obj => simp [System.next, System.step, found, Except.toOption] at stuck

/-- A copy leaves the frames of the readers unchanged exactly if it is clear of
them. -/
theorem valid_copy_iff {handle : Nat} {after : MediaService}
    (valid : m.Valid) (copies : m.writerCopy handle = some after) :
    after.Valid ↔ m.Clear (.writerCopy handle) := by
  obtain ⟨media, isWriting, ⟨absent, rfl⟩ | ⟨obj, found, rfl⟩⟩ :=
    writerCopy_eq_some copies
  · refine ⟨fun _ media _ obj found => ?_, fun _ => valid⟩
    rw [absent] at found
    cases found
  · constructor
    · intro after media' isWriting' obj' found' reader given isGiven k inside
        onRing covered
      obtain rfl := Option.some.inj (isWriting.symm.trans isWriting')
      obtain rfl := Option.some.inj (found.symm.trans found')
      have same := bytesAt_eq_iff.mp (after reader given isGiven) k inside
      rw [← same]
      exact (if_pos ⟨onRing, covered⟩).symm
    · intro clear reader given isGiven
      apply bytesAt_eq_iff.mpr
      intro k inside
      by_cases covered : (given.data + k) % m.system.info.bufSize <
            m.system.info.bufSize ∧
          m.system.info.bufferLen (m.system.info.writeAddress obj)
              ((given.data + k) % m.system.info.bufSize) <
            obj.m_lastWriteBytes
      · rw [← clear media isWriting obj found reader given isGiven k inside
          covered.1 covered.2]
        exact if_pos covered
      · rw [← bytesAt_eq_iff.mp (valid reader given isGiven) k inside]
        exact if_neg covered

theorem framesHold_writerCopy {handle : Nat} {after : MediaService}
    (holds : m.system.FramesHold)
    (copies : m.writerCopy handle = some after) :
    after.system.FramesHold := by
  obtain ⟨media, _, ⟨_, rfl⟩ | ⟨obj, _, rfl⟩⟩ := writerCopy_eq_some copies
  · exact holds
  · exact ⟨holds.proper, holds.index⟩

/-- A section that does not copy leaves the frames of the readers unchanged. -/
theorem Valid.step {label : Section} {after : MediaService} (valid : m.Valid)
    (holds : m.system.FramesHold)
    (notCopy : ∀ handle, label ≠ .writerCopy handle)
    (steps : m.next label = some after) :
    after.Valid ∧ after.system.FramesHold := by
  cases label with
  | writerDataRequest handle media mode =>
      obtain ⟨⟨t, answer⟩, returns, rfl⟩ := Option.map_eq_some_iff.mp steps
      obtain ⟨holds', same⟩ := keeps_of_next holds
        (fun _ _ => Call.noConfusion)
        (System.next_eq_some_iff.mpr ⟨answer, toOption_eq_some_iff.mp returns⟩)
      exact ⟨valid.keep same, holds'⟩
  | writerCopy handle => exact absurd rfl (notCopy handle)
  | writerDataCommit handle =>
      obtain ⟨media, _, rest⟩ := Option.bind_eq_some_iff.mp steps
      obtain ⟨t, commits, rfl⟩ := Option.map_eq_some_iff.mp rest
      cases committed : media.frameTime with
      | none =>
          rw [committed] at commits
          obtain rfl : m.system = t := Option.some.inj commits
          exact ⟨valid.keep fun _ _ => rfl, holds⟩
      | some frameTime =>
          rw [committed] at commits
          obtain ⟨holds', same⟩ := keeps_of_next holds
            (fun _ _ => Call.noConfusion) commits
          exact ⟨valid.keep same, holds'⟩
  | readerDataRequest handle =>
      obtain ⟨⟨t, answer⟩, returns, rfl⟩ := Option.map_eq_some_iff.mp steps
      obtain ⟨holds', same⟩ := keeps_of_next holds
        (fun _ _ => Call.noConfusion)
        (System.next_eq_some_iff.mpr ⟨answer, toOption_eq_some_iff.mp returns⟩)
      exact ⟨(valid.keep same).forget, holds'⟩
  | readerDataCommit handle =>
      obtain ⟨given, _, rest⟩ := Option.bind_eq_some_iff.mp steps
      obtain ⟨t, commits, rfl⟩ := Option.map_eq_some_iff.mp rest
      obtain ⟨holds', same⟩ := keeps_of_next holds
        (fun _ _ => Call.noConfusion) commits
      exact ⟨(valid.keep same).give, holds'⟩
  | other call =>
      obtain ⟨user, isOther, rest⟩ := Option.bind_eq_some_iff.mp steps
      obtain ⟨t, calls, rfl⟩ := Option.map_eq_some_iff.mp rest
      have notFill : ∀ handle bytes, call ≠ .fill handle bytes := by
        rintro handle bytes rfl
        cases isOther
      obtain ⟨holds', same⟩ := keeps_of_next holds notFill calls
      refine ⟨?_, holds'⟩
      cases user with
      | none => exact valid.keep same
      | some handle => exact (valid.keep same).forget

/-- Only a copy can fail to be clear. -/
theorem clear_of_notCopy {label : Section}
    (notCopy : ∀ handle, label ≠ .writerCopy handle) : m.Clear label := by
  cases label with
  | writerCopy handle => exact absurd rfl (notCopy handle)
  | writerDataRequest handle media mode => trivial
  | writerDataCommit handle => trivial
  | readerDataRequest handle => trivial
  | readerDataCommit handle => trivial
  | other call => trivial

/-- A copy to a range that does not meet the frames of the readers is clear. -/
theorem clear_of_apart {handle : Nat}
    (apart : ∀ obj ∈ m.system.writer handle, ∀ reader given,
      m.returned reader = some given →
        given.data < m.system.info.bufSize ∧
        obj.m_lastWriteBytes ≤ m.system.info.bufferLen
          (m.system.info.writeAddress obj) given.data ∧
        given.bytes.length ≤ m.system.info.bufferLen given.data
          (m.system.info.writeAddress obj)) :
    m.Clear (.writerCopy handle) := by
  intro media _ obj found reader given isGiven k within onRing covered
  obtain ⟨dataInside, behind, ahead⟩ := apart obj found reader given isGiven
  have start : m.system.info.writeAddress obj < m.system.info.bufSize :=
    Nat.mod_lt _ (by omega)
  exfalso
  rw [RingBufInfo.bufferLen_eq_gap start onRing,
    gap_advance_last start dataInside (by
      have := gap_lt dataInside start
      rw [RingBufInfo.bufferLen_eq_gap dataInside start] at ahead
      omega)] at covered
  rw [RingBufInfo.bufferLen_eq_gap start dataInside] at behind
  rw [RingBufInfo.bufferLen_eq_gap dataInside start] at ahead
  by_cases same : m.system.info.writeAddress obj = given.data
  · rw [same, gap_self] at ahead
    omega
  · have round := gap_add_gap start dataInside same
    rw [Nat.mod_eq_of_lt (by omega)] at covered
    omega

end Sections

end MediaService

/-- The sections of a call of `media_service_rb_writer_trigger` whose request is
granted at once. -/
def mediaServiceRbWriterTrigger (handle : Nat) (media : MediaMessage)
    (mode : CRB_WRITE_MODE_E) : List Section :=
  [.writerDataRequest handle media mode, .writerCopy handle,
    .writerDataCommit handle]

/-- The sections of a call of `media_service_rb_reader_proc` that finds a
frame. -/
def mediaServiceRbReaderProc (handle : Nat) : List Section :=
  [.readerDataRequest handle, .readerDataCommit handle]

/-- A P frame of 1431 bytes behind a message of 69 bytes. -/
def videoFrame (byte : UInt8) : MediaMessage where
  meidaType := .MSG_TYPE_VIDEO
  frametype := 3
  wTimestamp := 1
  head := List.replicate 69 byte
  framedata := List.replicate 1431 byte
  isInt := by
    rw [List.length_replicate, List.length_replicate]
    decide

/-- The reader still has the pointer to the first frame when the third frame
reaches the end of the ring. -/
def wrappedWriter : List Section :=
  [.other (.attachWriter 0 [0x57] false),
      .other (.attachReader 1 [0x61] false)] ++
    mediaServiceRbWriterTrigger 0 (videoFrame 1) .CRB_WRITE_MODE_NON_BLOCK ++
    mediaServiceRbReaderProc 1 ++
    mediaServiceRbWriterTrigger 0 (videoFrame 2) .CRB_WRITE_MODE_NON_BLOCK ++
    mediaServiceRbWriterTrigger 0 (videoFrame 3) .CRB_WRITE_MODE_NON_BLOCK

end MediaServiceRb

end MbedtlsKcp
