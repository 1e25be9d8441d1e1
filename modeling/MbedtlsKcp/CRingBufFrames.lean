import MbedtlsKcp.CRingBufSystem

/-!
# The writer's view of a ring

The frame table, the position of the productor and the two flags of the header
are only changed by the writers' calls.  `FrameStep` says what every call of a
run does to them and to the writers; what is proved of all runs is derived from
it.
-/

namespace MbedtlsKcp

namespace CRingBuf

open FallibleSteps TransitionRuns

theorem frameNum_pos : 0 < MAX_FRAME_NUM := by decide

/-- The part of the header that the writers' calls change. -/
structure Frames where
  bufSize : Nat
  dataWriten : Bool
  jumpOverHole : Bool
  offset : Nat
  index : Nat
  frameIdx : Nat → FrameIndex

def RingBufInfo.frames (info : RingBufInfo) : Frames where
  bufSize := info.bufSize
  dataWriten := info.dataWriten
  jumpOverHole := info.jumpOverHole
  offset := info.productorOffset
  index := info.productorIndex
  frameIdx := info.frameIdx

namespace Frames

variable (f : Frames)

/-- The productor jumps over black holes. -/
def skip (holeSkipedBytes : Nat) : Frames :=
  if holeSkipedBytes = 0 then f else
    { f with
      offset := (f.offset + holeSkipedBytes) % f.bufSize
      jumpOverHole := true }

@[simp]
theorem skip_bufSize (holeSkipedBytes : Nat) :
    (f.skip holeSkipedBytes).bufSize = f.bufSize := by
  unfold skip
  split
  · rfl
  · rfl

@[simp]
theorem skip_dataWriten (holeSkipedBytes : Nat) :
    (f.skip holeSkipedBytes).dataWriten = f.dataWriten := by
  unfold skip
  split
  · rfl
  · rfl

@[simp]
theorem skip_index (holeSkipedBytes : Nat) :
    (f.skip holeSkipedBytes).index = f.index := by
  unfold skip
  split
  · rfl
  · rfl

@[simp]
theorem skip_frameIdx (holeSkipedBytes : Nat) :
    (f.skip holeSkipedBytes).frameIdx = f.frameIdx := by
  unfold skip
  split
  · rfl
  · rfl

/-- A commit of 0 bytes. -/
def discard : Frames :=
  { f with jumpOverHole := false }

/-- Where a frame that is committed by `obj` starts. -/
def frameOffset (obj : Object) : Nat :=
  (f.offset + obj.m_lastAlignmentBytes) % f.bufSize

/-- The entry of a frame that is committed. -/
def entry (obj : Object) (commitBytes : Nat) (frameTime : Int) : FrameIndex where
  offset := f.frameOffset obj
  length := commitBytes
  frameType := obj.m_lastWriteFrameType
  continuous := f.dataWriten && !f.jumpOverHole && obj.m_lastAlignmentBytes == 0
  timeStamp := frameTime

/-- A commit of some bytes. -/
def commit (obj : Object) (commitBytes : Nat) (frameTime : Int) : Frames :=
  { f with
    dataWriten := true
    jumpOverHole := false
    offset :=
      (f.offset + commitBytes + obj.m_lastAlignmentBytes) % f.bufSize
    index := advanceIndex f.index 1
    frameIdx := Function.update f.frameIdx f.index
      (f.entry obj commitBytes frameTime) }

/-- A reset of the ring. -/
def reset : Frames :=
  { f with dataWriten := false, offset := 0, index := 0 }

/-- The productor is gone. -/
def clean : Frames :=
  { f with offset := 0, index := 0 }

end Frames

/-- A writer after its request was granted. -/
def Object.granted (obj : Object) (size alignmentBytes : Nat)
    (type : FRAME_E) : Object :=
  { obj with
    m_lastWriteBytes := size
    m_lastAlignmentBytes := alignmentBytes
    m_lastWriteFrameType := type }

/-- A writer after its request was committed or discarded. -/
def Object.released (obj : Object) : Object :=
  { obj with m_lastWriteBytes := 0, m_lastAlignmentBytes := 0 }

namespace RingBufInfo

variable {info after : RingBufInfo}

theorem findOldesValidIndex_lt
    (inside : info.productorIndex < MAX_FRAME_NUM) :
    info.findOldesValidIndex < MAX_FRAME_NUM := by
  unfold findOldesValidIndex
  split
  · exact Nat.mod_lt _ frameNum_pos
  · exact inside

theorem frames_insertBlackHole {now : Nat} {blockerName : UserName}
    {startOffset endOffset : Nat}
    (inserts : info.insertBlackHole now blockerName startOffset endOffset =
      .ok after) : after.frames = info.frames := by
  rcases (insertBlackHole_ok inserts).2 with ⟨_, rfl⟩ | ⟨_, _, rfl⟩
  · rfl
  · rfl

theorem frames_displace {now which slot offset : Nat} {waitIFrame : Bool}
    (displaces : info.displace now which slot offset waitIFrame = .ok after) :
    after.frames = info.frames := by
  obtain ⟨middle, inserts, rest⟩ := bind_eq_ok_iff.mp displaces
  obtain rfl := pure_eq_ok_iff.mp rest
  show middle.frames = _
  split at inserts
  · exact frames_insertBlackHole inserts
  · rw [Except.ok.inj inserts]

theorem frames_moveAllBlockers {now : Nat} {blockers : List Nat}
    (moves : info.moveAllBlockers now blockers = .ok after) :
    after.frames = info.frames :=
  moveAllBlockers_invariant (fun middle => middle.frames = info.frames)
    (fun _ _ _ _ _ kept displaced =>
      (frames_displace displaced).trans kept) rfl moves

theorem frames_skipHoles (holeSkipedBytes : Nat) :
    (info.skipHoles holeSkipedBytes).frames =
      info.frames.skip holeSkipedBytes := by
  unfold skipHoles Frames.skip
  split
  · rfl
  · rfl

theorem frames_resetAllUserNoLock {now : Nat}
    (resets : info.resetAllUserNoLock now = .ok after) :
    after.frames = info.frames.reset := by
  obtain ⟨middle, loop, rest⟩ := bind_eq_ok_iff.mp resets
  have kept : middle.frames = info.frames :=
    foldlM_invariant (fun middle => middle.frames = info.frames)
      (fun before i _ after kept steps =>
        (frames_displace (resetConsumer_eq before now i ▸ steps)).trans kept)
      rfl loop
  obtain rfl := pure_eq_ok_iff.mp rest
  rw [← kept]
  rfl

theorem frames_installWriter {now : Nat} {name : UserName}
    (installs : info.installWriter now name = .ok after) :
    after.frames = info.frames.reset := by
  unfold installWriter at installs
  split at installs
  · exact frames_resetAllUserNoLock installs
  · split at installs
    · cases installs
      rfl
    · cases installs

theorem frames_cleanWhenCrowded :
    info.cleanWhenCrowded.frames = info.frames := by
  unfold cleanWhenCrowded
  split
  · rfl
  · rfl

theorem constructWriter_ok {now : Nat} {name : UserName} {liveStream : Bool}
    {obj : Object}
    (constructs : info.constructWriter now name liveStream =
      .ok (after, obj)) :
    obj = newObject true 0 ∧ after.frames = info.frames.reset := by
  unfold constructWriter at constructs
  split at constructs
  swap
  · cases constructs
  obtain ⟨middle, installs, rest⟩ := bind_eq_ok_iff.mp constructs
  obtain ⟨rfl, rfl⟩ := Prod.mk.inj (pure_eq_ok_iff.mp rest)
  refine ⟨rfl, (frames_installWriter installs).trans ?_⟩
  have kept : ({ info with version := 1 } : RingBufInfo).cleanWhenCrowded.frames
      = info.frames :=
    frames_cleanWhenCrowded
  have keptReset := congrArg Frames.reset kept
  split
  · exact keptReset
  · exact keptReset

theorem frames_constructReader {name : UserName} {dumper : Bool}
    {obj : Object}
    (constructs : info.constructReader name dumper = .ok (after, obj)) :
    after.frames = info.frames := by
  obtain ⟨_, slot, _, installs⟩ := constructReader_ok constructs
  obtain ⟨_, rfl, _⟩ := installReader_ok installs
  exact frames_cleanWhenCrowded

theorem frames_commitFrame {obj : Object} {commitBytes : Nat}
    {frameTime : Int} (proper : obj.m_lastWriteFrameType ≠ .CRB_FRAME_ANY) :
    ({ info.commitFrame obj commitBytes frameTime with
      jumpOverHole := false } : RingBufInfo).frames =
        info.frames.commit obj commitBytes frameTime := by
  simp only [commitFrame, if_neg proper]
  rfl

/-- What a try of `RequestWriteFrame` does. -/
theorem frames_requestWriteTry {now size : Nat} {obj obj' : Object}
    {type : FRAME_E} {mode : CRB_WRITE_MODE_E} {answer : WriteTry}
    (tries : info.requestWriteTry now obj size type mode =
      .ok (after, obj', answer)) :
    (0 < size ∧ type ≠ .CRB_FRAME_ANY) ∧
      (after.frames = info.frames ∧ obj' = obj ∨
        ∃ holeSkipedBytes alignmentBytes,
          after.frames = info.frames.skip holeSkipedBytes ∧
          obj' = obj.granted size alignmentBytes type) := by
  obtain ⟨⟨positive, _, proper⟩, aged, ages, ends⟩ := requestWriteTry_cases tries
  refine ⟨⟨positive, proper⟩, ?_⟩
  rw [deleteAgedBlackHole_eq] at ages
  obtain rfl := Except.ok.inj ages
  have agedFrames : (info.withoutAged now).frames = info.frames := rfl
  rcases ends with ⟨_, _, rfl, rfl, _⟩ | ⟨moved, moves, _, ends⟩
  · exact .inl ⟨agedFrames, rfl⟩
  have movedFrames := (frames_moveAllBlockers moves).trans agedFrames
  rcases ends with ⟨alignmentBytes, offset, requests, rfl, _⟩ |
    ⟨middle, blockers, requests, rfl, ends⟩
  · rcases requestWritePtr_cases requests with
      ⟨_, _, _, isOther⟩ | ⟨jumped, _, _, ⟨_, isGranted⟩ | ⟨_, isGranted⟩⟩
    · cases isOther
    · cases isGranted
      exact .inr ⟨_, _, (frames_skipHoles _).trans (by rw [movedFrames]), rfl⟩
    · cases isGranted
      exact .inr ⟨_, _, (frames_skipHoles _).trans (by rw [movedFrames]), rfl⟩
  · have same : middle = moved := by
      rcases requestWritePtr_cases requests with
        ⟨_, _, _, isMiddle⟩ | ⟨_, _, _, ⟨_, isOther⟩ | ⟨_, isOther⟩⟩
      · cases isMiddle
        rfl
      · cases isOther
      · cases isOther
    rw [same] at ends
    rcases ends with ⟨_, rfl, _⟩ | ⟨_, again, _⟩
    · exact .inl ⟨movedFrames, rfl⟩
    · exact .inl ⟨(frames_moveAllBlockers again).trans movedFrames, rfl⟩

end RingBufInfo

/-- A committed frame, by where it starts and its length, or a new start of the
table. -/
inductive FrameEvent
  | nothing
  | frame (offset length : Nat)
  | restart
  deriving DecidableEq

namespace System

variable (s t : System)

/-- What a call adds to the history of the frames. -/
def event : Call → FrameEvent
  | .attachWriter handle _ _ =>
      if s.linked = true ∧ s.objects handle = none then .restart else .nothing
  | .resetAllUser handle =>
      if s.writer handle = none then .nothing else .restart
  | .commitWrite handle size _ =>
      match s.writer handle with
      | some obj =>
          if 0 < obj.m_lastWriteBytes ∧ 0 < size.getD obj.m_lastWriteBytes then
            .frame (s.info.writeAddress obj) (size.getD obj.m_lastWriteBytes)
          else .nothing
      | none => .nothing
  | _ => .nothing

/-- What a call does to the frames of the ring and to its writers. -/
inductive FrameStep : Call → Prop
  | keeps {call : Call} (quiet : s.event call = .nothing)
      (frames : t.info.frames = s.info.frames)
      (writers : t.writer = s.writer) : FrameStep call
  | granted {handle size : Nat} {type : FRAME_E} {mode : CRB_WRITE_MODE_E}
      (obj : Object) (found : s.writer handle = some obj)
      (holeSkipedBytes alignmentBytes : Nat) (positive : 0 < size)
      (proper : type ≠ .CRB_FRAME_ANY)
      (frames : t.info.frames = s.info.frames.skip holeSkipedBytes)
      (writers : t.writer = Function.update s.writer handle
        (some (obj.granted size alignmentBytes type))) :
      FrameStep (.requestWriteFrame handle size type mode)
  | discarded {handle : Nat} {frameTime : Int}
      (obj : Object) (found : s.writer handle = some obj)
      (pending : 0 < obj.m_lastWriteBytes)
      (frames : t.info.frames = s.info.frames.discard)
      (writers : t.writer =
        Function.update s.writer handle (some obj.released)) :
      FrameStep (.commitWrite handle (some 0) frameTime)
  | committed {handle : Nat} {size : Option Nat} {frameTime : Int}
      (obj : Object) (found : s.writer handle = some obj)
      (positive : 0 < size.getD obj.m_lastWriteBytes)
      (inside : size.getD obj.m_lastWriteBytes ≤ obj.m_lastWriteBytes)
      (frames : t.info.frames = s.info.frames.commit obj
        (size.getD obj.m_lastWriteBytes) frameTime)
      (writers : t.writer =
        Function.update s.writer handle (some obj.released)) :
      FrameStep (.commitWrite handle size frameTime)
  | reset {handle : Nat} (obj : Object) (found : s.writer handle = some obj)
      (frames : t.info.frames = s.info.frames.reset)
      (writers : t.writer = Function.update s.writer handle
        (some { obj with m_lastWriteBytes := 0 })) :
      FrameStep (.resetAllUser handle)
  | attached {handle : Nat} {name : UserName} {liveStream : Bool}
      (attaches : s.linked = true ∧ s.objects handle = none)
      (frames : t.info.frames = s.info.frames.reset)
      (writers : t.writer = Function.update s.writer handle
        (some (newObject true 0))) :
      FrameStep (.attachWriter handle name liveStream)
  | destroyed {handle : Nat} (obj : Object)
      (found : s.writer handle = some obj)
      (frames : t.info.frames = s.info.frames.clean)
      (writers : t.writer = Function.update s.writer handle none) :
      FrameStep (.destroy handle)

variable {s t}

theorem event_discard {handle : Nat} {frameTime : Int} :
    s.event (.commitWrite handle (some 0) frameTime) = .nothing := by
  rw [event]
  split
  · rw [if_neg fun both => Nat.lt_irrefl 0 both.2]
  · rfl

theorem event_commit {handle : Nat} {size : Option Nat} {frameTime : Int}
    {obj : Object} (found : s.writer handle = some obj)
    (positive : 0 < size.getD obj.m_lastWriteBytes)
    (inside : size.getD obj.m_lastWriteBytes ≤ obj.m_lastWriteBytes) :
    s.event (.commitWrite handle size frameTime) =
      .frame (s.info.writeAddress obj) (size.getD obj.m_lastWriteBytes) := by
  simp only [event, found]
  rw [if_pos ⟨Nat.lt_of_lt_of_le positive inside, positive⟩]

theorem event_reset {handle : Nat} {obj : Object}
    (found : s.writer handle = some obj) :
    s.event (.resetAllUser handle) = .restart := by
  simp only [event, found]
  rw [if_neg (Option.some_ne_none obj)]

theorem writer_afterCall {handle : Nat} {info : RingBufInfo} {obj : Object} :
    (s.afterCall handle info obj).writer = Function.update s.writer handle
      (if obj.isProductor then some obj else none) := by
  funext other
  by_cases same : other = handle
  · subst same
    rw [Function.update_self, writer, afterCall_self]
    cases kind : obj.isProductor <;> simp [Option.filter, kind]
  · rw [Function.update_of_ne same, writer, afterCall_of_ne same, writer]

/-- A call of a reader leaves the writers alone. -/
theorem writer_afterCall_of_reader {handle : Nat} {info : RingBufInfo}
    {obj obj' : Object} (found : s.reader handle = some obj)
    (same : obj.SameUser obj') :
    (s.afterCall handle info obj').writer = s.writer := by
  obtain ⟨isObject, reads⟩ := reader_eq_some_iff.mp found
  rw [writer_afterCall, same.1, reads, if_neg Bool.false_ne_true]
  apply Function.update_eq_self_iff.mpr
  rw [writer, isObject]
  simp [Option.filter, reads]

theorem writer_afterCall_of_writer {handle : Nat} {info : RingBufInfo}
    {obj obj' : Object} (found : s.writer handle = some obj)
    (same : obj.SameUser obj') :
    (s.afterCall handle info obj').writer =
      Function.update s.writer handle (some obj') := by
  rw [writer_afterCall, same.1, (writer_eq_some_iff.mp found).2, if_pos rfl]

/-- A call of a reader. -/
theorem FrameStep.of_reader {handle : Nat} {call : Call} {obj obj' : Object}
    {info : RingBufInfo} (quiet : s.event call = .nothing)
    (found : s.reader handle = some obj) (same : obj.SameUser obj')
    (frames : info.frames = s.info.frames) :
    FrameStep s (s.afterCall handle info obj') call :=
  .keeps quiet frames (writer_afterCall_of_reader found same)

theorem frameStep_commitWrite {handle : Nat} {size : Option Nat}
    {frameTime : Int} {answer : Answer}
    (proper : ∀ obj, s.writer handle = some obj →
      obj.m_lastWriteFrameType ≠ .CRB_FRAME_ANY)
    (steps : s.step (.commitWrite handle size frameTime) = .ok (t, answer)) :
    FrameStep s t (.commitWrite handle size frameTime) := by
  rcases plainCall_ok steps with ⟨absent, rfl⟩ |
    ⟨obj, info, obj', found, commits, rfl⟩
  · refine .keeps ?_ rfl rfl
    simp only [event, absent]
  have same := RingBufInfo.sameUser_commitWrite commits
  have writers : (s.afterCall handle info obj').writer =
      Function.update s.writer handle (some obj') :=
    writer_afterCall_of_writer found same
  obtain ⟨inside, ends⟩ := RingBufInfo.commitWrite_cases commits
  rcases ends with ⟨nothing, rfl, rfl⟩ | ⟨pending, rfl, ends⟩
  · refine .keeps ?_ rfl ?_
    · simp only [event, found]
      rw [if_neg (by omega)]
    · rw [writers]
      exact Function.update_eq_self_iff.mpr found.symm
  rcases ends with ⟨empty, rfl⟩ | ⟨positive, rfl⟩
  · obtain rfl : size = some 0 := by
      cases size with
      | none => exact absurd empty (by simpa using pending.ne')
      | some bytes => rw [← empty]; rfl
    exact .discarded obj found pending rfl writers
  · exact .committed obj found positive inside
      (RingBufInfo.frames_commitFrame (proper obj found)) writers

theorem frameStep_destroy (handle : Nat) :
    FrameStep s (s.destroy handle) (.destroy handle) := by
  have writers : (s.destroy handle).writer =
      Function.update s.writer handle none := by
    funext other
    rw [writer, objects_destroy]
    by_cases same : other = handle
    · rw [if_pos same, same, Function.update_self]
      rfl
    · rw [if_neg same, Function.update_of_ne same, writer]
  cases isObject : s.objects handle with
  | none =>
      refine .keeps rfl ?_ ?_
      · rw [destroy_of_none isObject]
      · rw [destroy_of_none isObject]
  | some obj =>
      cases kind : obj.isProductor with
      | true =>
          refine .destroyed obj (writer_eq_some_iff.mpr ⟨isObject, kind⟩) ?_
            writers
          rw [info_destroy isObject,
            RingBufInfo.destroyObject_of_writer _ kind]
          rfl
      | false =>
          refine .keeps rfl ?_ ?_
          · rw [info_destroy isObject,
              RingBufInfo.destroyObject_of_reader _ kind]
            rfl
          · rw [writers]
            apply Function.update_eq_self_iff.mpr
            rw [writer, isObject]
            simp [Option.filter, kind]

/-- Every call is one of these steps. -/
theorem frameStep {call : Call} {answer : Answer}
    (proper : ∀ handle obj, s.writer handle = some obj →
      obj.m_lastWriteFrameType ≠ .CRB_FRAME_ANY)
    (steps : s.step call = .ok (t, answer)) : FrameStep s t call := by
  cases call with
  | tick seconds =>
      cases steps
      exact .keeps rfl rfl rfl
  | fill handle bytes =>
      rw [step] at steps
      split at steps
      · cases steps
        exact .keeps rfl rfl rfl
      · cases steps
        exact .keeps rfl rfl rfl
  | attachReader handle name dumper =>
      rw [step] at steps
      rcases construct_ok steps with ⟨_, rfl⟩ |
        ⟨attaches, info, obj, constructs, rfl⟩
      · exact .keeps rfl rfl rfl
      · refine .keeps rfl (RingBufInfo.frames_constructReader constructs) ?_
        obtain ⟨_, slot, rfl, _⟩ := RingBufInfo.constructReader_ok constructs
        rw [writer_afterCall, newObject, if_neg Bool.false_ne_true]
        apply Function.update_eq_self_iff.mpr
        rw [writer, attaches.2]
        rfl
  | attachWriter handle name liveStream =>
      rw [step] at steps
      rcases construct_ok steps with ⟨stays, rfl⟩ |
        ⟨attaches, info, obj, constructs, rfl⟩
      · exact .keeps (if_neg stays) rfl rfl
      · obtain ⟨rfl, frames⟩ := RingBufInfo.constructWriter_ok constructs
        refine .attached attaches frames ?_
        rw [writer_afterCall]
        rfl
  | destroy handle =>
      cases steps
      exact frameStep_destroy handle
  | requestWriteFrame handle size type mode =>
      rcases requestWriteFrame_ok steps with ⟨_, rfl⟩ |
        ⟨obj, info, obj', given, found, tries, rfl, _⟩
      · exact .keeps rfl rfl rfl
      have writers : (s.afterCall handle info obj').writer =
          Function.update s.writer handle (some obj') :=
        writer_afterCall_of_writer found
          (RingBufInfo.sameUser_requestWriteTry tries)
      obtain ⟨⟨positive, proper⟩, ends⟩ :=
        RingBufInfo.frames_requestWriteTry tries
      rcases ends with ⟨frames, rfl⟩ | ⟨skipped, padding, frames, rfl⟩
      · refine .keeps rfl frames ?_
        rw [writers]
        exact Function.update_eq_self_iff.mpr found.symm
      · exact .granted obj found skipped padding positive proper frames writers
  | commitWrite handle size frameTime =>
      exact frameStep_commitWrite (proper handle) steps
  | resetAllUser handle =>
      rcases plainCall_ok steps with ⟨absent, rfl⟩ |
        ⟨obj, info, obj', found, resets, rfl⟩
      · exact .keeps (if_pos absent) rfl rfl
      · obtain ⟨middle, unlocked, rest⟩ := bind_eq_ok_iff.mp resets
        obtain ⟨rfl, rfl⟩ := Prod.mk.inj (pure_eq_ok_iff.mp rest)
        exact .reset obj found (RingBufInfo.frames_resetAllUserNoLock unlocked)
          (writer_afterCall_of_writer found ⟨rfl, rfl⟩)
  | requestReadFrame handle type =>
      rcases readCall_ok steps with ⟨_, rfl, _⟩ |
        ⟨obj, info, obj', given, found, requests, rfl, _⟩
      · exact .keeps rfl rfl rfl
      · apply FrameStep.of_reader rfl found
          (RingBufInfo.sameUser_requestReadFrame requests)
        rcases RingBufInfo.requestReadFrame_cases requests with
          ⟨rfl, _⟩ | ⟨_, _, _, rfl, _⟩
        · rfl
        · rfl
  | requestReadContinuousFrames handle frameCount =>
      rcases readCall_ok steps with ⟨_, rfl, _⟩ |
        ⟨obj, info, obj', given, found, requests, rfl, _⟩
      · exact .keeps rfl rfl rfl
      · apply FrameStep.of_reader rfl found
          (RingBufInfo.sameUser_requestReadContinuousFrames requests)
        rcases RingBufInfo.requestReadContinuousFrames_cases requests with
          ⟨rfl, _⟩ | ⟨_, _, _, _, _, _, _, rfl, _⟩
        · rfl
        · rfl
  | commitRead handle size =>
      rcases plainCall_ok steps with ⟨_, rfl⟩ |
        ⟨obj, info, obj', found, commits, rfl⟩
      · exact .keeps rfl rfl rfl
      · apply FrameStep.of_reader rfl found
          (RingBufInfo.sameUser_commitRead commits)
        rcases (RingBufInfo.commitRead_cases commits).2 with
          ⟨_, rfl, _⟩ | ⟨_, rfl, _⟩
        · rfl
        · rfl
  | discardAllData handle =>
      rcases plainCall_ok steps with ⟨_, rfl⟩ |
        ⟨obj, info, obj', found, discards, rfl⟩
      · exact .keeps rfl rfl rfl
      · rw [RingBufInfo.discardAllData_eq] at discards
        obtain ⟨rfl, rfl⟩ := Prod.mk.inj (Except.ok.inj discards)
        exact FrameStep.of_reader rfl found ⟨rfl, rfl⟩ rfl
  | indexMoveToSpecifiedTime handle type timeStamp =>
      rcases plainCall_ok steps with ⟨_, rfl⟩ |
        ⟨obj, info, obj', found, moves, rfl⟩
      · exact .keeps rfl rfl rfl
      · obtain ⟨middle, moved, rest⟩ := bind_eq_ok_iff.mp moves
        obtain ⟨rfl, rfl⟩ := Prod.mk.inj (pure_eq_ok_iff.mp rest)
        apply FrameStep.of_reader rfl found ⟨rfl, rfl⟩
        rcases RingBufInfo.indexMoveToSpecifiedTime_cases moved with
          rfl | ⟨slot, moved⟩
        · rfl
        · rw [RingBufInfo.indexMoveTo_eq] at moved
          rw [← Except.ok.inj moved]
          rfl
  | indexMoveToOldest handle =>
      rcases plainCall_ok steps with ⟨_, rfl⟩ |
        ⟨obj, info, obj', found, moves, rfl⟩
      · exact .keeps rfl rfl rfl
      · obtain ⟨middle, moved, rest⟩ := bind_eq_ok_iff.mp moves
        obtain ⟨rfl, rfl⟩ := Prod.mk.inj (pure_eq_ok_iff.mp rest)
        apply FrameStep.of_reader rfl found ⟨rfl, rfl⟩
        rw [RingBufInfo.indexMoveToOldest, RingBufInfo.indexMoveTo_eq] at moved
        rw [← Except.ok.inj moved]
        rfl

/-- The last request of every writer named a type. -/
def WritersProper (s : System) : Prop :=
  ∀ handle obj, s.writer handle = some obj →
    obj.m_lastWriteFrameType ≠ .CRB_FRAME_ANY

theorem WritersProper.update {handle : Nat} {obj : Object}
    (holds : s.WritersProper)
    (writers : t.writer = Function.update s.writer handle (some obj))
    (proper : obj.m_lastWriteFrameType ≠ .CRB_FRAME_ANY) :
    t.WritersProper := by
  intro other obj' found
  rw [writers] at found
  by_cases same : other = handle
  · rw [same, Function.update_self] at found
    exact Option.some.inj found ▸ proper
  · rw [Function.update_of_ne same] at found
    exact holds other obj' found

theorem FrameStep.writersProper {call : Call} (steps : FrameStep s t call)
    (holds : s.WritersProper) : t.WritersProper := by
  cases steps with
  | keeps quiet frames writers =>
      intro handle obj found
      rw [writers] at found
      exact holds handle obj found
  | granted obj found skipped padding positive proper frames writers =>
      exact holds.update writers proper
  | discarded obj found pending frames writers =>
      exact holds.update writers (holds _ obj found)
  | committed obj found positive inside frames writers =>
      exact holds.update writers (holds _ obj found)
  | reset obj found frames writers =>
      exact holds.update writers (holds _ obj found)
  | attached attaches frames writers => exact holds.update writers (by decide)
  | destroyed obj found frames writers =>
      rename_i handle
      intro other obj' isWriter
      rw [writers] at isWriter
      by_cases same : other = handle
      · rw [same, Function.update_self] at isWriter
        cases isWriter
      · rw [Function.update_of_ne same] at isWriter
        exact holds other obj' isWriter

/-- The table only changes where a frame is committed. -/
theorem FrameStep.table {call : Call} (steps : FrameStep s t call) :
    t.info.bufSize = s.info.bufSize ∧
      ((∀ offset length, s.event call ≠ .frame offset length) ∧
          t.info.frameIdx = s.info.frameIdx ∨
        ∃ entry, s.event call = .frame entry.offset entry.length ∧
          entry.offset % s.info.bufSize = entry.offset ∧
          t.info.frameIdx =
            Function.update s.info.frameIdx s.info.productorIndex entry) := by
  cases steps with
  | keeps quiet frames writers =>
      refine ⟨congrArg Frames.bufSize frames,
        .inl ⟨?_, congrArg Frames.frameIdx frames⟩⟩
      rw [quiet]
      exact fun _ _ => FrameEvent.noConfusion
  | granted obj found skipped padding positive proper frames writers =>
      exact ⟨(congrArg Frames.bufSize frames).trans (Frames.skip_bufSize _ _),
        .inl ⟨fun _ _ => FrameEvent.noConfusion,
          (congrArg Frames.frameIdx frames).trans (Frames.skip_frameIdx _ _)⟩⟩
  | discarded obj found pending frames writers =>
      refine ⟨congrArg Frames.bufSize frames,
        .inl ⟨?_, congrArg Frames.frameIdx frames⟩⟩
      rw [event_discard]
      exact fun _ _ => FrameEvent.noConfusion
  | committed obj found positive inside frames writers =>
      refine ⟨congrArg Frames.bufSize frames, .inr ⟨_,
        event_commit found positive inside, Nat.mod_mod _ _,
        congrArg Frames.frameIdx frames⟩⟩
  | reset obj found frames writers =>
      refine ⟨congrArg Frames.bufSize frames,
        .inl ⟨?_, congrArg Frames.frameIdx frames⟩⟩
      rw [event_reset found]
      exact fun _ _ => FrameEvent.noConfusion
  | attached attaches frames writers =>
      refine ⟨congrArg Frames.bufSize frames,
        .inl ⟨?_, congrArg Frames.frameIdx frames⟩⟩
      rw [event, if_pos attaches]
      exact fun _ _ => FrameEvent.noConfusion
  | destroyed obj found frames writers =>
      exact ⟨congrArg Frames.bufSize frames,
        .inl ⟨fun _ _ => FrameEvent.noConfusion,
          congrArg Frames.frameIdx frames⟩⟩

/-- What every reachable ring keeps: the productor points into the table. -/
structure FramesHold (s : System) : Prop where
  proper : s.WritersProper
  index : s.info.productorIndex < MAX_FRAME_NUM

theorem FramesHold.step {call : Call} {answer : Answer}
    (holds : s.FramesHold) (returns : s.step call = .ok (t, answer)) :
    t.FramesHold := by
  have steps := frameStep holds.proper returns
  refine ⟨steps.writersProper holds.proper, ?_⟩
  change t.info.frames.index < _
  cases steps with
  | keeps quiet frames writers =>
      rw [frames]
      exact holds.index
  | granted obj found skipped padding positive proper frames writers =>
      rw [frames, Frames.skip]
      split
      · exact holds.index
      · exact holds.index
  | discarded obj found pending frames writers =>
      rw [frames]
      exact holds.index
  | committed obj found positive inside frames writers =>
      rw [frames]
      exact Nat.mod_lt _ frameNum_pos
  | reset obj found frames writers =>
      rw [frames]
      exact frameNum_pos
  | attached attaches frames writers =>
      rw [frames]
      exact frameNum_pos
  | destroyed obj found frames writers =>
      rw [frames]
      exact frameNum_pos

theorem framesHold_fresh (bufSize now : Nat) (data : Nat → UInt8) :
    (freshSystem bufSize now data).FramesHold where
  proper _ _ found := by cases found
  index := frameNum_pos

theorem framesHold_of_reachable {bufSize now : Nat} {data : Nat → UInt8}
    {guard : System → Call → Prop}
    (reached : Reachable (fun s => s = freshSystem bufSize now data) next
      guard s) : s.FramesHold := by
  apply reached.invariant FramesHold
  · rintro _ rfl
    exact framesHold_fresh bufSize now data
  · intro before call after holds _ steps
    obtain ⟨answer, returns⟩ := next_eq_some_iff.mp steps
    exact holds.step returns

end System

end CRingBuf

end MbedtlsKcp
