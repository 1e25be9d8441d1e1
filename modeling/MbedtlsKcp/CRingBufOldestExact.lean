import MbedtlsKcp.CRingBufOldestIndex

/-!
# When the oldest valid index is exact

A ledger is kept of the frames that were committed since the last reset: those
whose bytes have not been handed to a writer again, and those that the productor
has not come to again.  `FindOldesValidIndex` finds the second, which need not be
the first: a request hands bytes out before the productor comes to them, a jump
passes frames that are not handed out, and a productor that stands at the start
of a frame has come to it.
-/

namespace MbedtlsKcp

namespace CRingBuf

open FallibleSteps TransitionRuns CyclicWindows

namespace RingBufInfo

variable {info after : RingBufInfo}

/-- The padding that aligns an offset is shorter than the alignment. -/
theorem bufferLen_align_lt {offset alignment : Nat}
    (inside : offset < info.bufSize) (positive : 0 < alignment)
    (short : alignment ≤ info.bufSize) :
    info.bufferLen offset (info.advanceOffset (align offset alignment) 0) <
      alignment := by
  have rounds := Nat.div_add_mod (offset + (alignment - 1)) alignment
  have rest := Nat.mod_lt (offset + (alignment - 1)) positive
  obtain ⟨padding, aligned⟩ : ∃ padding,
      align offset alignment = offset + padding :=
    Nat.exists_eq_add_of_le (by
      rw [align, Nat.mul_comm]
      omega)
  have isShort : padding < alignment := by
    rw [align, Nat.mul_comm] at aligned
    omega
  rw [advanceOffset, aligned, Nat.add_zero,
    bufferLen_eq_gap inside (Nat.mod_lt _ (by omega)),
    gap_add_mod inside (by omega)]
  exact isShort

/-- The range that is granted starts behind the padding and fits into the buffer
together with it. -/
theorem grant_requestWriteTry {now size : Nat} {obj obj' : Object}
    {type : FRAME_E} {mode : CRB_WRITE_MODE_E} {answer : WriteTry}
    (inside : 0 < info.bufSize → info.productorOffset < info.bufSize)
    (tries : info.requestWriteTry now obj size type mode =
      .ok (after, obj', answer)) :
    (∀ offset, answer ≠ .granted offset) ∧ obj' = obj ∨
      ∃ alignmentBytes, size + alignmentBytes < info.bufSize ∧
        obj' = obj.granted size alignmentBytes type ∧
        answer = .granted
          ((after.productorOffset + alignmentBytes) % info.bufSize) := by
  obtain ⟨_, aged, ages, ends⟩ := requestWriteTry_cases tries
  rw [deleteAgedBlackHole_eq] at ages
  obtain rfl := Except.ok.inj ages
  rcases ends with ⟨_, _, _, rfl, rfl⟩ | ⟨moved, moves, _, ends⟩
  · exact .inl ⟨fun _ => WriteTry.noConfusion, rfl⟩
  rcases ends with ⟨alignmentBytes, offset, requests, rfl, rfl⟩ |
    ⟨middle, blockers, requests, rfl, ends⟩
  · right
    have frames : moved.frames = info.frames :=
      (frames_moveAllBlockers moves).trans rfl
    have bufSize : moved.bufSize = info.bufSize :=
      congrArg Frames.bufSize frames
    have stands : moved.productorOffset = info.productorOffset :=
      congrArg Frames.offset frames
    rcases requestWritePtr_cases requests with
      ⟨_, _, _, isOther⟩ | ⟨jumped, _, room, ends⟩
    · cases isOther
    have fits := ((lt_minWritableSize_iff moved).mp room).1
    have skippedInside : (moved.skipHoles (moved.bufferLen
        moved.productorOffset jumped)).productorOffset < moved.bufSize := by
      unfold skipHoles
      split
      · rw [stands, bufSize]
        exact inside (by omega)
      · exact Nat.mod_lt _ (by omega)
    rcases ends with ⟨aligns, isGranted⟩ | ⟨plain, isGranted⟩
    · have padding := bufferLen_align_lt skippedInside
        (Nat.pos_of_ne_zero aligns) (by omega)
      have stop : moved.advanceOffset (align (moved.skipHoles (moved.bufferLen
          moved.productorOffset jumped)).productorOffset
            (moved.writeAlignment type)) 0 < moved.bufSize :=
        Nat.mod_lt _ (by omega)
      cases isGranted
      refine ⟨_, by omega, rfl, ?_⟩
      rw [← bufSize, bufferLen_eq_gap skippedInside stop,
        add_gap_mod skippedInside stop]
    · cases isGranted
      refine ⟨0, by omega, rfl, ?_⟩
      rw [← bufSize, Nat.add_zero, Nat.mod_eq_of_lt skippedInside]
  · refine .inl ⟨?_, rfl⟩
    rcases ends with ⟨_, _, rfl⟩ | ⟨_, _, rfl⟩
    · exact fun _ => WriteTry.noConfusion
    · exact fun _ => WriteTry.noConfusion

end RingBufInfo

namespace System

variable {s t : System} {call : Call}

/-- The ranges that are reserved fit into the buffer. -/
def WritersFit (s : System) : Prop :=
  ∀ handle obj, s.writer handle = some obj → 0 < obj.m_lastWriteBytes →
    obj.m_lastWriteBytes + obj.m_lastAlignmentBytes < s.info.bufSize

/-- The positions of the header lie in the buffer. -/
def PositionsInside (s : System) : Prop :=
  0 < s.info.bufSize → s.info.productorOffset < s.info.bufSize ∧
    ∀ slot, (s.info.frameIdx slot).offset < s.info.bufSize

theorem WritersFit.update {handle : Nat} {new : Option Object}
    (holds : s.WritersFit) (bufSize : t.info.bufSize = s.info.bufSize)
    (writers : t.writer = Function.update s.writer handle new)
    (fits : ∀ obj, new = some obj → 0 < obj.m_lastWriteBytes →
      obj.m_lastWriteBytes + obj.m_lastAlignmentBytes < s.info.bufSize) :
    t.WritersFit := by
  intro other obj found pending
  rw [writers] at found
  rw [bufSize]
  by_cases same : other = handle
  · rw [same, Function.update_self] at found
    exact fits obj found pending
  · rw [Function.update_of_ne same] at found
    exact holds other obj found pending

theorem WritersFit.step {answer : Answer} (holds : s.WritersFit)
    (proper : s.WritersProper) (inside : s.PositionsInside)
    (returns : s.step call = .ok (t, answer)) : t.WritersFit := by
  have steps := frameStep proper returns
  have bufSize := steps.table.1
  cases steps with
  | keeps quiet frames writers =>
      intro handle obj found pending
      rw [writers] at found
      rw [bufSize]
      exact holds handle obj found pending
  | granted obj found holeSkipedBytes alignmentBytes positive proper frames
      writers =>
      rcases requestWriteFrame_ok returns with ⟨absent, _⟩ |
        ⟨_, _, obj', _, found', tries, rfl, _⟩
      · cases absent.symm.trans found
      obtain rfl := Option.some.inj (found.symm.trans found')
      refine holds.update bufSize (writer_afterCall_of_writer found
        (RingBufInfo.sameUser_requestWriteTry tries)) ?_
      rintro _ ⟨⟩ pending
      rcases RingBufInfo.grant_requestWriteTry
        (fun positive => (inside positive).1) tries with ⟨_, rfl⟩ |
          ⟨alignmentBytes, fits, rfl, _⟩
      · exact holds _ _ found pending
      · exact fits
  | discarded obj found pending frames writers =>
      refine holds.update bufSize writers ?_
      rintro _ ⟨⟩ pending
      exact absurd pending (Nat.lt_irrefl 0)
  | committed obj found positive inside frames writers =>
      refine holds.update bufSize writers ?_
      rintro _ ⟨⟩ pending
      exact absurd pending (Nat.lt_irrefl 0)
  | reset obj found frames writers =>
      refine holds.update bufSize writers ?_
      rintro _ ⟨⟩ pending
      exact absurd pending (Nat.lt_irrefl 0)
  | attached attaches frames writers =>
      refine holds.update bufSize writers ?_
      rintro _ ⟨⟩ pending
      exact absurd pending (Nat.lt_irrefl 0)
  | destroyed obj found frames writers =>
      refine holds.update bufSize writers ?_
      rintro _ ⟨⟩

theorem FrameStep.positionsInside (steps : FrameStep s t call)
    (holds : s.PositionsInside) : t.PositionsInside := by
  obtain ⟨bufSize, table⟩ := steps.table
  intro positive
  rw [bufSize] at positive ⊢
  obtain ⟨offset, offsets⟩ := holds positive
  refine ⟨?_, ?_⟩
  · change t.info.frames.offset < _
    cases steps with
    | keeps quiet frames writers =>
        rw [frames]
        exact offset
    | granted obj found skipped padding granted proper frames writers =>
        rw [frames, Frames.skip]
        split
        · exact offset
        · exact Nat.mod_lt _ positive
    | discarded obj found pending frames writers =>
        rw [frames]
        exact offset
    | committed obj found committed inside frames writers =>
        rw [frames]
        exact Nat.mod_lt _ positive
    | reset obj found frames writers =>
        rw [frames]
        exact positive
    | attached attaches frames writers =>
        rw [frames]
        exact positive
    | destroyed obj found frames writers =>
        rw [frames]
        exact positive
  · intro slot
    rcases table with ⟨_, frameIdx⟩ | ⟨entry, _, inside, frameIdx⟩
    · rw [frameIdx]
      exact offsets slot
    · rw [frameIdx]
      by_cases same : slot = s.info.productorIndex
      · rw [same, Function.update_self, ← inside]
        exact Nat.mod_lt _ positive
      · rw [Function.update_of_ne same]
        exact offsets slot

end System

deriving instance DecidableEq for FrameIndex

/-- A ring with the frames committed since the last reset, the oldest first:
`live` are those whose bytes have not been handed to a writer again, `ahead` those
that the productor has not come to again. -/
structure Ledger where
  system : System
  live : List (Nat × FrameIndex)
  ahead : List (Nat × FrameIndex)

/-- Where the range that a try grants starts. -/
def WriteTry.start : WriteTry → Option Nat
  | .granted offset => some offset
  | .failed => none
  | .again => none

/-- Where the range that a call hands out starts, and its size. -/
def handedOut : Call → Answer → Option (Nat × Nat)
  | .requestWriteFrame _ size _ _, .write answer =>
      answer.start.map fun offset => (offset, size)
  | _, _ => none

namespace Ledger

def fresh (bufSize now : Nat) (data : Nat → UInt8) : Ledger :=
  ⟨freshSystem bufSize now data, [], []⟩

variable (r : Ledger)

/-- The `size` bytes from `start` on do not lie in the frame. -/
def Spares (start size : Nat) (frame : Nat × FrameIndex) : Prop :=
  size ≤ r.system.info.bufferLen start frame.2.offset ∧
    frame.2.length ≤ r.system.info.bufferLen frame.2.offset start

instance (start size : Nat) : DecidablePred (r.Spares start size) :=
  fun _ => inferInstanceAs (Decidable (_ ∧ _))

/-- The live frames that a call spares. -/
def spared (call : Call) (answer : Answer) : List (Nat × FrameIndex) :=
  (handedOut call answer).elim r.live fun range =>
    r.live.filter (r.Spares range.1 range.2)

/-- The frames ahead that the productor does not come to. -/
def staying (t : System) : List (Nat × FrameIndex) :=
  r.ahead.filter (Stays r.system.info t.info)

/-- The frame that a commit has put into the productor's slot. -/
def added (t : System) : Nat × FrameIndex :=
  (r.system.info.productorIndex,
    t.info.frameIdx r.system.info.productorIndex)

/-- The ledger after a call. -/
def record (call : Call) (t : System) (answer : Answer) : Ledger :=
  match r.system.event call with
  | .nothing => ⟨t, r.spared call answer, r.staying t⟩
  | .frame _ _ => ⟨t, r.live ++ [r.added t], r.staying t ++ [r.added t]⟩
  | .restart => ⟨t, [], []⟩

def next (call : Call) : Option Ledger :=
  (r.system.step call).toOption.map fun result =>
    r.record call result.1 result.2

/-- The entries from the oldest valid index up to the productor's are the live
frames. -/
def Exact : Prop :=
  (window MAX_FRAME_NUM r.system.info.findOldesValidIndex
      r.system.info.productorIndex).map
    (fun slot => (slot, r.system.info.frameIdx slot)) = r.live

/-- The productor is not put before the newest frame and does not jump to it;
and behind a frame that is committed with none ahead, no stale entry of the table
lies farther back than the frame starts. -/
def OrderlyEvent (t : System) : FrameEvent → Prop
  | .nothing => r.ahead ≠ [] → r.staying t ≠ [] ∧
      t.info.productorIndex = r.system.info.productorIndex
  | .frame _ length => r.staying t = [] →
      t.info.bufferLen (r.system.info.frameIdx
          (stepbackIndex r.system.info.productorIndex 1)).offset
        t.info.productorOffset ≤ length
  | .restart => True

def Orderly (call : Call) : Prop :=
  ∀ t ∈ r.system.next call, r.OrderlyEvent t (r.system.event call)

instance (t : System) : ∀ event, Decidable (r.OrderlyEvent t event)
  | .nothing => inferInstanceAs (Decidable (_ → _ ∧ _))
  | .frame _ _ => inferInstanceAs (Decidable (_ → _))
  | .restart => isTrue trivial

instance (r : Ledger) (call : Call) : Decidable (r.Orderly call) :=
  inferInstanceAs (Decidable (∀ t ∈ _, _))

/-- The frames ahead stand in the table behind the productor. -/
structure Tracked : Prop where
  holds : r.system.FramesHold
  inside : r.system.PositionsInside
  fits : r.system.WritersFit
  unwritten : r.system.info.dataWriten = false → r.ahead = []
  written : r.system.info.dataWriten = true → 0 < r.system.info.bufSize ∧
    r.ahead ≠ [] ∧
      r.system.info.Trail (stepbackIndex r.system.info.productorIndex 1) 0
        r.ahead.reverse

theorem tracked_fresh (bufSize now : Nat) (data : Nat → UInt8) :
    (fresh bufSize now data).Tracked where
  holds := System.framesHold_fresh bufSize now data
  inside positive := ⟨positive, fun _ => positive⟩
  fits _ _ found := by cases found
  unwritten _ := rfl
  written written := by cases written

variable {r} {t : System} {call : Call}

theorem Tracked.moved (tracked : r.Tracked) (inside : t.PositionsInside)
    (positive : 0 < r.system.info.bufSize)
    (bufSize : t.info.bufSize = r.system.info.bufSize)
    (entries : ∀ slot, slot ≠ r.system.info.productorIndex →
      t.info.frameIdx slot = r.system.info.frameIdx slot)
    (index : t.info.productorIndex = r.system.info.productorIndex ∨
      t.info.productorIndex =
        advanceIndex r.system.info.productorIndex 1) :
    Moved r.system.info t.info where
  bufSize := bufSize
  before := (tracked.inside positive).1
  later := bufSize ▸ (inside (bufSize ▸ positive)).1
  offsets := (tracked.inside positive).2
  entries := entries
  index := index

/-- The frames that stay ahead are a trail of their own. -/
theorem Tracked.trail_staying (tracked : r.Tracked)
    (moved : Moved r.system.info t.info) :
    r.staying t ≠ [] →
    t.info.Trail (stepbackIndex r.system.info.productorIndex 1)
      (r.system.info.bufferLen r.system.info.productorOffset
        t.info.productorOffset) (r.staying t).reverse := by
  intro stays
  have written : r.system.info.dataWriten = true := by
    by_contra unwritten
    apply stays
    rw [staying, tracked.unwritten (Bool.not_eq_true _ ▸ unwritten)]
    rfl
  obtain ⟨_, _, trail⟩ := tracked.written written
  have apart : stepbackIndex r.system.info.productorIndex 1 ≠
      r.system.info.productorIndex := by
    have indexed := tracked.holds.index
    unfold stepbackIndex MAX_FRAME_NUM at *
    omega
  rw [staying, ← List.filter_reverse]
  have later := moved.trail_filter tracked.holds.index (stepbackIndex_lt _ _)
    (.inl apart) trail (by rw [Nat.zero_add]; exact moved.travelled_lt)
  rwa [Nat.zero_add] at later

/-- A call that neither commits nor resets. -/
theorem Tracked.quiet {live : List (Nat × FrameIndex)} (tracked : r.Tracked)
    (holds : t.FramesHold) (inside : t.PositionsInside) (fits : t.WritersFit)
    (bufSize : t.info.bufSize = r.system.info.bufSize)
    (dataWriten : t.info.dataWriten = r.system.info.dataWriten)
    (frameIdx : t.info.frameIdx = r.system.info.frameIdx)
    (orderly : r.ahead ≠ [] → r.staying t ≠ [] ∧
      t.info.productorIndex = r.system.info.productorIndex) :
    Tracked ⟨t, live, r.staying t⟩ := by
  refine ⟨holds, inside, fits, ?_, ?_⟩
  · intro unwritten
    dsimp only at unwritten ⊢
    rw [staying, tracked.unwritten (dataWriten ▸ unwritten)]
    rfl
  · intro written
    dsimp only at written ⊢
    rw [dataWriten] at written
    obtain ⟨positive, nonempty, _⟩ := tracked.written written
    obtain ⟨stays, index⟩ := orderly nonempty
    have moved := tracked.moved inside positive bufSize
      (fun slot _ => congrFun frameIdx slot) (.inl index)
    refine ⟨bufSize ▸ positive, stays, ?_⟩
    rw [index]
    exact (tracked.trail_staying moved stays).weaken
      (by simpa using stays) (Nat.zero_le _)

/-- A call that commits a frame. -/
theorem Tracked.committed {live : List (Nat × FrameIndex)}
    {handle commitBytes : Nat} {frameTime : Int} {obj : Object}
    (tracked : r.Tracked) (holds : t.FramesHold) (inside : t.PositionsInside)
    (fits : t.WritersFit) (found : r.system.writer handle = some obj)
    (positive : 0 < commitBytes) (enough : commitBytes ≤ obj.m_lastWriteBytes)
    (frames : t.info.frames =
      r.system.info.frames.commit obj commitBytes frameTime)
    (orderly : r.staying t = [] →
      t.info.bufferLen (r.system.info.frameIdx
          (stepbackIndex r.system.info.productorIndex 1)).offset
        t.info.productorOffset ≤ commitBytes) :
    Tracked ⟨t, live, r.staying t ++ [r.added t]⟩ := by
  have indexed := tracked.holds.index
  have short := tracked.fits handle obj found (by omega)
  have bufSize : t.info.bufSize = r.system.info.bufSize :=
    congrArg Frames.bufSize frames
  have offset : t.info.productorOffset =
      (r.system.info.productorOffset +
        (commitBytes + obj.m_lastAlignmentBytes)) % r.system.info.bufSize := by
    rw [← Nat.add_assoc]
    exact congrArg Frames.offset frames
  have index : t.info.productorIndex =
      advanceIndex r.system.info.productorIndex 1 :=
    congrArg Frames.index frames
  have frameIdx : t.info.frameIdx = Function.update r.system.info.frameIdx
      r.system.info.productorIndex
      (r.system.info.frames.entry obj commitBytes frameTime) :=
    congrArg Frames.frameIdx frames
  have entries : ∀ slot, slot ≠ r.system.info.productorIndex →
      t.info.frameIdx slot = r.system.info.frameIdx slot := by
    intro slot different
    rw [frameIdx, Function.update_of_ne different]
  have entry : t.info.frameIdx r.system.info.productorIndex =
      r.system.info.frames.entry obj commitBytes frameTime := by
    rw [frameIdx, Function.update_self]
  have moved := tracked.moved inside (by omega) bufSize entries (.inr index)
  have travelled : r.system.info.bufferLen r.system.info.productorOffset
      t.info.productorOffset = commitBytes + obj.m_lastAlignmentBytes := by
    rw [RingBufInfo.bufferLen_eq_gap moved.before moved.later, offset,
      gap_add_mod moved.before (by omega)]
  have start : (t.info.frameIdx r.system.info.productorIndex).offset =
      (r.system.info.productorOffset + obj.m_lastAlignmentBytes) %
        r.system.info.bufSize := by
    rw [entry]
    rfl
  have distance : t.info.distance r.system.info.productorIndex =
      commitBytes := by
    rw [RingBufInfo.distance, start, offset, RingBufInfo.bufferLen, bufSize,
      mod_eq_gap (Nat.mod_lt _ (by omega)) (Nat.mod_lt _ (by omega)),
      gap_mod_mod (Nat.le_add_left _ _) (by omega), Nat.add_sub_cancel]
  refine ⟨holds, inside, fits, ?_, ?_⟩
  · intro unwritten
    cases (congrArg Frames.dataWriten frames).symm.trans unwritten
  · intro _
    refine ⟨bufSize ▸ moved.positive, by simp, ?_⟩
    dsimp only
    rw [index, stepbackIndex_advanceIndex indexed, List.reverse_append,
      List.reverse_singleton, List.singleton_append]
    have different : r.system.info.productorIndex ≠ t.info.productorIndex := by
      rw [index]
      unfold advanceIndex MAX_FRAME_NUM at *
      omega
    have length : (r.added t).2.length = commitBytes := by
      rw [added, entry]
      rfl
    refine RingBufInfo.trail_cons_iff.mpr ⟨rfl, different, by omega, by omega, ?_⟩
    rw [distance]
    by_cases stays : r.staying t = []
    · -- no older frame is ahead, and the search stops at a stale entry
      rw [stays]
      right
      have apart : stepbackIndex r.system.info.productorIndex 1 ≠
          r.system.info.productorIndex := by
        unfold stepbackIndex MAX_FRAME_NUM at *
        omega
      rw [RingBufInfo.distance, entries _ apart]
      exact orderly stays
    · apply (tracked.trail_staying moved stays).weaken (by simpa using stays)
      omega

theorem Tracked.step {answer : Answer} (tracked : r.Tracked)
    (returns : r.system.step call = .ok (t, answer))
    (orderly : r.Orderly call) : (r.record call t answer).Tracked := by
  have steps := System.frameStep tracked.holds.proper returns
  have holds := tracked.holds.step returns
  have inside := steps.positionsInside tracked.inside
  have fits := tracked.fits.step tracked.holds.proper tracked.inside returns
  have meets := orderly t (System.next_eq_some_iff.mpr ⟨answer, returns⟩)
  have bufSize := steps.table.1
  unfold record
  cases steps with
  | keeps quiet frames writers =>
      rw [quiet] at meets ⊢
      exact tracked.quiet holds inside fits bufSize
        (congrArg Frames.dataWriten frames) (congrArg Frames.frameIdx frames)
        meets
  | granted obj found skipped padding positive proper frames writers =>
      exact tracked.quiet holds inside fits bufSize
        ((congrArg Frames.dataWriten frames).trans (Frames.skip_dataWriten _ _))
        ((congrArg Frames.frameIdx frames).trans (Frames.skip_frameIdx _ _))
        meets
  | discarded obj found pending frames writers =>
      rw [System.event_discard] at meets ⊢
      exact tracked.quiet holds inside fits bufSize
        (congrArg Frames.dataWriten frames) (congrArg Frames.frameIdx frames)
        meets
  | committed obj found positive enough frames writers =>
      rw [System.event_commit found positive enough] at meets ⊢
      exact tracked.committed holds inside fits found positive enough frames
        meets
  | reset obj found frames writers =>
      rw [System.event_reset found]
      refine ⟨holds, inside, fits, fun _ => rfl, fun written => ?_⟩
      cases (congrArg Frames.dataWriten frames).symm.trans written
  | attached attaches frames writers =>
      rw [System.event, if_pos attaches]
      refine ⟨holds, inside, fits, fun _ => rfl, fun written => ?_⟩
      cases (congrArg Frames.dataWriten frames).symm.trans written
  | destroyed obj found frames writers =>
      exact tracked.quiet holds inside fits bufSize
        (congrArg Frames.dataWriten frames) (congrArg Frames.frameIdx frames)
        meets

theorem Tracked.mem_ahead (tracked : r.Tracked) {frame : Nat × FrameIndex}
    (member : frame ∈ r.ahead) :
    frame = (frame.1, r.system.info.frameIdx frame.1) ∧
      frame.1 ≠ r.system.info.productorIndex ∧ 0 < frame.2.length ∧
        frame.2.length ≤ r.system.info.distance frame.1 := by
  have written : r.system.info.dataWriten = true := by
    by_contra unwritten
    rw [tracked.unwritten (Bool.not_eq_true _ ▸ unwritten)] at member
    cases member
  obtain ⟨_, _, trail⟩ := tracked.written written
  obtain ⟨isEntry, apart, nonempty, behind⟩ :=
    trail.mem (List.mem_reverse.mpr member)
  exact ⟨isEntry, apart, nonempty, by omega⟩

/-- Without a jump no frame is passed. -/
theorem Tracked.staying_eq_ahead (tracked : r.Tracked)
    (moved : Moved r.system.info t.info)
    (offset : t.info.productorOffset = r.system.info.productorOffset)
    (index : t.info.productorIndex = r.system.info.productorIndex) :
    r.staying t = r.ahead := by
  apply List.filter_eq_self.mpr
  intro frame member
  obtain ⟨isEntry, apart, nonempty, behind⟩ := tracked.mem_ahead member
  have near : r.system.info.distance frame.1 < r.system.info.bufSize :=
    RingBufInfo.distance_lt (moved.offsets frame.1)
  rw [decide_eq_true_eq, isEntry, moved.stays_iff (by omega), offset, index,
    RingBufInfo.bufferLen_eq_gap moved.before moved.before, gap_self]
  exact ⟨by omega, apart⟩

/-- What is known of a granted request. -/
theorem Tracked.granted {handle size : Nat} {type : FRAME_E}
    {mode : CRB_WRITE_MODE_E} {offset : Nat} (tracked : r.Tracked)
    (grants : r.system.step (.requestWriteFrame handle size type mode) =
      .ok (t, .write (.granted offset))) :
    ∃ obj padding holeSkipedBytes,
      t.writer handle = some (Object.granted obj size padding type) ∧
        0 < size ∧ type ≠ .CRB_FRAME_ANY ∧
        size + padding < r.system.info.bufSize ∧
        offset = (t.info.productorOffset + padding) % r.system.info.bufSize ∧
        t.info.frames = r.system.info.frames.skip holeSkipedBytes := by
  cases found : r.system.writer handle with
  | none =>
      rw [System.step, found] at grants
      cases grants
  | some obj =>
      rcases System.requestWriteFrame_ok grants with ⟨absent, _⟩ |
        ⟨_, info, obj', given, found', tries, rfl, isGiven⟩
      · cases absent.symm.trans found
      obtain rfl := Option.some.inj (found.symm.trans found')
      obtain rfl : .granted offset = given := Answer.write.inj isGiven
      obtain ⟨⟨positive, proper⟩, ends⟩ :=
        RingBufInfo.frames_requestWriteTry tries
      rcases RingBufInfo.grant_requestWriteTry
        (fun positive => (tracked.inside positive).1) tries with
        ⟨never, _⟩ | ⟨padding, fits, isGranted, isOffset⟩
      · exact absurd rfl (never offset)
      have isSkip : ∃ holeSkipedBytes,
          info.frames = r.system.info.frames.skip holeSkipedBytes := by
        rcases ends with ⟨frames, _⟩ | ⟨holeSkipedBytes, _, frames, _⟩
        · exact ⟨0, frames⟩
        · exact ⟨holeSkipedBytes, frames⟩
      obtain ⟨holeSkipedBytes, frames⟩ := isSkip
      refine ⟨obj, padding, holeSkipedBytes, ?_, positive, proper, fits,
        WriteTry.granted.inj isOffset, frames⟩
      rw [System.writer_afterCall_of_writer found
        (RingBufInfo.sameUser_requestWriteTry tries), Function.update_self,
        isGranted]

/-- The productor comes to the frames that it writes over, unless one lies in
the padding, and it does not come to others unless it stops at the start of one. -/
theorem stays_iff_spares {t u : System} {frame : Nat × FrameIndex}
    {padding size : Nat} (moved : Moved t.info u.info)
    (bufSize : t.info.bufSize = r.system.info.bufSize)
    (positive : 0 < size) (fits : size + padding < t.info.bufSize)
    (stops : u.info.productorOffset =
      (t.info.productorOffset + (padding + size)) % t.info.bufSize)
    (inside : frame.2.offset < t.info.bufSize)
    (behind : frame.2.length ≤
      t.info.bufferLen frame.2.offset t.info.productorOffset)
    (apart : frame.2.offset ≠ u.info.productorOffset)
    (slot : frame.1 ≠ u.info.productorIndex)
    (uncovered : t.info.bufferLen t.info.productorOffset frame.2.offset <
        padding →
      t.info.bufferLen frame.2.offset
        ((t.info.productorOffset + padding) % t.info.bufSize) <
          frame.2.length) :
    Stays t.info u.info frame ↔
      r.Spares ((t.info.productorOffset + padding) % t.info.bufSize) size
        frame := by
  have before := moved.before
  have start : (t.info.productorOffset + padding) % t.info.bufSize <
      t.info.bufSize := Nat.mod_lt _ (by omega)
  have travelled : t.info.bufferLen t.info.productorOffset
      u.info.productorOffset = padding + size := by
    rw [RingBufInfo.bufferLen_eq_gap before moved.later, stops,
      gap_add_mod before (by omega)]
  have lengths : r.system.info.bufferLen = t.info.bufferLen := by
    unfold RingBufInfo.bufferLen
    rw [bufSize]
  rw [Stays, Spares, lengths, travelled]
  simp only [RingBufInfo.bufferLen_eq_gap before inside,
    RingBufInfo.bufferLen_eq_gap inside before,
    RingBufInfo.bufferLen_eq_gap start inside,
    RingBufInfo.bufferLen_eq_gap inside start] at behind uncovered ⊢
  -- all positions are given by their way from the productor
  generalize way : gap t.info.bufSize t.info.productorOffset frame.2.offset =
    front at uncovered ⊢
  have isStart : frame.2.offset =
      (t.info.productorOffset + front) % t.info.bufSize := by
    rw [← way, add_gap_mod before inside]
  have short : front < t.info.bufSize := way ▸ gap_lt before inside
  have different : front ≠ padding + size := by
    rintro rfl
    exact apart (isStart.trans stops.symm)
  by_cases covers : front < padding
  · have back : gap t.info.bufSize frame.2.offset
        ((t.info.productorOffset + padding) % t.info.bufSize) =
          padding - front := by
      rw [isStart, gap_mod_mod covers.le (by omega)]
    have missed := uncovered covers
    rw [back] at missed ⊢
    constructor
    · rintro ⟨passes, _⟩
      omega
    · rintro ⟨_, spares⟩
      omega
  · have ahead : gap t.info.bufSize
        ((t.info.productorOffset + padding) % t.info.bufSize)
          frame.2.offset = front - padding := by
      rw [isStart, gap_mod_mod (by omega) (by omega)]
    rw [ahead]
    constructor
    · rintro ⟨passes, _⟩
      refine ⟨by omega, ?_⟩
      have round := gap_add_gap inside before (by
        intro same
        rw [same, gap_self] at way
        omega)
      have rest := gap_add_gap start inside (by
        intro same
        rw [same, gap_self] at ahead
        omega)
      omega
    · rintro ⟨spares, _⟩
      exact ⟨by omega, slot⟩

/-- A request that does not jump and its commit leave the live frames ahead,
unless the productor then stands at a frame or one lies in the padding. -/
theorem Tracked.ahead_eq_live_of_round {handle size : Nat} {type : FRAME_E}
    {mode : CRB_WRITE_MODE_E} {frameTime : Int} {u : System}
    {offset : Nat} {answer : Answer} (tracked : r.Tracked)
    (settled : r.ahead = r.live)
    (grants : r.system.step (.requestWriteFrame handle size type mode) =
      .ok (t, .write (.granted offset)))
    (commits : t.step (.commitWrite handle none frameTime) = .ok (u, answer))
    (noJump : t.info.productorOffset = r.system.info.productorOffset)
    (apart : ∀ frame ∈ r.ahead,
      frame.2.offset ≠ u.info.productorOffset ∧
        frame.1 ≠ u.info.productorIndex ∧
        (r.system.info.bufferLen r.system.info.productorOffset
            frame.2.offset <
          r.system.info.bufferLen r.system.info.productorOffset offset →
        r.system.info.bufferLen frame.2.offset offset < frame.2.length)) :
    ((r.record (.requestWriteFrame handle size type mode) t
        (.write (.granted offset))).record
      (.commitWrite handle none frameTime) u answer).ahead =
    ((r.record (.requestWriteFrame handle size type mode) t
        (.write (.granted offset))).record
      (.commitWrite handle none frameTime) u answer).live := by
  have steps := System.frameStep tracked.holds.proper grants
  have inside := steps.positionsInside tracked.inside
  have later := System.frameStep
    (steps.writersProper tracked.holds.proper) commits
  have lastInside := later.positionsInside inside
  obtain ⟨obj, padding, skipped, found, positive, proper, fits, isOffset,
    frames⟩ := tracked.granted grants
  have bufSize : t.info.bufSize = r.system.info.bufSize :=
    steps.table.1
  have frameIdx : t.info.frameIdx = r.system.info.frameIdx :=
    (congrArg Frames.frameIdx frames).trans (Frames.skip_frameIdx _ _)
  have index : t.info.productorIndex = r.system.info.productorIndex :=
    (congrArg Frames.index frames).trans (Frames.skip_index _ _)
  have start := tracked.moved inside (by omega) bufSize
    (fun slot _ => congrFun frameIdx slot) (.inl index)
  have event : t.event (.commitWrite handle none frameTime) = .frame
      (t.info.writeAddress (obj.granted size padding type)) size :=
    System.event_commit found positive (Nat.le_refl size)
  have granted : r.record (.requestWriteFrame handle size type mode) t
      (.write (.granted offset)) =
        ⟨t, r.live.filter (r.Spares offset size), r.ahead⟩ := by
    rw [← tracked.staying_eq_ahead start noJump index]
    rfl
  rw [granted, record, event]
  dsimp only
  congr 1
  rw [staying, ← settled]
  dsimp only
  apply List.filter_congr
  intro frame member
  rw [decide_eq_decide, isOffset, ← bufSize]
  cases later with
  | keeps quiet => cases quiet.symm.trans event
  | committed obj' found' positive' enough frames' writers' =>
      obtain rfl := Option.some.inj (found.symm.trans found')
      have nextIndex : u.info.productorIndex =
          advanceIndex t.info.productorIndex 1 :=
        congrArg Frames.index frames'
      have moved : Moved t.info u.info := by
        refine ⟨congrArg Frames.bufSize frames', (inside (by omega)).1, ?_,
          (inside (by omega)).2, ?_, .inr nextIndex⟩
        · have bufSize' : u.info.bufSize = t.info.bufSize :=
            congrArg Frames.bufSize frames'
          rw [← bufSize']
          exact (lastInside (by omega)).1
        · intro slot different
          have table := congrFun (congrArg Frames.frameIdx frames') slot
          exact table.trans (Function.update_of_ne different _ _)
      obtain ⟨isEntry, _, _, behind⟩ := tracked.mem_ahead member
      obtain ⟨notAt, slot, uncovered⟩ := apart frame member
      have isStart : frame.2.offset =
          (r.system.info.frameIdx frame.1).offset := by
        rw [isEntry]
      have lengths : t.info.bufferLen = r.system.info.bufferLen := by
        unfold RingBufInfo.bufferLen
        rw [bufSize]
      have isPadding : r.system.info.bufferLen r.system.info.productorOffset
          offset = padding := by
        rw [isOffset, noJump, RingBufInfo.bufferLen_eq_gap start.before
          (Nat.mod_lt _ start.positive), gap_add_mod start.before (by omega)]
      have stops : u.info.productorOffset =
          (t.info.productorOffset + (padding + size)) % t.info.bufSize := by
        rw [Nat.add_comm padding, ← Nat.add_assoc]
        exact congrArg Frames.offset frames'
      apply r.stays_iff_spares moved bufSize positive (by omega) stops
      · rw [isStart, ← frameIdx]
        exact moved.offsets frame.1
      · rw [isStart, lengths, noJump]
        exact behind
      · exact notAt
      · exact slot
      · intro covers
        rw [lengths, noJump, bufSize, ← noJump, ← isOffset]
        rw [lengths, noJump] at covers
        exact uncovered (by rw [isPadding]; exact covers)

/-- In orderly runs the search finds the frames ahead, and these are the live
ones exactly when no frame is handed out before the productor comes to it and it
comes to none that is not handed out. -/
theorem exact_iff_ahead_eq_live (bufSize now : Nat) (data : Nat → UInt8)
    (r : Ledger)
    (reached : Reachable (fun r => r = fresh bufSize now data) Ledger.next
      Orderly r)
    (written : r.system.info.dataWriten = true) :
    r.Exact ↔ r.ahead = r.live := by
  have tracked : r.Tracked := by
    apply reached.invariant Tracked
    · rintro _ rfl
      exact tracked_fresh bufSize now data
    · rintro before call after tracked orderly steps
      obtain ⟨⟨t, answer⟩, returns, rfl⟩ := Option.map_eq_some_iff.mp steps
      exact tracked.step (toOption_eq_some_iff.mp returns) orderly
  obtain ⟨_, nonempty, trail⟩ := tracked.written written
  have finds := trail.findOldesValidIndex_window written
    (by simpa using nonempty) tracked.holds.index
  rw [List.reverse_reverse] at finds
  rw [Exact, finds]

/-- A writer that commits frames of one size and type. -/
def writes (size : Nat) (type : FRAME_E) (frames : Nat) : List Call :=
  .attachWriter 0 [0x57] false ::
    (List.range frames).flatMap fun frame =>
      [.requestWriteFrame 0 size type .CRB_WRITE_MODE_NON_BLOCK,
        .commitWrite 0 none frame]

/-- The third frame is written over the first one, and the search finds the
other two. -/
theorem exact_after_wrap :
    ∃ r, run Ledger.next (fresh 4096 1 fun _ => 0)
        (writes 1500 .CRB_FRAME_P_SLICE 3) = some r ∧
      r.live.map Prod.fst = [1, 2] ∧ r.Exact := by
  have ends : ((run Ledger.next (fresh 4096 1 fun _ => 0)
      (writes 1500 .CRB_FRAME_P_SLICE 3)).map fun r =>
        (r.system.info.dataWriten, r.live.map Prod.fst,
          decide (r.ahead = r.live))) = some (true, [1, 2], true) := by
    decide +kernel
  obtain ⟨r, runs, shape⟩ := Option.map_eq_some_iff.mp ends
  simp only [Prod.mk.injEq, decide_eq_true_eq] at shape
  obtain ⟨written, live, same⟩ := shape
  have meets : StepsMeet Ledger.next Orderly (fresh 4096 1 fun _ => 0)
      (writes 1500 .CRB_FRAME_P_SLICE 3) := by decide +kernel
  exact ⟨r, runs, live, (exact_iff_ahead_eq_live 4096 1 _ r
    (.append_run (.start rfl) meets runs) written).mpr same⟩

/-- Two frames fill the ring, and the productor stands at the first one again:
the search finds the second only. -/
theorem not_exact_of_full_ring :
    ¬ ∀ r : Ledger,
      Reachable (fun r => r = fresh 4096 1 fun _ => 0) Ledger.next
        (fun _ _ => True) r →
      r.system.info.dataWriten = true → r.Exact := by
  intro always
  have ends : ((run Ledger.next (fresh 4096 1 fun _ => 0)
      (writes 2048 .CRB_FRAME_I_SLICE 2)).map fun r =>
        (r.system.info.dataWriten, r.live.map Prod.fst,
          window MAX_FRAME_NUM r.system.info.findOldesValidIndex
            r.system.info.productorIndex)) = some (true, [0, 1], [1]) := by
    decide +kernel
  obtain ⟨r, runs, shape⟩ := Option.map_eq_some_iff.mp ends
  simp only [Prod.mk.injEq] at shape
  obtain ⟨written, live, finds⟩ := shape
  have exact := congrArg (List.map Prod.fst)
    (always r (.of_run rfl runs) written)
  rw [List.map_map, live, finds] at exact
  simp at exact

end Ledger

end CRingBuf

end MbedtlsKcp
