import MbedtlsKcp.CRingBufUsers

/-!
# The readers' calls

A reader requests the next frame or a run of continuous frames, which it then
holds until it commits, discards or requests again.  A reader that the writer
had to move while it held a frame does not move itself at the commit.
-/

namespace MbedtlsKcp

namespace CRingBuf

open FallibleSteps

/-- `FrameIdx`. -/
structure FrameIdx where
  offset : Nat
  length : Nat
  isIFrame : Bool
  deriving DecidableEq

/-- The answer of a read request: an address with what is stored through the
pointers, or no valid address. -/
inductive ReadAnswer
  | frame (offset length : Nat) (isKeyFrame : Bool)
  | frames (offset length : Nat) (pIdx : List FrameIdx)
  | unavailable

namespace RingBufInfo

variable (info : RingBufInfo)

/-- `__RequestReadPtr`: whether `size` bytes can be read at `readOffset`. -/
def requestReadPtr (obj : Object) (readOffset writeOffset size : Nat) :
    Prop :=
  obj.isProductor = false ∧ obj.m_userIdx ≤ MAX_CONSUMER_NUM ∧ size ≠ 0 ∧
    writeOffset ≠ readOffset ∧
      size ≤ info.getReadableSize readOffset writeOffset

instance (obj : Object) (readOffset writeOffset size : Nat) :
    Decidable (info.requestReadPtr obj readOffset writeOffset size) :=
  inferInstanceAs (Decidable (_ ∧ _ ∧ _ ∧ _ ∧ _))

/-- The search type of a read request. -/
def readType (user : RingBufUser) (type : FRAME_E) : FRAME_E :=
  if info.liveStream ∧ user.waitIFrame then .CRB_FRAME_I_SLICE else type

/-- `RequestReadFrame`. -/
def requestReadFrame (obj : Object) (type : FRAME_E) :
    Except Fault (RingBufInfo × Object × ReadAnswer) := do
  let which := obj.m_userIdx
  let info ← info.deleteBlackHoleOwnedBy (info.consumers which).name
  let user := info.consumers which
  match info.indexFindNextFrame info.productorIndex user.index
      (ofType (info.readType user type)) with
  | none => return (info, obj, .unavailable)
  | some nextFrameIdx =>
      let frame := info.frameIdx nextFrameIdx
      if info.requestReadPtr obj frame.offset info.productorOffset
          frame.length then
        let info := info.moveConsumer which nextFrameIdx frame.offset false
        let info := info.setConsumerState which .USER_HOLDING_FRAME
        return (info.clearConsumerMoved which,
          { obj with m_lastReadBytes := frame.length },
          .frame frame.offset frame.length
            (frame.frameType = .CRB_FRAME_I_SLICE))
      else
        return (info, obj, .unavailable)

/-- The entries stored through `pIdx`. -/
def frameIdxs (first : Nat) (slots : List Nat) : List FrameIdx :=
  slots.map fun slot =>
    { offset := info.bufferLen (info.frameIdx first).offset
        (info.frameIdx slot).offset
      length := (info.frameIdx slot).length
      isIFrame := (info.frameIdx slot).frameType = .CRB_FRAME_I_SLICE }

/-- `RequestReadContinuousFrames`.  The loop that stores the entries counts
them in a `uint8_t`, so it does not end for more than 255. -/
def requestReadContinuousFrames (obj : Object) (frameCount : Nat) :
    Except Fault (RingBufInfo × Object × ReadAnswer) := do
  let which := obj.m_userIdx
  let info ← info.deleteBlackHoleOwnedBy (info.consumers which).name
  let user := info.consumers which
  match info.indexFindNextFrame info.productorIndex user.index
      (ofType (info.readType user .CRB_FRAME_ANY)) with
  | none => return (info, obj, .unavailable)
  | some nextAlignedFrame =>
      match info.indexFindNextFrame info.productorIndex
          (advanceIndex nextAlignedFrame 1) startsRun with
      | none => return (info, obj, .unavailable)
      | some nextNextAlignedFrame =>
          let found := (nextNextAlignedFrame + MAX_FRAME_NUM -
            nextAlignedFrame) % MAX_FRAME_NUM
          let totalIdxCount := min found frameCount
          let endFrame := stepbackIndex
            (stepbackIndex nextNextAlignedFrame (found - totalIdxCount)) 1
          let readOffset := (info.frameIdx nextAlignedFrame).offset
          let readSize :=
            info.bufferLen readOffset (info.frameIdx endFrame).offset +
              (info.frameIdx endFrame).length
          if info.requestReadPtr obj readOffset info.productorOffset
              readSize then
            if totalIdxCount ≤ 255 then
              let info :=
                info.moveConsumer which nextAlignedFrame readOffset false
              let info :=
                info.setConsumerRefIdx which nextAlignedFrame endFrame
              let info := info.setConsumerState which .USER_HOLDING_FRAME
              let slots := CyclicWindows.walk MAX_FRAME_NUM nextAlignedFrame
                totalIdxCount
              return (info.clearConsumerMoved which,
                { obj with m_lastReadBytes := readSize },
                .frames readOffset readSize
                  (info.frameIdxs nextAlignedFrame slots))
            else
              throw .endless
          else
            return (info, obj, .unavailable)

/-- `CommitRead`; no `size` stands for `COMMIT_LAST_REQUESTED_SIZE`. -/
def commitRead (obj : Object) (size : Option Nat) :
    Except Fault (RingBufInfo × Object) := do
  let commitBytes := size.getD obj.m_lastReadBytes
  if obj.m_lastReadBytes < commitBytes then
    throw .commitRead
  else
    let which := obj.m_userIdx
    let info ← info.deleteBlackHoleOwnedBy (info.consumers which).name
    if obj.m_lastReadBytes = 0 then
      return (info, obj)
    else
      let user := info.consumers which
      let info := if user.movedByProductor then info else
        info.moveConsumer which (advanceIndex user.refIdxEnd 1)
          (info.advanceOffset user.offset commitBytes) false
      let info := info.setConsumerState which .USER_FREE
      return (info.clearConsumerMoved which,
        { obj with m_lastReadBytes := 0 })

/-- `DiscardAllData`. -/
def discardAllData (obj : Object) : Except Fault (RingBufInfo × Object) := do
  let which := obj.m_userIdx
  let info ← info.deleteBlackHoleOwnedBy (info.consumers which).name
  let info := info.moveConsumer which info.productorIndex
    info.productorOffset true
  let info := info.setConsumerState which .USER_FREE
  return (info.clearConsumerMoved which, { obj with m_lastReadBytes := 0 })

/-- The common end of the two explicit moves: release the hole and go to a
slot, without a change of state. -/
def indexMoveTo (obj : Object) (slot : Nat) :
    Except Fault RingBufInfo := do
  let which := obj.m_userIdx
  let info ← info.deleteBlackHoleOwnedBy (info.consumers which).name
  return info.moveConsumer which slot (info.frameIdx slot).offset true

/-- `IndexMoveToSpecifiedTime`. -/
def indexMoveToSpecifiedTime (obj : Object) (type : FRAME_E)
    (timeStamp : Int) : Except Fault RingBufInfo :=
  match info.indexFindSpecifiedTimeFrameInstance info.productorIndex
      info.findOldesValidIndex type timeStamp with
  | some slot => info.indexMoveTo obj slot
  | none => .ok info

/-- `IndexMoveToOldest`. -/
def indexMoveToOldest (obj : Object) : Except Fault RingBufInfo :=
  info.indexMoveTo obj info.findOldesValidIndex

/-- The ring after the hole of consumer `which` is gone. -/
def releaseHole (which : Nat) : RingBufInfo :=
  { info with
    holes := info.holes.filter fun hole =>
      hole.blockerName ≠ (info.consumers which).name }

/-- The ring after a request gave consumer `which` the frames from slot `first`
to slot `last`. -/
def holdFrames (which first last : Nat) : RingBufInfo :=
  info.updateConsumer which fun user =>
    { user with
      offset := (info.frameIdx first).offset
      index := first
      refIdxStart := first
      refIdxEnd := last
      state := .USER_HOLDING_FRAME
      movedByProductor := false
      waitIFrame := false }

theorem keepsUsers_releaseHole (which : Nat) :
    KeepsUsers info (info.releaseHole which) :=
  keepsUsers_holes info _

theorem keepsUsers_holdFrames (which first last : Nat) :
    KeepsUsers info (info.holdFrames which first last) :=
  keepsUsers_updateConsumer info fun _ => rfl

/-- A read request releases the reader's hole and then gives no frame, or the
next one of the type. -/
theorem requestReadFrame_cases {info after : RingBufInfo} {obj obj' : Object}
    {type : FRAME_E} {answer : ReadAnswer}
    (requests : info.requestReadFrame obj type = .ok (after, obj', answer)) :
    let released := info.releaseHole obj.m_userIdx
    (after = released ∧ obj' = obj ∧ answer = .unavailable) ∨
      ∃ slot, released.indexFindNextFrame released.productorIndex
          (released.consumers obj.m_userIdx).index
          (ofType (released.readType (released.consumers obj.m_userIdx)
            type)) = some slot ∧
        released.requestReadPtr obj (released.frameIdx slot).offset
          released.productorOffset (released.frameIdx slot).length ∧
        after = released.holdFrames obj.m_userIdx slot slot ∧
        obj' = { obj with
          m_lastReadBytes := (released.frameIdx slot).length } ∧
        answer = .frame (released.frameIdx slot).offset
          (released.frameIdx slot).length
          ((released.frameIdx slot).frameType = .CRB_FRAME_I_SLICE) := by
  intro released
  obtain ⟨middle, releases, rest⟩ := bind_eq_ok_iff.mp requests
  rw [deleteBlackHoleOwnedBy_eq] at releases
  obtain rfl : released = middle := Except.ok.inj releases
  clear_value released
  dsimp only at rest
  cases next : released.indexFindNextFrame released.productorIndex
      (released.consumers obj.m_userIdx).index
      (ofType (released.readType (released.consumers obj.m_userIdx)
        type)) with
  | none =>
      rw [next] at rest
      cases rest
      exact .inl ⟨rfl, rfl, rfl⟩
  | some slot =>
      rw [next] at rest
      dsimp only at rest
      by_cases readable : released.requestReadPtr obj
          (released.frameIdx slot).offset released.productorOffset
          (released.frameIdx slot).length
      · rw [if_pos readable] at rest
        cases rest
        refine .inr ⟨slot, rfl, readable, ?_, rfl, rfl⟩
        simp [holdFrames, moveConsumer, setConsumerState, clearConsumerMoved,
          updateConsumer]
      · rw [if_neg readable] at rest
        cases rest
        exact .inl ⟨rfl, rfl, rfl⟩

/-- A continuous read request releases the reader's hole and then gives no
frame, or a run of frames. -/
theorem requestReadContinuousFrames_cases {info after : RingBufInfo}
    {obj obj' : Object} {frameCount : Nat} {answer : ReadAnswer}
    (requests : info.requestReadContinuousFrames obj frameCount =
      .ok (after, obj', answer)) :
    let released := info.releaseHole obj.m_userIdx
    (after = released ∧ obj' = obj ∧ answer = .unavailable) ∨
      ∃ first next count,
        released.indexFindNextFrame released.productorIndex
            (released.consumers obj.m_userIdx).index
            (ofType (released.readType (released.consumers obj.m_userIdx)
              .CRB_FRAME_ANY)) = some first ∧
        released.indexFindNextFrame released.productorIndex
            (advanceIndex first 1) startsRun = some next ∧
        count = min ((next + MAX_FRAME_NUM - first) % MAX_FRAME_NUM)
          frameCount ∧
        let last := stepbackIndex (stepbackIndex next
          ((next + MAX_FRAME_NUM - first) % MAX_FRAME_NUM - count)) 1
        let readSize := released.bufferLen (released.frameIdx first).offset
            (released.frameIdx last).offset + (released.frameIdx last).length
        released.requestReadPtr obj (released.frameIdx first).offset
            released.productorOffset readSize ∧
          after = released.holdFrames obj.m_userIdx first last ∧
          obj' = { obj with m_lastReadBytes := readSize } ∧
          answer = .frames (released.frameIdx first).offset readSize
            (released.frameIdxs first
              (CyclicWindows.walk MAX_FRAME_NUM first count)) := by
  intro released
  obtain ⟨middle, releases, rest⟩ := bind_eq_ok_iff.mp requests
  rw [deleteBlackHoleOwnedBy_eq] at releases
  obtain rfl : released = middle := Except.ok.inj releases
  clear_value released
  dsimp only at rest
  cases aligned : released.indexFindNextFrame released.productorIndex
      (released.consumers obj.m_userIdx).index
      (ofType (released.readType (released.consumers obj.m_userIdx)
        .CRB_FRAME_ANY)) with
  | none =>
      rw [aligned] at rest
      cases rest
      exact .inl ⟨rfl, rfl, rfl⟩
  | some first =>
      rw [aligned] at rest
      dsimp only at rest
      cases found : released.indexFindNextFrame released.productorIndex
          (advanceIndex first 1) startsRun with
      | none =>
          rw [found] at rest
          cases rest
          exact .inl ⟨rfl, rfl, rfl⟩
      | some next =>
          rw [found] at rest
          dsimp only at rest
          split at rest
          · rename_i readable
            split at rest
            · cases rest
              refine .inr ⟨first, next, _, rfl, found, rfl, readable, ?_, rfl,
                rfl⟩
              simp [holdFrames, moveConsumer, setConsumerRefIdx,
                setConsumerState, clearConsumerMoved, updateConsumer]
            · cases rest
          · cases rest
            exact .inl ⟨rfl, rfl, rfl⟩

/-- The slot of a reader whose commit frees it. -/
def freeFrames (which offset : Nat) : RingBufInfo :=
  info.updateConsumer which fun user =>
    if user.movedByProductor then
      { user with state := .USER_FREE, movedByProductor := false }
    else
      { user with
        offset := offset
        index := advanceIndex user.refIdxEnd 1
        refIdxStart := advanceIndex user.refIdxEnd 1
        refIdxEnd := advanceIndex user.refIdxEnd 1
        state := .USER_FREE
        movedByProductor := false
        waitIFrame := false }

theorem keepsUsers_freeFrames (which offset : Nat) :
    KeepsUsers info (info.freeFrames which offset) := by
  apply keepsUsers_updateConsumer
  intro user
  split <;> rfl

theorem commitRead_cases {info after : RingBufInfo} {obj obj' : Object}
    {size : Option Nat}
    (commits : info.commitRead obj size = .ok (after, obj')) :
    let released := info.releaseHole obj.m_userIdx
    size.getD obj.m_lastReadBytes ≤ obj.m_lastReadBytes ∧
      (obj.m_lastReadBytes = 0 ∧ after = released ∧ obj' = obj ∨
        0 < obj.m_lastReadBytes ∧
          after = released.freeFrames obj.m_userIdx
            (info.advanceOffset (info.consumers obj.m_userIdx).offset
              (size.getD obj.m_lastReadBytes)) ∧
          obj' = { obj with m_lastReadBytes := 0 }) := by
  intro released
  unfold commitRead at commits
  dsimp only at commits
  by_cases exceeds : obj.m_lastReadBytes < size.getD obj.m_lastReadBytes
  · rw [if_pos exceeds] at commits
    cases commits
  rw [if_neg exceeds] at commits
  refine ⟨Nat.le_of_not_lt exceeds, ?_⟩
  obtain ⟨middle, releases, rest⟩ := bind_eq_ok_iff.mp commits
  rw [deleteBlackHoleOwnedBy_eq] at releases
  obtain rfl : released = middle := Except.ok.inj releases
  by_cases nothing : obj.m_lastReadBytes = 0
  · rw [if_pos nothing] at rest
    obtain ⟨isAfter, rfl⟩ := Prod.mk.inj (Except.ok.inj rest)
    exact .inl ⟨nothing, isAfter.symm, rfl⟩
  rw [if_neg nothing] at rest
  obtain ⟨isAfter, rfl⟩ := Prod.mk.inj (Except.ok.inj rest)
  refine .inr ⟨Nat.pos_of_ne_zero nothing, isAfter.symm.trans ?_, rfl⟩
  cases moved : (released.consumers obj.m_userIdx).movedByProductor with
  | true =>
      simp [freeFrames, setConsumerState, clearConsumerMoved, updateConsumer,
        moved]
  | false =>
      simp [freeFrames, setConsumerState, clearConsumerMoved, moveConsumer,
        updateConsumer, moved]
      rfl

/-- Discarding releases the hole and goes to the productor. -/
theorem discardAllData_eq (obj : Object) :
    info.discardAllData obj =
      .ok ((info.releaseHole obj.m_userIdx).updateConsumer obj.m_userIdx
          fun user =>
            { user with
              offset := info.productorOffset
              index := info.productorIndex
              refIdxStart := info.productorIndex
              refIdxEnd := info.productorIndex
              state := .USER_FREE
              movedByProductor := false
              waitIFrame := true },
        { obj with m_lastReadBytes := 0 }) := by
  rw [discardAllData, deleteBlackHoleOwnedBy_eq]
  simp only [bind, Except.bind, pure, Except.pure, moveConsumer,
    setConsumerState, clearConsumerMoved, updateConsumer_updateConsumer]
  rfl

theorem indexMoveTo_eq (obj : Object) (slot : Nat) :
    info.indexMoveTo obj slot =
      .ok ((info.releaseHole obj.m_userIdx).moveConsumer obj.m_userIdx slot
        (info.frameIdx slot).offset true) := by
  rw [indexMoveTo, deleteBlackHoleOwnedBy_eq]
  rfl

/-- An explicit move by time goes to a slot or does nothing. -/
theorem indexMoveToSpecifiedTime_cases {info after : RingBufInfo}
    {obj : Object} {type : FRAME_E} {timeStamp : Int}
    (moves : info.indexMoveToSpecifiedTime obj type timeStamp = .ok after) :
    after = info ∨ ∃ slot, info.indexMoveTo obj slot = .ok after := by
  unfold indexMoveToSpecifiedTime at moves
  split at moves
  · exact .inr ⟨_, moves⟩
  · exact .inl (Except.ok.inj moves).symm

theorem requestReadFrame_returns (obj : Object) (type : FRAME_E) :
    ∃ result, info.requestReadFrame obj type = .ok result := by
  rw [requestReadFrame, deleteBlackHoleOwnedBy_eq]
  simp only [bind, Except.bind]
  split
  · exact ⟨_, rfl⟩
  · split
    · exact ⟨_, rfl⟩
    · exact ⟨_, rfl⟩

theorem requestReadContinuousFrames_error {info : RingBufInfo}
    {obj : Object} {frameCount : Nat} {fault : Fault}
    (fails : info.requestReadContinuousFrames obj frameCount = .error fault) :
    fault = .endless := by
  rw [requestReadContinuousFrames, deleteBlackHoleOwnedBy_eq] at fails
  simp only [bind, Except.bind] at fails
  split at fails
  · cases fails
  · split at fails
    · cases fails
    · split at fails
      · split at fails
        · cases fails
        · cases fails
          rfl
      · cases fails

theorem commitRead_error {info : RingBufInfo} {obj : Object}
    {size : Option Nat} {fault : Fault}
    (fails : info.commitRead obj size = .error fault) :
    fault = .commitRead := by
  unfold commitRead at fails
  dsimp only at fails
  rw [deleteBlackHoleOwnedBy_eq] at fails
  by_cases exceeds : obj.m_lastReadBytes < size.getD obj.m_lastReadBytes
  · rw [if_pos exceeds] at fails
    cases fails
    rfl
  · rw [if_neg exceeds] at fails
    simp only [bind, Except.bind] at fails
    split at fails
    · cases fails
    · cases fails

theorem indexMoveToSpecifiedTime_returns (obj : Object) (type : FRAME_E)
    (timeStamp : Int) :
    ∃ after, info.indexMoveToSpecifiedTime obj type timeStamp = .ok after := by
  unfold indexMoveToSpecifiedTime
  split
  · exact ⟨_, indexMoveTo_eq info obj _⟩
  · exact ⟨info, rfl⟩

theorem keepsUsers_requestReadFrame {info after : RingBufInfo}
    {obj obj' : Object} {type : FRAME_E} {answer : ReadAnswer}
    (requests : info.requestReadFrame obj type = .ok (after, obj', answer)) :
    KeepsUsers info after := by
  rcases requestReadFrame_cases requests with
    ⟨rfl, _⟩ | ⟨slot, _, _, rfl, _⟩
  · exact keepsUsers_releaseHole _ _
  · exact (keepsUsers_releaseHole _ _).trans (keepsUsers_holdFrames _ _ _ _)

theorem sameUser_requestReadFrame {info after : RingBufInfo}
    {obj obj' : Object} {type : FRAME_E} {answer : ReadAnswer}
    (requests : info.requestReadFrame obj type = .ok (after, obj', answer)) :
    obj.SameUser obj' := by
  rcases requestReadFrame_cases requests with
    ⟨_, rfl, _⟩ | ⟨slot, _, _, _, rfl, _⟩
  · exact ⟨rfl, rfl⟩
  · exact ⟨rfl, rfl⟩

theorem keepsUsers_requestReadContinuousFrames {info after : RingBufInfo}
    {obj obj' : Object} {frameCount : Nat} {answer : ReadAnswer}
    (requests : info.requestReadContinuousFrames obj frameCount =
      .ok (after, obj', answer)) :
    KeepsUsers info after := by
  rcases requestReadContinuousFrames_cases requests with
    ⟨rfl, _⟩ | ⟨_, _, _, _, _, _, _, rfl, _⟩
  · exact keepsUsers_releaseHole _ _
  · exact (keepsUsers_releaseHole _ _).trans (keepsUsers_holdFrames _ _ _ _)

theorem sameUser_requestReadContinuousFrames {info after : RingBufInfo}
    {obj obj' : Object} {frameCount : Nat} {answer : ReadAnswer}
    (requests : info.requestReadContinuousFrames obj frameCount =
      .ok (after, obj', answer)) :
    obj.SameUser obj' := by
  rcases requestReadContinuousFrames_cases requests with
    ⟨_, rfl, _⟩ | ⟨_, _, _, _, _, _, _, _, rfl, _⟩
  · exact ⟨rfl, rfl⟩
  · exact ⟨rfl, rfl⟩

theorem keepsUsers_commitRead {info after : RingBufInfo}
    {obj obj' : Object} {size : Option Nat}
    (commits : info.commitRead obj size = .ok (after, obj')) :
    KeepsUsers info after := by
  rcases (commitRead_cases commits).2 with ⟨_, rfl, _⟩ | ⟨_, rfl, _⟩
  · exact keepsUsers_releaseHole _ _
  · exact (keepsUsers_releaseHole _ _).trans (keepsUsers_freeFrames _ _ _)

theorem sameUser_commitRead {info after : RingBufInfo}
    {obj obj' : Object} {size : Option Nat}
    (commits : info.commitRead obj size = .ok (after, obj')) :
    obj.SameUser obj' := by
  rcases (commitRead_cases commits).2 with ⟨_, _, rfl⟩ | ⟨_, _, rfl⟩
  · exact ⟨rfl, rfl⟩
  · exact ⟨rfl, rfl⟩

theorem keepsUsers_discardAllData {info after : RingBufInfo}
    {obj obj' : Object} (discards : info.discardAllData obj =
      .ok (after, obj')) : KeepsUsers info after := by
  rw [discardAllData_eq] at discards
  obtain ⟨rfl, _⟩ := Prod.mk.inj (Except.ok.inj discards)
  exact (keepsUsers_releaseHole _ _).trans
    (keepsUsers_updateConsumer _ fun _ => rfl)

theorem keepsUsers_indexMoveTo {info after : RingBufInfo} {obj : Object}
    {slot : Nat} (moves : info.indexMoveTo obj slot = .ok after) :
    KeepsUsers info after := by
  rw [indexMoveTo_eq] at moves
  obtain rfl := Except.ok.inj moves
  exact (keepsUsers_releaseHole _ _).trans
    (keepsUsers_moveConsumer _ _ _ _ _)

end RingBufInfo

end CRingBuf

end MbedtlsKcp
