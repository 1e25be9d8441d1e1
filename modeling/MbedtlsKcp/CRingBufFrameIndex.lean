import MbedtlsKcp.CRingBufState
import MbedtlsKcp.CyclicWindows
import Mathlib.Data.List.Basic

/-!
# The frame index table

Every committed frame is described by the next slot of a circular table of
`MAX_FRAME_NUM` slots.  The searches below walk over the slots between a reader
and the productor, or backwards from the productor.
-/

namespace MbedtlsKcp

namespace CRingBuf

open CyclicWindows

theorem advanceIndex_one {first : Nat} (bounded : first < MAX_FRAME_NUM) :
    advanceIndex first 1 = CyclicWindows.next MAX_FRAME_NUM first := by
  unfold advanceIndex CyclicWindows.next MAX_FRAME_NUM at *
  split_ifs <;> omega

/-- A frame of the requested type. -/
def ofType (type : FRAME_E) (frame : FrameIndex) : Bool :=
  type = .CRB_FRAME_ANY ∨ frame.frameType = type

/-- A frame that starts a continuous run: marked `FRAME_NON_CONTINUOUS` or of
the aligned type. -/
def startsRun (frame : FrameIndex) : Bool :=
  frame.continuous = false ∨ frame.frameType = .CRB_FRAME_I_SLICE

namespace RingBufInfo

variable (info : RingBufInfo)

/-- `IndexFindNextFrame`: the first slot from `readIndex` up to `writeIndex`
with a wanted frame; `none` stands for `CRB_ERROR_NO_IDX`. -/
def indexFindNextFrame (writeIndex readIndex : Nat)
    (wanted : FrameIndex → Bool) : Option Nat :=
  (window MAX_FRAME_NUM readIndex writeIndex).find? fun idx =>
    wanted (info.frameIdx idx)

/-- The slots that the backward searches visit, from the newest down to the one
after `readIndex`. -/
def slotsBackTo (writeIndex readIndex : Nat) : List Nat :=
  (window MAX_FRAME_NUM readIndex writeIndex).tail.reverse

/-- `IndexFindLatestFrame`. -/
def indexFindLatestFrame (writeIndex readIndex : Nat) (type : FRAME_E) :
    Option Nat :=
  if info.dataWriten then
    (slotsBackTo writeIndex readIndex).find? fun idx =>
      ofType type (info.frameIdx idx)
  else
    none

/-- The loop of `IndexFindSpecifiedTimeFrameInstance`: the first slot of the
type with a time stamp not after `timeStamp`, or else `closest_idx`. -/
def specifiedTimeSlot (type : FRAME_E) (timeStamp : Int) :
    List Nat → Nat → Nat
  | [], closest_idx => closest_idx
  | idx :: slots, closest_idx =>
      if ofType type (info.frameIdx idx) then
        if (info.frameIdx idx).timeStamp ≠ 0 ∧
            (info.frameIdx idx).timeStamp ≤ timeStamp then
          idx
        else
          specifiedTimeSlot type timeStamp slots idx
      else
        specifiedTimeSlot type timeStamp slots closest_idx

/-- `IndexFindSpecifiedTimeFrameInstance`.  Slot `readIndex` itself is looked
at only when it is slot 0. -/
def indexFindSpecifiedTimeFrameInstance (writeIndex readIndex : Nat)
    (type : FRAME_E) (timeStamp : Int) : Option Nat :=
  if info.dataWriten = false ∨ readIndex = writeIndex then
    none
  else
    some (info.specifiedTimeSlot type timeStamp
      (slotsBackTo writeIndex readIndex ++
        if readIndex = 0 then [0] else []) 0)

/-- The loop of `FindOldesValidIndex`: step back while the distance to the
write offset grows, at most once around the table. -/
def growingFrom : Nat → Nat → Nat → Nat
  | 0, from_, _ => from_
  | rounds + 1, from_, lastBufLen =>
      let bufLen := info.bufferLen (info.frameIdx from_).offset
        info.productorOffset
      if bufLen ≤ lastBufLen then
        from_
      else
        let from_ := stepbackIndex from_ 1
        if from_ = info.productorIndex then from_
        else growingFrom rounds from_ bufLen

/-- `FindOldesValidIndex`. -/
def findOldesValidIndex : Nat :=
  if info.dataWriten then
    advanceIndex
      (info.growingFrom MAX_FRAME_NUM (stepbackIndex info.productorIndex 1) 0)
      1
  else
    info.productorIndex

/-- `IndexFindLatestIFrame`. -/
def indexFindLatestIFrame : Option Nat :=
  info.indexFindLatestFrame info.productorIndex info.findOldesValidIndex
    .CRB_FRAME_I_SLICE

/-- `IndexAdd`: describe a frame in the productor's slot and advance it. -/
def indexAdd (offset length : Nat) (type : FRAME_E) (continuous : Bool)
    (frameTime : Int) : RingBufInfo :=
  { info with
    frameIdx := Function.update info.frameIdx info.productorIndex
      ⟨offset, length, type, continuous, frameTime⟩
    productor :=
      { info.productor with index := advanceIndex info.productorIndex 1 } }

theorem bufferLen_eq_gap {info : RingBufInfo} {start stop : Nat}
    (bounded : start < info.bufSize) (inside : stop < info.bufSize) :
    info.bufferLen start stop = gap info.bufSize start stop :=
  mod_eq_gap bounded inside

/-- The searches only depend on the frame table, the productor and the size of
the buffer. -/
structure SameFrames (info other : RingBufInfo) : Prop where
  frameIdx : other.frameIdx = info.frameIdx
  productor : other.productor = info.productor
  dataWriten : other.dataWriten = info.dataWriten
  bufSize : other.bufSize = info.bufSize

theorem SameFrames.growingFrom {info other : RingBufInfo}
    (same : SameFrames info other) (rounds from_ lastBufLen : Nat) :
    other.growingFrom rounds from_ lastBufLen =
      info.growingFrom rounds from_ lastBufLen := by
  have index : other.productorIndex = info.productorIndex :=
    congrArg RingBufUser.index same.productor
  have distance : ∀ slot, other.bufferLen (other.frameIdx slot).offset
      other.productorOffset =
        info.bufferLen (info.frameIdx slot).offset info.productorOffset := by
    intro slot
    simp only [bufferLen, productorOffset, same.frameIdx, same.productor,
      same.bufSize]
  induction rounds generalizing from_ lastBufLen with
  | zero => rfl
  | succ rounds ih =>
      simp only [RingBufInfo.growingFrom, distance, index, ih]

theorem SameFrames.findOldesValidIndex {info other : RingBufInfo}
    (same : SameFrames info other) :
    other.findOldesValidIndex = info.findOldesValidIndex := by
  simp only [RingBufInfo.findOldesValidIndex, productorIndex, same.productor,
    same.dataWriten, same.growingFrom]

theorem SameFrames.indexFindLatestIFrame {info other : RingBufInfo}
    (same : SameFrames info other) :
    other.indexFindLatestIFrame = info.indexFindLatestIFrame := by
  simp only [RingBufInfo.indexFindLatestIFrame, indexFindLatestFrame,
    productorIndex, same.frameIdx, same.productor, same.dataWriten,
    same.findOldesValidIndex]

end RingBufInfo

end CRingBuf

end MbedtlsKcp
