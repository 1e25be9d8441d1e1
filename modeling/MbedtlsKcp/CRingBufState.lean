import Mathlib.Algebra.Order.Ring.Nat
import Mathlib.Logic.Function.Basic

/-!
# The shared state of a `CRingBuf` ring

All objects on one ring share the header `RingBufInfo` and the data buffer.
Offsets wrap at the buffer size, which every object on the ring agrees on, and
slots of the frame table wrap at `MAX_FRAME_NUM`.  Counters and names that no
modelled function reads are left out.
-/

namespace MbedtlsKcp

namespace CRingBuf

def CRB_DEFAULT_ALIGNMENT : Nat := 512
def MMAP_MIN_PAGE_SIZE : Nat := 4096
def BLACKHOLE_MAX_LIFE_SEC : Nat := 20
def MAX_CONSUMER_NUM : Nat := 10
def MAX_FRAME_NUM : Nat := 896
def MAX_USER_NAME_LEN : Nat := 32
def MAX_RETRY_TIME : Nat := 100

/-- `FRAME_E`. -/
inductive FRAME_E
  | CRB_FRAME_I_SLICE
  | CRB_FRAME_P_SLICE
  | CRB_FRAME_AUDIO
  | CRB_FRAME_JPEG
  | CRB_FRAME_LOG
  | CRB_FRAME_DISCOVERY
  | CRB_FRAME_SEEK
  | CRB_FRAME_END
  | CRB_FRAME_ANY
  deriving DecidableEq

inductive CRB_WRITE_MODE_E
  | CRB_WRITE_MODE_BLOCK
  | CRB_WRITE_MODE_NON_BLOCK
  deriving DecidableEq

/-- The states of a consumer slot. -/
inductive UserState
  | USER_FREE
  | USER_HOLDING_FRAME
  | USER_BLOCKED
  deriving DecidableEq

/-- A user name, without its terminator; the empty name marks a free slot. -/
abbrev UserName := List UInt8

structure FrameIndex where
  offset : Nat
  length : Nat
  frameType : FRAME_E
  continuous : Bool
  timeStamp : Int

structure BlackHole where
  startOffset : Nat
  endOffset : Nat
  createTime : Nat
  blockerName : UserName
  deriving DecidableEq

structure RingBufUser where
  name : UserName
  offset : Nat
  index : Nat
  refIdxStart : Nat
  refIdxEnd : Nat
  state : UserState
  movedByProductor : Bool
  waitIFrame : Bool

/-- The header of a ring; `holes` are the first `holeNum` entries of the hole
table. -/
structure RingBufInfo where
  version : Nat
  jumpOverHole : Bool
  dataWriten : Bool
  liveStream : Bool
  bufSize : Nat
  contiBytesWriten : Nat
  consumers : Nat → RingBufUser
  productor : RingBufUser
  frameIdx : Nat → FrameIndex
  holes : List BlackHole

/-- The members of a `CRingBuf` object that its methods use. -/
structure Object where
  isProductor : Bool
  m_userIdx : Nat
  m_lastWriteBytes : Nat
  m_lastWriteFrameType : FRAME_E
  m_lastAlignmentBytes : Nat
  m_lastReadBytes : Nat

/-- The members of an object that its calls leave alone. -/
def Object.SameUser (obj obj' : Object) : Prop :=
  obj'.isProductor = obj.isProductor ∧ obj'.m_userIdx = obj.m_userIdx

/-- Why a call does not return: a failed assertion of the function named, or a
loop that does not end. -/
inductive Fault
  | construct
  | installUser
  | insertBlackHole
  | deleteBlackHoleByIdx
  | blackHoleSortMerge
  | requestWriteFrame
  | commitWrite
  | commitRead
  | endless
  deriving DecidableEq

/-- A slot after `memset`. -/
def emptyUser : RingBufUser :=
  ⟨[], 0, 0, 0, 0, .USER_FREE, false, false⟩

/-- An entry of the frame table that was never written. -/
def emptyFrame : FrameIndex :=
  ⟨0, 0, .CRB_FRAME_I_SLICE, false, 0⟩

/-- The header in a freshly created file. -/
def freshInfo (bufSize : Nat) : RingBufInfo where
  version := 0
  jumpOverHole := false
  dataWriten := false
  liveStream := false
  bufSize := bufSize
  contiBytesWriten := 0
  consumers := fun _ => emptyUser
  productor := emptyUser
  frameIdx := fun _ => emptyFrame
  holes := []

/-- `ALIGN`. -/
def align (x a : Nat) : Nat :=
  (x + (a - 1)) / a * a

/-- `ADVANCE_INDEX`. -/
def advanceIndex (idx step : Nat) : Nat :=
  (idx + step) % MAX_FRAME_NUM

/-- `STEPBACK_INDEX`. -/
def stepbackIndex (idx step : Nat) : Nat :=
  (idx + MAX_FRAME_NUM - step) % MAX_FRAME_NUM

namespace RingBufInfo

variable (info : RingBufInfo)

/-- `BUFFER_LEN`. -/
def bufferLen (start stop : Nat) : Nat :=
  (info.bufSize + stop - start) % info.bufSize

/-- `ADVANCE_OFFSET`. -/
def advanceOffset (offset bytes : Nat) : Nat :=
  (offset + bytes) % info.bufSize

/-- `ADVANCE_OFFSET2`. -/
def advanceOffset2 (offset bytes bytes1 : Nat) : Nat :=
  (offset + bytes + bytes1) % info.bufSize

/-- `PRODUCTOR_OFFSET`. -/
def productorOffset : Nat :=
  info.productor.offset

/-- `PRODUCTOR_INDEX`. -/
def productorIndex : Nat :=
  info.productor.index

/-- `PRODUCTOR_EXIST`. -/
def productorExist : Prop :=
  info.productor.name ≠ []

/-- `VALID_CONSUMER`. -/
def validConsumer (idx : Nat) : Prop :=
  idx < MAX_CONSUMER_NUM ∧ (info.consumers idx).name ≠ []

instance : Decidable info.productorExist :=
  inferInstanceAs (Decidable (_ ≠ _))

instance (idx : Nat) : Decidable (info.validConsumer idx) :=
  inferInstanceAs (Decidable (_ ∧ _))

/-- The slots that hold a consumer, in the order of the loops over them. -/
def validConsumers : List Nat :=
  (List.range MAX_CONSUMER_NUM).filter fun idx => info.validConsumer idx

/-- Change one consumer slot. -/
def updateConsumer (which : Nat) (change : RingBufUser → RingBufUser) :
    RingBufInfo :=
  { info with
    consumers := Function.update info.consumers which
      (change (info.consumers which)) }

/-- `SetConsumerMoved`. -/
def setConsumerMoved (which : Nat) : RingBufInfo :=
  info.updateConsumer which fun user => { user with movedByProductor := true }

/-- `ClearConsumerMoved`. -/
def clearConsumerMoved (which : Nat) : RingBufInfo :=
  info.updateConsumer which fun user =>
    { user with movedByProductor := false }

/-- `SetConsumerState`. -/
def setConsumerState (which : Nat) (newState : UserState) : RingBufInfo :=
  info.updateConsumer which fun user => { user with state := newState }

/-- `SetConsumerRefIdx`. -/
def setConsumerRefIdx (which refIdxStart refIdxEnd : Nat) : RingBufInfo :=
  info.updateConsumer which fun user =>
    { user with refIdxStart := refIdxStart, refIdxEnd := refIdxEnd }

/-- `MoveConsumer`. -/
def moveConsumer (which newIndex newOffset : Nat) (waitIFrame : Bool) :
    RingBufInfo :=
  info.updateConsumer which fun user =>
    { user with
      index := newIndex
      offset := newOffset
      refIdxStart := newIndex
      refIdxEnd := newIndex
      waitIFrame := waitIFrame }

/-- `GetReadableSize` of two offsets. -/
def getReadableSize (readOffset writeOffset : Nat) : Nat :=
  if readOffset = writeOffset then 0 else info.bufferLen readOffset writeOffset

/-- `GetWritableSize` of two offsets. -/
def getWritableSize (readOffset writeOffset : Nat) : Nat :=
  if readOffset = writeOffset then info.bufSize
  else info.bufferLen writeOffset readOffset

/-- `GetIntalledUserNum`. -/
def getIntalledUserNum : Nat :=
  (if info.productorExist then 1 else 0) + info.validConsumers.length

/-- `CleanAllConsumer`. -/
def cleanAllConsumer : RingBufInfo :=
  { info with
    consumers := fun i =>
      if i < MAX_CONSUMER_NUM ∧ (info.consumers i).name ≠ [] then emptyUser
      else info.consumers i }

/-- `CleanProductor`. -/
def cleanProductor : RingBufInfo :=
  { info with productor := emptyUser }

section Updates

variable {info : RingBufInfo} {which : Nat}
variable {change : RingBufUser → RingBufUser}

@[simp]
theorem updateConsumer_productor :
    (info.updateConsumer which change).productor = info.productor :=
  rfl

@[simp]
theorem updateConsumer_frameIdx :
    (info.updateConsumer which change).frameIdx = info.frameIdx :=
  rfl

@[simp]
theorem updateConsumer_holes :
    (info.updateConsumer which change).holes = info.holes :=
  rfl

@[simp]
theorem updateConsumer_bufSize :
    (info.updateConsumer which change).bufSize = info.bufSize :=
  rfl

@[simp]
theorem updateConsumer_self :
    (info.updateConsumer which change).consumers which =
      change (info.consumers which) :=
  Function.update_self ..

theorem updateConsumer_of_ne {i : Nat} (different : i ≠ which) :
    (info.updateConsumer which change).consumers i = info.consumers i :=
  Function.update_of_ne different ..

/-- Two changes of one slot are one change. -/
@[simp]
theorem updateConsumer_updateConsumer
    {change' : RingBufUser → RingBufUser} :
    (info.updateConsumer which change).updateConsumer which change' =
      info.updateConsumer which (change' ∘ change) := by
  simp [updateConsumer]

end Updates

/-- The users and the size of a ring are the same in both headers. -/
structure KeepsUsers (before after : RingBufInfo) : Prop where
  names : ∀ i, (after.consumers i).name = (before.consumers i).name
  productorName : after.productor.name = before.productor.name
  version : after.version = before.version
  liveStream : after.liveStream = before.liveStream
  bufSize : after.bufSize = before.bufSize

theorem KeepsUsers.refl (info : RingBufInfo) : KeepsUsers info info :=
  ⟨fun _ => rfl, rfl, rfl, rfl, rfl⟩

theorem KeepsUsers.trans {first second third : RingBufInfo}
    (before : KeepsUsers first second) (after : KeepsUsers second third) :
    KeepsUsers first third where
  names i := (after.names i).trans (before.names i)
  productorName := after.productorName.trans before.productorName
  version := after.version.trans before.version
  liveStream := after.liveStream.trans before.liveStream
  bufSize := after.bufSize.trans before.bufSize

/-- A change of a slot that leaves its name alone keeps the users. -/
theorem keepsUsers_updateConsumer {which : Nat}
    {change : RingBufUser → RingBufUser}
    (keepsName : ∀ user, (change user).name = user.name) :
    KeepsUsers info (info.updateConsumer which change) := by
  refine ⟨?_, rfl, rfl, rfl, rfl⟩
  intro i
  by_cases same : i = which
  · rw [same, updateConsumer_self, keepsName]
  · rw [updateConsumer_of_ne same]

theorem keepsUsers_holes (holes : List BlackHole) :
    KeepsUsers info { info with holes := holes } :=
  ⟨fun _ => rfl, rfl, rfl, rfl, rfl⟩

theorem keepsUsers_moveConsumer (which newIndex newOffset : Nat)
    (waitIFrame : Bool) :
    KeepsUsers info
      (info.moveConsumer which newIndex newOffset waitIFrame) :=
  keepsUsers_updateConsumer info fun _ => rfl

theorem KeepsUsers.validConsumer_iff {before after : RingBufInfo}
    (keeps : KeepsUsers before after) (i : Nat) :
    after.validConsumer i ↔ before.validConsumer i := by
  rw [validConsumer, validConsumer, keeps.names i]

theorem mem_validConsumers {info : RingBufInfo} {i : Nat} :
    i ∈ info.validConsumers ↔ info.validConsumer i := by
  simp only [validConsumers, List.mem_filter, List.mem_range,
    decide_eq_true_eq, and_iff_right_iff_imp]
  exact fun valid => valid.1

end RingBufInfo

end CRingBuf

end MbedtlsKcp
