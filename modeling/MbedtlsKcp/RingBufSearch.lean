import MbedtlsKcp.RingBufReader

/-!
# The I-frame searches of a media channel

Four readers look for a frame to start from.  Three of them walk the index
table up to `uiCurIndex`; `RING_BUF_GetPreOneIFrame` walks it backwards and
compares `uiCurIndex` with `uiOldestIndex` only.  An access to a slot outside
the table is the fault `outOfBounds`.
-/

namespace MbedtlsKcp

namespace RingBufChannel

open CyclicWindows FallibleSteps TransitionRuns

def READSTART_INDEX : Nat := 5

/-- The conversion of an `int` to `UINT`. -/
def toUint (value : Int) : Nat :=
  (value % 2 ^ 32).toNat

/-- The difference of two `UINT`s. -/
def uintSub (first second : Nat) : Nat :=
  (first + 2 ^ 32 - second) % 2 ^ 32

/-- `RING_BUF_GetPreIndex`. -/
def ringBufGetPreIndex (uiIndex : Nat) : Nat :=
  if uintSub uiIndex 1 = 0 then MAX_INDEX else uintSub uiIndex 1

/-- The result of a search: the returned length, `*StartReadIndex` afterwards
and the slot whose frame is stored through the other pointers. -/
structure SearchAnswer where
  nLen : Int
  startReadIndex : Nat
  given : Option Nat

/-- Byte `k` behind the offset of a slot. -/
def slotByte (ring : RingBuf) (slot k : Nat) : UInt8 :=
  ring.pRingBuf ((ring.index slot).offset + k)

/-- The test of `RING_BUF_GetPreIFrame`.  Its last alternative does not look at
the type of the frame. -/
def acceptsPreIFrame (ring : RingBuf) (slot : Nat) : Prop :=
  ((ring.index slot).frameType = RINGBUF_FRAME_TYPE_VIDEO_I ∧
    slotByte ring slot 0 = 0 ∧ slotByte ring slot 1 = 0 ∧
    slotByte ring slot 2 = 0 ∧ slotByte ring slot 3 = 1 ∧
    slotByte ring slot 4 &&& 0x1F = 7) ∨
  slotByte ring slot 4 = 0x40

instance (ring : RingBuf) (slot : Nat) :
    Decidable (acceptsPreIFrame ring slot) :=
  inferInstanceAs (Decidable (_ ∨ _))

/-- The test of the other searches: an I frame that begins with a start
code. -/
def acceptsIFrame (ring : RingBuf) (slot : Nat) : Prop :=
  (ring.index slot).frameType = RINGBUF_FRAME_TYPE_VIDEO_I ∧
  ((slotByte ring slot 0 = 0 ∧ slotByte ring slot 1 = 0 ∧
      slotByte ring slot 2 = 0 ∧ slotByte ring slot 3 = 1) ∨
    (slotByte ring slot 0 = 0 ∧ slotByte ring slot 1 = 0 ∧
      slotByte ring slot 2 = 1))

instance (ring : RingBuf) (slot : Nat) : Decidable (acceptsIFrame ring slot) :=
  inferInstanceAs (Decidable (_ ∧ _))

/-- Rounds after which a search is not going to end: each walks at most once
around the table. -/
def searchRounds : Nat := MAX_INDEX + 1

/-- The start of `RING_BUF_GetPreIFrame`, with `count` for
`(UINT)(frmRate * PreSec)`. -/
def preIFrameStart (ring : RingBuf) (count : Nat) : Nat :=
  if ring.uiOldestIndex < ring.uiCurIndex then
    if ring.uiCurIndex > count then uintSub ring.uiCurIndex count
    else ring.uiOldestIndex
  else
    if ring.uiCurIndex > count then uintSub ring.uiCurIndex count
    else if MAX_INDEX - ring.uiOldestIndex + ring.uiCurIndex > count then
      uintSub MAX_INDEX (uintSub count ring.uiCurIndex)
    else ring.uiOldestIndex

/-- The loop of `RING_BUF_GetPreIFrame` with its `*TimeStamp`.  A `continue`
skips the step to the next slot, which an accepted frame has made already
unless it is empty. -/
def preIFrameLoop (ring : RingBuf) (limitTime : UInt64) :
    Nat → Nat → UInt64 → SearchAnswer → Except Fault SearchAnswer
  | 0, _, _, _ => .error .endless
  | rounds + 1, readIndex, timeStamp, answer =>
      if ring.uiCurIndex ≠ readIndex then
        if MAX_INDEX ≤ readIndex then
          .error .outOfBounds
        else if acceptsPreIFrame ring readIndex then
          if (ring.index readIndex).len ≠ 0 then
            let found : SearchAnswer :=
              { nLen := (ring.index readIndex).len
                startReadIndex := ringBufGetNextIndex readIndex
                given := some readIndex }
            if limitTime > (ring.index readIndex).pts then
              preIFrameLoop ring limitTime rounds
                (ringBufGetNextIndex readIndex) (ring.index readIndex).pts
                found
            else .ok found
          else
            if limitTime > timeStamp then
              preIFrameLoop ring limitTime rounds readIndex timeStamp
                { answer with nLen := 0 }
            else .ok { answer with nLen := 0 }
        else
          preIFrameLoop ring limitTime rounds (ringBufGetNextIndex readIndex)
            timeStamp
            { answer with startReadIndex := ringBufGetNextIndex readIndex }
      else .ok answer

/-- `RING_BUF_GetPreIFrame`; `*TimeStamp` and `*StartReadIndex` are the values
that the caller passes in. -/
def ringBufGetPreIFrame (ring : RingBuf) (PreSec : UInt8) (frmRate : Int)
    (limitTime : UInt64) (hasDataBuf : Bool) (timeStamp : UInt64)
    (startReadIndex : Nat) : Except Fault SearchAnswer :=
  if hasDataBuf = false ∨ ring.nIsInit = false ∨ ring.nIsFull = false then
    .ok ⟨-1, startReadIndex, none⟩
  else
    preIFrameLoop ring limitTime searchRounds
      (preIFrameStart ring (toUint (frmRate * PreSec.toNat))) timeStamp
      ⟨-1, startReadIndex, none⟩

/-- The loop of `RING_BUF_GetPreOneIFrame`. -/
def preOneIFrameLoop (ring : RingBuf) :
    Nat → Nat → Nat → Except Fault SearchAnswer
  | 0, _, _ => .error .endless
  | rounds + 1, readIndex, startReadIndex =>
      if ring.uiCurIndex ≠ ring.uiOldestIndex then
        if MAX_INDEX ≤ readIndex then
          .error .outOfBounds
        else if acceptsIFrame ring readIndex then
          if (ring.index readIndex).len ≠ 0 then
            .ok
              { nLen := (ring.index readIndex).len
                startReadIndex := ringBufGetPreIndex readIndex
                given := some readIndex }
          else .ok ⟨0, startReadIndex, none⟩
        else
          preOneIFrameLoop ring rounds (ringBufGetPreIndex readIndex)
            (ringBufGetPreIndex readIndex)
      else .ok ⟨-1, startReadIndex, none⟩

/-- `RING_BUF_GetPreOneIFrame`. -/
def ringBufGetPreOneIFrame (ring : RingBuf) (hasDataBuf : Bool)
    (PreFlag : UInt8) (startReadIndex : Nat) : Except Fault SearchAnswer :=
  if hasDataBuf = false ∨ ring.nIsInit = false then
    .ok ⟨-1, startReadIndex, none⟩
  else
    preOneIFrameLoop ring searchRounds
      (if PreFlag ≠ 0 then ring.uiOldestIndex else ring.uiCurIndex)
      startReadIndex

/-- The loop of the two searches for the next I frame; `take slot` is the
answer at an accepted slot, given `*StartReadIndex` so far. -/
def nextIFrameLoop (ring : RingBuf) (take : Nat → Nat → SearchAnswer) :
    Nat → Nat → Nat → Except Fault SearchAnswer
  | 0, _, _ => .error .endless
  | rounds + 1, readIndex, startReadIndex =>
      if ring.uiCurIndex ≠ readIndex then
        if MAX_INDEX ≤ readIndex then
          .error .outOfBounds
        else if acceptsIFrame ring readIndex then
          .ok (take readIndex startReadIndex)
        else
          nextIFrameLoop ring take rounds (ringBufGetNextIndex readIndex)
            (ringBufGetNextIndex readIndex)
      else .ok ⟨-1, startReadIndex, none⟩

/-- The start of `RING_BUF_GetNextIFrameAllRecord`. -/
def allRecordStart (ring : RingBuf) (lastReadIndex : Nat) : Nat :=
  if lastReadIndex = 0 then
    if ring.uiCurIndex > READSTART_INDEX then
      uintSub ring.uiCurIndex READSTART_INDEX
    else
      uintSub (ring.uiCurIndex + MAX_INDEX) READSTART_INDEX
  else lastReadIndex

/-- What `RING_BUF_GetNextIFrameAllRecord` answers at an accepted slot. -/
def takeAllRecord (ring : RingBuf) (nBufLen : Int)
    (readIndex startReadIndex : Nat) : SearchAnswer :=
  if nBufLen ≥ (ring.index readIndex).len then
    { nLen := (ring.index readIndex).len
      startReadIndex := ringBufGetNextIndex readIndex
      given := some readIndex }
  else ⟨-1, startReadIndex, none⟩

/-- `RING_BUF_GetNextIFrameAllRecord`. -/
def ringBufGetNextIFrameAllRecord (ring : RingBuf) (hasDataBuf : Bool)
    (nBufLen : Int) (lastReadIndex startReadIndex : Nat) :
    Except Fault SearchAnswer :=
  if hasDataBuf = false ∨ ring.nIsInit = false then
    .ok ⟨-1, startReadIndex, none⟩
  else
    nextIFrameLoop ring (takeAllRecord ring nBufLen) searchRounds
      (allRecordStart ring lastReadIndex) startReadIndex

/-- The start of `RING_BUF_GetNextIFrame`: the one of `RING_BUF_GetPreIFrame`
is computed first and then overwritten. -/
def nextIFrameStart (ring : RingBuf) (preFrmNum : Int) : Nat :=
  if ring.uiCurIndex > toUint preFrmNum then
    uintSub ring.uiCurIndex (toUint preFrmNum)
  else
    uintSub MAX_INDEX (uintSub READSTART_INDEX ring.uiCurIndex)

/-- What `RING_BUF_GetNextIFrame` answers at an accepted slot. -/
def takeNonempty (ring : RingBuf) (readIndex startReadIndex : Nat) :
    SearchAnswer :=
  if (ring.index readIndex).len ≠ 0 then
    { nLen := (ring.index readIndex).len
      startReadIndex := ringBufGetNextIndex readIndex
      given := some readIndex }
  else ⟨0, startReadIndex, none⟩

/-- `RING_BUF_GetNextIFrame`. -/
def ringBufGetNextIFrame (ring : RingBuf) (hasDataBuf : Bool)
    (preFrmNum : Int) (startReadIndex : Nat) : Except Fault SearchAnswer :=
  if hasDataBuf = false ∨ ring.nIsInit = false then
    .ok ⟨-1, startReadIndex, none⟩
  else
    nextIFrameLoop ring (takeNonempty ring) searchRounds
      (nextIFrameStart ring preFrmNum) startReadIndex

/-- A search with the arguments of its caller. -/
inductive SearchCall
  | preIFrame (PreSec : UInt8) (frmRate : Int) (limitTime : UInt64)
      (timeStamp : UInt64)
  | preOneIFrame (PreFlag : UInt8)
  | nextIFrameAllRecord (nBufLen : Int) (lastReadIndex : Nat)
  | nextIFrame (preFrmNum : Int)

/-- The search that a call makes. -/
def search (ring : RingBuf) (hasDataBuf : Bool) (startReadIndex : Nat) :
    SearchCall → Except Fault SearchAnswer
  | .preIFrame PreSec frmRate limitTime timeStamp =>
      ringBufGetPreIFrame ring PreSec frmRate limitTime hasDataBuf timeStamp
        startReadIndex
  | .preOneIFrame PreFlag =>
      ringBufGetPreOneIFrame ring hasDataBuf PreFlag startReadIndex
  | .nextIFrameAllRecord nBufLen lastReadIndex =>
      ringBufGetNextIFrameAllRecord ring hasDataBuf nBufLen lastReadIndex
        startReadIndex
  | .nextIFrame preFrmNum =>
      ringBufGetNextIFrame ring hasDataBuf preFrmNum startReadIndex

end RingBufChannel

end MbedtlsKcp
