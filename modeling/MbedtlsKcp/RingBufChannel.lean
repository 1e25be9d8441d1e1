import MbedtlsKcp.CyclicWindows
import Mathlib.Algebra.Order.Ring.Nat
import Mathlib.Logic.Function.Basic

/-!
# The media ring buffer channels

`RING_BUF_FillBuf` stores one frame in the byte ring of a channel and describes
it in the next slot of the channel's index table.  Once the ring is full it
makes room by moving `uiOldestIndex` forward.
-/

namespace MbedtlsKcp

namespace RingBufChannel

open CyclicWindows

def MAX_CHANNEL_NUM : Nat := 3
def MAX_MAIN_RINGBUF_LEN : Nat := 1572864
def MAX_SUB_RINGBUF_LEN : Nat := 262144
def MAX_INDEX : Nat := 1000

def RINGBUF_FRAME_TYPE_VIDEO_I : Int := 1

/-- The capacity of a channel. -/
def channelLen (nChannel : Fin MAX_CHANNEL_NUM) : Nat :=
  if nChannel.val = 0 then MAX_MAIN_RINGBUF_LEN else MAX_SUB_RINGBUF_LEN

/-- `Index_t`. -/
structure Index where
  frameType : Int
  frameIndex : UInt32
  len : Nat
  offset : Nat
  pts : UInt64
  wTime : UInt64

/-- `RingBuf_t`; the table and the byte buffer are functions of the
position. -/
structure RingBuf where
  nIsInit : Bool
  nIsFull : Bool
  uiMaxLen : Nat
  uiCurPos : Nat
  uiHeadIndex : Nat
  uiCurIndex : Nat
  uiLeftLen : Nat
  uiOldestIndex : Nat
  uinewIFrameIndex : Nat
  index : Nat → Index
  pRingBuf : Nat → UInt8

/-- The arguments of `RING_BUF_FillBuf` after the channel. -/
structure FillCall where
  frameType : Int
  wTime : UInt64
  pts : UInt64
  uiDataLen : Nat
  pData : Nat → UInt8
  frameIndex : UInt32

/-- How a call fails to return. -/
inductive Fault
  | outOfBounds
  | endless
  deriving DecidableEq

/-- A channel as `RING_BUF_Init` leaves it. -/
def ringBufInit (nChannel : Fin MAX_CHANNEL_NUM) (malloced : Nat → UInt8) :
    RingBuf where
  nIsInit := true
  nIsFull := false
  uiMaxLen := channelLen nChannel
  uiCurPos := 0
  uiHeadIndex := 0
  uiCurIndex := 0
  uiLeftLen := channelLen nChannel
  uiOldestIndex := 0
  uinewIFrameIndex := 0
  index := fun _ => ⟨0, 0, 0, 0, 0, 0⟩
  pRingBuf := malloced

/-- `RING_BUF_GetNextIndex`. -/
def ringBufGetNextIndex (uiIndex : Nat) : Nat :=
  next MAX_INDEX uiIndex

/-- Rounds after which an eviction loop that is still running does not end:
one walk over the table frees at least a byte or nothing at all. -/
def evictionRounds (uiDataLen : Nat) : Nat :=
  MAX_INDEX * (uiDataLen + 1)

/-- The eviction loop of a fill that starts again at the beginning of the
buffer: the freed length and the new oldest index. -/
def evictFromHead (index : Nat → Index) (uiDataLen : Nat) :
    Nat → Nat → Nat → Except Fault (Nat × Nat)
  | 0, _, _ => .error .endless
  | rounds + 1, uiLeftLen, uiOldestIndex =>
      if uiLeftLen < uiDataLen then
        evictFromHead index uiDataLen rounds
          ((uiLeftLen + (index uiOldestIndex).len) % 2 ^ 32)
          (ringBufGetNextIndex uiOldestIndex)
      else
        .ok (uiLeftLen, uiOldestIndex)

/-- The eviction loop of a fill that goes on behind the last frame; it also
stops when the oldest frame is the one at the beginning of the buffer. -/
def evictOldest (index : Nat → Index) (uiDataLen toEnd : Nat) :
    Nat → Nat → Nat → Except Fault (Nat × Nat)
  | 0, _, _ => .error .endless
  | rounds + 1, uiLeftLen, uiOldestIndex =>
      if uiLeftLen < uiDataLen then
        if (index uiOldestIndex).offset = 0 then
          .ok (toEnd, uiOldestIndex)
        else
          evictOldest index uiDataLen toEnd rounds
            ((uiLeftLen + (index uiOldestIndex).len) % 2 ^ 32)
            (ringBufGetNextIndex uiOldestIndex)
      else
        .ok (uiLeftLen, uiOldestIndex)

/-- The part of the outer loop for a full ring: make room for `uiDataLen`
bytes.  The second component is the local `uiLeftLen`. -/
def coverData (nChannel : Fin MAX_CHANNEL_NUM) (ring : RingBuf)
    (uiDataLen : Nat) : Except Fault (RingBuf × Nat) :=
  if channelLen nChannel - ring.uiCurPos < uiDataLen then do
    let (uiLeftLen, uiOldestIndex) ← evictFromHead ring.index uiDataLen
      (evictionRounds uiDataLen) 0 ring.uiHeadIndex
    return ({ ring with
      uiCurPos := 0
      uiOldestIndex := uiOldestIndex
      uiHeadIndex := ring.uiCurIndex }, uiLeftLen)
  else do
    let (uiLeftLen, uiOldestIndex) ← evictOldest ring.index uiDataLen
      (ring.uiMaxLen - ring.uiCurPos) (evictionRounds uiDataLen)
      ring.uiLeftLen ring.uiOldestIndex
    return ({ ring with uiOldestIndex := uiOldestIndex }, uiLeftLen)

/-- The outer loop.  It is taken a second time when the ring becomes full. -/
def makeRoom (nChannel : Fin MAX_CHANNEL_NUM) (ring : RingBuf)
    (uiDataLen : Nat) : Except Fault (RingBuf × Nat) :=
  if ring.nIsFull then
    coverData nChannel ring uiDataLen
  else if channelLen nChannel - ring.uiCurPos < uiDataLen then
    coverData nChannel { ring with nIsFull := true } uiDataLen
  else
    .ok (ring, channelLen nChannel - ring.uiCurPos)

/-- `memcpy` of `count` bytes to `position`. -/
def memcpy (buffer : Nat → UInt8) (position count : Nat)
    (source : Nat → UInt8) : Nat → UInt8 :=
  fun i =>
    if position ≤ i ∧ i < position + count then source (i - position)
    else buffer i

/-- The tail of `RING_BUF_FillBuf`: copy the frame and describe it in the slot
`uiCurIndex`. -/
def storeFrame (ring : RingBuf) (call : FillCall) (uiLeftLen : Nat) :
    RingBuf :=
  { ring with
    pRingBuf := memcpy ring.pRingBuf ring.uiCurPos call.uiDataLen call.pData
    index := Function.update ring.index ring.uiCurIndex
      { frameType := call.frameType
        frameIndex := call.frameIndex
        len := call.uiDataLen
        offset := ring.uiCurPos
        pts := call.pts
        wTime := call.wTime }
    uiCurPos := ring.uiCurPos + call.uiDataLen
    uinewIFrameIndex :=
      if call.frameType = RINGBUF_FRAME_TYPE_VIDEO_I then ring.uiCurIndex
      else ring.uinewIFrameIndex
    uiCurIndex := ringBufGetNextIndex ring.uiCurIndex
    uiLeftLen := uiLeftLen - call.uiDataLen }

/-- `RING_BUF_FillBuf` on one channel: the channel afterwards and the return
code. -/
def ringBufFillBuf (nChannel : Fin MAX_CHANNEL_NUM) (ring : RingBuf)
    (call : FillCall) : Except Fault (RingBuf × Int) :=
  if ring.nIsInit then do
    let (ring, uiLeftLen) ← makeRoom nChannel ring call.uiDataLen
    if ring.uiCurPos + call.uiDataLen ≤ channelLen nChannel then
      return (storeFrame ring call uiLeftLen, 0)
    else
      throw .outOfBounds
  else
    return (ring, -1)

/-- A channel with the call that filled each slot last. -/
structure Channel where
  ring : RingBuf
  filledBy : Nat → Option FillCall

/-- `RING_BUF_FillBuf` on channel `nChannel`; the slot filled is recorded when
the call returns 0. -/
def fillStep (nChannel : Fin MAX_CHANNEL_NUM) (channel : Channel)
    (call : FillCall) : Option Channel :=
  match ringBufFillBuf nChannel channel.ring call with
  | .ok (ring, code) =>
      some
        { ring := ring
          filledBy := if code = 0 then
              Function.update channel.filledBy channel.ring.uiCurIndex
                (some call)
            else channel.filledBy }
  | .error _ => none

/-- The channel before its first call. -/
def channelInit (nChannel : Fin MAX_CHANNEL_NUM) (malloced : Nat → UInt8) :
    Channel where
  ring := ringBufInit nChannel malloced
  filledBy := fun _ => none

/-- The slots of the live window. -/
def liveWindow (ring : RingBuf) : List Nat :=
  window MAX_INDEX ring.uiOldestIndex ring.uiCurIndex

end RingBufChannel

end MbedtlsKcp
