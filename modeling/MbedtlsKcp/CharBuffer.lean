import MbedtlsKcp.ByteBuffers
import MbedtlsKcp.TransitionRuns

/-!
# The growing character buffer

`char_buf.c` between `char_buffer_init` and `char_buffer_deinit`.  `none` is an
access outside a buffer or a negative size handed to `memcpy`.  Whether
`realloc` grants a request, and what the new bytes are, is part of the call.
-/

namespace MbedtlsKcp

namespace CharBuffers

open ByteBuffers TransitionRuns

/-- `CharBuffer`; `buffer` is the allocated memory. -/
structure CharBuffer where
  init : Bool
  maxSize : Int
  curSize : Int
  buffer : List UInt8

/-- The sum of two `int`s. -/
def intAdd (first second : Int) : Int :=
  (first + second).bmod (2 ^ 32)

/-- An `int` passed as `size_t`; a negative one is larger than any buffer. -/
def sizeT (size : Int) : Option Nat :=
  if 0 ≤ size then some size.toNat else none

/-- `realloc`; `granted` tells what the new bytes are. -/
def realloc (memory : List UInt8) (size : Int)
    (granted : Option (Nat → UInt8)) : Option (List UInt8) := do
  let fresh ← granted
  let size ← sizeT size
  some (memory.take size ++ (List.range (size - memory.length)).map fresh)

/-- `char_buffer_init`, all allocations granted. -/
def charBufferInit (maxSize : Int) : CharBuffer where
  init := true
  maxSize := maxSize
  curSize := 0
  buffer := List.replicate maxSize.toNat 0

namespace CharBuffer

variable (buf : CharBuffer)

/-- The expansion in `char_buffer_write` and the size that is written then. -/
def expand (writeSize : Int) (granted : Option (Nat → UInt8)) :
    CharBuffer × Int :=
  if buf.maxSize - buf.curSize < writeSize then
    let newMaxSize := intAdd buf.curSize writeSize
    match realloc buf.buffer newMaxSize granted with
    | none => (buf, buf.maxSize - buf.curSize)
    | some newBuffer =>
        ({ buf with buffer := newBuffer, maxSize := newMaxSize }, writeSize)
  else
    (buf, writeSize)

def charBufferWrite (buffer : Option (List UInt8)) (writeSize : Int)
    (granted : Option (Nat → UInt8)) : Option (CharBuffer × Int) :=
  match buffer with
  | none => some (buf, -1)
  | some buffer =>
      if buf.init = false then
        some (buf, -1)
      else do
        let (buf, writeSize) := buf.expand writeSize granted
        let source ← readFrom buffer 0 (← sizeT writeSize)
        let written ← copyInto buf.buffer (← sizeT buf.curSize) source
        some ({ buf with
          buffer := written
          curSize := intAdd buf.curSize writeSize }, 0)

/-- What stays after `position` is moved to the start. -/
def shift (position : Int) : Option CharBuffer := do
  let curSize := buf.curSize - position
  let rest ← readFrom buf.buffer (← sizeT position) (← sizeT curSize)
  let moved ← copyInto buf.buffer 0 rest
  some { buf with buffer := moved, curSize := curSize }

/-- The buffer that was read into is the second result. -/
def charBufferRead (buffer : Option (List UInt8)) (maxReadSize : Int) :
    Option (CharBuffer × Option (List UInt8) × Int) :=
  if buf.init = false then
    some (buf, buffer, -1)
  else do
    let readSize :=
      if buf.curSize < maxReadSize then buf.curSize else maxReadSize
    let buffer ← match buffer with
      | none => some none
      | some buffer => do
          let source ← readFrom buf.buffer 0 (← sizeT readSize)
          some (some (← copyInto buffer 0 source))
    some (← buf.shift readSize, buffer, readSize)

def charBufferClear : Option (CharBuffer × Int) :=
  if buf.init = false then
    some (buf, -1)
  else do
    let zeros := List.replicate (← sizeT buf.maxSize) 0
    let cleared ← copyInto buf.buffer 0 zeros
    some ({ buf with buffer := cleared, curSize := 0 }, 0)

/-- The loop of `char_buffer_seek`. -/
def foundPos (target : List UInt8) : Option Nat :=
  (List.range (buf.curSize.toNat - target.length + 1)).find? fun i =>
    slice buf.buffer i target.length = target

def charBufferSeek (target : Option (List UInt8)) (targetSize : Int) :
    Option (CharBuffer × Int) :=
  if buf.init = false then
    some (buf, -1)
  else
    match target with
    | none => some (buf, -1)
    | some target =>
        if targetSize ≤ 0 ∨ buf.curSize < targetSize then
          some (buf, -1)
        else do
          let target ← readFrom target 0 targetSize.toNat
          match buf.foundPos target with
          | none => some (buf, -1)
          | some foundPos =>
              some (← buf.shift (foundPos + targetSize), 0)

end CharBuffer

/-! ## The byte queue -/

inductive Call where
  | write (buffer : Option (List UInt8)) (writeSize : Int)
      (granted : Option (Nat → UInt8))
  | read (buffer : Option (List UInt8)) (maxReadSize : Int)
  | clear
  | seek (target : Option (List UInt8)) (targetSize : Int)

/-- A size that is not negative, and a buffer that has it. -/
def Sized (buffer : Option (List UInt8)) (size : Int) : Prop :=
  0 ≤ size ∧ size < 2 ^ 31 ∧ ∀ bytes ∈ buffer, size ≤ bytes.length

def Call.Valid : Call → Prop
  | .write buffer writeSize _ => Sized buffer writeSize
  | .read buffer maxReadSize => Sized buffer maxReadSize
  | .clear => True
  | .seek target targetSize => Sized target targetSize

/-- The result of a call and, for a read, its buffer. -/
structure Answer where
  ret : Int
  buffer : Option (List UInt8) := none

def CharBuffer.call (buf : CharBuffer) : Call → Option (CharBuffer × Answer)
  | .write buffer writeSize granted =>
      (buf.charBufferWrite buffer writeSize granted).map fun (buf, ret) =>
        (buf, ⟨ret, none⟩)
  | .read buffer maxReadSize =>
      (buf.charBufferRead buffer maxReadSize).map fun (buf, buffer, ret) =>
        (buf, ⟨ret, buffer⟩)
  | .clear => buf.charBufferClear.map fun (buf, ret) => (buf, ⟨ret, none⟩)
  | .seek target targetSize =>
      (buf.charBufferSeek target targetSize).map fun (buf, ret) =>
        (buf, ⟨ret, none⟩)

/-- The bytes a buffer holds. -/
def CharBuffer.content (buf : CharBuffer) : List UInt8 :=
  buf.buffer.take buf.curSize.toNat

/-- How many bytes a write appends: all, or what there is room for when they
do not fit and `realloc` fails. -/
def accepted (room held size : Int) (granted : Option (Nat → UInt8)) : Int :=
  if size ≤ room ∨ granted.isSome = true ∧ held + size < 2 ^ 31 then size
  else room

/-- `front` ends where the first `target` of `content` starts. -/
structure FirstAt (target content front rest : List UInt8) : Prop where
  splits : content = front ++ target ++ rest
  first : ∀ other behind, content = other ++ target ++ behind →
    front.length ≤ other.length

/-- What a call does to a queue of bytes with `room` for more. -/
def Follows (room : Int) (before : List UInt8) :
    Call → Answer → List UInt8 → Prop
  | .write none _ _, answer, after => answer.ret = -1 ∧ after = before
  | .write (some bytes) size granted, answer, after => answer.ret = 0 ∧
      after = before ++
        bytes.take (accepted room before.length size granted).toNat
  | .read buffer size, answer, after =>
      answer.ret = min (before.length : Int) size ∧
      answer.buffer = buffer.map (fun bytes =>
        overwrite bytes 0 (before.take size.toNat)) ∧
      after = before.drop size.toNat
  | .clear, answer, after => answer.ret = 0 ∧ after = []
  | .seek none _, answer, after => answer.ret = -1 ∧ after = before
  | .seek (some bytes) size, answer, after =>
      (0 < size ∧ answer.ret = 0 ∧
        ∃ front, FirstAt (bytes.take size.toNat) before front after) ∨
      ((0 < size → ¬ bytes.take size.toNat <:+: before) ∧
        answer.ret = -1 ∧ after = before)

end CharBuffers

end MbedtlsKcp
