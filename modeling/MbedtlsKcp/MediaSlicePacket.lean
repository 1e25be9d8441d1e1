import MbedtlsKcp.ByteBuffers

/-!
# Media slice packets

`media_data_slice_pack` cuts one media frame into slices that fit a datagram
and puts a header before each; `media_data_slice_unpack` walks the headers and
joins the slices again.  Headers travel as the raw bytes of the C structure, so
the layout below is the one of the targets' ABI, where a `long long` is aligned
to eight bytes.
-/

namespace MbedtlsKcp

namespace MediaSlicePacket

open ByteBuffers

def DATA_MAX_MTU_SIZE : Nat := 1376

/-- `sizeof(sliceDataHeader_s)`. -/
def sliceHeadLen : Nat := 64

/-- The bytes of media data in a full slice. -/
def sliceLen : Nat := DATA_MAX_MTU_SIZE - sliceHeadLen

/-- `frameInfo_s`. -/
structure FrameInfo where
  m_headidentifier : UInt16
  m_frameType : UInt16
  m_EncodeType : UInt16
  m_width : UInt16
  m_height : UInt16
  m_frameRate : UInt16
  m_frameGop : UInt16
  m_freamSize : UInt32
  m_frameIndex : UInt64
  m_frmPts : UInt64
  m_utcPts : UInt64
  m_totalfragment : UInt16
  m_fragmentIndex : UInt16
  m_tailidentifier : UInt16
  deriving DecidableEq

/-- The header fields the two functions use. -/
inductive HeaderField
  | m_frameType
  | m_EncodeType
  | m_frameRate
  | m_frameGop
  | m_frameIndex
  | m_frmPts
  | m_utcPts
  | m_sliceTotalNum
  | m_sliceIndex
  | m_packetLen
  deriving DecidableEq

/-- `offsetof` the field in `sliceDataHeader_s`. -/
def HeaderField.offset : HeaderField → Nat
  | m_frameType => 2
  | m_EncodeType => 4
  | m_frameRate => 10
  | m_frameGop => 12
  | m_frameIndex => 24
  | m_frmPts => 32
  | m_utcPts => 40
  | m_sliceTotalNum => 56
  | m_sliceIndex => 58
  | m_packetLen => 60

/-- `sizeof` the field. -/
def HeaderField.width : HeaderField → Nat
  | m_frameIndex | m_frmPts | m_utcPts => 8
  | _ => 2

theorem HeaderField.fits (field : HeaderField) :
    field.offset + field.width ≤ sliceHeadLen := by
  cases field <;> decide

/-- The fields of the header do not overlap. -/
theorem HeaderField.apart {field other : HeaderField}
    (different : other ≠ field) :
    other.offset + other.width ≤ field.offset ∨
      field.offset + field.width ≤ other.offset := by
  cases field <;> cases other <;> first
    | exact absurd rfl different
    | decide

/-- The raw bytes of a `sliceDataHeader_s`. -/
structure SliceDataHeader where
  bytes : List UInt8
  sized : bytes.length = sliceHeadLen

/-- The value of a header field. -/
def SliceDataHeader.load (header : SliceDataHeader) (field : HeaderField) :
    Nat :=
  loadLE header.bytes field.offset field.width

/-- Assign a header field. -/
def SliceDataHeader.store (header : SliceDataHeader) (field : HeaderField)
    (value : Nat) : SliceDataHeader where
  bytes := storeLE header.bytes field.offset field.width value
  sized := (length_storeLE (header.sized.symm ▸ field.fits)).trans header.sized

@[simp]
theorem SliceDataHeader.load_store_same (header : SliceDataHeader)
    (field : HeaderField) (value : Nat) :
    (header.store field value).load field = value % 256 ^ field.width :=
  loadLE_storeLE_same (header.sized.symm ▸ field.fits)

@[simp]
theorem SliceDataHeader.load_store_other (header : SliceDataHeader)
    {field other : HeaderField} (value : Nat) (different : other ≠ field) :
    (header.store field value).load other = header.load other :=
  loadLE_storeLE_other (header.sized.symm ▸ field.fits)
    (HeaderField.apart different)

/-- A bounds-checked copy out of `buffer` into a header. -/
def readHeader (buffer : List UInt8) (position : Nat) :
    Option SliceDataHeader :=
  if fits : position + sliceHeadLen ≤ buffer.length then
    some ⟨slice buffer position sliceHeadLen, length_slice fits⟩
  else
    none

theorem readHeader_eq_some {buffer : List UInt8} {position : Nat}
    (fits : position + sliceHeadLen ≤ buffer.length) :
    readHeader buffer position =
      some ⟨slice buffer position sliceHeadLen, length_slice fits⟩ :=
  dif_pos fits

/-- How a call stops early: an access outside a buffer, or a return code. -/
inductive Fault
  | outOfBounds
  | returned (code : Int)
  deriving DecidableEq

/-- A memory access that must stay inside its buffer. -/
def inBounds {α : Type*} : Option α → Except Fault α
  | some value => .ok value
  | none => .error .outOfBounds

/-- `calloc(size, 1)`. -/
def calloc (available : Bool) (size : Nat) : Except Fault (List UInt8) :=
  if available then
    .ok (List.replicate size 0)
  else
    .error (.returned (-1))

/-- The number of slices of `srcLen` bytes. -/
def totalpkNum (srcLen : Nat) : Nat :=
  srcLen / sliceLen + if srcLen % sliceLen ≠ 0 then 1 else 0

/-- The packer's variables at the top of its loop. -/
structure PackState where
  headerInfo : SliceDataHeader
  tempDate : List UInt8
  destIndex : Nat
  srcIndex : Nat

/-- The assignments to `headerInfo` for slice `i`. -/
def fillHeader (headerInfo : SliceDataHeader) (frameInfo : FrameInfo)
    (total i packetLen : Nat) : SliceDataHeader :=
  headerInfo
    |>.store .m_EncodeType frameInfo.m_EncodeType.toNat
    |>.store .m_frameType frameInfo.m_frameType.toNat
    |>.store .m_frameRate frameInfo.m_frameRate.toNat
    |>.store .m_frameGop frameInfo.m_frameGop.toNat
    |>.store .m_frameIndex frameInfo.m_frameIndex.toNat
    |>.store .m_frmPts frameInfo.m_frmPts.toNat
    |>.store .m_utcPts frameInfo.m_utcPts.toNat
    |>.store .m_sliceTotalNum total
    |>.store .m_sliceIndex (i + 1)
    |>.store .m_packetLen packetLen

/-- One round of the packing loop. -/
def packSlice (frameInfo : FrameInfo) (srcdata : List UInt8)
    (srcLen total i : Nat) (s : PackState) : Except Fault PackState := do
  let packetLen := if i ≠ total - 1 then sliceLen else srcLen - s.srcIndex
  let headerInfo := fillHeader s.headerInfo frameInfo total i packetLen
  let packetLen := headerInfo.load .m_packetLen
  if packetLen ≠ 0 then
    let tempDate ← inBounds
      (copyInto s.tempDate s.destIndex headerInfo.bytes)
    let destIndex := s.destIndex + sliceHeadLen
    let payload ← inBounds (readFrom srcdata s.srcIndex packetLen)
    let tempDate ← inBounds (copyInto tempDate destIndex payload)
    return {
      headerInfo := headerInfo
      tempDate := tempDate
      destIndex := destIndex + packetLen
      srcIndex := s.srcIndex + packetLen }
  else
    return { s with headerInfo := headerInfo }

/-- The packing loop: `remaining` rounds from slice `i` on. -/
def packSlices (frameInfo : FrameInfo) (srcdata : List UInt8)
    (srcLen total : Nat) : Nat → Nat → PackState → Except Fault PackState
  | 0, _, s => .ok s
  | remaining + 1, i, s => do
      let s ← packSlice frameInfo srcdata srcLen total i s
      packSlices frameInfo srcdata srcLen total remaining (i + 1) s

/-- What a packing call that returns 0 stores through its pointers. -/
structure Packed where
  destData : List UInt8
  destLen : Nat
  packetNum : Nat

/-- `media_data_slice_pack`; `stack` is the content of the uninitialised
`headerInfo`. -/
def mediaDataSlicePack (available : Bool) (stack : SliceDataHeader)
    (frameInfo : FrameInfo) (srcdata : List UInt8) (srcLen : Nat) :
    Except Fault Packed := do
  let total := totalpkNum srcLen
  let destData ← calloc available (total * DATA_MAX_MTU_SIZE)
  let s ← packSlices frameInfo srcdata srcLen total total 0
    { headerInfo := stack
      tempDate := destData
      destIndex := 0
      srcIndex := 0 }
  return { destData := s.tempDate, destLen := s.destIndex, packetNum := total }

/-- The unpacker's variables at the top of its loop. -/
structure UnpackState where
  frameInfo : FrameInfo
  headerInfo : SliceDataHeader
  tempDate : List UInt8
  destIndex : Nat
  srcIndex : Nat

/-- The fields copied from the first header. -/
def readFrameInfo (frameInfo : FrameInfo) (headerInfo : SliceDataHeader) :
    FrameInfo :=
  { frameInfo with
    m_EncodeType := UInt16.ofNat (headerInfo.load .m_EncodeType)
    m_frameType := UInt16.ofNat (headerInfo.load .m_frameType)
    m_frameRate := UInt16.ofNat (headerInfo.load .m_frameRate)
    m_frameGop := UInt16.ofNat (headerInfo.load .m_frameGop)
    m_frameIndex := UInt64.ofNat (headerInfo.load .m_frameIndex)
    m_frmPts := UInt64.ofNat (headerInfo.load .m_frmPts)
    m_utcPts := UInt64.ofNat (headerInfo.load .m_utcPts) }

/-- Append the payload that follows a header; both branches of the loop end
this way. -/
def appendPayload (srcdata : List UInt8) (s : UnpackState) :
    Except Fault UnpackState := do
  let srcIndex := s.srcIndex + sliceHeadLen
  let packetLen := s.headerInfo.load .m_packetLen
  if packetLen ≤ DATA_MAX_MTU_SIZE - sliceHeadLen then
    let payload ← inBounds (readFrom srcdata srcIndex packetLen)
    let tempDate ← inBounds (copyInto s.tempDate s.destIndex payload)
    return { s with
      tempDate := tempDate
      srcIndex := srcIndex + packetLen
      destIndex := s.destIndex + packetLen }
  else
    throw (.returned (-1))

/-- One round of the unpacking loop.  The first header was read before the
loop. -/
def unpackSlice (srcdata : List UInt8) (i : Nat) (s : UnpackState) :
    Except Fault UnpackState := do
  if i = 0 then
    appendPayload srcdata
      { s with frameInfo := readFrameInfo s.frameInfo s.headerInfo }
  else
    let headerInfo ← inBounds (readHeader srcdata s.srcIndex)
    appendPayload srcdata { s with headerInfo := headerInfo }

/-- The unpacking loop: `remaining` rounds from slice `i` on. -/
def unpackSlices (srcdata : List UInt8) :
    Nat → Nat → UnpackState → Except Fault UnpackState
  | 0, _, s => .ok s
  | remaining + 1, i, s => do
      let s ← unpackSlice srcdata i s
      unpackSlices srcdata remaining (i + 1) s

/-- What an unpacking call that returns 0 stores through its pointers. -/
structure Unpacked where
  frameInfo : FrameInfo
  destData : List UInt8
  destLen : Nat

/-- `media_data_slice_unpack`; `frameInfo` is the caller's structure before
the call. -/
def mediaDataSliceUnpack (available : Bool) (frameInfo : FrameInfo)
    (srcdata : Option (List UInt8)) (srcLen : Nat) : Except Fault Unpacked :=
  match srcdata with
  | none => .error (.returned (-1))
  | some srcdata => do
      let destData ← calloc available srcLen
      let headerInfo ← inBounds (readHeader srcdata 0)
      let s ← unpackSlices srcdata (headerInfo.load .m_sliceTotalNum) 0
        { frameInfo := frameInfo
          headerInfo := headerInfo
          tempDate := destData
          destIndex := 0
          srcIndex := 0 }
      return {
        frameInfo := s.frameInfo
        destData := s.tempDate
        destLen := s.destIndex }

end MediaSlicePacket

end MbedtlsKcp
