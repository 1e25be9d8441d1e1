import MbedtlsKcp.MediaSlicePacket
import Mathlib.Order.Basic
import Mathlib.Tactic.SplitIfs

/-!
# Unpacking inverts packing

Slice `i` of a frame holds the bytes from `sliceStart srcLen i` up to the start
of the next slice.  The packer leaves a buffer in which every slice has its
header and its payload in place, and the unpacker rebuilds the frame from any
such buffer.
-/

namespace MbedtlsKcp

namespace MediaSlicePacket

open ByteBuffers

/-- Where slice `i` starts in the frame. -/
def sliceStart (srcLen i : Nat) : Nat :=
  min (i * sliceLen) srcLen

/-- The bytes of the frame that slice `i` carries. -/
def packetLen (srcLen i : Nat) : Nat :=
  sliceStart srcLen (i + 1) - sliceStart srcLen i

section SliceBounds

variable {srcLen i : Nat}

theorem lt_totalpkNum_iff : i < totalpkNum srcLen ↔ i * sliceLen < srcLen := by
  have size : sliceLen = 1312 := rfl
  rw [totalpkNum, size]
  split_ifs <;> omega

theorem sliceStart_of_lt (slices : i < totalpkNum srcLen) :
    sliceStart srcLen i = i * sliceLen :=
  Nat.min_eq_left (Nat.le_of_lt (lt_totalpkNum_iff.mp slices))

theorem sliceStart_total : sliceStart srcLen (totalpkNum srcLen) = srcLen :=
  Nat.min_eq_right
    (Nat.not_lt.mp (mt lt_totalpkNum_iff.mpr (Nat.lt_irrefl _)))

theorem sliceStart_add_packetLen (srcLen i : Nat) :
    sliceStart srcLen i + packetLen srcLen i = sliceStart srcLen (i + 1) := by
  have size : sliceLen = 1312 := rfl
  simp only [packetLen, sliceStart, size]
  omega

theorem packetLen_le (srcLen i : Nat) : packetLen srcLen i ≤ sliceLen := by
  have size : sliceLen = 1312 := rfl
  simp only [packetLen, sliceStart, size]
  omega

theorem packetLen_pos (slices : i < totalpkNum srcLen) :
    0 < packetLen srcLen i := by
  have size : sliceLen = 1312 := rfl
  have inside := lt_totalpkNum_iff.mp slices
  simp only [packetLen, sliceStart, size] at inside ⊢
  omega

/-- The length the packer computes: full slices, then what is left. -/
theorem packetLen_eq (slices : i < totalpkNum srcLen) :
    (if i ≠ totalpkNum srcLen - 1 then sliceLen
      else srcLen - sliceStart srcLen i) = packetLen srcLen i := by
  have size : sliceLen = 1312 := rfl
  have inside := lt_totalpkNum_iff.mp slices
  split_ifs with more
  · have next : (i + 1) * sliceLen < srcLen :=
      lt_totalpkNum_iff.mp (by omega)
    simp only [packetLen, sliceStart, size] at inside next ⊢
    omega
  · have last : ¬ (i + 1) * sliceLen < srcLen :=
      mt lt_totalpkNum_iff.mpr (by omega)
    simp only [packetLen, sliceStart, size] at inside last ⊢
    omega

theorem sliceStart_le (srcLen i : Nat) : sliceStart srcLen i ≤ srcLen :=
  Nat.min_le_right _ _

end SliceBounds

/-- What the header of slice `i` values. -/
def fieldValue (frameInfo : FrameInfo) (srcLen i : Nat) : HeaderField → Nat
  | .m_frameType => frameInfo.m_frameType.toNat
  | .m_EncodeType => frameInfo.m_EncodeType.toNat
  | .m_frameRate => frameInfo.m_frameRate.toNat
  | .m_frameGop => frameInfo.m_frameGop.toNat
  | .m_frameIndex => frameInfo.m_frameIndex.toNat
  | .m_frmPts => frameInfo.m_frmPts.toNat
  | .m_utcPts => frameInfo.m_utcPts.toNat
  | .m_sliceTotalNum => totalpkNum srcLen
  | .m_sliceIndex => i + 1
  | .m_packetLen => packetLen srcLen i

/-- Whatever was in the structure before, the packer sets every field. -/
theorem load_fillHeader (headerInfo : SliceDataHeader)
    (frameInfo : FrameInfo) (srcLen i : Nat) (field : HeaderField) :
    (fillHeader headerInfo frameInfo (totalpkNum srcLen) i
        (packetLen srcLen i)).load field =
      fieldValue frameInfo srcLen i field % 256 ^ field.width := by
  cases field <;> simp [fillHeader, fieldValue]

/-- Slice `i` stands in `buffer` with its header and its payload. -/
structure PackedSlice (buffer : List UInt8) (frameInfo : FrameInfo)
    (srcdata : List UInt8) (srcLen i : Nat) : Prop where
  header : ∀ field : HeaderField,
    loadLE (slice buffer (i * DATA_MAX_MTU_SIZE) sliceHeadLen) field.offset
      field.width = fieldValue frameInfo srcLen i field % 256 ^ field.width
  payload : slice buffer (i * DATA_MAX_MTU_SIZE + sliceHeadLen)
    (packetLen srcLen i) =
      slice srcdata (sliceStart srcLen i) (packetLen srcLen i)

/-- The part of a `frameInfo_s` that travels in the first header. -/
def transferred (received frameInfo : FrameInfo) : FrameInfo :=
  { received with
    m_EncodeType := frameInfo.m_EncodeType
    m_frameType := frameInfo.m_frameType
    m_frameRate := frameInfo.m_frameRate
    m_frameGop := frameInfo.m_frameGop
    m_frameIndex := frameInfo.m_frameIndex
    m_frmPts := frameInfo.m_frmPts
    m_utcPts := frameInfo.m_utcPts }

/-- The packer at the top of its loop for slice `i`. -/
structure Packing (frameInfo : FrameInfo) (srcdata : List UInt8)
    (srcLen i : Nat) (s : PackState) : Prop where
  buffer : s.tempDate.length = totalpkNum srcLen * DATA_MAX_MTU_SIZE
  source : s.srcIndex = sliceStart srcLen i
  dest : s.destIndex = i * sliceHeadLen + sliceStart srcLen i
  slices : ∀ j < i, PackedSlice s.tempDate frameInfo srcdata srcLen j

/-- What ends before a copy is still packed after it. -/
theorem PackedSlice.overwrite {buffer srcdata : List UInt8}
    {frameInfo : FrameInfo} {srcLen i position : Nat} (source : List UInt8)
    (packed : PackedSlice buffer frameInfo srcdata srcLen i)
    (inside : position ≤ buffer.length)
    (before : (i + 1) * DATA_MAX_MTU_SIZE ≤ position) :
    PackedSlice (overwrite buffer position source) frameInfo srcdata
      srcLen i := by
  have sizes : DATA_MAX_MTU_SIZE = sliceHeadLen + sliceLen := rfl
  have fits := packetLen_le srcLen i
  constructor
  · rw [slice_overwrite_before inside (by rw [Nat.succ_mul] at before; omega)]
    exact packed.header
  · rw [slice_overwrite_before inside (by rw [Nat.succ_mul] at before; omega)]
    exact packed.payload

section Packing

variable {frameInfo : FrameInfo} {srcdata : List UInt8} {srcLen : Nat}

/-- The field `m_packetLen` is wide enough for every slice. -/
theorem packetLen_mod (i : Nat) :
    packetLen srcLen i % 256 ^ HeaderField.m_packetLen.width =
      packetLen srcLen i := by
  have fits := packetLen_le srcLen i
  have width : 256 ^ HeaderField.m_packetLen.width = 65536 := rfl
  have size : sliceLen = 1312 := rfl
  rw [width, Nat.mod_eq_of_lt (by omega)]

/-- One round of the loop packs one more slice inside the buffer. -/
theorem packSlice_packing {i : Nat} {s : PackState}
    (inside : srcLen ≤ srcdata.length) (more : i < totalpkNum srcLen)
    (packing : Packing frameInfo srcdata srcLen i s) :
    ∃ next, packSlice frameInfo srcdata srcLen (totalpkNum srcLen) i s =
        .ok next ∧ Packing frameInfo srcdata srcLen (i + 1) next := by
  have sizes : DATA_MAX_MTU_SIZE = sliceHeadLen + sliceLen := rfl
  have start := sliceStart_of_lt more
  have positive := packetLen_pos more
  have short := packetLen_le srcLen i
  have ends := sliceStart_add_packetLen srcLen i
  have bounded := sliceStart_le srcLen (i + 1)
  have room : i * DATA_MAX_MTU_SIZE + DATA_MAX_MTU_SIZE ≤
      s.tempDate.length := by
    rw [packing.buffer, ← Nat.succ_mul]
    exact Nat.mul_le_mul_right _ more
  have dest : s.destIndex = i * DATA_MAX_MTU_SIZE := by
    rw [packing.dest, start, sizes, Nat.mul_add]
  obtain ⟨header, filled⟩ : ∃ header, fillHeader s.headerInfo frameInfo
      (totalpkNum srcLen) i (packetLen srcLen i) = header := ⟨_, rfl⟩
  have values := load_fillHeader s.headerInfo frameInfo srcLen i
  rw [filled] at values
  have loaded : header.load .m_packetLen = packetLen srcLen i :=
    (values _).trans (packetLen_mod i)
  have headerFits : s.destIndex + header.bytes.length ≤
      s.tempDate.length := by
    rw [header.sized]
    omega
  obtain ⟨withHeader, stored⟩ : ∃ withHeader,
      overwrite s.tempDate s.destIndex header.bytes = withHeader := ⟨_, rfl⟩
  have kept : withHeader.length = s.tempDate.length :=
    stored ▸ length_overwrite headerFits
  obtain ⟨payload, read⟩ : ∃ payload,
      slice srcdata s.srcIndex (packetLen srcLen i) = payload := ⟨_, rfl⟩
  have source : s.srcIndex + packetLen srcLen i ≤ srcdata.length := by
    rw [packing.source]
    omega
  have payloadLength : payload.length = packetLen srcLen i :=
    read ▸ length_slice source
  have payloadFits : s.destIndex + sliceHeadLen + payload.length ≤
      withHeader.length := by
    omega
  have steps : packSlice frameInfo srcdata srcLen (totalpkNum srcLen) i s =
      .ok { headerInfo := header
            tempDate := overwrite withHeader (s.destIndex + sliceHeadLen) payload
            destIndex := s.destIndex + sliceHeadLen + packetLen srcLen i
            srcIndex := s.srcIndex + packetLen srcLen i } := by
    unfold packSlice
    simp only [packing.source, packetLen_eq more, filled, loaded]
    rw [if_pos (by omega), copyInto_eq_some headerFits, stored,
      ← packing.source, readFrom_eq_some source, read]
    simp only [inBounds, bind, Except.bind]
    rw [copyInto_eq_some payloadFits]
    rfl
  refine ⟨_, steps, ?_, ?_, ?_, ?_⟩
  · exact (length_overwrite payloadFits).trans (kept.trans packing.buffer)
  · rw [packing.source, ends]
  · simp only [packing.dest, Nat.succ_mul]
    omega
  · intro j earlier
    rcases Nat.lt_succ_iff_lt_or_eq.mp earlier with before | rfl
    · have ended : (j + 1) * DATA_MAX_MTU_SIZE ≤ s.destIndex := by
        rw [dest]
        exact Nat.mul_le_mul_right _ before
      have kept := (packing.slices j before).overwrite header.bytes
        (by omega) ended
      rw [stored] at kept
      exact kept.overwrite _ (by omega) (by omega)
    · constructor
      · have copied := slice_overwrite_same header.bytes
          (show s.destIndex ≤ s.tempDate.length by omega)
        rw [stored, header.sized, dest] at copied
        rw [slice_overwrite_before (by omega) (by omega), copied]
        exact values
      · have copied := slice_overwrite_same payload
          (show s.destIndex + sliceHeadLen ≤ withHeader.length by omega)
        rw [payloadLength, dest] at copied
        rw [dest, copied, ← read, packing.source]

theorem packSlices_packing {remaining i : Nat} {s : PackState}
    (inside : srcLen ≤ srcdata.length)
    (count : i + remaining = totalpkNum srcLen)
    (packing : Packing frameInfo srcdata srcLen i s) :
    ∃ last, packSlices frameInfo srcdata srcLen (totalpkNum srcLen)
        remaining i s = .ok last ∧
      Packing frameInfo srcdata srcLen (totalpkNum srcLen) last := by
  induction remaining generalizing i s with
  | zero =>
      obtain rfl : i = totalpkNum srcLen := by omega
      exact ⟨s, rfl, packing⟩
  | succ remaining ih =>
      obtain ⟨next, steps, nextPacking⟩ :=
        packSlice_packing inside (by omega) packing
      obtain ⟨last, rest, lastPacking⟩ := ih (by omega) nextPacking
      refine ⟨last, ?_, lastPacking⟩
      rw [packSlices, steps]
      exact rest

/-- Packing stays inside its buffers and leaves every slice in place. -/
theorem mediaDataSlicePack_packed (stack : SliceDataHeader)
    (frameInfo : FrameInfo) (inside : srcLen ≤ srcdata.length) :
    ∃ packed, mediaDataSlicePack true stack frameInfo srcdata srcLen =
        .ok packed ∧
      packed.destData.length = totalpkNum srcLen * DATA_MAX_MTU_SIZE ∧
      packed.destLen = totalpkNum srcLen * sliceHeadLen + srcLen ∧
      packed.packetNum = totalpkNum srcLen ∧
      ∀ i < totalpkNum srcLen,
        PackedSlice packed.destData frameInfo srcdata srcLen i := by
  let start : PackState :=
    { headerInfo := stack
      tempDate := List.replicate (totalpkNum srcLen * DATA_MAX_MTU_SIZE) 0
      destIndex := 0
      srcIndex := 0 }
  have packing : Packing frameInfo srcdata srcLen 0 start := by
    have none : sliceStart srcLen 0 = 0 := by simp [sliceStart]
    exact ⟨List.length_replicate, none.symm,
      by simp [start, none], by simp⟩
  obtain ⟨last, loop, done⟩ :=
    packSlices_packing inside (Nat.zero_add _) packing
  refine ⟨⟨last.tempDate, last.destIndex, totalpkNum srcLen⟩, ?_,
    done.buffer, ?_, rfl, done.slices⟩
  · change (packSlices frameInfo srcdata srcLen (totalpkNum srcLen)
      (totalpkNum srcLen) 0 start >>= _) = _
    rw [loop]
    rfl
  · exact done.dest.trans (by rw [sliceStart_total])

end Packing

/-- The unpacker at the top of its loop for slice `i`. -/
structure Unpacking (received frameInfo : FrameInfo) (buffer : List UInt8)
    (srcdata : List UInt8) (srcLen i : Nat) (s : UnpackState) : Prop where
  info : s.frameInfo = if i = 0 then received else
    transferred received frameInfo
  first : i = 0 → s.headerInfo.bytes = slice buffer 0 sliceHeadLen
  source : s.srcIndex = i * sliceHeadLen + sliceStart srcLen i
  dest : s.destIndex = sliceStart srcLen i
  capacity : s.tempDate.length = totalpkNum srcLen * sliceHeadLen + srcLen
  bytes : s.tempDate.take s.destIndex = srcdata.take s.destIndex

section Unpacking

variable {received frameInfo : FrameInfo} {buffer srcdata : List UInt8}
variable {srcLen : Nat}

/-- The first header carries the frame information. -/
theorem readFrameInfo_eq {header : SliceDataHeader} (srcLen i : Nat)
    (values : ∀ field, header.load field =
      fieldValue frameInfo srcLen i field % 256 ^ field.width) :
    readFrameInfo received header = transferred received frameInfo := by
  have short : ∀ value : UInt16,
      UInt16.ofNat (value.toNat % 256 ^ 2) = value := by
    intro value
    have width : 256 ^ 2 = 2 ^ 16 := by decide
    rw [width, Nat.mod_eq_of_lt value.toNat_lt, UInt16.ofNat_toNat]
  have long : ∀ value : UInt64,
      UInt64.ofNat (value.toNat % 256 ^ 8) = value := by
    intro value
    have width : 256 ^ 8 = 2 ^ 64 := by decide
    rw [width, Nat.mod_eq_of_lt value.toNat_lt, UInt64.ofNat_toNat]
  simp only [readFrameInfo, transferred, values, fieldValue,
    HeaderField.width, short, long]

/-- The payload behind a header of slice `i` is appended to the frame. -/
theorem appendPayload_unpacking {i : Nat} {s : UnpackState}
    (inside : srcLen ≤ srcdata.length) (more : i < totalpkNum srcLen)
    (room : totalpkNum srcLen * sliceHeadLen + srcLen ≤ buffer.length)
    (packed : PackedSlice buffer frameInfo srcdata srcLen i)
    (header : s.headerInfo.bytes =
      slice buffer (i * DATA_MAX_MTU_SIZE) sliceHeadLen)
    (info : s.frameInfo = transferred received frameInfo)
    (source : s.srcIndex = i * DATA_MAX_MTU_SIZE)
    (dest : s.destIndex = sliceStart srcLen i)
    (capacity : s.tempDate.length =
      totalpkNum srcLen * sliceHeadLen + srcLen)
    (bytes : s.tempDate.take s.destIndex = srcdata.take s.destIndex) :
    ∃ next, appendPayload buffer s = .ok next ∧
      Unpacking received frameInfo buffer srcdata srcLen (i + 1) next := by
  have sizes : DATA_MAX_MTU_SIZE = sliceHeadLen + sliceLen := rfl
  have start := sliceStart_of_lt more
  have short := packetLen_le srcLen i
  have ends := sliceStart_add_packetLen srcLen i
  have bounded := sliceStart_le srcLen (i + 1)
  have heads : (i + 1) * sliceHeadLen ≤
      totalpkNum srcLen * sliceHeadLen := Nat.mul_le_mul_right _ more
  have loaded : s.headerInfo.load .m_packetLen = packetLen srcLen i := by
    rw [SliceDataHeader.load, header]
    exact (packed.header _).trans (packetLen_mod i)
  have position : s.srcIndex + sliceHeadLen =
      i * DATA_MAX_MTU_SIZE + sliceHeadLen := by
    rw [source]
  have readFits : s.srcIndex + sliceHeadLen + packetLen srcLen i ≤
      buffer.length := by
    rw [Nat.succ_mul] at heads
    rw [position, sizes, Nat.mul_add]
    omega
  obtain ⟨payload, isPayload⟩ : ∃ payload,
      slice srcdata (sliceStart srcLen i) (packetLen srcLen i) = payload :=
    ⟨_, rfl⟩
  have read : slice buffer (s.srcIndex + sliceHeadLen) (packetLen srcLen i) =
      payload := by
    rw [position, packed.payload, isPayload]
  have payloadLength : payload.length = packetLen srcLen i :=
    isPayload ▸ length_slice (by omega)
  have copyFits : s.destIndex + payload.length ≤ s.tempDate.length := by
    omega
  have steps : appendPayload buffer s =
      .ok { s with
        tempDate := overwrite s.tempDate s.destIndex payload
        srcIndex := s.srcIndex + sliceHeadLen + packetLen srcLen i
        destIndex := s.destIndex + packetLen srcLen i } := by
    unfold appendPayload
    simp only [loaded]
    rw [if_pos (by omega), readFrom_eq_some readFits, read]
    simp only [inBounds, bind, Except.bind]
    rw [copyInto_eq_some copyFits]
    rfl
  refine ⟨_, steps, ?_, ?_, ?_, ?_, ?_, ?_⟩
  · rw [if_neg (Nat.succ_ne_zero i)]
    exact info
  · intro zero
    exact absurd zero (Nat.succ_ne_zero i)
  · simp only [position, sizes, Nat.mul_add, Nat.succ_mul]
    omega
  · simp only [dest, ends]
  · exact (length_overwrite copyFits).trans capacity
  · have appended := take_overwrite payload
      (show s.destIndex ≤ s.tempDate.length by omega)
    rw [payloadLength] at appended
    simp only [appended, bytes]
    rw [← isPayload, slice, dest, List.take_add]

/-- One round of the loop restores one more slice inside the buffers. -/
theorem unpackSlice_unpacking {i : Nat} {s : UnpackState}
    (inside : srcLen ≤ srcdata.length) (more : i < totalpkNum srcLen)
    (room : totalpkNum srcLen * sliceHeadLen + srcLen ≤ buffer.length)
    (packed : PackedSlice buffer frameInfo srcdata srcLen i)
    (unpacking : Unpacking received frameInfo buffer srcdata srcLen i s) :
    ∃ next, unpackSlice buffer i s = .ok next ∧
      Unpacking received frameInfo buffer srcdata srcLen (i + 1) next := by
  have sizes : DATA_MAX_MTU_SIZE = sliceHeadLen + sliceLen := rfl
  have source : s.srcIndex = i * DATA_MAX_MTU_SIZE := by
    rw [unpacking.source, sliceStart_of_lt more, sizes, Nat.mul_add]
  by_cases first : i = 0
  · subst i
    have header : s.headerInfo.bytes =
        slice buffer (0 * DATA_MAX_MTU_SIZE) sliceHeadLen := by
      rw [unpacking.first rfl, Nat.zero_mul]
    rw [unpackSlice, if_pos rfl]
    refine appendPayload_unpacking inside more room packed header ?_ source
      unpacking.dest unpacking.capacity unpacking.bytes
    have received : s.frameInfo = received := unpacking.info.trans (if_pos rfl)
    rw [received]
    apply readFrameInfo_eq srcLen 0
    intro field
    rw [SliceDataHeader.load, header]
    exact packed.header field
  · have heads : (i + 1) * sliceHeadLen ≤
        totalpkNum srcLen * sliceHeadLen := Nat.mul_le_mul_right _ more
    have bounded := sliceStart_le srcLen i
    have fits : s.srcIndex + sliceHeadLen ≤ buffer.length := by
      rw [Nat.succ_mul] at heads
      rw [unpacking.source]
      omega
    rw [unpackSlice, if_neg first, readHeader_eq_some fits]
    refine appendPayload_unpacking inside more room packed ?_ ?_ source
      unpacking.dest unpacking.capacity unpacking.bytes
    · simp only [source]
    · exact unpacking.info.trans (if_neg first)

theorem unpackSlices_unpacking {remaining i : Nat} {s : UnpackState}
    (inside : srcLen ≤ srcdata.length)
    (room : totalpkNum srcLen * sliceHeadLen + srcLen ≤ buffer.length)
    (packed : ∀ j < totalpkNum srcLen,
      PackedSlice buffer frameInfo srcdata srcLen j)
    (count : i + remaining = totalpkNum srcLen)
    (unpacking : Unpacking received frameInfo buffer srcdata srcLen i s) :
    ∃ last, unpackSlices buffer remaining i s = .ok last ∧
      Unpacking received frameInfo buffer srcdata srcLen
        (totalpkNum srcLen) last := by
  induction remaining generalizing i s with
  | zero =>
      obtain rfl : i = totalpkNum srcLen := by omega
      exact ⟨s, rfl, unpacking⟩
  | succ remaining ih =>
      obtain ⟨next, steps, nextUnpacking⟩ := unpackSlice_unpacking inside
        (by omega) room (packed i (by omega)) unpacking
      obtain ⟨last, rest, lastUnpacking⟩ := ih (by omega) nextUnpacking
      refine ⟨last, ?_, lastUnpacking⟩
      rw [unpackSlices, steps]
      exact rest

/-- Unpacking restores the frame from any buffer that holds its slices. -/
theorem mediaDataSliceUnpack_of_packed (positive : 0 < srcLen)
    (inside : srcLen ≤ srcdata.length)
    (counted : totalpkNum srcLen < 2 ^ 16)
    (room : totalpkNum srcLen * sliceHeadLen + srcLen ≤ buffer.length)
    (packed : ∀ j < totalpkNum srcLen,
      PackedSlice buffer frameInfo srcdata srcLen j) :
    ∃ unpacked, mediaDataSliceUnpack true received (some buffer)
        (totalpkNum srcLen * sliceHeadLen + srcLen) = .ok unpacked ∧
      unpacked.frameInfo = transferred received frameInfo ∧
      unpacked.destLen = srcLen ∧
      unpacked.destData.take srcLen = srcdata.take srcLen := by
  have some_slice : 0 < totalpkNum srcLen :=
    lt_totalpkNum_iff.mpr (by simpa using positive)
  have heads : 1 * sliceHeadLen ≤ totalpkNum srcLen * sliceHeadLen :=
    Nat.mul_le_mul_right _ some_slice
  have headerFits : 0 + sliceHeadLen ≤ buffer.length := by omega
  let header : SliceDataHeader := ⟨_, length_slice headerFits⟩
  have total : header.load .m_sliceTotalNum = totalpkNum srcLen := by
    have value := (packed 0 some_slice).header .m_sliceTotalNum
    rw [Nat.zero_mul] at value
    exact value.trans (Nat.mod_eq_of_lt counted)
  let start : UnpackState :=
    { frameInfo := received
      headerInfo := header
      tempDate := List.replicate
        (totalpkNum srcLen * sliceHeadLen + srcLen) 0
      destIndex := 0
      srcIndex := 0 }
  have none : sliceStart srcLen 0 = 0 := by simp [sliceStart]
  have unpacking : Unpacking received frameInfo buffer srcdata srcLen 0
      start :=
    ⟨rfl, fun _ => rfl, by simp [start, none], none.symm,
      List.length_replicate, rfl⟩
  obtain ⟨last, loop, done⟩ := unpackSlices_unpacking inside room packed
    (Nat.zero_add _) unpacking
  have length : last.destIndex = srcLen := done.dest.trans sliceStart_total
  refine ⟨⟨last.frameInfo, last.tempDate, last.destIndex⟩, ?_, ?_, length, ?_⟩
  · unfold mediaDataSliceUnpack
    simp only [readHeader_eq_some headerFits]
    change (unpackSlices buffer (header.load .m_sliceTotalNum) 0 start >>=
      _) = _
    rw [total, loop]
    rfl
  · exact done.info.trans (if_neg (by omega))
  · have bytes := done.bytes
    rw [length] at bytes
    exact bytes

end Unpacking

/-- Unpacking what was packed returns 0 and gives back the frame and the
transferred part of its information, inside all buffers. -/
theorem mediaDataSliceUnpack_mediaDataSlicePack (stack : SliceDataHeader)
    (frameInfo received : FrameInfo) (srcdata : List UInt8) (srcLen : Nat)
    (positive : 0 < srcLen) (inside : srcLen ≤ srcdata.length)
    (counted : totalpkNum srcLen < 2 ^ 16) :
    ∃ packed unpacked,
      mediaDataSlicePack true stack frameInfo srcdata srcLen = .ok packed ∧
      mediaDataSliceUnpack true received (some packed.destData)
        packed.destLen = .ok unpacked ∧
      unpacked.destLen = srcLen ∧
      unpacked.destData.take unpacked.destLen = srcdata.take srcLen ∧
      unpacked.frameInfo =
        { received with
          m_EncodeType := frameInfo.m_EncodeType
          m_frameType := frameInfo.m_frameType
          m_frameRate := frameInfo.m_frameRate
          m_frameGop := frameInfo.m_frameGop
          m_frameIndex := frameInfo.m_frameIndex
          m_frmPts := frameInfo.m_frmPts
          m_utcPts := frameInfo.m_utcPts } := by
  obtain ⟨packed, packs, capacity, destLen, _, slices⟩ :=
    mediaDataSlicePack_packed stack frameInfo inside
  have sizes : DATA_MAX_MTU_SIZE = sliceHeadLen + sliceLen := rfl
  have room : totalpkNum srcLen * sliceHeadLen + srcLen ≤
      packed.destData.length := by
    have covered : srcLen ≤ totalpkNum srcLen * sliceLen :=
      Nat.not_lt.mp (mt lt_totalpkNum_iff.mpr (Nat.lt_irrefl _))
    rw [capacity, sizes, Nat.mul_add]
    omega
  obtain ⟨unpacked, unpacks, info, length, bytes⟩ :=
    mediaDataSliceUnpack_of_packed positive inside
      counted room slices
  refine ⟨packed, unpacked, packs, ?_, length, ?_, info⟩
  · rw [destLen]
    exact unpacks
  · rw [length]
    exact bytes

/-- One byte travels in one slice. -/
theorem mediaDataSliceUnpack_mediaDataSlicePack_one_byte :
    ∃ packed unpacked,
      mediaDataSlicePack true
        ⟨List.replicate sliceHeadLen 0, List.length_replicate⟩
        ⟨1, 2, 3, 4, 5, 6, 7, 8, 9, 10, 11, 12, 13, 14⟩ [0xAA] 1 =
          .ok packed ∧
      mediaDataSliceUnpack true ⟨0, 0, 0, 0, 0, 0, 0, 0, 0, 0, 0, 0, 0, 0⟩
        (some packed.destData) packed.destLen = .ok unpacked ∧
      unpacked.destLen = 1 ∧
      unpacked.destData.take unpacked.destLen = [0xAA] ∧
      unpacked.frameInfo = ⟨0, 2, 3, 0, 0, 6, 7, 0, 9, 10, 11, 0, 0, 0⟩ :=
  mediaDataSliceUnpack_mediaDataSlicePack _ _ _ [0xAA] 1 (by decide)
    (by decide) (by decide)

end MediaSlicePacket

end MbedtlsKcp
