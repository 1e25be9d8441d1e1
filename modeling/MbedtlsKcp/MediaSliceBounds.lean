import MbedtlsKcp.MediaSlicePacket

/-!
# What the unpacker reads

`media_data_slice_unpack` believes the headers: how many slices there are, and
how long each is, up to the size of a full slice.  It never compares them with
`srcLen`, so it stays inside its source exactly if the headers lead it to the
end, or to a slice it refuses, before they lead it out.
-/

namespace MbedtlsKcp

namespace MediaSlicePacket

open ByteBuffers

/-- A field of the header that starts at `position`. -/
def headerField (srcdata : List UInt8) (position : Nat) (field : HeaderField) :
    Nat :=
  loadLE (slice srcdata position sliceHeadLen) field.offset field.width

/-- Where slice `i` starts if the headers in front of it are believed. -/
def headerPosition (srcdata : List UInt8) : Nat → Nat
  | 0 => 0
  | i + 1 =>
      headerPosition srcdata i + sliceHeadLen +
        headerField srcdata (headerPosition srcdata i) .m_packetLen

/-- The length that the header of slice `i` claims. -/
def claimedLen (srcdata : List UInt8) (i : Nat) : Nat :=
  headerField srcdata (headerPosition srcdata i) .m_packetLen

/-- The number of slices that the first header claims. -/
def claimedTotal (srcdata : List UInt8) : Nat :=
  headerField srcdata 0 .m_sliceTotalNum

/-- The header and the payload of slice `i` lie in the source, and it is not
longer than a full slice. -/
def SliceFits (srcdata : List UInt8) (i : Nat) : Prop :=
  headerPosition srcdata (i + 1) ≤ srcdata.length ∧
    claimedLen srcdata i ≤ sliceLen

/-- The header of slice `i` lies in the source and claims more than a full
slice. -/
def SliceRefused (srcdata : List UInt8) (i : Nat) : Prop :=
  headerPosition srcdata i + sliceHeadLen ≤ srcdata.length ∧
    sliceLen < claimedLen srcdata i

/-- The headers claim more than is there. -/
def ClaimsMore (srcdata : List UInt8) : Prop :=
  srcdata.length < sliceHeadLen ∨
    ∃ i < claimedTotal srcdata,
      srcdata.length < headerPosition srcdata (i + 1)

/-- A call stays inside its buffers and refuses sources that claim too
much. -/
def UnpackRobust (available : Bool) (frameInfo : FrameInfo)
    (srcdata : List UInt8) : Prop :=
  mediaDataSliceUnpack available frameInfo (some srcdata) srcdata.length ≠
      .error .outOfBounds ∧
    (ClaimsMore srcdata →
      mediaDataSliceUnpack available frameInfo (some srcdata)
        srcdata.length = .error (.returned (-1)))

/-- The headers lead through slices that fit to the last one or to one that is
refused. -/
def EndsInside (srcdata : List UInt8) : Prop :=
  sliceHeadLen ≤ srcdata.length ∧
    ∃ k ≤ claimedTotal srcdata, (∀ i < k, SliceFits srcdata i) ∧
      (k < claimedTotal srcdata → SliceRefused srcdata k)

section Unpacking

variable {srcdata : List UInt8}

/-- The unpacker in front of slice `i`.  The first header is already read. -/
structure AtSlice (srcdata : List UInt8) (i : Nat) (s : UnpackState) :
    Prop where
  first : i = 0 → sliceHeadLen ≤ srcdata.length ∧
    s.headerInfo.bytes = slice srcdata 0 sliceHeadLen
  source : s.srcIndex = headerPosition srcdata i
  dest : s.destIndex ≤ s.srcIndex
  capacity : s.tempDate.length = srcdata.length

/-- What a round does at slice `i`. -/
inductive RoundOutcome (srcdata : List UInt8) (i : Nat) :
    Except Fault UnpackState → Prop
  | fits {s : UnpackState} (slice : SliceFits srcdata i)
      (at_ : AtSlice srcdata (i + 1) s) : RoundOutcome srcdata i (.ok s)
  | refused (slice : SliceRefused srcdata i) :
      RoundOutcome srcdata i (.error (.returned (-1)))
  | outside (fits : ¬ SliceFits srcdata i) (refused : ¬ SliceRefused srcdata i) :
      RoundOutcome srcdata i (.error .outOfBounds)

/-- The payload is read from behind its header, and what is written is never
ahead of what is read. -/
theorem appendPayload_outcome {i : Nat} {s : UnpackState}
    (inside : headerPosition srcdata i + sliceHeadLen ≤ srcdata.length)
    (header : s.headerInfo.bytes =
      slice srcdata (headerPosition srcdata i) sliceHeadLen)
    (source : s.srcIndex = headerPosition srcdata i)
    (dest : s.destIndex ≤ s.srcIndex)
    (capacity : s.tempDate.length = srcdata.length) :
    RoundOutcome srcdata i (appendPayload srcdata s) := by
  have loaded : s.headerInfo.load .m_packetLen = claimedLen srcdata i := by
    rw [SliceDataHeader.load, header]
    rfl
  have ends : headerPosition srcdata (i + 1) =
      headerPosition srcdata i + sliceHeadLen + claimedLen srcdata i := rfl
  unfold appendPayload
  simp only [loaded]
  by_cases short : claimedLen srcdata i ≤ DATA_MAX_MTU_SIZE - sliceHeadLen
  swap
  · rw [if_neg short]
    exact .refused ⟨inside, Nat.lt_of_not_le short⟩
  rw [if_pos short, source]
  by_cases fits : headerPosition srcdata (i + 1) ≤ srcdata.length
  · have readFits : headerPosition srcdata i + sliceHeadLen +
        claimedLen srcdata i ≤ srcdata.length := fits
    have copyFits : s.destIndex + (slice srcdata (headerPosition srcdata i +
        sliceHeadLen) (claimedLen srcdata i)).length ≤
          s.tempDate.length := by
      rw [length_slice readFits, capacity]
      omega
    rw [readFrom_eq_some readFits]
    simp only [inBounds, bind, Except.bind]
    rw [copyInto_eq_some copyFits]
    refine .fits ⟨fits, short⟩ ⟨?_, ?_, ?_, ?_⟩
    · intro zero
      exact absurd zero (Nat.succ_ne_zero i)
    · exact ends.symm
    · simp only
      omega
    · exact (length_overwrite copyFits).trans capacity
  · have unread : readFrom srcdata (headerPosition srcdata i + sliceHeadLen)
        (claimedLen srcdata i) = none := if_neg fits
    rw [unread]
    exact .outside (fun slice => fits slice.1)
      fun refused => absurd refused.2 (Nat.not_lt_of_le short)

theorem unpackSlice_outcome {i : Nat} {s : UnpackState}
    (at_ : AtSlice srcdata i s) :
    RoundOutcome srcdata i (unpackSlice srcdata i s) := by
  by_cases zero : i = 0
  · subst zero
    obtain ⟨inside, header⟩ := at_.first rfl
    rw [unpackSlice, if_pos rfl]
    exact appendPayload_outcome (by simpa [headerPosition] using inside) header
      at_.source at_.dest at_.capacity
  · rw [unpackSlice, if_neg zero]
    by_cases inside : headerPosition srcdata i + sliceHeadLen ≤ srcdata.length
    · rw [readHeader_eq_some (at_.source ▸ inside)]
      refine appendPayload_outcome inside ?_ at_.source at_.dest at_.capacity
      simp only [at_.source]
    · have unread : readHeader srcdata s.srcIndex = none :=
        dif_neg (at_.source ▸ inside)
      have ends : headerPosition srcdata (i + 1) =
          headerPosition srcdata i + sliceHeadLen + claimedLen srcdata i := rfl
      rw [unread]
      refine .outside ?_ fun refused => inside refused.1
      intro fits
      have := fits.1
      omega

/-- What the loop does from slice `i` on. -/
theorem unpackSlices_outcome {remaining i : Nat} {s : UnpackState}
    (at_ : AtSlice srcdata i s) :
    (∃ last, unpackSlices srcdata remaining i s = .ok last ∧
        ∀ j, i ≤ j → j < i + remaining → SliceFits srcdata j) ∨
      ∃ k, i ≤ k ∧ k < i + remaining ∧
        (∀ j, i ≤ j → j < k → SliceFits srcdata j) ∧
        (unpackSlices srcdata remaining i s = .error (.returned (-1)) ∧
            SliceRefused srcdata k ∨
          unpackSlices srcdata remaining i s = .error .outOfBounds ∧
            ¬ SliceFits srcdata k ∧ ¬ SliceRefused srcdata k) := by
  induction remaining generalizing i s with
  | zero => exact .inl ⟨s, rfl, by omega⟩
  | succ remaining ih =>
      rw [unpackSlices]
      have outcome := unpackSlice_outcome at_
      generalize unpackSlice srcdata i s = result at outcome
      cases outcome with
      | refused slice =>
          exact .inr ⟨i, by omega, by omega, by omega, .inl ⟨rfl, slice⟩⟩
      | outside fits refused =>
          exact .inr ⟨i, by omega, by omega, by omega,
            .inr ⟨rfl, fits, refused⟩⟩
      | fits slice next =>
          have before : ∀ bound, (∀ j, i + 1 ≤ j → j < bound →
              SliceFits srcdata j) → ∀ j, i ≤ j → j < bound →
                SliceFits srcdata j := by
            intro bound later j from_ below
            rcases Nat.eq_or_lt_of_le from_ with rfl | further
            · exact slice
            · exact later j further below
          rcases ih next with ⟨last, rest, all⟩ | ⟨k, first, inside, all, ends⟩
          · exact .inl ⟨last, rest, before _ (by
              rwa [show i + (remaining + 1) = i + 1 + remaining by omega])⟩
          · exact .inr ⟨k, by omega, by omega, before k all, ends⟩

/-- A call is robust exactly if the headers lead to an end inside the source;
without memory it refuses everything. -/
theorem unpackRobust_iff (available : Bool) (frameInfo : FrameInfo)
    (srcdata : List UInt8) :
    UnpackRobust available frameInfo srcdata ↔
      available = false ∨ EndsInside srcdata := by
  unfold UnpackRobust mediaDataSliceUnpack
  cases available with
  | false =>
      refine iff_of_true ⟨?_, fun _ => rfl⟩ (.inl rfl)
      simp [calloc, bind, Except.bind]
  | true =>
      simp only [calloc, if_true, bind, Except.bind, Bool.true_eq_false,
        false_or]
      by_cases inside : sliceHeadLen ≤ srcdata.length
      swap
      · have unread : readHeader srcdata 0 = none :=
          dif_neg (by rwa [Nat.zero_add])
        rw [unread]
        exact iff_of_false (fun robust => robust.1 rfl)
          fun ends => inside ends.1
      have read : readHeader srcdata 0 = some
          ⟨slice srcdata 0 sliceHeadLen, length_slice (by omega)⟩ :=
        readHeader_eq_some (by omega)
      rw [read]
      simp only [inBounds]
      have start : AtSlice srcdata 0
          { frameInfo := frameInfo
            headerInfo :=
              ⟨slice srcdata 0 sliceHeadLen, length_slice (by omega)⟩
            tempDate := List.replicate srcdata.length 0
            destIndex := 0
            srcIndex := 0 } :=
        ⟨fun _ => ⟨inside, rfl⟩, rfl, Nat.le_refl 0, List.length_replicate⟩
      have total : SliceDataHeader.load
          ⟨slice srcdata 0 sliceHeadLen, length_slice (by omega)⟩
            .m_sliceTotalNum = claimedTotal srcdata := rfl
      rw [total]
      rcases unpackSlices_outcome start with
        ⟨last, runs, all⟩ | ⟨k, _, below, all, ⟨runs, refused⟩ |
          ⟨runs, unfit, unrefused⟩⟩
      · rw [runs]
        refine iff_of_true ⟨?_, ?_⟩ ⟨inside, claimedTotal srcdata,
          Nat.le_refl _, fun i less => all i (Nat.zero_le i) (by omega),
          fun less => absurd less (Nat.lt_irrefl _)⟩
        · simp only [pure, Except.pure, ne_eq, reduceCtorEq,
            not_false_eq_true]
        · rintro (short | ⟨i, less, beyond⟩)
          · omega
          · have := (all i (Nat.zero_le i) (by omega)).1
            omega
      · rw [runs]
        exact iff_of_true ⟨by simp, fun _ => rfl⟩ ⟨inside, k, by omega,
          fun i less => all i (Nat.zero_le i) less, fun _ => refused⟩
      · rw [runs]
        refine iff_of_false (fun robust => robust.1 rfl) ?_
        rintro ⟨_, last, bounded, fits, ends⟩
        rcases Nat.lt_trichotomy last k with less | rfl | more
        · have refusedAt := (ends (by omega)).2
          have fitsAt := (all last (Nat.zero_le last) less).2
          omega
        · exact unrefused (ends (by omega))
        · exact unfit (fits k more)

/-- A header that claims one slice of one byte, and nothing behind it. -/
theorem not_forall_unpackRobust :
    ¬ ∀ (available : Bool) (frameInfo : FrameInfo) (srcdata : List UInt8),
      UnpackRobust available frameInfo srcdata := by
  intro claimed
  have robust := claimed true ⟨0, 0, 0, 0, 0, 0, 0, 0, 0, 0, 0, 0, 0, 0⟩
    (List.replicate 56 0 ++ [1, 0, 1, 0, 1, 0, 0, 0])
  apply robust.1
  rfl

end Unpacking

end MediaSlicePacket

end MbedtlsKcp
