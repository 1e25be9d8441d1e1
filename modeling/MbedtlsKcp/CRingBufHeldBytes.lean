import MbedtlsKcp.CRingBufBlackholeGap
import MbedtlsKcp.CRingBufDisplacement
import MbedtlsKcp.CRingBufOldestExact

/-!
# The bytes of the frames that readers hold

The bytes that a reader holds are those of its slot or, after it was moved, those
of its hole.  While they are not behind the productor, a request stays in front
of the first by the writable size and clear of the second by `BlackholeJump`,
unless the jump ends where a hole reaches the productor and no gap is found.
-/

namespace MbedtlsKcp

namespace CRingBuf

open CyclicSpans CyclicWindows FallibleSteps

/-- Bytes of the ring from an offset on. -/
structure HeldBytes where
  offset : Nat
  length : Nat
  deriving DecidableEq

/-- No byte of the range from `offset` on is one of the bytes. -/
def HeldBytes.Clear (bytes : HeldBytes) (bufSize offset size : Nat) : Prop :=
  ∀ i < size, ∀ j < bytes.length,
    (offset + i) % bufSize ≠ (bytes.offset + j) % bufSize

/-- The bytes of a hole. -/
def BlackHole.bytes (hole : BlackHole) (bufSize : Nat) : HeldBytes where
  offset := hole.startOffset
  length := gap bufSize hole.startOffset hole.endOffset

namespace RingBufInfo

variable (info : RingBufInfo)

/-- The bytes are those of the frames that the slot refers to, or those of its
consumer's hole. -/
def Protects (slot : Nat) (bytes : HeldBytes) : Prop :=
  info.validConsumer slot ∧
    (info.holdsFrame slot ∧ (info.holeOf 0 slot).bytes info.bufSize = bytes ∨
      ∃ hole ∈ info.holes,
        hole.blockerName = (info.consumers slot).name ∧
          hole.bytes info.bufSize = bytes)

/-- The frames that a consumer refers to lie between its position and the
productor, in the buffer and in the frame table. -/
structure InFront (i : Nat) : Prop where
  placed : (info.holeOf 0 i).Placed info.bufSize
  offset : (info.consumers i).offset = (info.holeOf 0 i).startOffset
  index : (info.consumers i).index = (info.consumers i).refIdxStart
  behind : ((info.holeOf 0 i).bytes info.bufSize).length ≤
    gap info.bufSize (info.consumers i).offset info.productorOffset
  first : (info.consumers i).refIdxStart ≠ info.productorIndex
  lastBounded : (info.consumers i).refIdxEnd < MAX_FRAME_NUM
  last : gap MAX_FRAME_NUM (info.consumers i).refIdxStart
        (info.consumers i).refIdxEnd <
      gap MAX_FRAME_NUM (info.consumers i).refIdxStart info.productorIndex ∨
    advanceIndex (info.consumers i).refIdxEnd 1 =
      (info.consumers i).refIdxStart

/-- The holes lie in the buffer, and everybody points into it. -/
structure Sound : Prop where
  invariant : info.HoleInvariant
  indexed : info.Indexed
  placed : ∀ hole ∈ info.holes, hole.Placed info.bufSize
  offset : info.productorOffset < info.bufSize

/-- What consumers hold lies in front of the productor. -/
structure Sheltered : Prop extends info.Sound where
  holding : ∀ i, info.holdsFrame i → info.InFront i

/-- The holes that a request has to stay clear of: those that are not aged, and
those of the consumers it moves because of their index. -/
def standing (now : Nat) : RingBufInfo :=
  let aged := info.withoutAged now
  { aged with
    holes := ((aged.indexFindBlocker.filter fun i => aged.holdsFrame i).map
      (aged.holeOf now)) ++ aged.holes }

/-- If a hole reaches the productor, some gap takes the bytes and no rest of a
hole is missed. -/
def FindsGap (count : Nat) : Prop :=
  (∃ hole ∈ info.holes,
      info.bufSize ≤ (hole.span info.bufSize info.productorOffset).stop) →
    (∃ offset < info.bufSize, info.FreeFrom offset count) ∧
      ¬ info.MissesRest info.productorOffset count

instance (offset count : Nat) : Decidable (info.FreeFrom offset count) :=
  inferInstanceAs (Decidable (∀ hole ∈ info.holes, ∀ i < count, ¬ _))

/-- The position that misses the rest of a hole lies in front of its end. -/
theorem missesRest_iff_bounded {info : RingBufInfo} {origin count : Nat} :
    info.MissesRest origin count ↔
      0 < count ∧ ∃ hole ∈ info.holes,
        ∃ first < (hole.span info.bufSize origin).stop,
          first + info.bufSize < (hole.span info.bufSize origin).stop ∧
          (∀ hole ∈ info.holes,
            (hole.span info.bufSize origin).stop ≤ first ∨
              first + count ≤ (hole.span info.bufSize origin).start) ∧
          ∃ hole ∈ info.holes,
            first + count ≤ (hole.span info.bufSize origin).start ∧
            ∃ free < info.bufSize,
              (hole.span info.bufSize origin).stop ≤ free ∧
              ∀ other ∈ info.holes,
                ¬ ((other.span info.bufSize origin).start ≤ free ∧
                  free < (other.span info.bufSize origin).stop) := by
  constructor
  · rintro ⟨positive, first, ⟨hole, member, rest⟩, avoids, blocked⟩
    exact ⟨positive, hole, member, first, by omega, rest, avoids, blocked⟩
  · rintro ⟨positive, hole, member, first, -, rest, avoids, blocked⟩
    exact ⟨positive, first, ⟨hole, member, rest⟩, avoids, blocked⟩

instance (origin count : Nat) : Decidable (info.MissesRest origin count) :=
  decidable_of_iff _ missesRest_iff_bounded.symm

instance (count : Nat) : Decidable (info.FindsGap count) :=
  inferInstanceAs (Decidable (_ → _ ∧ ¬ _))

/-- A range of `count` bytes, padding included, reaches neither the slot nor the
bytes of a consumer that holds frames. -/
def KeepsAhead (count : Nat) : Prop :=
  ∀ i, info.holdsFrame i →
    count < gap info.bufSize info.productorOffset (info.consumers i).offset ∧
      advanceIndex info.productorIndex 1 ≠ (info.consumers i).refIdxStart

section Moving

variable {info : RingBufInfo} {after : RingBufInfo} {now slot : Nat}
variable {moved : List Nat} {bytes : HeldBytes}

theorem bytes_holeOf (now i : Nat) (bufSize : Nat) :
    (info.holeOf now i).bytes bufSize = (info.holeOf 0 i).bytes bufSize :=
  rfl

theorem InFront.congr {i : Nat} (front : info.InFront i)
    (same : after.consumers i = info.consumers i)
    (frames : after.frames = info.frames) : after.InFront i := by
  have size : after.bufSize = info.bufSize := congrArg Frames.bufSize frames
  have offset : after.productorOffset = info.productorOffset :=
    congrArg Frames.offset frames
  have index : after.productorIndex = info.productorIndex :=
    congrArg Frames.index frames
  have hole : after.holeOf 0 i = info.holeOf 0 i :=
    holeOf_congr same (congrArg Frames.frameIdx frames) size
  constructor
  · rw [hole, size]
    exact front.placed
  · rw [hole, same]
    exact front.offset
  · rw [same]
    exact front.index
  · rw [hole, same, size, offset]
    exact front.behind
  · rw [same, index]
    exact front.first
  · rw [same]
    exact front.lastBounded
  · rw [same, index]
    exact front.last

theorem Displaced.frames (displaced : info.Displaced now moved after) :
    after.frames = info.frames := by
  rw [displaced.rest]
  rfl

theorem Displaced.keeps_valid (displaced : info.Displaced now moved after)
    (i : Nat) : after.validConsumer i ↔ info.validConsumer i := by
  rw [validConsumer, displaced.names i, validConsumer]

/-- Who still holds a frame was not moved. -/
theorem Displaced.holdsFrame {i : Nat}
    (displaced : info.Displaced now moved after) (holds : after.holdsFrame i) :
    i ∉ moved ∧ info.holdsFrame i := by
  have other : i ∉ moved := fun member => displaced.released i member holds.2
  exact ⟨other, (holdsFrame_congr (displaced.others i other)).mp holds⟩

theorem Sheltered.displaced (sheltered : info.Sheltered)
    (displaced : info.Displaced now moved after) : after.Sheltered := by
  have size : after.bufSize = info.bufSize :=
    congrArg Frames.bufSize displaced.frames
  refine ⟨⟨displaced.invariant, displaced.indexed, ?_, ?_⟩, ?_⟩
  · intro hole member
    rw [size]
    rcases List.mem_append.mp (displaced.holes.mem_iff.mp member) with
      new | old
    · obtain ⟨i, isMoved, rfl⟩ := List.mem_map.mp new
      have holds := of_decide_eq_true (List.mem_filter.mp isMoved).2
      have placed := (sheltered.holding i holds).placed
      exact ⟨placed.start, placed.stop, placed.proper⟩
    · exact sheltered.placed hole old
  · rw [size]
    exact (congrArg Frames.offset displaced.frames).trans_lt sheltered.offset
  · intro i holds
    obtain ⟨other, before⟩ := displaced.holdsFrame holds
    exact (sheltered.holding i before).congr (displaced.others i other)
      displaced.frames

/-- A consumer that is moved keeps its bytes as a hole. -/
theorem Protects.displaced (protects : info.Protects slot bytes)
    (displaced : info.Displaced now moved after) :
    after.Protects slot bytes := by
  have size : after.bufSize = info.bufSize :=
    congrArg Frames.bufSize displaced.frames
  obtain ⟨valid, ends⟩ := protects
  refine ⟨(displaced.keeps_valid slot).mpr valid, ?_⟩
  rcases ends with ⟨holds, rfl⟩ | ⟨hole, member, owned, rfl⟩
  · by_cases isMoved : slot ∈ moved
    · refine .inr ⟨info.holeOf now slot, ?_, ?_, ?_⟩
      · apply displaced.holes.mem_iff.mpr
        apply List.mem_append_left
        exact List.mem_map_of_mem
          (List.mem_filter.mpr ⟨isMoved, decide_eq_true holds⟩)
      · exact (displaced.names slot).symm
      · rw [size]
        rfl
    · have same := displaced.others slot isMoved
      refine .inl ⟨(holdsFrame_congr same).mpr holds, ?_⟩
      rw [holeOf_congr same (congrArg Frames.frameIdx displaced.frames) size,
        size]
  · refine .inr ⟨hole, ?_, ?_, ?_⟩
    · exact displaced.holes.mem_iff.mpr (List.mem_append_right _ member)
    · rw [displaced.names slot]
      exact owned
    · rw [size]

theorem Sheltered.withoutAged (sheltered : info.Sheltered) (now : Nat) :
    (info.withoutAged now).Sheltered := by
  refine ⟨⟨?_, ⟨sheltered.indexed.productor, sheltered.indexed.consumers⟩, ?_,
    sheltered.offset⟩, ?_⟩
  · exact sheltered.invariant.mono (fun _ _ _ => rfl) (fun _ valid => valid)
      (fun _ holds => holds) List.filter_sublist
  · intro hole member
    exact sheltered.placed hole (List.mem_filter.mp member).1
  · intro i holds
    exact (sheltered.holding i holds).congr rfl rfl

/-- The owner of an aged hole loses its bytes. -/
theorem Protects.withoutAged (protects : info.Protects slot bytes)
    (young : ∀ hole ∈ info.holes,
      hole.blockerName = (info.consumers slot).name →
        RingBufInfo.aged now hole = false) :
    (info.withoutAged now).Protects slot bytes := by
  obtain ⟨valid, ends⟩ := protects
  refine ⟨valid, ?_⟩
  rcases ends with held | ⟨hole, member, owned, same⟩
  · exact .inl held
  · refine .inr ⟨hole, List.mem_filter.mpr ⟨member, ?_⟩, owned, same⟩
    rw [young hole member owned]
    rfl

end Moving

section Granting

variable {info after : RingBufInfo} {size alignment alignmentBytes : Nat}
variable {offset slot : Nat} {bytes : HeldBytes}

/-- Where a granted range lies, seen from the productor. -/
theorem requestWritePtr_range (inside : info.productorOffset < info.bufSize)
    (requests : info.requestWritePtr size alignment =
      .ok (.granted after alignmentBytes offset)) :
    ∃ jumped,
      info.blackholeJump info.productorOffset size alignment = .ok jumped ∧
      info.bufferLen info.productorOffset jumped + alignment + size <
        info.minWritableSize ∧
      alignmentBytes ≤ alignment ∧
      after = info.skipHoles (info.bufferLen info.productorOffset jumped) ∧
      after.productorOffset = (info.productorOffset +
        info.bufferLen info.productorOffset jumped) % info.bufSize ∧
      offset = (after.productorOffset + alignmentBytes) % info.bufSize := by
  rcases requestWritePtr_cases requests with
    ⟨_, _, _, isOther⟩ | ⟨jumped, jumps, room, ends⟩
  · cases isOther
  have fits := ((lt_minWritableSize_iff info).mp room).1
  have stands : (info.skipHoles
      (info.bufferLen info.productorOffset jumped)).productorOffset =
        (info.productorOffset +
          info.bufferLen info.productorOffset jumped) % info.bufSize := by
    unfold skipHoles
    split
    · rename_i nothing
      rw [nothing, Nat.add_zero, Nat.mod_eq_of_lt inside]
    · rfl
  have skippedInside : (info.skipHoles
      (info.bufferLen info.productorOffset jumped)).productorOffset <
        info.bufSize := by
    rw [stands]
    exact Nat.mod_lt _ (by omega)
  refine ⟨jumped, jumps, room, ?_⟩
  rcases ends with ⟨aligns, isGranted⟩ | ⟨plain, isGranted⟩
  · have padding := bufferLen_align_lt skippedInside
      (Nat.pos_of_ne_zero aligns) (by omega)
    have stop : info.advanceOffset (align (info.skipHoles (info.bufferLen
        info.productorOffset jumped)).productorOffset alignment) 0 <
          info.bufSize :=
      Nat.mod_lt _ (by omega)
    cases isGranted
    refine ⟨Nat.le_of_lt padding, rfl, stands, ?_⟩
    rw [bufferLen_eq_gap skippedInside stop, add_gap_mod skippedInside stop]
  · cases isGranted
    refine ⟨Nat.zero_le _, rfl, stands, ?_⟩
    rw [Nat.add_zero, Nat.mod_eq_of_lt skippedInside]

/-- Offsets that a hole does not cover are clear of its bytes. -/
theorem clear_of_not_covers {hole : BlackHole} {bufSize : Nat}
    (placed : hole.Placed bufSize)
    (free : ∀ i < size, ¬ hole.Covers bufSize ((offset + i) % bufSize)) :
    (hole.bytes bufSize).Clear bufSize offset size := by
  intro i inside j within same
  have short := gap_lt placed.start placed.stop
  apply free i inside
  rw [same, BlackHole.Covers]
  change gap bufSize hole.startOffset
    ((hole.startOffset + j) % bufSize) < _
  rw [gap_add_mod placed.start (Nat.lt_trans within short)]
  exact within

/-- What `BlackholeJump` leaves between two holes is clear of all holes. -/
theorem clear_of_holes (invariant : info.HoleInvariant)
    (placed : ∀ hole ∈ info.holes, hole.Placed info.bufSize)
    (inside : info.productorOffset < info.bufSize)
    (finds : info.FindsGap (size + alignment)) (positive : 0 < size)
    (requests : info.requestWritePtr size alignment =
      .ok (.granted after alignmentBytes offset)) :
    ∀ hole ∈ info.holes,
      (hole.bytes info.bufSize).Clear info.bufSize offset size := by
  obtain ⟨jumped, jumps, room, padding, -, stands, starts⟩ :=
    requestWritePtr_range inside requests
  have fits := ((lt_minWritableSize_iff info).mp room).1
  rw [starts, stands]
  intro hole member
  by_cases reaches : ∃ hole ∈ info.holes,
      info.bufSize ≤ (hole.span info.bufSize info.productorOffset).stop
  · -- the answer is a gap
    obtain ⟨someGap, noRest⟩ := finds reaches
    obtain ⟨jumped', jumps', free⟩ :=
      (blackholeJump_freeFrom_iff info info.productorOffset size alignment
        inside invariant.table.sorted placed someGap).mpr noRest
    obtain rfl := Except.ok.inj (jumps.symm.trans jumps')
    have lands : (info.productorOffset +
        info.bufferLen info.productorOffset jumped) % info.bufSize =
          jumped % info.bufSize := by
      rw [bufferLen, Nat.add_mod_mod,
        show info.productorOffset + (info.bufSize + jumped -
          info.productorOffset) = jumped + info.bufSize by omega,
        Nat.add_mod_right]
    apply clear_of_not_covers (placed hole member)
    intro i within
    have apart := free hole member (alignmentBytes + i) (by omega)
    rwa [lands, Nat.mod_add_mod, Nat.add_assoc, Nat.mod_add_mod]
  · -- all holes end before the productor
    have short : ∀ hole ∈ info.holes,
        (hole.span info.bufSize info.productorOffset).stop < info.bufSize := by
      intro hole member
      exact Nat.lt_of_not_le fun long => reaches ⟨hole, member, long⟩
    have clear :
        info.ClearAt info.productorOffset (size + alignment) := by
      constructor
      · intro hole member
        exact Nat.le_of_lt (short hole member)
      · rintro ⟨hole, member, ends⟩
        exact absurd ends (Nat.ne_of_lt (short hole member))
    obtain ⟨jumpedInside, avoids⟩ := blackholeJump_avoids inside
      invariant.table.sorted placed clear (by omega) (by omega) jumps
    rw [bufferLen_eq_gap inside jumpedInside] at room fits ⊢
    intro i within j covered same
    have isPlaced := placed hole member
    refine (avoids hole member).disjoint (by omega)
      (Nat.le_of_lt (short hole member)) info.productorOffset
      (show alignmentBytes + i < size + alignment by omega)
      (show (hole.span info.bufSize info.productorOffset).start + j <
        (hole.span info.bufSize info.productorOffset).stop from ?_) ?_
    · exact Nat.add_lt_add_left covered _
    · rw [Nat.mod_add_mod, Nat.add_assoc, Nat.mod_add_mod] at same
      change _ = (hole.startOffset + j) % _ at same
      rw [isPlaced.startOffset_eq inside, Nat.mod_add_mod] at same
      rw [← Nat.add_assoc, same, Nat.add_assoc]

/-- What is in front of a consumer that holds frames is clear of them. -/
theorem InFront.clear {distance count : Nat} (front : info.InFront slot)
    (inside : info.productorOffset < info.bufSize)
    (ahead : distance + count ≤
      gap info.bufSize info.productorOffset (info.consumers slot).offset) :
    ((info.holeOf 0 slot).bytes info.bufSize).Clear info.bufSize
      ((info.productorOffset + distance) % info.bufSize) count := by
  intro i within j covered same
  have start := front.placed.start
  rw [← front.offset] at start
  have around : gap info.bufSize info.productorOffset
        (info.consumers slot).offset +
      gap info.bufSize (info.consumers slot).offset info.productorOffset ≤
        info.bufSize := by
    by_cases equal : info.productorOffset = (info.consumers slot).offset
    · rw [equal, gap_self]
      omega
    · exact Nat.le_of_eq (gap_add_gap inside start equal)
  have behind := front.behind
  change _ = ((info.holeOf 0 slot).startOffset + j) % _ at same
  rw [← front.offset, Nat.mod_add_mod,
    ← add_gap_mod inside start, Nat.mod_add_mod, Nat.add_assoc,
    Nat.add_assoc] at same
  have equal := Nat.ModEq.add_left_cancel' info.productorOffset same
  unfold Nat.ModEq at equal
  rw [Nat.mod_eq_of_lt (by omega), Nat.mod_eq_of_lt (by omega)] at equal
  omega

/-- A consumer with frames in front of the productor is not where that is. -/
theorem InFront.apart (front : info.InFront slot) :
    (info.consumers slot).offset ≠ info.productorOffset := by
  intro same
  have behind := front.behind
  rw [same, gap_self] at behind
  have empty : gap info.bufSize (info.holeOf 0 slot).startOffset
      (info.holeOf 0 slot).endOffset = 0 := Nat.le_zero.mp behind
  exact front.placed.proper ((gap_eq_zero_iff front.placed.start).mp empty)

/-- A consumer that holds frames is further away than a granted range
reaches. -/
theorem InFront.writable (front : info.InFront slot)
    (valid : info.validConsumer slot)
    (inside : info.productorOffset < info.bufSize) {count : Nat}
    (room : count < info.minWritableSize) :
    count < gap info.bufSize info.productorOffset
      (info.consumers slot).offset := by
  have far := ((lt_minWritableSize_iff info).mp room).2 slot
    (mem_validConsumers.mpr valid)
  have start := front.placed.start
  rw [← front.offset] at start
  rwa [writableSizeOf, getWritableSize, if_neg front.apart,
    bufferLen_eq_gap inside start] at far

/-- A granted range is clear of protected bytes. -/
theorem Protects.clear (protects : info.Protects slot bytes)
    (sheltered : info.Sheltered) (finds : info.FindsGap (size + alignment))
    (positive : 0 < size)
    (requests : info.requestWritePtr size alignment =
      .ok (.granted after alignmentBytes offset)) :
    bytes.Clear info.bufSize offset size := by
  obtain ⟨valid, ⟨holds, rfl⟩ | ⟨hole, member, -, rfl⟩⟩ := protects
  · obtain ⟨jumped, -, room, padding, -, stands, starts⟩ :=
      requestWritePtr_range sheltered.offset requests
    have front := sheltered.holding slot holds
    have far := front.writable valid sheltered.offset room
    rw [starts, stands, Nat.mod_add_mod, Nat.add_assoc]
    exact front.clear sheltered.offset (by omega)
  · exact clear_of_holes sheltered.invariant sheltered.placed
      sheltered.offset finds positive requests hole member

end Granting

end RingBufInfo

end CRingBuf

end MbedtlsKcp
