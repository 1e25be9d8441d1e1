import MbedtlsKcp.CRingBufHeldBytes

/-!
# What keeps held bytes in front of the productor

The writer moves the productor on by less than the way to the first frame that is
held, and a consumer that it moves leaves its bytes as a hole.  A reset does the
same to all consumers.
-/

namespace MbedtlsKcp

namespace CRingBuf

open CyclicWindows FallibleSteps

namespace RingBufInfo

variable {info middle after : RingBufInfo} {now slot : Nat}
variable {bytes : HeldBytes} {moved : List Nat}

/-- Nothing that is held gets lost, and a range that keeps ahead still does. -/
structure Shelters (info after : RingBufInfo) : Prop where
  sheltered : after.Sheltered
  protects : ∀ slot bytes, info.Protects slot bytes →
    after.Protects slot bytes
  keepsAhead : ∀ count, info.KeepsAhead count → after.KeepsAhead count

theorem Shelters.trans (first : info.Shelters middle)
    (later : middle.Shelters after) : info.Shelters after where
  sheltered := later.sheltered
  protects slot bytes before :=
    later.protects slot bytes (first.protects slot bytes before)
  keepsAhead count before :=
    later.keepsAhead count (first.keepsAhead count before)

/-- The consumers that still hold frames are where they were. -/
theorem KeepsAhead.mono {count : Nat} (keeps : info.KeepsAhead count)
    (frames : after.frames = info.frames)
    (held : ∀ i, after.holdsFrame i →
      info.holdsFrame i ∧ after.consumers i = info.consumers i) :
    after.KeepsAhead count := by
  have size : after.bufSize = info.bufSize := congrArg Frames.bufSize frames
  have offset : after.productorOffset = info.productorOffset :=
    congrArg Frames.offset frames
  have index : after.productorIndex = info.productorIndex :=
    congrArg Frames.index frames
  intro i holds
  obtain ⟨before, same⟩ := held i holds
  rw [size, offset, index, same]
  exact keeps i before

theorem Sheltered.shelters_displaced (sheltered : info.Sheltered)
    (displaced : info.Displaced now moved after) : info.Shelters after where
  sheltered := sheltered.displaced displaced
  protects _ _ before := before.displaced displaced
  keepsAhead _ before := by
    refine before.mono displaced.frames ?_
    intro i holds
    obtain ⟨other, held⟩ := displaced.holdsFrame holds
    exact ⟨held, displaced.others i other⟩

/-- From `info` to `after` the productor moves on by `distance`, and at most its
slot of the frame table is filled. -/
structure Advances (info after : RingBufInfo) (distance : Nat) : Prop where
  consumers : after.consumers = info.consumers
  holes : after.holes = info.holes
  bufSize : after.bufSize = info.bufSize
  offset : after.productorOffset =
    (info.productorOffset + distance) % info.bufSize
  ahead : ∀ i, info.holdsFrame i →
    distance < gap info.bufSize info.productorOffset (info.consumers i).offset
  table : after.productorIndex = info.productorIndex ∧
      after.frameIdx = info.frameIdx ∨
    after.productorIndex = advanceIndex info.productorIndex 1 ∧
      (∀ i, info.holdsFrame i → advanceIndex info.productorIndex 1 ≠
        (info.consumers i).refIdxStart) ∧
      ∀ slot, slot ≠ info.productorIndex →
        after.frameIdx slot = info.frameIdx slot

namespace Advances

variable {distance : Nat}

theorem holdsFrame_iff (advances : info.Advances after distance) (i : Nat) :
    after.holdsFrame i ↔ info.holdsFrame i :=
  holdsFrame_congr (congrFun advances.consumers i)

/-- The slots that a consumer refers to are not filled. -/
theorem holeOf_eq (advances : info.Advances after distance)
    (sheltered : info.Sheltered) {i : Nat} (holds : info.holdsFrame i) :
    after.holeOf 0 i = info.holeOf 0 i := by
  have same := congrFun advances.consumers i
  rcases advances.table with ⟨_, table⟩ | ⟨_, apart, table⟩
  · exact holeOf_congr same table advances.bufSize
  have front := sheltered.holding i holds
  have notLast : (info.consumers i).refIdxEnd ≠ info.productorIndex := by
    intro isLast
    rcases front.last with near | before
    · rw [isLast] at near
      exact Nat.lt_irrefl _ near
    · rw [isLast] at before
      exact apart i holds before
  simp only [holeOf, advanceOffset, same, advances.bufSize,
    table _ front.first, table _ notLast]

theorem inFront (advances : info.Advances after distance)
    (sheltered : info.Sheltered) {i : Nat} (holds : info.holdsFrame i) :
    after.InFront i := by
  have front := sheltered.holding i holds
  have ahead := advances.ahead i holds
  have inside := sheltered.offset
  have same := congrFun advances.consumers i
  have hole := advances.holeOf_eq sheltered holds
  have start := front.placed.start
  rw [← front.offset] at start
  have round := gap_add_gap inside start (Ne.symm front.apart)
  have farther : gap info.bufSize (info.consumers i).offset
      after.productorOffset =
        gap info.bufSize (info.consumers i).offset info.productorOffset +
          distance := by
    rw [advances.offset, gap_advance_last start inside (by omega),
      Nat.mod_eq_of_lt (by omega)]
  constructor
  · rw [hole, advances.bufSize]
    exact front.placed
  · rw [hole, same]
    exact front.offset
  · rw [same]
    exact front.index
  · rw [hole, same, advances.bufSize, farther]
    exact Nat.le_add_right_of_le front.behind
  · rw [same]
    rcases advances.table with ⟨index, _⟩ | ⟨index, apart, _⟩
    · rw [index]
      exact front.first
    · rw [index]
      exact Ne.symm (apart i holds)
  · rw [same]
    exact front.lastBounded
  · rw [same]
    rcases advances.table with ⟨index, _⟩ | ⟨index, apart, _⟩
    · rw [index]
      exact front.last
    · have indexed := sheltered.indexed
      have slotBounded : (info.consumers i).refIdxStart < MAX_FRAME_NUM := by
        rw [← front.index]
        exact indexed.consumers i
      have next := advanceIndex_one indexed.productor
      have further := gap_next_last slotBounded indexed.productor
        (by rw [← next]; exact apart i holds)
      rw [index, next, further]
      exact front.last.imp_left fun near => Nat.lt_succ_of_lt near

theorem sheltered (advances : info.Advances after distance)
    (sheltered : info.Sheltered) : after.Sheltered where
  invariant := sheltered.invariant.mono
    (fun i _ _ => by rw [advances.consumers])
    (fun i valid => by rwa [validConsumer, advances.consumers] at valid)
    (fun i => (advances.holdsFrame_iff i).mp)
    (by rw [advances.holes])
  indexed := by
    refine ⟨?_, fun i => ?_⟩
    · rcases advances.table with ⟨index, _⟩ | ⟨index, _⟩
      · rw [index]
        exact sheltered.indexed.productor
      · rw [index]
        exact Nat.mod_lt _ frameNum_pos
    · rw [advances.consumers]
      exact sheltered.indexed.consumers i
  placed hole member := by
    rw [advances.bufSize]
    exact sheltered.placed hole (advances.holes ▸ member)
  offset := by
    rw [advances.bufSize, advances.offset]
    exact Nat.mod_lt _ (Nat.zero_lt_of_lt sheltered.offset)
  holding i holds :=
    advances.inFront sheltered ((advances.holdsFrame_iff i).mp holds)

theorem protects (advances : info.Advances after distance)
    (sheltered : info.Sheltered) (protects : info.Protects slot bytes) :
    after.Protects slot bytes := by
  obtain ⟨valid, ends⟩ := protects
  refine ⟨?_, ?_⟩
  · rwa [validConsumer, advances.consumers]
  rcases ends with ⟨holds, same⟩ | ⟨hole, member, owned, same⟩
  · refine .inl ⟨(advances.holdsFrame_iff slot).mpr holds, ?_⟩
    rw [advances.holeOf_eq sheltered holds, advances.bufSize]
    exact same
  · refine .inr ⟨hole, ?_, ?_, ?_⟩
    · rwa [advances.holes]
    · rwa [advances.consumers]
    · rwa [advances.bufSize]

end Advances

section Writing

variable {size alignment alignmentBytes offset : Nat}
variable {obj obj' : Object} {type : FRAME_E} {mode : CRB_WRITE_MODE_E}

/-- The holes that are left and those of the consumers that were moved are the
ones a request has to stay clear of. -/
theorem standing_findsGap_iff {count : Nat}
    (displaced : (info.withoutAged now).Displaced now
      (info.withoutAged now).indexFindBlocker after) :
    after.FindsGap count ↔ (info.standing now).FindsGap count := by
  have size : after.bufSize = (info.standing now).bufSize :=
    congrArg Frames.bufSize displaced.frames
  have offset : after.productorOffset = (info.standing now).productorOffset :=
    congrArg Frames.offset displaced.frames
  have members : ∀ hole, hole ∈ after.holes ↔
      hole ∈ (info.standing now).holes :=
    fun hole => displaced.holes.mem_iff
  simp only [FindsGap, FreeFrom, MissesRest, size, offset, members]

/-- A granted range moves the productor to it. -/
theorem advances_requestWritePtr (sheltered : info.Sheltered)
    (apart : ∀ i, info.holdsFrame i → advanceIndex info.productorIndex 1 ≠
      (info.consumers i).refIdxStart)
    (requests : info.requestWritePtr size alignment =
      .ok (.granted after alignmentBytes offset)) :
    ∃ distance, info.Advances after distance ∧
      after.KeepsAhead (alignmentBytes + size) := by
  obtain ⟨jumped, _, room, padding, isAfter, stands, _⟩ :=
    requestWritePtr_range sheltered.offset requests
  have far : ∀ i, info.holdsFrame i →
      info.bufferLen info.productorOffset jumped + alignment + size <
        gap info.bufSize info.productorOffset (info.consumers i).offset :=
    fun i holds =>
      (sheltered.holding i holds).writable holds.1 sheltered.offset room
  have frames : after.frames =
      info.frames.skip (info.bufferLen info.productorOffset jumped) := by
    rw [isAfter, frames_skipHoles]
  have bufSize : after.bufSize = info.bufSize := by
    rw [isAfter]
    exact (keepsUsers_skipHoles info _).bufSize
  have index : after.productorIndex = info.productorIndex := by
    change after.frames.index = _
    rw [frames, Frames.skip_index]
    rfl
  have table : after.frameIdx = info.frameIdx := by
    change after.frames.frameIdx = _
    rw [frames, Frames.skip_frameIdx]
    rfl
  have consumers : after.consumers = info.consumers := by
    rw [isAfter, skipHoles]
    split
    · rfl
    · rfl
  have holes : after.holes = info.holes := by
    rw [isAfter, skipHoles]
    split
    · rfl
    · rfl
  have advances : info.Advances after
      (info.bufferLen info.productorOffset jumped) := by
    refine ⟨consumers, holes, bufSize, stands, ?_, .inl ⟨index, table⟩⟩
    intro i holds
    have := far i holds
    omega
  refine ⟨_, advances, ?_⟩
  intro i holds
  have before := (advances.holdsFrame_iff i).mp holds
  have reach := far i before
  have front := sheltered.holding i before
  have start := front.placed.start
  rw [← front.offset] at start
  have short := gap_lt sheltered.offset start
  have rest : gap info.bufSize after.productorOffset
      (info.consumers i).offset =
        gap info.bufSize info.productorOffset (info.consumers i).offset -
          info.bufferLen info.productorOffset jumped := by
    rw [stands]
    conv_lhs => rw [← add_gap_mod sheltered.offset start]
    exact gap_mod_mod (by omega) (by omega)
  rw [bufSize, consumers, index, rest]
  exact ⟨by omega, apart i before⟩

/-- What a try of `RequestWriteFrame` leaves to the readers. -/
theorem Sheltered.requestWriteTry {answer : WriteTry}
    (sheltered : info.Sheltered) (clock : now ≠ 0)
    (tries : info.requestWriteTry now obj size type mode =
      .ok (after, obj', answer)) :
    (info.withoutAged now).Shelters after ∧ obj' = obj ∧
        (∀ offset, answer ≠ .granted offset) ∨
      ∃ offset, answer = .granted offset ∧ after.Sheltered ∧
        after.KeepsAhead (obj'.m_lastAlignmentBytes + obj'.m_lastWriteBytes) ∧
        ∀ slot bytes, (info.withoutAged now).Protects slot bytes →
          after.Protects slot bytes ∧
            ((info.standing now).FindsGap (size + info.writeAlignment type) →
              bytes.Clear info.bufSize offset size) := by
  obtain ⟨⟨positive, _⟩, aged, ages, ends⟩ := requestWriteTry_cases tries
  rw [deleteAgedBlackHole_eq] at ages
  obtain rfl := Except.ok.inj ages
  have isAged := sheltered.withoutAged now
  have kept : (info.withoutAged now).Shelters (info.withoutAged now) :=
    ⟨isAged, fun _ _ before => before, fun _ before => before⟩
  have blocking : ∀ {ring : RingBufInfo} {reaches : Nat → Prop}
      [DecidablePred reaches], ∀ i ∈ ring.validConsumers.filter
        fun i => reaches i, ring.validConsumer i :=
    fun i member => mem_validConsumers.mp (List.mem_filter.mp member).1
  rcases ends with ⟨_, _, rfl, rfl, rfl⟩ | ⟨moved, moves, _, ends⟩
  · exact .inl ⟨kept, rfl, fun _ => nofun⟩
  have displaced := displaced_moveAllBlockers clock blocking
    ((nodup_validConsumers _).filter _) isAged.invariant isAged.indexed moves
  have sheltersMoved := isAged.shelters_displaced displaced
  have isMoved := sheltersMoved.sheltered
  rcases ends with ⟨alignmentBytes, offset, requests, rfl, rfl⟩ |
    ⟨middle, blockers, requests, rfl, ends⟩
  · refine .inr ⟨offset, rfl, ?_⟩
    have apart : ∀ i, moved.holdsFrame i →
        advanceIndex moved.productorIndex 1 ≠
          (moved.consumers i).refIdxStart := by
      intro i holds blocks
      have before := displaced.holdsFrame holds
      apply before.1
      rw [← (isMoved.holding i holds).index, displaced.others i before.1,
        show moved.productorIndex = (info.withoutAged now).productorIndex from
          congrArg Frames.index displaced.frames] at blocks
      exact List.mem_filter.mpr
        ⟨mem_validConsumers.mpr before.2.1, decide_eq_true blocks⟩
    obtain ⟨distance, advances, ahead⟩ :=
      advances_requestWritePtr isMoved apart requests
    refine ⟨advances.sheltered isMoved, ahead, ?_⟩
    intro slot bytes before
    have protects := sheltersMoved.protects slot bytes before
    refine ⟨advances.protects isMoved protects, ?_⟩
    intro finds
    have size : moved.bufSize = info.bufSize :=
      congrArg Frames.bufSize displaced.frames
    have alignment : moved.writeAlignment type = info.writeAlignment type := by
      rw [displaced.rest]
      rfl
    rw [← alignment, ← standing_findsGap_iff displaced] at finds
    rw [← size]
    exact protects.clear isMoved finds positive requests
  · have same : middle = moved ∧ ∃ wanted,
        blockers = moved.validConsumers.filter fun i =>
          moved.writableSizeOf i ≤ wanted := by
      rcases requestWritePtr_cases requests with
        ⟨wanted, _, _, isMiddle⟩ | ⟨_, _, _, ⟨_, isOther⟩ | ⟨_, isOther⟩⟩
      · cases isMiddle
        exact ⟨rfl, wanted, rfl⟩
      · cases isOther
      · cases isOther
    obtain ⟨rfl, wanted, rfl⟩ := same
    rcases ends with ⟨_, rfl, rfl⟩ | ⟨_, again, rfl⟩
    · exact .inl ⟨sheltersMoved, rfl, fun _ => nofun⟩
    · have displacedAgain := displaced_moveAllBlockers clock blocking
        ((nodup_validConsumers _).filter _) isMoved.invariant isMoved.indexed
        again
      exact .inl ⟨sheltersMoved.trans
        (isMoved.shelters_displaced displacedAgain), rfl, fun _ => nofun⟩

end Writing

section Committing

variable {obj obj' : Object} {commitSize : Option Nat} {frameTime : Int}

theorem advances_zero (sheltered : info.Sheltered)
    (consumers : after.consumers = info.consumers)
    (holes : after.holes = info.holes)
    (productor : after.productor = info.productor)
    (table : after.frameIdx = info.frameIdx)
    (bufSize : after.bufSize = info.bufSize) : info.Advances after 0 where
  consumers := consumers
  holes := holes
  bufSize := bufSize
  offset := by
    rw [productorOffset, productor, Nat.add_zero,
      Nat.mod_eq_of_lt sheltered.offset]
    rfl
  ahead i holds := by
    have front := sheltered.holding i holds
    apply Nat.pos_of_ne_zero
    intro zero
    exact front.apart ((gap_eq_zero_iff sheltered.offset).mp zero).symm
  table := .inl ⟨by rw [productorIndex, productor, productorIndex], table⟩

/-- A commit moves the productor by what it has reserved at most. -/
theorem advances_commitWrite (sheltered : info.Sheltered)
    (proper : obj.m_lastWriteFrameType ≠ .CRB_FRAME_ANY)
    (keeps : 0 < obj.m_lastWriteBytes →
      info.KeepsAhead (obj.m_lastAlignmentBytes + obj.m_lastWriteBytes))
    (commits : info.commitWrite obj commitSize frameTime =
      .ok (after, obj')) :
    obj'.m_lastWriteBytes = 0 ∧ ∃ distance, info.Advances after distance := by
  obtain ⟨inside, ends⟩ := commitWrite_cases commits
  rcases ends with ⟨nothing, rfl, rfl⟩ | ⟨pending, rfl, ends⟩
  · exact ⟨nothing, 0, advances_zero sheltered rfl rfl rfl rfl rfl⟩
  refine ⟨rfl, ?_⟩
  rcases ends with ⟨_, rfl⟩ | ⟨_, rfl⟩
  · exact ⟨0, advances_zero sheltered rfl rfl rfl rfl rfl⟩
  have framed : ∀ commitBytes, info.commitFrame obj commitBytes frameTime =
      { info with
        frameIdx := Function.update info.frameIdx info.productorIndex
          (info.frames.entry obj commitBytes frameTime)
        productor := { info.productor with
          index := advanceIndex info.productorIndex 1
          offset := info.advanceOffset2 info.productorOffset commitBytes
            obj.m_lastAlignmentBytes }
        dataWriten := true
        contiBytesWriten :=
          if 0 < obj.m_lastAlignmentBytes then 0
          else (info.contiBytesWriten + commitBytes) % 2 ^ 32 } := by
    intro commitBytes
    simp only [commitFrame, if_neg proper]
    rfl
  rw [framed]
  refine ⟨commitSize.getD obj.m_lastWriteBytes + obj.m_lastAlignmentBytes,
    rfl, rfl, rfl, ?_, ?_, .inr ⟨rfl, ?_, ?_⟩⟩
  · change info.advanceOffset2 _ _ _ = _
    rw [advanceOffset2, Nat.add_assoc]
  · intro i holds
    have far := (keeps pending i holds).1
    omega
  · exact fun i holds => (keeps pending i holds).2
  · intro slot other
    exact Function.update_of_ne other ..

/-- After a reset nobody holds frames; they are holes. -/
theorem Sheltered.resetAllUser (sheltered : info.Sheltered) (clock : now ≠ 0)
    (calls : info.resetAllUser now obj = .ok (after, obj')) :
    obj'.m_lastWriteBytes = 0 ∧ after.Sheltered ∧
      ∀ slot bytes, info.Protects slot bytes → after.Protects slot bytes := by
  obtain ⟨last, resets, rest⟩ := bind_eq_ok_iff.mp calls
  obtain ⟨rfl, rfl⟩ := Prod.mk.inj (pure_eq_ok_iff.mp rest)
  refine ⟨rfl, ?_⟩
  obtain ⟨middle, displaced, rfl⟩ := displaced_resetAllUserNoLock clock
    sheltered.invariant sheltered.indexed resets
  have shelters := sheltered.shelters_displaced displaced
  have isMiddle := shelters.sheltered
  constructor
  · refine ⟨⟨?_, ⟨frameNum_pos, isMiddle.indexed.consumers⟩,
      isMiddle.placed, ?_⟩, ?_⟩
    · exact isMiddle.invariant.mono (fun _ _ _ => rfl) (fun _ valid => valid)
        (fun _ holds => holds) (List.Sublist.refl _)
    · exact Nat.zero_lt_of_lt isMiddle.offset
    · intro i holds
      have held : middle.holdsFrame i := holds
      have before := displaced.holdsFrame held
      exact absurd (mem_validConsumers.mpr before.2.1) before.1
  · exact fun slot bytes before => shelters.protects slot bytes before

end Committing

end RingBufInfo

end CRingBuf

end MbedtlsKcp
