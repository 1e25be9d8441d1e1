import MbedtlsKcp.CRingBufFrames
import MbedtlsKcp.PacedWalks

/-!
# The retries of a write request

In NON_BLOCK mode `RequestWriteFrame` moves the readers in its way forward and
tries again.  A reader's way leads from its position over the I frames ahead of
it to the newest frame; as long as nothing is held, the number of rounds that
the request needs is read off the ways of the readers.
-/

namespace MbedtlsKcp

namespace CRingBuf

open CyclicWindows FallibleSteps TransitionRuns

namespace RingBufInfo

variable (info : RingBufInfo)

/-- There are no black holes, and no consumer holds a frame. -/
structure Unheld : Prop where
  holes : info.holes = []
  states : ∀ i ∈ info.validConsumers,
    (info.consumers i).state ≠ .USER_HOLDING_FRAME

/-- The slot of the newest frame. -/
def newestSlot : Nat :=
  stepbackIndex info.productorIndex 1

/-- The slots of the I frames behind slot `index`. -/
def iFramesAfter (index : Nat) : List Nat :=
  (window MAX_FRAME_NUM (advanceIndex index 1) info.productorIndex).filter
    fun slot => ofType .CRB_FRAME_I_SLICE (info.frameIdx slot)

/-- Where consumer `i` stands. -/
def position (i : Nat) : Nat × Nat :=
  ((info.consumers i).index, (info.consumers i).offset)

/-- The start of the frame in `slot`. -/
def slotPosition (slot : Nat) : Nat × Nat :=
  (slot, (info.frameIdx slot).offset)

/-- The positions that a consumer in slot `index` can be moved to. -/
def positionsAfter (index : Nat) : List (Nat × Nat) :=
  (info.iFramesAfter index ++ [info.newestSlot]).map info.slotPosition

/-- The bytes that are writable in front of each of the positions; the slot
behind the productor's is left at once. -/
def roomsOf (positions : List (Nat × Nat)) : List Nat :=
  (positions.filter fun position =>
      position.1 ≠ advanceIndex info.productorIndex 1).map
    fun position => info.getWritableSize position.2 info.productorOffset

/-- The rooms on the way of consumer `i`. -/
def rooms (i : Nat) : List Nat :=
  info.roomsOf (info.position i ::
    info.positionsAfter (info.consumers i).index)

/-- The way of consumer `i` leads to a position with more than `wanted`
bytes. -/
def Reaches (wanted i : Nat) : Prop :=
  ∃ room ∈ info.rooms i, wanted < room

/-- The rooms that consumer `i` is moved on from when more than `wanted` bytes
are needed. -/
def stops (wanted i : Nat) : List Nat :=
  (info.rooms i).takeWhile fun room => room ≤ wanted

/-- The stops of all consumers. -/
def allStops (wanted : Nat) : List (List Nat) :=
  info.validConsumers.map (info.stops wanted)

/-- The bytes that a request for a frame needs at most. -/
def wantedBytes (size : Nat) (type : FRAME_E) : Nat :=
  size + info.writeAlignment type

/-- The number of rounds of moves that a request needs. -/
def roundsNeeded (size : Nat) (type : FRAME_E) : Nat :=
  PacedWalks.rounds (fun room => room ≤ size)
    (info.allStops (info.wantedBytes size type))

/-- The bytes that the next round makes the blockers leave: those of the frame
if any consumer is in its way, or else those with the alignment. -/
def roundBytes (size wanted : Nat) : Nat :=
  if ∃ i ∈ info.validConsumers, info.writableSizeOf i ≤ size then size
  else wanted

/-- A write request gets an address. -/
def Grants (now : Nat) (obj : Object) (size : Nat) (type : FRAME_E)
    (mode : CRB_WRITE_MODE_E) : Prop :=
  ∃ after obj' offset, info.requestWriteFrame now obj size type mode =
    .ok (after, obj', .granted offset)

instance : Decidable info.Unheld :=
  decidable_of_iff (info.holes = [] ∧ ∀ i ∈ info.validConsumers,
      (info.consumers i).state ≠ .USER_HOLDING_FRAME)
    ⟨fun both => ⟨both.1, both.2⟩, fun unheld => ⟨unheld.holes, unheld.states⟩⟩

instance (wanted i : Nat) : Decidable (info.Reaches wanted i) :=
  inferInstanceAs (Decidable (∃ room ∈ _, _))

section Ways

variable {info} {index slot : Nat} {rest : List Nat}

theorem newestSlot_ne (inside : info.productorIndex < MAX_FRAME_NUM) :
    info.newestSlot ≠ advanceIndex info.productorIndex 1 := by
  unfold newestSlot stepbackIndex advanceIndex MAX_FRAME_NUM at *
  omega

theorem iFramesAfter_newestSlot (inside : info.productorIndex < MAX_FRAME_NUM) :
    info.iFramesAfter info.newestSlot = [] := by
  have next : advanceIndex info.newestSlot 1 = info.productorIndex := by
    unfold newestSlot stepbackIndex advanceIndex MAX_FRAME_NUM at *
    omega
  rw [iFramesAfter, next, window_self]
  rfl

theorem iFramesAfter_cons (inside : info.productorIndex < MAX_FRAME_NUM)
    (found : info.iFramesAfter index = slot :: rest) :
    info.iFramesAfter slot = rest := by
  have bounded : advanceIndex index 1 < MAX_FRAME_NUM :=
    Nat.mod_lt _ frameNum_pos
  obtain ⟨slotBounded, _, tail⟩ := filter_window_next bounded inside found
  rw [iFramesAfter, advanceIndex_one slotBounded, tail]

/-- A search for the next I frame never comes back to the slot it started
from. -/
theorem not_mem_iFramesAfter (inside : info.productorIndex < MAX_FRAME_NUM) :
    index ∉ info.iFramesAfter index := by
  intro member
  have bounded : advanceIndex index 1 < MAX_FRAME_NUM :=
    Nat.mod_lt _ frameNum_pos
  have inWindow := List.mem_of_mem_filter member
  have indexBounded := mem_window_lt bounded inWindow
  by_cases same : index = info.productorIndex
  · rw [same] at inWindow
    rw [same] at bounded
    exact last_not_mem_window bounded inWindow
  · rw [advanceIndex_one indexBounded] at inWindow
    exact first_not_mem_window_next indexBounded inside same inWindow

/-- A blocker is moved to the next position of its way. -/
theorem slotPosition_nextIframe (inside : info.productorIndex < MAX_FRAME_NUM)
    (i : Nat) :
    (info.positionsAfter (info.consumers i).index).head? =
      some (info.slotPosition (info.nextIframe i).1) := by
  have search : info.indexFindNextFrame info.productorIndex
      (advanceIndex (info.consumers i).index 1) (ofType .CRB_FRAME_I_SLICE) =
        (info.iFramesAfter (info.consumers i).index).head? := by
    rw [indexFindNextFrame, iFramesAfter, List.head?_filter]
  rw [nextIframe, search, positionsAfter]
  cases found : info.iFramesAfter (info.consumers i).index with
  | nil => rfl
  | cons slot rest =>
      have different : slot ≠ (info.consumers i).index := by
        rintro rfl
        apply not_mem_iFramesAfter inside
        rw [found]
        exact List.mem_cons_self
      dsimp only [List.head?_cons]
      rw [if_neg different]
      rfl

/-- What is left of a way behind its next position; the newest frame is never
left behind. -/
theorem positionsAfter_next (inside : info.productorIndex < MAX_FRAME_NUM)
    {next : Nat × Nat}
    (isNext : (info.positionsAfter index).head? = some next) :
    info.positionsAfter index = next :: info.positionsAfter next.1 ∨
      info.positionsAfter index = [next] ∧
        info.positionsAfter next.1 = [next] := by
  unfold positionsAfter at isNext ⊢
  cases found : info.iFramesAfter index with
  | nil =>
      rw [found] at isNext
      obtain rfl := Option.some.inj isNext
      refine .inr ⟨rfl, ?_⟩
      show (info.iFramesAfter info.newestSlot ++ _).map _ = _
      rw [iFramesAfter_newestSlot inside]
      rfl
  | cons slot rest =>
      rw [found] at isNext
      obtain rfl := Option.some.inj isNext
      refine .inl ?_
      show _ = _ :: (info.iFramesAfter slot ++ _).map _
      rw [iFramesAfter_cons inside found]
      rfl

end Ways

/-- The ring after the blockers were moved on and nothing else happened. -/
structure Shifted (info after : RingBufInfo) (blockers : List Nat) : Prop where
  holes : after.holes = info.holes
  frames : after.frames = info.frames
  contiBytesWriten : after.contiBytesWriten = info.contiBytesWriten
  names : ∀ i, (after.consumers i).name = (info.consumers i).name
  states : ∀ i, (after.consumers i).state = (info.consumers i).state
  kept : ∀ i, i ∉ blockers → after.position i = info.position i
  moved : ∀ i ∈ blockers,
    after.position i = info.slotPosition (info.nextIframe i).1

namespace Shifted

variable {info after : RingBufInfo} {blockers : List Nat}

theorem validConsumers (shifted : Shifted info after blockers) :
    after.validConsumers = info.validConsumers := by
  have same : ∀ i, after.validConsumer i ↔ info.validConsumer i := by
    intro i
    rw [validConsumer, validConsumer, shifted.names]
  unfold RingBufInfo.validConsumers
  simp only [same]

theorem unheld (shifted : Shifted info after blockers)
    (unheld : info.Unheld) : after.Unheld where
  holes := shifted.holes.trans unheld.holes
  states i member := by
    rw [shifted.states i]
    exact unheld.states i (shifted.validConsumers ▸ member)

theorem productorIndex (shifted : Shifted info after blockers) :
    after.productorIndex = info.productorIndex :=
  congrArg Frames.index shifted.frames

theorem slotPosition (shifted : Shifted info after blockers) :
    after.slotPosition = info.slotPosition := by
  have table : after.frameIdx = info.frameIdx :=
    congrArg Frames.frameIdx shifted.frames
  funext slot
  rw [RingBufInfo.slotPosition, RingBufInfo.slotPosition, table]

theorem iFramesAfter (shifted : Shifted info after blockers) :
    after.iFramesAfter = info.iFramesAfter := by
  have table : after.frameIdx = info.frameIdx :=
    congrArg Frames.frameIdx shifted.frames
  funext index
  rw [RingBufInfo.iFramesAfter, RingBufInfo.iFramesAfter, table,
    shifted.productorIndex]

theorem positionsAfter (shifted : Shifted info after blockers) :
    after.positionsAfter = info.positionsAfter := by
  funext index
  rw [RingBufInfo.positionsAfter, RingBufInfo.positionsAfter,
    shifted.iFramesAfter, shifted.slotPosition, newestSlot, newestSlot,
    shifted.productorIndex]

theorem getWritableSize (shifted : Shifted info after blockers)
    (readOffset : Nat) :
    after.getWritableSize readOffset after.productorOffset =
      info.getWritableSize readOffset info.productorOffset := by
  have offset : after.productorOffset = info.productorOffset :=
    congrArg Frames.offset shifted.frames
  have bufSize : after.bufSize = info.bufSize :=
    congrArg Frames.bufSize shifted.frames
  simp only [RingBufInfo.getWritableSize, bufferLen, offset, bufSize]

theorem roomsOf (shifted : Shifted info after blockers) :
    after.roomsOf = info.roomsOf := by
  funext positions
  simp only [RingBufInfo.roomsOf, shifted.getWritableSize,
    shifted.productorIndex]

theorem writeAlignment (shifted : Shifted info after blockers)
    (type : FRAME_E) :
    after.writeAlignment type = info.writeAlignment type := by
  have bufSize : after.bufSize = info.bufSize :=
    congrArg Frames.bufSize shifted.frames
  rw [RingBufInfo.writeAlignment, RingBufInfo.writeAlignment, bufSize,
    shifted.contiBytesWriten]

theorem rooms_of_kept (shifted : Shifted info after blockers) {i : Nat}
    (stays : i ∉ blockers) : after.rooms i = info.rooms i := by
  have same := shifted.kept i stays
  have index : (after.consumers i).index = (info.consumers i).index :=
    congrArg Prod.fst same
  rw [rooms, rooms, same, index, shifted.roomsOf, shifted.positionsAfter]

theorem refl (info : RingBufInfo) : Shifted info info [] where
  holes := rfl
  frames := rfl
  contiBytesWriten := rfl
  names _ := rfl
  states _ := rfl
  kept _ _ := rfl
  moved _ member := absurd member List.not_mem_nil

end Shifted

section Moves

variable {info : RingBufInfo}

/-- A consumer that holds nothing is just moved. -/
theorem displace_of_not_holding {now i slot offset : Nat} {waitIFrame : Bool}
    (free : (info.consumers i).state ≠ .USER_HOLDING_FRAME) :
    info.displace now i slot offset waitIFrame =
      .ok (info.updateConsumer i fun user =>
        user.displaced slot offset waitIFrame) := by
  rw [displace, if_neg free]
  rfl

/-- The first blocker is moved, then the others from there. -/
theorem Shifted.cons {middle after : RingBufInfo} {i : Nat}
    {blockers : List Nat} {waitIFrame : Bool}
    (free : (info.consumers i).state ≠ .USER_HOLDING_FRAME)
    (fresh : i ∉ blockers)
    (isMiddle : middle = info.updateConsumer i fun user =>
      user.displaced (info.nextIframe i).1
        (info.frameIdx (info.nextIframe i).1).offset waitIFrame)
    (shifted : Shifted middle after blockers) :
    Shifted info after (i :: blockers) := by
  have frames : middle.frames = info.frames := by
    rw [isMiddle]
    rfl
  have others : ∀ j, j ≠ i → middle.consumers j = info.consumers j := by
    intro j different
    rw [isMiddle, updateConsumer_of_ne different]
  have own : middle.consumers i =
      (info.consumers i).displaced (info.nextIframe i).1
        (info.frameIdx (info.nextIframe i).1).offset waitIFrame := by
    rw [isMiddle, updateConsumer_self]
  refine ⟨?_, shifted.frames.trans frames, ?_, ?_, ?_, ?_, ?_⟩
  · rw [shifted.holes, isMiddle]
    rfl
  · rw [shifted.contiBytesWriten, isMiddle]
    rfl
  · intro j
    rw [shifted.names]
    by_cases same : j = i
    · rw [same, own]
      rfl
    · rw [others j same]
  · intro j
    rw [shifted.states]
    by_cases same : j = i
    · rw [same, own, RingBufUser.displaced, if_neg free]
    · rw [others j same]
  · intro j absent
    obtain ⟨different, later⟩ := not_or.mp (mt List.mem_cons.mpr absent)
    rw [shifted.kept j later, position, others j different, position]
  · intro j member
    have table : middle.frameIdx = info.frameIdx :=
      congrArg Frames.frameIdx frames
    rcases List.mem_cons.mp member with rfl | later
    · rw [shifted.kept j fresh, position, own]
      rfl
    · have different : j ≠ i := by
        rintro rfl
        exact fresh later
      have index : middle.productorIndex = info.productorIndex :=
        congrArg Frames.index frames
      rw [shifted.moved j later, nextIframe, nextIframe, others j different,
        indexFindNextFrame, indexFindNextFrame, RingBufInfo.slotPosition,
        RingBufInfo.slotPosition, table, index]

/-- When nothing is held, moving the blockers cannot fail. -/
theorem moveAllBlockers_shifted (now : Nat) {blockers : List Nat}
    (free : ∀ i ∈ blockers,
      (info.consumers i).state ≠ .USER_HOLDING_FRAME)
    (distinct : blockers.Nodup) :
    ∃ after, info.moveAllBlockers now blockers = .ok after ∧
      Shifted info after blockers := by
  have loop : ∀ found : Bool, ∃ after found',
      blockers.foldlM (moveBlocker now) (info, found) = .ok (after, found') ∧
        Shifted info after blockers := by
    induction blockers generalizing info with
    | nil => exact fun found => ⟨info, found, rfl, .refl info⟩
    | cons i blockers ih =>
        intro found
        obtain ⟨holds, rest⟩ := List.forall_mem_cons.mp free
        obtain ⟨fresh, others⟩ := List.nodup_cons.mp distinct
        have steps := moveBlocker_eq info now found i
        rw [displace_of_not_holding holds] at steps
        have stillFree : ∀ j ∈ blockers,
            ((info.updateConsumer i fun user =>
              user.displaced (info.nextIframe i).1
                (info.frameIdx (info.nextIframe i).1).offset
                !(found || (info.nextIframe i).2)).consumers j).state ≠
              .USER_HOLDING_FRAME := by
          intro j member
          have different : j ≠ i := by
            rintro rfl
            exact fresh member
          rw [updateConsumer_of_ne different]
          exact rest j member
        obtain ⟨after, found', moves, shifted⟩ :=
          ih stillFree others (found || (info.nextIframe i).2)
        refine ⟨after, found', ?_, shifted.cons holds fresh rfl⟩
        rw [List.foldlM_cons, steps]
        exact moves
  obtain ⟨after, found', moves, shifted⟩ := loop false
  refine ⟨after, ?_, shifted⟩
  rw [moveAllBlockers, moves]
  rfl

end Moves

section Stops

variable {info after : RingBufInfo} {blockers : List Nat} {i wanted : Nat}

theorem roomsOf_cons_behind {position : Nat × Nat}
    (behind : position.1 = advanceIndex info.productorIndex 1)
    (positions : List (Nat × Nat)) :
    info.roomsOf (position :: positions) = info.roomsOf positions := by
  have left : ¬ decide (position.1 ≠ advanceIndex info.productorIndex 1) = true :=
    fun kept => of_decide_eq_true kept behind
  rw [roomsOf, List.filter_cons, if_neg left, roomsOf]

theorem roomsOf_cons {position : Nat × Nat}
    (elsewhere : position.1 ≠ advanceIndex info.productorIndex 1)
    (positions : List (Nat × Nat)) :
    info.roomsOf (position :: positions) =
      info.getWritableSize position.2 info.productorOffset ::
        info.roomsOf positions := by
  have kept : decide (position.1 ≠ advanceIndex info.productorIndex 1) = true :=
    decide_eq_true elsewhere
  rw [roomsOf, List.filter_cons, if_pos kept, List.map_cons, roomsOf]

/-- A consumer right behind the productor does not count its own position. -/
theorem rooms_of_behind
    (behind : (info.consumers i).index = advanceIndex info.productorIndex 1) :
    info.rooms i =
      info.roomsOf (info.positionsAfter (info.consumers i).index) := by
  rw [rooms, roomsOf_cons_behind behind]

theorem rooms_of_not_behind
    (elsewhere : (info.consumers i).index ≠
      advanceIndex info.productorIndex 1) :
    info.rooms i = info.writableSizeOf i ::
      info.roomsOf (info.positionsAfter (info.consumers i).index) := by
  rw [rooms, roomsOf_cons elsewhere]
  rfl

/-- The rooms of a consumer that was moved: those behind its old position,
where the last one may count twice. -/
theorem Shifted.rooms_of_moved (shifted : Shifted info after blockers)
    (inside : info.productorIndex < MAX_FRAME_NUM) (member : i ∈ blockers) :
    let later := info.roomsOf (info.positionsAfter (info.consumers i).index)
    after.rooms i = later ∨
      ∃ room, later = [room] ∧ after.rooms i = [room, room] := by
  intro later
  have isNext := slotPosition_nextIframe inside i
  rw [← shifted.moved i member] at isNext
  have stands : after.rooms i = info.roomsOf (after.position i ::
      info.positionsAfter (after.position i).1) := by
    rw [rooms, shifted.roomsOf, shifted.positionsAfter]
    rfl
  rw [stands]
  rcases positionsAfter_next inside isNext with whole | ⟨single, again⟩
  · exact .inl (congrArg info.roomsOf whole.symm)
  · have isLater : later = info.roomsOf [after.position i] :=
      congrArg info.roomsOf single
    rw [again, isLater]
    by_cases behind : (after.position i).1 =
        advanceIndex info.productorIndex 1
    · exact .inl (roomsOf_cons_behind behind _)
    · refine .inr ⟨_, roomsOf_cons behind [], ?_⟩
      rw [roomsOf_cons behind, roomsOf_cons behind]
      rfl

/-- Counting the last room twice does not change what is in front of a larger
one. -/
theorem takeWhile_of_repeated {later rooms : List Nat}
    (same : rooms = later ∨ ∃ room, later = [room] ∧ rooms = [room, room]) :
    ((∃ room ∈ rooms, wanted < room) ↔ ∃ room ∈ later, wanted < room) ∧
      ((∃ room ∈ later, wanted < room) →
        rooms.takeWhile (fun room => room ≤ wanted) =
          later.takeWhile fun room => room ≤ wanted) := by
  rcases same with rfl | ⟨room, rfl, rfl⟩
  · exact ⟨Iff.rfl, fun _ => rfl⟩
  · refine ⟨by simp, ?_⟩
    intro large
    have more : wanted < room := by simpa using large
    simp [Nat.not_le_of_lt more]

theorem Shifted.reaches_of_kept (shifted : Shifted info after blockers)
    (stays : i ∉ blockers) : after.Reaches wanted i ↔ info.Reaches wanted i := by
  rw [Reaches, Reaches, shifted.rooms_of_kept stays]

theorem Shifted.stops_of_kept (shifted : Shifted info after blockers)
    (stays : i ∉ blockers) : after.stops wanted i = info.stops wanted i := by
  rw [stops, stops, shifted.rooms_of_kept stays]

/-- Leaving the slot behind the productor's does not count. -/
theorem Shifted.of_behind (shifted : Shifted info after blockers)
    (inside : info.productorIndex < MAX_FRAME_NUM) (member : i ∈ blockers)
    (behind : (info.consumers i).index = advanceIndex info.productorIndex 1) :
    (after.Reaches wanted i ↔ info.Reaches wanted i) ∧
      (info.Reaches wanted i → after.stops wanted i = info.stops wanted i) := by
  have whole := rooms_of_behind behind
  rw [Reaches, Reaches, stops, stops, whole]
  exact takeWhile_of_repeated (shifted.rooms_of_moved inside member)

/-- Leaving a position with too little room is one stop less. -/
theorem Shifted.of_stop (shifted : Shifted info after blockers)
    (inside : info.productorIndex < MAX_FRAME_NUM) (member : i ∈ blockers)
    (elsewhere : (info.consumers i).index ≠
      advanceIndex info.productorIndex 1)
    (small : info.writableSizeOf i ≤ wanted) :
    (after.Reaches wanted i ↔ info.Reaches wanted i) ∧
      (info.Reaches wanted i →
        after.stops wanted i = (info.stops wanted i).tail) := by
  have whole := rooms_of_not_behind elsewhere
  obtain ⟨reaches, same⟩ :=
    takeWhile_of_repeated (shifted.rooms_of_moved inside member)
  have splits : info.Reaches wanted i ↔ ∃ room ∈ info.roomsOf
      (info.positionsAfter (info.consumers i).index), wanted < room := by
    rw [Reaches, whole, List.exists_mem_cons_iff]
    exact or_iff_right (Nat.not_lt_of_le small)
  refine ⟨reaches.trans splits.symm, ?_⟩
  intro far
  have isStop : decide (info.writableSizeOf i ≤ wanted) = true :=
    decide_eq_true small
  rw [stops, stops, whole, List.takeWhile_cons, if_pos isStop, List.tail_cons]
  exact same (splits.mp far)

end Stops

section Rounds

variable {info : RingBufInfo} {size alignment wanted : Nat} {type : FRAME_E}

theorem skipHoles_zero : info.skipHoles 0 = info :=
  if_pos rfl

theorem withoutAged_of_no_holes (noHoles : info.holes = []) (now : Nat) :
    info.withoutAged now = info := by
  have same : (info.holes.filter fun hole => ¬ aged now hole) = info.holes := by
    rw [noHoles]
    rfl
  rw [withoutAged, same]

theorem bufferLen_self (offset : Nat) : info.bufferLen offset offset = 0 := by
  rw [bufferLen, Nat.add_sub_cancel, Nat.mod_self]

/-- Without black holes the productor does not jump. -/
theorem blackholeJump_of_no_holes (noHoles : info.holes = [])
    (size alignment : Nat) :
    info.blackholeJump info.productorOffset size alignment =
      .ok info.productorOffset := by
  rw [blackholeJump, noHoles]
  rfl

/-- Every consumer leaves enough room. -/
theorem requestWritePtr_granted (noHoles : info.holes = [])
    (fits : size + alignment < info.bufSize)
    (apart : ∀ i ∈ info.validConsumers,
      size + alignment < info.writableSizeOf i) :
    ∃ alignmentBytes offset, info.requestWritePtr size alignment =
      .ok (.granted info alignmentBytes offset) := by
  have enough : size + alignment < info.minWritableSize :=
    (lt_minWritableSize_iff info).mpr ⟨fits, apart⟩
  rw [requestWritePtr, if_neg (by omega),
    blackholeJump_of_no_holes noHoles size alignment]
  simp only [bind, Except.bind, pure, Except.pure, bufferLen_self,
    skipHoles_zero]
  rw [if_neg (by omega)]
  by_cases aligned : alignment = 0
  · subst aligned
    have spacious : ∀ i ∈ info.validConsumers, size < info.writableSizeOf i :=
      apart
    rw [if_neg fun both => both.1 rfl, if_pos spacious]
    exact ⟨_, _, rfl⟩
  · rw [if_pos ⟨aligned, apart⟩]
    exact ⟨_, _, rfl⟩

/-- Some consumer is in the way of the frame itself. -/
theorem requestWritePtr_of_short
    (blocks : ∃ i ∈ info.validConsumers, info.writableSizeOf i ≤ size) :
    info.requestWritePtr size alignment =
      .ok (.notEnough info (info.validConsumers.filter fun i =>
        info.writableSizeOf i ≤ size)) := by
  obtain ⟨i, member, small⟩ := blocks
  have short : info.minWritableSize ≤ size := by
    apply Nat.le_of_not_lt
    intro enough
    have apart := ((lt_minWritableSize_iff info).mp enough).2 i member
    omega
  rw [requestWritePtr, if_pos short]

/-- Some consumer is only in the way of the alignment. -/
theorem requestWritePtr_of_padding (noHoles : info.holes = [])
    (fits : size + alignment < info.bufSize)
    (apart : ∀ i ∈ info.validConsumers, size < info.writableSizeOf i)
    (blocks : ∃ i ∈ info.validConsumers,
      info.writableSizeOf i ≤ size + alignment) :
    info.requestWritePtr size alignment =
      .ok (.notEnough info (info.validConsumers.filter fun i =>
        info.writableSizeOf i ≤ size + alignment)) := by
  have enough : size < info.minWritableSize :=
    (lt_minWritableSize_iff info).mpr ⟨by omega, apart⟩
  obtain ⟨i, member, small⟩ := blocks
  have short : info.minWritableSize ≤ 0 + alignment + size := by
    apply Nat.le_of_not_lt
    intro more
    have larger := ((lt_minWritableSize_iff info).mp more).2 i member
    omega
  have sum : 0 + alignment + size = size + alignment := by omega
  rw [requestWritePtr, if_neg (by omega),
    blackholeJump_of_no_holes noHoles size alignment]
  simp only [bind, Except.bind, pure, Except.pure, bufferLen_self]
  rw [if_pos short, sum]

/-- One try while nothing is held: the consumer right behind the productor is
moved, then the request is granted or those in its way are moved. -/
theorem requestWriteTry_of_unheld (unheld : info.Unheld)
    (valid : 0 < size ∧ type ≠ .CRB_FRAME_ANY)
    (fits : info.wantedBytes size type < info.bufSize) (now : Nat)
    (obj : Object) :
    ∃ moved, Shifted info moved info.indexFindBlocker ∧
      ((∀ i ∈ info.validConsumers,
            info.wantedBytes size type < moved.writableSizeOf i) ∧
          (∃ after obj' offset,
            info.requestWriteTry now obj size type .CRB_WRITE_MODE_NON_BLOCK =
              .ok (after, obj', .granted offset)) ∨
        (∃ i ∈ info.validConsumers,
            moved.writableSizeOf i ≤ info.wantedBytes size type) ∧
          ∃ after,
            Shifted moved after (info.validConsumers.filter fun i =>
              moved.writableSizeOf i ≤
                moved.roundBytes size (info.wantedBytes size type)) ∧
            info.requestWriteTry now obj size type .CRB_WRITE_MODE_NON_BLOCK =
              .ok (after, obj, .again)) := by
  have distinct : info.validConsumers.Nodup :=
    List.nodup_range.sublist List.filter_sublist
  have blockersFree : ∀ i ∈ info.indexFindBlocker,
      (info.consumers i).state ≠ .USER_HOLDING_FRAME :=
    fun i member => unheld.states i (List.mem_of_mem_filter member)
  obtain ⟨moved, moves, shifted⟩ := moveAllBlockers_shifted now
    blockersFree (distinct.sublist List.filter_sublist)
  have tries :
      info.requestWriteTry now obj size type .CRB_WRITE_MODE_NON_BLOCK =
        moved.requestWriteBytes now obj size type
          .CRB_WRITE_MODE_NON_BLOCK := by
    have inside : size ≤ info.bufSize :=
      Nat.le_of_lt (Nat.lt_of_le_of_lt (Nat.le_add_right _ _) fits)
    rw [requestWriteTry, if_pos ⟨valid.1, inside, valid.2⟩,
      deleteAgedBlackHole_eq, withoutAged_of_no_holes unheld.holes]
    simp only [bind, Except.bind]
    rw [if_neg (by simp), moves]
  have movedUnheld := shifted.unheld unheld
  have users := shifted.validConsumers
  have movedFits : size + moved.writeAlignment type < moved.bufSize := by
    have bufSize : moved.bufSize = info.bufSize :=
      congrArg Frames.bufSize shifted.frames
    rw [shifted.writeAlignment, bufSize]
    exact fits
  have wanted : size + moved.writeAlignment type =
      info.wantedBytes size type := by
    rw [shifted.writeAlignment, wantedBytes]
  refine ⟨moved, shifted, ?_⟩
  rw [tries, requestWriteBytes]
  by_cases apart : ∀ i ∈ info.validConsumers,
      info.wantedBytes size type < moved.writableSizeOf i
  · obtain ⟨alignmentBytes, offset, grants⟩ :=
      requestWritePtr_granted movedUnheld.holes movedFits
        (by rw [users, wanted]; exact apart)
    rw [grants]
    exact .inl ⟨apart, _, _, _, rfl⟩
  simp only [not_forall, Nat.not_lt] at apart
  obtain ⟨i, member, small⟩ := apart
  refine .inr ⟨⟨i, member, small⟩, ?_⟩
  have requests : moved.requestWritePtr size (moved.writeAlignment type) =
      .ok (.notEnough moved (info.validConsumers.filter fun i =>
        moved.writableSizeOf i ≤
          moved.roundBytes size (info.wantedBytes size type))) := by
    rw [roundBytes, users]
    by_cases short : ∃ i ∈ info.validConsumers, moved.writableSizeOf i ≤ size
    · rw [if_pos short,
        requestWritePtr_of_short (by rw [users]; exact short), users]
    · have spacious : ∀ i ∈ moved.validConsumers,
          size < moved.writableSizeOf i := by
        intro j isUser
        apply Nat.lt_of_not_le
        intro less
        exact short ⟨j, users ▸ isUser, less⟩
      rw [if_neg short, requestWritePtr_of_padding movedUnheld.holes movedFits
        spacious ⟨i, by rw [users]; exact member, by rw [wanted]; exact small⟩,
        users, wanted]
  have free : ∀ i ∈ info.validConsumers.filter fun i =>
      moved.writableSizeOf i ≤
        moved.roundBytes size (info.wantedBytes size type),
      (moved.consumers i).state ≠ .USER_HOLDING_FRAME := by
    intro j blocks
    apply movedUnheld.states
    rw [users]
    exact List.mem_of_mem_filter blocks
  obtain ⟨after, again, stepped⟩ := moveAllBlockers_shifted now free
    (distinct.sublist List.filter_sublist)
  refine ⟨after, stepped, ?_⟩
  rw [requests]
  simp only [bind, Except.bind]
  rw [again]
  rfl

/-- Nobody is moved to the slot right behind the productor's. -/
theorem nextIframe_ne_behind (inside : info.productorIndex < MAX_FRAME_NUM)
    {i : Nat}
    (behind : (info.consumers i).index = advanceIndex info.productorIndex 1) :
    (info.nextIframe i).1 ≠ advanceIndex info.productorIndex 1 := by
  have isNext := slotPosition_nextIframe inside i
  rw [positionsAfter] at isNext
  cases found : info.iFramesAfter (info.consumers i).index with
  | nil =>
      rw [found] at isNext
      have same := congrArg Prod.fst (Option.some.inj isNext)
      change info.newestSlot = (info.nextIframe i).1 at same
      rw [← same]
      exact newestSlot_ne inside
  | cons slot rest =>
      rw [found] at isNext
      have same := congrArg Prod.fst (Option.some.inj isNext)
      change slot = (info.nextIframe i).1 at same
      rw [← same, ← behind]
      rintro rfl
      apply not_mem_iFramesAfter inside
      rw [found]
      exact List.mem_cons_self

/-- After the first moves of a try nobody is right behind the productor. -/
theorem Shifted.not_behind {moved : RingBufInfo}
    (shifted : Shifted info moved info.indexFindBlocker)
    (inside : info.productorIndex < MAX_FRAME_NUM) {i : Nat}
    (member : i ∈ info.validConsumers) :
    (moved.consumers i).index ≠ advanceIndex info.productorIndex 1 := by
  by_cases blocks : advanceIndex info.productorIndex 1 =
      (info.consumers i).index
  · have isBlocker : i ∈ info.indexFindBlocker :=
      List.mem_filter.mpr ⟨member, decide_eq_true blocks⟩
    have stands := congrArg Prod.fst (shifted.moved i isBlocker)
    change (moved.consumers i).index = (info.nextIframe i).1 at stands
    rw [stands]
    exact nextIframe_ne_behind inside blocks.symm
  · have noBlocker : i ∉ info.indexFindBlocker :=
      fun isBlocker => blocks (of_decide_eq_true (List.mem_filter.mp isBlocker).2)
    have stays := congrArg Prod.fst (shifted.kept i noBlocker)
    change (moved.consumers i).index = (info.consumers i).index at stays
    rw [stays]
    exact Ne.symm blocks

/-- The first moves of a try do not change what is ahead. -/
theorem Shifted.ahead {moved : RingBufInfo}
    (shifted : Shifted info moved info.indexFindBlocker)
    (inside : info.productorIndex < MAX_FRAME_NUM) (i : Nat) :
    (moved.Reaches wanted i ↔ info.Reaches wanted i) ∧
      (info.Reaches wanted i → moved.stops wanted i = info.stops wanted i) := by
  by_cases blocks : i ∈ info.indexFindBlocker
  · have behind := of_decide_eq_true (List.mem_filter.mp blocks).2
    exact shifted.of_behind inside blocks behind.symm
  · exact ⟨shifted.reaches_of_kept blocks, fun _ => shifted.stops_of_kept blocks⟩

/-- A consumer that leaves enough room has no stops. -/
theorem stops_eq_nil_iff {i : Nat}
    (elsewhere : (info.consumers i).index ≠
      advanceIndex info.productorIndex 1) :
    info.stops wanted i = [] ↔ wanted < info.writableSizeOf i := by
  rw [stops, rooms_of_not_behind elsewhere, List.takeWhile_cons]
  by_cases stop : info.writableSizeOf i ≤ wanted
  · rw [if_pos (decide_eq_true stop)]
    simp [stop]
  · have large : ¬ decide (info.writableSizeOf i ≤ wanted) = true :=
      fun isStop => stop (of_decide_eq_true isStop)
    rw [if_neg large]
    simp [Nat.lt_of_not_le stop]

/-- The first stop of a consumer is its own position. -/
theorem atShort_stops_iff {i : Nat}
    (elsewhere : (info.consumers i).index ≠
      advanceIndex info.productorIndex 1) (less : size ≤ wanted) :
    PacedWalks.AtShort (fun room => room ≤ size) (info.stops wanted i) ↔
      info.writableSizeOf i ≤ size := by
  rw [stops, rooms_of_not_behind elsewhere, List.takeWhile_cons]
  by_cases stop : info.writableSizeOf i ≤ wanted
  · rw [if_pos (decide_eq_true stop)]
    simp [PacedWalks.AtShort]
  · have large : ¬ decide (info.writableSizeOf i ≤ wanted) = true :=
      fun isStop => stop (of_decide_eq_true isStop)
    have larger : ¬ info.writableSizeOf i ≤ size := by omega
    rw [if_neg large]
    simp [PacedWalks.AtShort, larger]

/-- The second moves of a try are a round over the stops. -/
theorem Shifted.round {moved after : RingBufInfo}
    (first : Shifted info moved info.indexFindBlocker)
    (shifted : Shifted moved after (info.validConsumers.filter fun i =>
      moved.writableSizeOf i ≤ moved.roundBytes size wanted))
    (inside : info.productorIndex < MAX_FRAME_NUM) (less : size ≤ wanted) :
    (∀ i ∈ info.validConsumers,
        (after.Reaches wanted i ↔ info.Reaches wanted i)) ∧
      ((∀ i ∈ info.validConsumers, info.Reaches wanted i) →
        after.allStops wanted = PacedWalks.move (fun room => room ≤ size)
          (info.allStops wanted)) := by
  have movedInside : moved.productorIndex < MAX_FRAME_NUM :=
    first.productorIndex.symm ▸ inside
  have elsewhere : ∀ i ∈ info.validConsumers,
      (moved.consumers i).index ≠ advanceIndex moved.productorIndex 1 := by
    intro i member
    rw [first.productorIndex]
    exact first.not_behind inside member
  have bounded : moved.roundBytes size wanted ≤ wanted := by
    rw [roundBytes]
    split <;> omega
  have second : ∀ i ∈ info.validConsumers,
      (after.Reaches wanted i ↔ moved.Reaches wanted i) ∧
        (moved.Reaches wanted i → after.stops wanted i =
          if moved.writableSizeOf i ≤ moved.roundBytes size wanted then
            (moved.stops wanted i).tail
          else moved.stops wanted i) := by
    intro i member
    by_cases blocks : moved.writableSizeOf i ≤ moved.roundBytes size wanted
    · have isBlocker : i ∈ info.validConsumers.filter fun i =>
          moved.writableSizeOf i ≤ moved.roundBytes size wanted :=
        List.mem_filter.mpr ⟨member, decide_eq_true blocks⟩
      rw [if_pos blocks]
      exact shifted.of_stop movedInside isBlocker (elsewhere i member)
        (Nat.le_trans blocks bounded)
    · rw [if_neg blocks]
      have noBlocker : i ∉ info.validConsumers.filter fun i =>
          moved.writableSizeOf i ≤ moved.roundBytes size wanted :=
        fun isBlocker => blocks
          (of_decide_eq_true (List.mem_filter.mp isBlocker).2)
      exact ⟨shifted.reaches_of_kept noBlocker,
        fun _ => shifted.stops_of_kept noBlocker⟩
  constructor
  · intro i member
    exact (second i member).1.trans (first.ahead inside i).1
  · intro reaches
    have same : ∀ i ∈ info.validConsumers,
        moved.stops wanted i = info.stops wanted i :=
      fun i member => (first.ahead inside i).2 (reaches i member)
    have short : ∀ i ∈ info.validConsumers,
        (PacedWalks.AtShort (fun room => room ≤ size) (info.stops wanted i) ↔
          moved.writableSizeOf i ≤ size) := by
      intro i member
      rw [← same i member]
      exact atShort_stops_iff (elsewhere i member) less
    have someShort : (∃ stops ∈ info.validConsumers.map (info.stops wanted),
        PacedWalks.AtShort (fun room => room ≤ size) stops) ↔
          ∃ i ∈ moved.validConsumers, moved.writableSizeOf i ≤ size := by
      rw [first.validConsumers]
      simp only [List.mem_map, exists_exists_and_eq_and]
      exact exists_congr fun i => and_congr_right (short i)
    rw [allStops, shifted.validConsumers, first.validConsumers,
      PacedWalks.move, allStops, List.map_map]
    apply List.map_congr_left
    intro i member
    rw [(second i member).2
        ((first.ahead inside i).1.mpr (reaches i member)), same i member,
      Function.comp_apply, roundBytes]
    by_cases isSome : ∃ i ∈ moved.validConsumers, moved.writableSizeOf i ≤ size
    · rw [if_pos isSome, PacedWalks.moveOne_of_short (someShort.mpr isSome)]
      exact if_congr (short i member).symm rfl rfl
    · rw [if_neg isSome,
        PacedWalks.moveOne_of_none fun shorts => isSome (someShort.mp shorts)]
      by_cases blocks : moved.writableSizeOf i ≤ wanted
      · rw [if_pos blocks]
      · have arrived : info.stops wanted i = [] := by
          rw [← same i member]
          exact (stops_eq_nil_iff (elsewhere i member)).mpr
            (Nat.lt_of_not_le blocks)
        rw [if_neg blocks, arrived, List.tail_nil]

/-- The rounds that are left are enough exactly when the ways of all consumers
lead far enough and need fewer rounds of moves. -/
theorem requestWriteRounds_iff (inside : info.productorIndex < MAX_FRAME_NUM)
    (unheld : info.Unheld) (valid : 0 < size ∧ type ≠ .CRB_FRAME_ANY)
    (fits : info.wantedBytes size type < info.bufSize) (now : Nat)
    (obj : Object) (rounds : Nat) :
    (∃ after obj' offset,
        requestWriteRounds now obj size type .CRB_WRITE_MODE_NON_BLOCK rounds
          info = .ok (after, obj', .granted offset)) ↔
      (∀ i ∈ info.validConsumers,
          info.Reaches (info.wantedBytes size type) i) ∧
        info.roundsNeeded size type < rounds := by
  induction rounds generalizing info with
  | zero =>
      constructor
      · rintro ⟨_, _, _, grants⟩
        cases grants
      · rintro ⟨_, fewer⟩
        exact absurd fewer (Nat.not_lt_zero _)
  | succ rounds ih =>
      obtain ⟨moved, first, ends⟩ :=
        requestWriteTry_of_unheld unheld valid fits now obj
      have less : size ≤ info.wantedBytes size type := Nat.le_add_right _ _
      have elsewhere : ∀ i ∈ info.validConsumers,
          (moved.consumers i).index ≠ advanceIndex moved.productorIndex 1 := by
        intro i member
        rw [first.productorIndex]
        exact first.not_behind inside member
      rcases ends with ⟨apart, after, obj', offset, grants⟩ |
        ⟨⟨i, member, small⟩, after, second, again⟩
      · have reaches : ∀ i ∈ info.validConsumers,
            info.Reaches (info.wantedBytes size type) i := by
          intro i member
          apply (first.ahead inside i).1.mp
          rw [Reaches, rooms_of_not_behind (elsewhere i member)]
          exact ⟨_, List.mem_cons_self, apart i member⟩
        have arrived : info.roundsNeeded size type = 0 := by
          apply PacedWalks.rounds_of_arrived
          rw [allStops, List.forall_mem_map]
          intro i member
          rw [← (first.ahead inside i).2 (reaches i member)]
          exact (stops_eq_nil_iff (elsewhere i member)).mpr (apart i member)
        constructor
        · exact fun _ => ⟨reaches, by rw [arrived]; exact Nat.succ_pos rounds⟩
        · intro _
          refine ⟨after, obj', offset, ?_⟩
          rw [requestWriteRounds, grants]
          rfl
      · obtain ⟨ways, moves⟩ := first.round second inside less
        have retries :
            requestWriteRounds now obj size type .CRB_WRITE_MODE_NON_BLOCK
                (rounds + 1) info =
              requestWriteRounds now obj size type .CRB_WRITE_MODE_NON_BLOCK
                rounds after := by
          rw [requestWriteRounds, again]
          rfl
        have users : after.validConsumers = info.validConsumers :=
          second.validConsumers.trans first.validConsumers
        have wanted : after.wantedBytes size type =
            info.wantedBytes size type := by
          rw [wantedBytes, second.writeAlignment, first.writeAlignment,
            wantedBytes]
        have bufSize : after.bufSize = info.bufSize :=
          congrArg Frames.bufSize (second.frames.trans first.frames)
        have later := ih
          (by rw [second.productorIndex, first.productorIndex]; exact inside)
          (second.unheld (first.unheld unheld))
          (by rw [wanted, bufSize]; exact fits)
        rw [wanted, users] at later
        rw [retries, later, forall₂_congr ways]
        apply and_congr_right
        intro reaches
        have left : ∃ stops ∈ info.allStops (info.wantedBytes size type),
            stops ≠ [] := by
          refine ⟨_, List.mem_map_of_mem member, ?_⟩
          rw [← (first.ahead inside i).2 (reaches i member)]
          intro arrived
          have large := (stops_eq_nil_iff (elsewhere i member)).mp arrived
          omega
        have fewer : info.roundsNeeded size type =
            after.roundsNeeded size type + 1 := by
          rw [roundsNeeded, PacedWalks.rounds_move left, ← moves reaches,
            roundsNeeded, wanted]
        omega

end Rounds

/-- Nobody has unread frames and nobody stands off the productor: a request in
BLOCK mode needs no retry. -/
theorem grants_of_all_read {info : RingBufInfo} {size : Nat} {type : FRAME_E}
    (unheld : info.Unheld) (valid : 0 < size ∧ type ≠ .CRB_FRAME_ANY)
    (fits : info.wantedBytes size type < info.bufSize)
    (read : ∀ i ∈ info.validConsumers,
      info.position i = (info.productorIndex, info.productorOffset))
    (now : Nat) (obj : Object) :
    info.Grants now obj size type .CRB_WRITE_MODE_BLOCK := by
  have noBlocker : info.indexFindBlocker = [] := by
    apply List.filter_eq_nil_iff.mpr
    intro i member blocks
    have index := congrArg Prod.fst (read i member)
    change (info.consumers i).index = info.productorIndex at index
    have behind := of_decide_eq_true blocks
    rw [index] at behind
    unfold advanceIndex MAX_FRAME_NUM at behind
    omega
  have apart : ∀ i ∈ info.validConsumers,
      size + info.writeAlignment type < info.writableSizeOf i := by
    intro i member
    have offset := congrArg Prod.snd (read i member)
    change (info.consumers i).offset = info.productorOffset at offset
    rw [writableSizeOf, getWritableSize, if_pos offset]
    exact fits
  have bounded : size ≤ info.bufSize :=
    Nat.le_of_lt (Nat.lt_of_le_of_lt (Nat.le_add_right _ _) fits)
  obtain ⟨alignmentBytes, offset, grants⟩ :=
    requestWritePtr_granted unheld.holes fits apart
  refine ⟨info, obj.granted size alignmentBytes type, offset, ?_⟩
  rw [requestWriteFrame, MAX_RETRY_TIME, requestWriteRounds, requestWriteTry,
    if_pos ⟨valid.1, bounded, valid.2⟩, deleteAgedBlackHole_eq,
    withoutAged_of_no_holes unheld.holes]
  simp only [bind, Except.bind, noBlocker]
  rw [if_neg fun blocked => blocked.1 rfl]
  simp only [moveAllBlockers, List.foldlM_nil, bind, Except.bind, pure,
    Except.pure, requestWriteBytes, grants]
  rfl

end RingBufInfo

namespace System

variable {s : System}

/-- A reader that has read everything stands where the productor does. -/
def Placed (s : System) : Prop :=
  ∀ i ∈ s.info.validConsumers,
    (s.info.consumers i).index = s.info.productorIndex →
      (s.info.consumers i).offset = s.info.productorOffset

instance : Decidable s.Placed :=
  inferInstanceAs (Decidable (∀ i ∈ _, _))

/-- The bytes that a request, its alignment and the newest frame take. -/
def demand (s : System) (size : Nat) : Nat :=
  size + CRB_DEFAULT_ALIGNMENT + (s.info.frameIdx s.info.newestSlot).length

theorem wantedBytes_lt {size : Nat}
    (fits : s.demand size < s.info.bufSize) (type : FRAME_E) :
    s.info.wantedBytes size type < s.info.bufSize := by
  have aligned : s.info.writeAlignment type ≤ CRB_DEFAULT_ALIGNMENT := by
    unfold RingBufInfo.writeAlignment
    split
    · exact Nat.le_refl _
    · exact Nat.zero_le _
  unfold demand at fits
  unfold RingBufInfo.wantedBytes
  omega

/-- A writer and a reader, and `count` I frames of one byte that the reader has
not read. -/
def unreadFrames (count : Nat) : List Call :=
  [.attachWriter 0 [0x57] false, .attachReader 1 [0x61] false] ++
    (List.replicate count [
      .requestWriteFrame 0 1 .CRB_FRAME_I_SLICE .CRB_WRITE_MODE_NON_BLOCK,
      .commitWrite 0 none 1]).flatten

end System

end CRingBuf

end MbedtlsKcp
