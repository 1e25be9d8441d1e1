import MbedtlsKcp.CRingBufContinuousRead
import MbedtlsKcp.CRingBufShelter

/-!
# What readers do to each other's frames

A reader's call changes its own slot and hole; what it obtains lies in front of
the productor.  Constructors and destructors empty slots or fill them anew.
-/

namespace MbedtlsKcp

namespace CRingBuf

open CyclicWindows FallibleSteps

/-- The bytes that a read request gives. -/
def ReadAnswer.bytes : ReadAnswer → Option HeldBytes
  | .frame offset length _ => some ⟨offset, length⟩
  | .frames offset length _ => some ⟨offset, length⟩
  | .unavailable => none

namespace RingBufInfo

variable {info after : RingBufInfo} {slot : Nat} {bytes : HeldBytes}

section Reading

variable {obj obj' : Object} {type : FRAME_E} {answer : ReadAnswer}
variable {which first last next count frameCount : Nat}

/-- A reader's call changes its own slot and releases its hole at most. -/
structure ChangedBy (info after : RingBufInfo) (which : Nat) : Prop where
  frames : after.frames = info.frames
  others : ∀ i, i ≠ which → after.consumers i = info.consumers i
  name : (after.consumers which).name = (info.consumers which).name
  fewer : ∀ hole ∈ after.holes, hole ∈ info.holes
  kept : ∀ hole ∈ info.holes,
    hole.blockerName ≠ (info.consumers which).name → hole ∈ after.holes
  invariant : after.HoleInvariant
  index : (after.consumers which).index < MAX_FRAME_NUM

namespace ChangedBy

theorem sound (changed : info.ChangedBy after which) (sound : info.Sound) :
    after.Sound where
  invariant := changed.invariant
  indexed := by
    refine ⟨?_, fun i => ?_⟩
    · change after.frames.index < _
      rw [changed.frames]
      exact sound.indexed.productor
    · by_cases same : i = which
      · rw [same]
        exact changed.index
      · rw [changed.others i same]
        exact sound.indexed.consumers i
  placed hole member := by
    rw [show after.bufSize = info.bufSize from
      congrArg Frames.bufSize changed.frames]
    exact sound.placed hole (changed.fewer hole member)
  offset := by
    change after.frames.offset < after.frames.bufSize
    rw [changed.frames]
    exact sound.offset

/-- What another consumer holds stays where it is. -/
theorem protects (changed : info.ChangedBy after which)
    (invariant : info.HoleInvariant) (valid : info.validConsumer which)
    (other : slot ≠ which) (protects : info.Protects slot bytes) :
    after.Protects slot bytes := by
  have same := changed.others slot other
  have size : after.bufSize = info.bufSize :=
    congrArg Frames.bufSize changed.frames
  obtain ⟨isValid, ends⟩ := protects
  refine ⟨by rwa [validConsumer, same], ?_⟩
  rcases ends with ⟨holds, isHole⟩ | ⟨hole, member, owned, isHole⟩
  · refine .inl ⟨(holdsFrame_congr same).mpr holds, ?_⟩
    rwa [holeOf_congr same (congrArg Frames.frameIdx changed.frames) size,
      size]
  · refine .inr ⟨hole, ?_, by rwa [same], by rwa [size]⟩
    apply changed.kept hole member
    rw [owned]
    exact fun equal => other (invariant.names slot which isValid valid equal)

theorem sheltered (changed : info.ChangedBy after which)
    (sheltered : info.Sheltered)
    (own : after.holdsFrame which → after.InFront which) :
    after.Sheltered where
  toSound := changed.sound sheltered.toSound
  holding i holds := by
    by_cases same : i = which
    · subst same
      exact own holds
    · have kept := changed.others i same
      exact (sheltered.holding i ((holdsFrame_congr kept).mp holds)).congr kept
        changed.frames

theorem keepsAhead (changed : info.ChangedBy after which)
    (keeps : info.KeepsAhead count)
    (own : after.holdsFrame which →
      count < gap info.bufSize info.productorOffset
          (after.consumers which).offset ∧
        advanceIndex info.productorIndex 1 ≠
          (after.consumers which).refIdxStart) : after.KeepsAhead count := by
  have size : after.bufSize = info.bufSize :=
    congrArg Frames.bufSize changed.frames
  have offset : after.productorOffset = info.productorOffset :=
    congrArg Frames.offset changed.frames
  have index : after.productorIndex = info.productorIndex :=
    congrArg Frames.index changed.frames
  intro i holds
  rw [size, offset, index]
  by_cases same : i = which
  · subst same
    exact own holds
  · have kept := changed.others i same
    rw [kept]
    exact keeps i ((holdsFrame_congr kept).mp holds)

end ChangedBy

/-- After the release of its hole a consumer changes its slot. -/
theorem changedBy_update {change : RingBufUser → RingBufUser}
    (invariant : info.HoleInvariant)
    (keepsName : ∀ user, (change user).name = user.name)
    (index : (change (info.consumers which)).index < MAX_FRAME_NUM) :
    info.ChangedBy ((info.releaseHole which).updateConsumer which change)
      which where
  frames := rfl
  others _ other := updateConsumer_of_ne other
  name := by
    rw [updateConsumer_self, keepsName]
    rfl
  fewer _ member := (List.mem_filter.mp member).1
  kept _ member other := List.mem_filter.mpr ⟨member, decide_eq_true other⟩
  invariant := invariant.updateReleased keepsName
  index := by
    rw [updateConsumer_self]
    exact index

theorem changedBy_releaseHole (sound : info.Sound) (which : Nat) :
    info.ChangedBy (info.releaseHole which) which where
  frames := rfl
  others _ _ := rfl
  name := rfl
  fewer _ member := (List.mem_filter.mp member).1
  kept _ member other := List.mem_filter.mpr ⟨member, decide_eq_true other⟩
  invariant := sound.invariant.releaseHole which
  index := sound.indexed.consumers which

theorem changedBy_self (sound : info.Sound) (which : Nat) :
    info.ChangedBy info which where
  frames := rfl
  others _ _ := rfl
  name := rfl
  fewer _ member := member
  kept _ member _ := member
  invariant := sound.invariant
  index := sound.indexed.consumers which

/-- Frames of a ring that can be read lie in front of the productor. -/
theorem inFront_holdFrames
    (offsets : ∀ slot, (info.frameIdx slot).offset < info.bufSize)
    (inside : info.productorOffset < info.bufSize)
    (firstNew : first ≠ info.productorIndex) (lastBounded : last < MAX_FRAME_NUM)
    (reaches : gap MAX_FRAME_NUM first last <
        gap MAX_FRAME_NUM first info.productorIndex ∨
      advanceIndex last 1 = first)
    (readable : info.requestReadPtr obj (info.frameIdx first).offset
      info.productorOffset (info.bufferLen (info.frameIdx first).offset
        (info.frameIdx last).offset + (info.frameIdx last).length)) :
    (info.holdFrames which first last).InFront which ∧
      ((info.holdFrames which first last).holeOf 0 which).bytes info.bufSize =
        ⟨(info.frameIdx first).offset,
          info.bufferLen (info.frameIdx first).offset
            (info.frameIdx last).offset + (info.frameIdx last).length⟩ := by
  obtain ⟨_, _, nonempty, apart, fits⟩ := readable
  have start := offsets first
  rw [getReadableSize, if_neg (Ne.symm apart), bufferLen_eq_gap start inside]
    at fits
  rw [bufferLen_eq_gap start (offsets last)] at fits nonempty ⊢
  have behind := gap_lt start inside
  have length : gap info.bufSize (info.frameIdx first).offset
      (info.advanceOffset (info.frameIdx last).offset
        (info.frameIdx last).length) =
      gap info.bufSize (info.frameIdx first).offset
        (info.frameIdx last).offset + (info.frameIdx last).length := by
    rw [advanceOffset, gap_advance_last start (offsets last) (by omega),
      Nat.mod_eq_of_lt (by omega)]
  have slot : (info.holdFrames which first last).consumers which =
      { info.consumers which with
        offset := (info.frameIdx first).offset
        index := first
        refIdxStart := first
        refIdxEnd := last
        state := .USER_HOLDING_FRAME
        movedByProductor := false
        waitIFrame := false } :=
    updateConsumer_self
  have hole : (info.holdFrames which first last).holeOf 0 which =
      ⟨(info.frameIdx first).offset,
        info.advanceOffset (info.frameIdx last).offset
          (info.frameIdx last).length, 0, (info.consumers which).name⟩ := by
    unfold holeOf
    rw [slot]
    rfl
  constructor
  · constructor
    · rw [hole]
      refine ⟨start, Nat.mod_lt _ (by omega), ?_⟩
      intro same
      apply nonempty
      rw [← length]
      exact (gap_eq_zero_iff start).mpr same
    · rw [slot, hole]
    · rw [slot]
    · rw [slot, hole]
      change gap info.bufSize _ _ ≤ _
      rw [length]
      exact fits
    · rw [slot]
      exact firstNew
    · rw [slot]
      exact lastBounded
    · rw [slot]
      exact reaches
  · rw [hole, BlackHole.bytes, length]

/-- The slot that a read request finds. -/
def readSlot (info : RingBufInfo) (obj : Object) (type : FRAME_E) :
    Option Nat :=
  let user := info.consumers obj.m_userIdx
  info.indexFindNextFrame info.productorIndex user.index
    (ofType (info.readType user type))

/-- A consumer has obtained bytes that start with the frame of a slot. -/
structure Obtains (info after : RingBufInfo) (which first : Nat)
    (bytes : HeldBytes) : Prop where
  state : (after.consumers which).state = .USER_HOLDING_FRAME
  offset : (after.consumers which).offset = (info.frameIdx first).offset
  refIdxStart : (after.consumers which).refIdxStart = first
  inFront : after.InFront which
  bytes : (after.holeOf 0 which).bytes info.bufSize = bytes

theorem Obtains.protects (obtains : info.Obtains after which first bytes)
    (changed : info.ChangedBy after which)
    (valid : info.validConsumer which) : after.Protects which bytes := by
  have isValid : after.validConsumer which :=
    ⟨valid.1, changed.name ▸ valid.2⟩
  refine ⟨isValid, .inl ⟨⟨isValid, obtains.state⟩, ?_⟩⟩
  rw [show after.bufSize = info.bufSize from
    congrArg Frames.bufSize changed.frames]
  exact obtains.bytes

/-- What a read request does to the slot of its reader. -/
structure Reads (info after : RingBufInfo) (obj : Object) (type : FRAME_E)
    (answer : ReadAnswer) : Prop where
  changed : info.ChangedBy after obj.m_userIdx
  ends : answer.bytes = none ∧
      after.consumers obj.m_userIdx = info.consumers obj.m_userIdx ∨
    ∃ first bytes, info.readSlot obj type = some first ∧
      answer.bytes = some bytes ∧
      info.Obtains after obj.m_userIdx first bytes

theorem reads_unavailable (sound : info.Sound) :
    info.Reads (info.releaseHole obj.m_userIdx) obj type .unavailable where
  changed := changedBy_releaseHole sound _
  ends := .inl ⟨rfl, rfl⟩

theorem mem_readSlot_lt (sound : info.Sound)
    (found : info.readSlot obj type = some first) :
    first < MAX_FRAME_NUM ∧ first ≠ info.productorIndex := by
  have member := List.mem_of_find?_eq_some found
  have start := sound.indexed.consumers obj.m_userIdx
  refine ⟨mem_window_lt start member, ?_⟩
  rintro rfl
  exact last_not_mem_window start member

theorem obtains_holdFrames {size : Nat} (sound : info.Sound)
    (offsets : ∀ slot, (info.frameIdx slot).offset < info.bufSize)
    (found : info.readSlot obj type = some first)
    (lastBounded : last < MAX_FRAME_NUM)
    (reaches : gap MAX_FRAME_NUM first last <
        gap MAX_FRAME_NUM first info.productorIndex ∨
      advanceIndex last 1 = first)
    (isSize : size = info.bufferLen (info.frameIdx first).offset
      (info.frameIdx last).offset + (info.frameIdx last).length)
    (readable : info.requestReadPtr obj (info.frameIdx first).offset
      info.productorOffset size)
    (isAnswer : answer.bytes = some ⟨(info.frameIdx first).offset, size⟩) :
    info.Reads ((info.releaseHole obj.m_userIdx).holdFrames obj.m_userIdx
      first last) obj type answer := by
  obtain ⟨bounded, new⟩ := mem_readSlot_lt sound found
  subst isSize
  have released : (info.releaseHole obj.m_userIdx).requestReadPtr obj
      (info.frameIdx first).offset info.productorOffset
      (info.bufferLen (info.frameIdx first).offset
        (info.frameIdx last).offset + (info.frameIdx last).length) :=
    readable
  obtain ⟨front, bytes⟩ : ((info.releaseHole obj.m_userIdx).holdFrames
      obj.m_userIdx first last).InFront obj.m_userIdx ∧ _ :=
    inFront_holdFrames offsets sound.offset new lastBounded reaches released
  refine ⟨changedBy_update sound.invariant (fun _ => rfl) bounded,
    .inr ⟨first, _, found, isAnswer, ?_, ?_, ?_, front, bytes⟩⟩
  · rw [holdFrames, updateConsumer_self]
  · rw [holdFrames, updateConsumer_self]
    rfl
  · rw [holdFrames, updateConsumer_self]

theorem reads_requestReadFrame (sound : info.Sound)
    (offsets : ∀ slot, (info.frameIdx slot).offset < info.bufSize)
    (requests : info.requestReadFrame obj type = .ok (after, obj', answer)) :
    info.Reads after obj type answer := by
  rcases requestReadFrame_cases requests with
    ⟨rfl, _, rfl⟩ | ⟨first, found, readable, rfl, _, rfl⟩
  · exact reads_unavailable sound
  have found : info.readSlot obj type = some first := found
  obtain ⟨bounded, new⟩ := mem_readSlot_lt sound found
  refine obtains_holdFrames sound offsets found bounded (.inl ?_) ?_ readable
    rfl
  · rw [gap_self]
    exact Nat.pos_of_ne_zero fun zero =>
      new ((gap_eq_zero_iff bounded).mp zero)
  · rw [bufferLen_eq_gap (offsets first) (offsets first), gap_self,
      Nat.zero_add]
    rfl

theorem reads_requestReadContinuousFrames (sound : info.Sound)
    (offsets : ∀ slot, (info.frameIdx slot).offset < info.bufSize)
    (requests : info.requestReadContinuousFrames obj frameCount =
      .ok (after, obj', answer)) :
    info.Reads after obj .CRB_FRAME_ANY answer := by
  rcases requestReadContinuousFrames_cases requests with
    ⟨rfl, _, rfl⟩ | ⟨first, next, count, found, ends, rfl, readable, rfl, _,
      rfl⟩
  · exact reads_unavailable sound
  have found : info.readSlot obj .CRB_FRAME_ANY = some first := found
  have ends : info.indexFindNextFrame info.productorIndex
      (advanceIndex first 1) startsRun = some next := ends
  obtain ⟨bounded, new⟩ := mem_readSlot_lt sound found
  refine obtains_holdFrames sound offsets found (stepbackIndex_lt _ _) ?_ rfl
    readable rfl
  obtain ⟨inside, different, _⟩ :=
    runFrom_eq bounded sound.indexed.productor ends
  rw [Nat.add_comm next, mod_eq_gap bounded inside]
  by_cases none : frameCount = 0
  · right
    rw [none, Nat.min_zero, Nat.sub_zero, stepbackIndex_gap bounded inside]
    exact advanceIndex_stepbackIndex bounded
  · left
    have positive : gap MAX_FRAME_NUM first next ≠ 0 :=
      fun zero => different ((gap_eq_zero_iff bounded).mp zero)
    obtain ⟨count, isCount⟩ : ∃ count,
        min (gap MAX_FRAME_NUM first next) frameCount = count + 1 :=
      Nat.exists_eq_succ_of_ne_zero (by omega)
    have short : count + 1 ≤ gap MAX_FRAME_NUM first next := by omega
    have before : gap MAX_FRAME_NUM first next <
        gap MAX_FRAME_NUM first info.productorIndex := by
      rw [indexFindNextFrame, advanceIndex_one bounded] at ends
      have near := ((mem_walk_iff (next_lt bounded)).mp
        (List.mem_of_find?_eq_some ends)).2
      rw [gap_next_first bounded inside different,
        gap_next_first bounded sound.indexed.productor new]
      exact Nat.succ_lt_succ near
    rw [isCount, (gap_lastSlot bounded inside short).2]
    omega

/-- A call after which the reader holds what it held before, or nothing. -/
structure Releases (info after : RingBufInfo) (which : Nat) : Prop
    extends info.ChangedBy after which where
  ends : after.consumers which = info.consumers which ∨
    (after.consumers which).state ≠ .USER_HOLDING_FRAME

theorem Releases.sheltered (releases : info.Releases after which)
    (sheltered : info.Sheltered) : after.Sheltered := by
  refine releases.toChangedBy.sheltered sheltered ?_
  intro holds
  rcases releases.ends with same | free
  · exact (sheltered.holding which ((holdsFrame_congr same).mp holds)).congr
      same releases.frames
  · exact absurd holds.2 free

theorem Releases.keepsAhead (releases : info.Releases after which)
    (keeps : info.KeepsAhead count) : after.KeepsAhead count := by
  refine releases.toChangedBy.keepsAhead keeps ?_
  intro holds
  rcases releases.ends with same | free
  · rw [same]
    exact keeps which ((holdsFrame_congr same).mp holds)
  · exact absurd holds.2 free

theorem releases_commitRead {size : Option Nat} (sound : info.Sound)
    (commits : info.commitRead obj size = .ok (after, obj')) :
    info.Releases after obj.m_userIdx := by
  rcases (commitRead_cases commits).2 with ⟨_, rfl, _⟩ | ⟨_, rfl, _⟩
  · exact ⟨changedBy_releaseHole sound _, .inl rfl⟩
  refine ⟨changedBy_update sound.invariant ?_ ?_, .inr ?_⟩
  · intro user
    split <;> rfl
  · split
    · exact sound.indexed.consumers _
    · exact Nat.mod_lt _ frameNum_pos
  · rw [freeFrames, updateConsumer_self]
    split <;> exact UserState.noConfusion

theorem releases_discardAllData (sound : info.Sound)
    (discards : info.discardAllData obj = .ok (after, obj')) :
    info.Releases after obj.m_userIdx := by
  rw [discardAllData_eq] at discards
  obtain ⟨rfl, _⟩ := Prod.mk.inj (Except.ok.inj discards)
  refine ⟨changedBy_update sound.invariant (fun _ => rfl)
    sound.indexed.productor, .inr ?_⟩
  rw [updateConsumer_self]
  exact UserState.noConfusion

/-- An explicit move of a reader that holds nothing. -/
theorem releases_indexMoveTo {target : Nat} (sound : info.Sound)
    (free : (info.consumers obj.m_userIdx).state = .USER_FREE)
    (inside : target < MAX_FRAME_NUM)
    (moves : info.indexMoveTo obj target = .ok after) :
    info.Releases after obj.m_userIdx := by
  rw [indexMoveTo_eq] at moves
  obtain rfl := Except.ok.inj moves
  refine ⟨changedBy_update sound.invariant (fun _ => rfl) inside, .inr ?_⟩
  rw [moveConsumer, updateConsumer_self]
  change (info.consumers obj.m_userIdx).state ≠ _
  rw [free]
  exact UserState.noConfusion

theorem specifiedTimeSlot_lt {timeStamp : Int} {slots : List Nat}
    {closest_idx : Nat} (inside : ∀ i ∈ slots, i < MAX_FRAME_NUM)
    (closest : closest_idx < MAX_FRAME_NUM) :
    info.specifiedTimeSlot type timeStamp slots closest_idx <
      MAX_FRAME_NUM := by
  induction slots generalizing closest_idx with
  | nil => exact closest
  | cons i slots ih =>
      have here := inside i List.mem_cons_self
      have rest : ∀ j ∈ slots, j < MAX_FRAME_NUM :=
        fun j member => inside j (List.mem_cons_of_mem i member)
      unfold specifiedTimeSlot
      split
      · split
        · exact here
        · exact ih rest here
      · exact ih rest closest

theorem releases_indexMoveToSpecifiedTime {timeStamp : Int}
    (sound : info.Sound)
    (free : (info.consumers obj.m_userIdx).state = .USER_FREE)
    (moves : info.indexMoveToSpecifiedTime obj type timeStamp = .ok after) :
    info.Releases after obj.m_userIdx := by
  unfold indexMoveToSpecifiedTime at moves
  split at moves
  swap
  · obtain rfl := Except.ok.inj moves
    exact ⟨changedBy_self sound _, .inl rfl⟩
  rename_i target found
  refine releases_indexMoveTo sound free ?_ moves
  unfold indexFindSpecifiedTimeFrameInstance at found
  split at found
  · cases found
  obtain rfl := Option.some.inj found
  apply specifiedTimeSlot_lt _ frameNum_pos
  intro i member
  rcases List.mem_append.mp member with searched | first
  · exact mem_window_lt (findOldesValidIndex_lt sound.indexed.productor)
      (List.mem_of_mem_tail (List.mem_reverse.mp searched))
  · split at first
    · rw [List.mem_singleton.mp first]
      exact frameNum_pos
    · cases first

end Reading

section Users

variable {obj : Object} {name : UserName} {dumper liveStream : Bool}
variable {count : Nat}

theorem indexFindLatestIFrame_lt {target : Nat}
    (inside : info.productorIndex < MAX_FRAME_NUM)
    (found : info.indexFindLatestIFrame = some target) :
    target < MAX_FRAME_NUM := by
  unfold indexFindLatestIFrame indexFindLatestFrame at found
  split at found
  · have member := List.mem_of_find?_eq_some found
    exact mem_window_lt (findOldesValidIndex_lt inside)
      (List.mem_of_mem_tail (List.mem_reverse.mp member))
  · cases found

theorem installPosition_lt (inside : info.productorIndex < MAX_FRAME_NUM)
    (dumper : Bool) :
    (info.installPosition dumper).1 < MAX_FRAME_NUM := by
  unfold installPosition
  split
  · split
    · exact findOldesValidIndex_lt inside
    · split
      · rename_i found
        exact indexFindLatestIFrame_lt inside found
      · exact inside
  · exact frameNum_pos

/-- A change of the users: slots are emptied or get a new consumer. -/
structure Resettled (info after : RingBufInfo) : Prop where
  bufSize : after.bufSize = info.bufSize
  slots : ∀ i, after.consumers i = info.consumers i ∨
    (after.consumers i).state = .USER_FREE ∧
      (after.consumers i).index < MAX_FRAME_NUM
  fewer : ∀ hole ∈ after.holes, hole ∈ info.holes
  invariant : after.HoleInvariant

namespace Resettled

theorem holdsFrame (resettled : info.Resettled after) {i : Nat}
    (holds : after.holdsFrame i) :
    info.holdsFrame i ∧ after.consumers i = info.consumers i := by
  rcases resettled.slots i with same | ⟨free, _⟩
  · exact ⟨(holdsFrame_congr same).mp holds, same⟩
  · rw [RingBufInfo.holdsFrame, free] at holds
    cases holds.2

theorem sound (resettled : info.Resettled after) (sound : info.Sound)
    (index : after.productorIndex < MAX_FRAME_NUM)
    (offset : after.productorOffset < info.bufSize) : after.Sound where
  invariant := resettled.invariant
  indexed := by
    refine ⟨index, fun i => ?_⟩
    rcases resettled.slots i with same | ⟨_, inside⟩
    · rw [same]
      exact sound.indexed.consumers i
    · exact inside
  placed hole member := by
    rw [resettled.bufSize]
    exact sound.placed hole (resettled.fewer hole member)
  offset := by
    rw [resettled.bufSize]
    exact offset

theorem sound_of_frames (resettled : info.Resettled after)
    (frames : after.frames = info.frames) (sound : info.Sound) :
    after.Sound := by
  apply resettled.sound sound
  · change after.frames.index < _
    rw [frames]
    exact sound.indexed.productor
  · change after.frames.offset < _
    rw [frames]
    exact sound.offset

/-- A change of the readers. -/
theorem sheltered (resettled : info.Resettled after)
    (frames : after.frames = info.frames) (sheltered : info.Sheltered) :
    after.Sheltered where
  toSound := resettled.sound_of_frames frames sheltered.toSound
  holding i holds := by
    obtain ⟨before, same⟩ := resettled.holdsFrame holds
    exact (sheltered.holding i before).congr same frames

theorem refl (sound : info.Sound) : info.Resettled info :=
  ⟨rfl, fun _ => .inl rfl, fun _ member => member, sound.invariant⟩

end Resettled

/-- The ring that a constructor of a reader installs it in: in a crowded ring
all slots are emptied first. -/
structure CleanedFor (info cleaned : RingBufInfo) : Prop where
  frames : cleaned.frames = info.frames
  holes : cleaned.holes = info.holes
  consumers : ∀ i, cleaned.consumers i = info.consumers i ∨
    cleaned.consumers i = emptyUser
  roomy : info.getIntalledUserNum < 10 → cleaned.consumers = info.consumers

theorem cleanedFor_cleanWhenCrowded (info : RingBufInfo) :
    info.CleanedFor { info with version := 1 }.cleanWhenCrowded := by
  have frames :
      ({ info with version := 1 } : RingBufInfo).cleanWhenCrowded.frames =
        info.frames :=
    frames_cleanWhenCrowded
  refine ⟨frames, ?_, ?_, ?_⟩
  · unfold cleanWhenCrowded
    split
    · rfl
    · rfl
  · intro i
    unfold cleanWhenCrowded cleanAllConsumer
    split
    · dsimp only
      split
      · exact .inr rfl
      · exact .inl rfl
    · exact .inl rfl
  · intro roomy
    rw [cleanWhenCrowded, if_neg]
    exact Nat.not_le_of_lt roomy

theorem constructReader_cleaned
    (constructs : info.constructReader name dumper = .ok (after, obj)) :
    ∃ cleaned : RingBufInfo, ∃ slot, info.CleanedFor cleaned ∧
      after = cleaned.installed slot name dumper ∧
      ((cleaned.consumers slot).name = name ∨
        (cleaned.consumers slot).name = []) := by
  obtain ⟨_, slot, _, installs⟩ := constructReader_ok constructs
  obtain ⟨_, rfl, chosen⟩ := installReader_ok installs
  exact ⟨_, slot, cleanedFor_cleanWhenCrowded info, rfl,
    chosen.imp_right fun free => free.2.1⟩

theorem resettled_constructReader (sound : info.Sound)
    (constructs : info.constructReader name dumper = .ok (after, obj)) :
    info.Resettled after := by
  have frames := frames_constructReader constructs
  have invariant := sound.invariant.constructReader constructs
  obtain ⟨cleaned, slot, cleans, rfl, _⟩ := constructReader_cleaned constructs
  refine ⟨congrArg Frames.bufSize frames, fun i => ?_, fun hole member => ?_,
    invariant⟩
  · by_cases here : i = slot
    · right
      have index : cleaned.productorIndex < MAX_FRAME_NUM := by
        change cleaned.frames.index < _
        rw [cleans.frames]
        exact sound.indexed.productor
      rw [here, installed]
      dsimp only
      rw [Function.update_self]
      exact ⟨rfl, installPosition_lt index dumper⟩
    · rw [installed]
      dsimp only
      rw [Function.update_of_ne here]
      refine (cleans.consumers i).imp_right fun empty => ?_
      rw [empty]
      exact ⟨rfl, frameNum_pos⟩
  · rw [← cleans.holes]
    exact (List.mem_filter.mp member).1

/-- In a ring that is not crowded a new reader leaves the consumers with other
names alone. -/
theorem Protects.constructReader (protects : info.Protects slot bytes)
    (roomy : info.getIntalledUserNum < 10)
    (other : (info.consumers slot).name ≠ name)
    (constructs : info.constructReader name dumper = .ok (after, obj)) :
    after.Protects slot bytes := by
  have frames := frames_constructReader constructs
  obtain ⟨cleaned, chosenSlot, cleans, rfl, chosen⟩ :=
    constructReader_cleaned constructs
  obtain ⟨valid, ends⟩ := protects
  rw [cleans.roomy roomy] at chosen
  have elsewhere : slot ≠ chosenSlot := by
    rintro rfl
    rcases chosen with named | free
    · exact other named
    · exact valid.2 free
  have same : (cleaned.installed chosenSlot name dumper).consumers slot =
      info.consumers slot := by
    rw [installed, ← cleans.roomy roomy]
    exact Function.update_of_ne elsewhere ..
  have size : (cleaned.installed chosenSlot name dumper).bufSize =
      info.bufSize :=
    congrArg Frames.bufSize frames
  refine ⟨by rwa [validConsumer, same], ?_⟩
  rcases ends with ⟨holds, isHole⟩ | ⟨hole, member, owned, isHole⟩
  · refine .inl ⟨(holdsFrame_congr same).mpr holds, ?_⟩
    rwa [holeOf_congr same (congrArg Frames.frameIdx frames) size, size]
  · refine .inr ⟨hole, ?_, by rwa [same], by rwa [size]⟩
    apply List.mem_filter.mpr
    rw [cleans.holes]
    exact ⟨member, decide_eq_true (owned ▸ other)⟩

theorem constructWriter_consumers {start : Nat}
    (unused : info.version = 0 → info.NoUsers)
    (constructs : info.constructWriter start name liveStream =
      .ok (after, obj)) (i : Nat) :
    after.consumers i = info.consumers i ∨ after.consumers i = emptyUser := by
  have cleaned := cleanedFor_cleanWhenCrowded info
  unfold constructWriter at constructs
  split at constructs
  swap
  · cases constructs
  obtain ⟨middle, installs, rest⟩ := bind_eq_ok_iff.mp constructs
  obtain ⟨rfl, _⟩ := Prod.mk.inj (pure_eq_ok_iff.mp rest)
  rw [installWriter_of_absent] at installs
  · obtain rfl := Except.ok.inj installs
    dsimp only
    split
    · exact cleaned.consumers i
    · unfold cleanAllConsumer
      dsimp only
      split
      · exact .inr rfl
      · exact cleaned.consumers i
  · split
    · rename_i isNew
      have none : NoUsers { info with version := 1 } :=
        ⟨(unused isNew).consumers, (unused isNew).productor⟩
      rw [cleanWhenCrowded_of_noUsers _ none]
      exact none.productor
    · rfl

/-- A new writer finds no consumers and starts anew. -/
theorem Sound.constructWriter {start : Nat} (sound : info.Sound)
    (unused : info.version = 0 → info.NoUsers)
    (constructs : info.constructWriter start name liveStream =
      .ok (after, obj)) : obj = newObject true 0 ∧ after.Sheltered := by
  have consumers := constructWriter_consumers unused constructs
  have valid : validName name := by
    by_contra invalid
    rw [RingBufInfo.constructWriter, if_neg invalid] at constructs
    cases constructs
  obtain ⟨installed, returns, installs⟩ :=
    constructWriter_returns info start liveStream valid unused
  rw [returns] at constructs
  obtain ⟨rfl, rfl⟩ := Prod.mk.inj (Except.ok.inj constructs)
  have none : ∀ i, ¬ installed.validConsumer i :=
    fun i used => used.2 (installs.free i used.1)
  have resettled : info.Resettled installed := by
    refine ⟨installs.bufSize, fun i => ?_, fun hole member => ?_, ?_⟩
    · refine (consumers i).imp_right fun empty => ?_
      rw [empty]
      exact ⟨rfl, frameNum_pos⟩
    · rwa [installs.holes] at member
    · refine sound.invariant.mono (fun i _ used => absurd used (none i))
        (fun i used => absurd used (none i))
        (fun i holds => absurd holds.1 (none i)) ?_
      rw [installs.holes]
  refine ⟨rfl, resettled.sound sound ?_ ?_, ?_⟩
  · rw [installs.productorIndex]
    exact frameNum_pos
  · rw [installs.productorOffset]
    exact Nat.zero_lt_of_lt sound.offset
  · intro i holds
    exact absurd holds.1 (none i)

theorem resettled_destroyObject (sound : info.Sound)
    (reads : obj.isProductor = false) :
    info.Resettled (info.destroyObject obj).1 := by
  have invariant := sound.invariant.destroyObject obj
  rw [destroyObject_of_reader info reads] at invariant ⊢
  refine ⟨rfl, fun i => ?_, fun _ member => member, invariant⟩
  by_cases here : i = obj.m_userIdx
  · right
    rw [here, updateConsumer_self]
    exact ⟨rfl, frameNum_pos⟩
  · exact .inl (updateConsumer_of_ne here)

theorem frames_destroyObject (reads : obj.isProductor = false) :
    (info.destroyObject obj).1.frames = info.frames := by
  rw [destroyObject_of_reader info reads]
  rfl

theorem Sound.cleanProductor (sound : info.Sound) :
    info.cleanProductor.Sound where
  invariant := sound.invariant.mono (fun _ _ _ => rfl)
    (fun _ valid => valid) (fun _ holds => holds) (List.Sublist.refl _)
  indexed := ⟨frameNum_pos, sound.indexed.consumers⟩
  placed := sound.placed
  offset := Nat.zero_lt_of_lt sound.offset

/-- What other users hold survives a destructor. -/
theorem Protects.destroyObject (protects : info.Protects slot bytes)
    (other : obj.isProductor = false → slot ≠ obj.m_userIdx) :
    (info.destroyObject obj).1.Protects slot bytes := by
  have same := destroyObject_of_ne info other
  obtain ⟨valid, ends⟩ := protects
  cases kind : obj.isProductor with
  | true =>
      rw [destroyObject_of_writer info kind]
      exact ⟨valid, ends⟩
  | false =>
      rw [destroyObject_of_reader info kind] at same ⊢
      refine ⟨by rwa [validConsumer, same], ?_⟩
      rcases ends with ⟨holds, isHole⟩ | ⟨hole, member, owned, isHole⟩
      · refine .inl ⟨(holdsFrame_congr same).mpr holds, ?_⟩
        rwa [holeOf_congr same rfl rfl]
      · exact .inr ⟨hole, member, by rwa [same], isHole⟩

end Users

end RingBufInfo

end CRingBuf

end MbedtlsKcp
