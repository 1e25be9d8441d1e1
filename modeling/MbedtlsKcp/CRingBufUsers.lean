import MbedtlsKcp.CRingBufBlackHoles
import MbedtlsKcp.CRingBufFrameIndex

/-!
# Attaching and detaching users

A `CRingBuf` constructor installs its user in a slot of the shared header, the
first free one or the one that already has its name; the destructor clears the
slot by its number.  A writer cleans the ring of all users first.
-/

namespace MbedtlsKcp

namespace CRingBuf

open FallibleSteps

/-- The members of a new object. -/
def newObject (isProductor : Bool) (m_userIdx : Nat) : Object where
  isProductor := isProductor
  m_userIdx := m_userIdx
  m_lastWriteBytes := 0
  m_lastWriteFrameType := .CRB_FRAME_I_SLICE
  m_lastAlignmentBytes := 0
  m_lastReadBytes := 0

/-- A consumer that had to leave its position for `slot`. -/
def RingBufUser.displaced (user : RingBufUser) (slot offset : Nat)
    (waitIFrame : Bool) : RingBufUser where
  name := user.name
  offset := offset
  index := slot
  refIdxStart := slot
  refIdxEnd := slot
  state :=
    if user.state = .USER_HOLDING_FRAME then .USER_BLOCKED else user.state
  movedByProductor :=
    user.movedByProductor || decide (user.state ≠ .USER_FREE)
  waitIFrame := waitIFrame

namespace RingBufInfo

variable (info : RingBufInfo)

/-- The hole of the frames that consumer `which` refers to. -/
def insertHoleOfConsumer (now which : Nat) : Except Fault RingBufInfo :=
  let user := info.consumers which
  let last := info.frameIdx user.refIdxEnd
  info.insertBlackHole now user.name (info.frameIdx user.refIdxStart).offset
    (info.advanceOffset last.offset last.length)

/-- One round of the loop of `ResetAllUserNoLock`. -/
def resetConsumer (now : Nat) (info : RingBufInfo) (i : Nat) :
    Except Fault RingBufInfo :=
  match (info.consumers i).state with
  | .USER_HOLDING_FRAME => do
      let info ← info.insertHoleOfConsumer now i
      let info := info.setConsumerMoved i
      let info := info.setConsumerState i .USER_BLOCKED
      return info.moveConsumer i 0 0 true
  | .USER_BLOCKED =>
      .ok ((info.setConsumerMoved i).moveConsumer i 0 0 true)
  | .USER_FREE => .ok (info.moveConsumer i 0 0 true)

/-- `ResetAllUserNoLock` of a productor. -/
def resetAllUserNoLock (now : Nat) : Except Fault RingBufInfo := do
  let info ← info.validConsumers.foldlM (resetConsumer now) info
  return { info with
    productor := { info.productor with offset := 0, index := 0 }
    dataWriten := false
    contiBytesWriten := 0 }

/-- The position of a consumer that is being installed: slot, offset and
whether it waits for an I frame. -/
def installPosition (dumper : Bool) : Nat × Nat × Bool :=
  if info.productorExist ∧ info.dataWriten then
    if dumper then
      let idx := info.findOldesValidIndex
      (idx, (info.frameIdx idx).offset, false)
    else
      match info.indexFindLatestIFrame with
      | some idx => (idx, (info.frameIdx idx).offset, false)
      | none =>
          (info.productorIndex, (info.frameIdx info.productorIndex).offset,
            true)
  else
    (0, 0, true)

/-- `InstallConsumer` with the slot it chooses. -/
def installConsumer (existingSlot : Option Nat) (firstEmptySlot : Nat)
    (name : UserName) (dumper : Bool) :
    Except Fault (RingBufInfo × Nat) := do
  let (info, m_userIdx) :=
    match existingSlot with
    | some slot => (info, slot)
    | none =>
        (info.updateConsumer firstEmptySlot fun user =>
          { user with name := name }, firstEmptySlot)
  let info ← info.deleteBlackHoleOwnedBy name
  let info := info.setConsumerState m_userIdx .USER_FREE
  let info := info.clearConsumerMoved m_userIdx
  let (index, offset, waitIFrame) := info.installPosition dumper
  return (info.moveConsumer m_userIdx index offset waitIFrame, m_userIdx)

/-- `InstallUser` for a consumer.  It gives up, with the lock held, when there
is neither a slot of that name nor a free one. -/
def installReader (name : UserName) (dumper : Bool) :
    Except Fault (RingBufInfo × Nat) :=
  let slots := List.range MAX_CONSUMER_NUM
  let existingSlot := slots.find? fun i =>
    (info.consumers i).name ≠ [] ∧ (info.consumers i).name = name
  let firstEmptySlot := slots.find? fun i => (info.consumers i).name = []
  match existingSlot, firstEmptySlot with
  | some slot, _ => info.installConsumer (some slot) 0 name dumper
  | none, some slot => info.installConsumer none slot name dumper
  | none, none => .error .installUser

/-- `InstallUser` for a productor; it always ends up in slot 0. -/
def installWriter (now : Nat) (name : UserName) : Except Fault RingBufInfo :=
  if info.productor.name ≠ [] ∧ info.productor.name = name then
    info.resetAllUserNoLock now
  else if info.productor.name = [] then
    .ok { info with
      productor := { info.productor with name := name, offset := 0, index := 0 }
      dataWriten := false
      contiBytesWriten := 0 }
  else
    .error .installUser

/-- The check of a user name in the constructor. -/
def validName (name : UserName) : Prop :=
  name ≠ [] ∧ name.length < MAX_USER_NAME_LEN

instance (name : UserName) : Decidable (validName name) :=
  inferInstanceAs (Decidable (_ ∧ _))

/-- The clean-up in the constructor when many users are installed. -/
def cleanWhenCrowded : RingBufInfo :=
  if 10 ≤ info.getIntalledUserNum then info.cleanAllConsumer else info

/-- The constructor of a reader. -/
def constructReader (name : UserName) (dumper : Bool) :
    Except Fault (RingBufInfo × Object) :=
  if validName name then do
    let info := { info with version := 1 }
    let info := info.cleanWhenCrowded
    let (info, m_userIdx) ← info.installReader name dumper
    return (info, newObject false m_userIdx)
  else
    throw .construct

/-- The constructor of a writer.  It cleans the ring unless it has just
initialised it. -/
def constructWriter (now : Nat) (name : UserName) (liveStream : Bool) :
    Except Fault (RingBufInfo × Object) :=
  if validName name then do
    let binit := info.version = 0
    let info := { info with version := 1 }
    let info := info.cleanWhenCrowded
    let info := { info with liveStream := liveStream }
    let info := if binit then info
      else info.cleanProductor.cleanAllConsumer
    let info ← info.installWriter now name
    return (info, newObject true 0)
  else
    throw .construct

/-- The destructor: the header afterwards, and whether the backend file is
unlinked. -/
def destroyObject (obj : Object) : RingBufInfo × Bool :=
  let info := if obj.isProductor then info.cleanProductor
    else info.updateConsumer obj.m_userIdx fun _ => emptyUser
  (info, ¬ info.liveStream ∧ info.getIntalledUserNum = 0)

/-- What a reset and a move of a blocker do: the frame that the consumer holds
becomes a black hole, and the consumer is displaced. -/
def displace (now which slot offset : Nat) (waitIFrame : Bool) :
    Except Fault RingBufInfo := do
  let info ← (if (info.consumers which).state = .USER_HOLDING_FRAME then
      info.insertHoleOfConsumer now which
    else .ok info)
  return info.updateConsumer which fun user =>
    user.displaced slot offset waitIFrame

theorem resetConsumer_eq (now i : Nat) :
    resetConsumer now info i = info.displace now i 0 0 true := by
  unfold resetConsumer displace
  cases state : (info.consumers i).state with
  | USER_FREE =>
      simp [bind, Except.bind, pure, Except.pure, moveConsumer, updateConsumer,
        RingBufUser.displaced, state]
  | USER_BLOCKED =>
      simp [bind, Except.bind, pure, Except.pure, moveConsumer,
        setConsumerMoved, updateConsumer, RingBufUser.displaced, state]
  | USER_HOLDING_FRAME =>
      simp only [if_true]
      cases inserts : info.insertHoleOfConsumer now i with
      | error fault => rfl
      | ok after =>
          have same := consumers_insertBlackHole inserts
          simp [bind, Except.bind, pure, Except.pure, moveConsumer,
            setConsumerMoved, setConsumerState, updateConsumer,
            RingBufUser.displaced, same, state]

theorem keepsUsers_displace {info after : RingBufInfo}
    {now which slot offset : Nat} {waitIFrame : Bool}
    (displaces : info.displace now which slot offset waitIFrame = .ok after) :
    KeepsUsers info after := by
  obtain ⟨middle, inserts, rest⟩ := bind_eq_ok_iff.mp displaces
  obtain rfl := pure_eq_ok_iff.mp rest
  refine KeepsUsers.trans ?_ (keepsUsers_updateConsumer middle ?_)
  swap
  · exact fun _ => rfl
  split at inserts
  · exact keepsUsers_insertBlackHole inserts
  · obtain rfl := Except.ok.inj inserts
    exact KeepsUsers.refl _

/-- Consumers that can be displaced one after the other can all be reset. -/
theorem resetAllUserNoLock_returns (property : RingBufInfo → Prop)
    {info : RingBufInfo} {now : Nat}
    (displaces : ∀ before, ∀ i ∈ info.validConsumers, property before →
      ∃ after, before.displace now i 0 0 true = .ok after ∧ property after)
    (holds : property info) :
    ∃ after, property after ∧ info.resetAllUserNoLock now =
      .ok { after with
        productor := { after.productor with offset := 0, index := 0 }
        dataWriten := false
        contiBytesWriten := 0 } := by
  have progress : ∀ before, ∀ i ∈ info.validConsumers, property before →
      ∃ after, resetConsumer now before i = .ok after ∧ property after := by
    intro before i member kept
    rw [resetConsumer_eq]
    exact displaces before i member kept
  obtain ⟨last, loop, kept⟩ := foldlM_returns property progress holds
  refine ⟨last, kept, ?_⟩
  rw [resetAllUserNoLock, loop]
  rfl

theorem keepsUsers_resetAllUserNoLock {info after : RingBufInfo} {now : Nat}
    (resets : info.resetAllUserNoLock now = .ok after) :
    KeepsUsers info after := by
  obtain ⟨middle, loop, rest⟩ := bind_eq_ok_iff.mp resets
  have moved : KeepsUsers info middle :=
    foldlM_invariant (KeepsUsers info)
      (fun before i _ after kept steps =>
        kept.trans (keepsUsers_displace (resetConsumer_eq before now i ▸ steps)))
      (KeepsUsers.refl info) loop
  obtain rfl := pure_eq_ok_iff.mp rest
  exact moved.trans ⟨fun _ => rfl, rfl, rfl, rfl, rfl⟩

theorem SameFrames.installPosition {info other : RingBufInfo}
    (same : SameFrames info other) (dumper : Bool) :
    other.installPosition dumper = info.installPosition dumper := by
  have exist : other.productorExist ↔ info.productorExist := by
    rw [productorExist, same.productor, productorExist]
  have index : other.productorIndex = info.productorIndex :=
    congrArg RingBufUser.index same.productor
  simp only [RingBufInfo.installPosition, exist, index, same.frameIdx,
    same.dataWriten, same.findOldesValidIndex, same.indexFindLatestIFrame]

@[simp]
theorem installPosition_updateConsumer (which : Nat)
    (change : RingBufUser → RingBufUser) (dumper : Bool) :
    (info.updateConsumer which change).installPosition dumper =
      info.installPosition dumper := by
  have same : SameFrames info (info.updateConsumer which change) :=
    ⟨rfl, rfl, rfl, rfl⟩
  exact same.installPosition dumper

@[simp]
theorem installPosition_holes (holes : List BlackHole) (dumper : Bool) :
    { info with holes := holes }.installPosition dumper =
      info.installPosition dumper := by
  have same : SameFrames info { info with holes := holes } :=
    ⟨rfl, rfl, rfl, rfl⟩
  exact same.installPosition dumper

/-- A consumer slot after its installation. -/
def installedUser (name : UserName) (position : Nat × Nat × Bool) :
    RingBufUser where
  name := name
  offset := position.2.1
  index := position.1
  refIdxStart := position.1
  refIdxEnd := position.1
  state := .USER_FREE
  movedByProductor := false
  waitIFrame := position.2.2

/-- The ring after the installation of a consumer in `slot`. -/
def installed (slot : Nat) (name : UserName) (dumper : Bool) : RingBufInfo :=
  { info with
    holes := info.holes.filter fun hole => hole.blockerName ≠ name
    consumers := Function.update info.consumers slot
      (installedUser name (info.installPosition dumper)) }

/-- The slot that is chosen already has the name or gets it. -/
theorem installConsumer_eq {slot firstEmptySlot : Nat}
    {existingSlot : Option Nat} {name : UserName} {dumper : Bool}
    (chosen : existingSlot = some slot ∧ (info.consumers slot).name = name ∨
      existingSlot = none ∧ firstEmptySlot = slot) :
    info.installConsumer existingSlot firstEmptySlot name dumper =
      .ok (info.installed slot name dumper, slot) := by
  unfold installConsumer
  rcases chosen with ⟨rfl, named⟩ | ⟨rfl, rfl⟩
  · dsimp only
    rw [deleteBlackHoleOwnedBy_eq]
    simp only [bind, Except.bind, pure, Except.pure, setConsumerState,
      clearConsumerMoved, installPosition_updateConsumer,
      installPosition_holes]
    simp [installed, installedUser, moveConsumer, updateConsumer, named]
  · dsimp only
    rw [deleteBlackHoleOwnedBy_eq]
    simp only [bind, Except.bind, pure, Except.pure, setConsumerState,
      clearConsumerMoved, installPosition_updateConsumer,
      installPosition_holes]
    simp [installed, installedUser, moveConsumer, updateConsumer]

/-- A reader is installed in the slot that has its name, or else in the first
free one. -/
theorem installReader_ok {info after : RingBufInfo} {name : UserName}
    {dumper : Bool} {slot : Nat}
    (installs : info.installReader name dumper = .ok (after, slot)) :
    slot < MAX_CONSUMER_NUM ∧ after = info.installed slot name dumper ∧
      ((info.consumers slot).name = name ∨
        (∀ i < MAX_CONSUMER_NUM, (info.consumers i).name ≠ [] →
            (info.consumers i).name ≠ name) ∧
          (info.consumers slot).name = [] ∧
          ∀ i < slot, (info.consumers i).name ≠ []) := by
  unfold installReader at installs
  dsimp only at installs
  split at installs
  · rename_i found _ isSome
    rw [List.find?_range_eq_some] at isSome
    obtain ⟨matches_, member, _⟩ := isSome
    have named := (of_decide_eq_true matches_).2
    rw [installConsumer_eq info (.inl ⟨rfl, named⟩)] at installs
    obtain ⟨rfl, rfl⟩ := Prod.mk.inj (Except.ok.inj installs)
    exact ⟨List.mem_range.mp member, rfl, .inl named⟩
  · rename_i found isNone isSome
    rw [List.find?_range_eq_some] at isSome
    obtain ⟨free, member, before⟩ := isSome
    rw [installConsumer_eq info (.inr ⟨rfl, rfl⟩)] at installs
    obtain ⟨rfl, rfl⟩ := Prod.mk.inj (Except.ok.inj installs)
    refine ⟨List.mem_range.mp member, rfl, .inr ⟨?_, ?_, ?_⟩⟩
    · intro i inside used named
      rw [List.find?_eq_none] at isNone
      exact isNone i (List.mem_range.mpr inside) (decide_eq_true ⟨used, named⟩)
    · exact of_decide_eq_true free
    · intro i earlier empty
      have := before i earlier
      simp [empty] at this
  · cases installs

theorem installReader_returns (name : UserName) (dumper : Bool)
    (free : ∃ i < MAX_CONSUMER_NUM, (info.consumers i).name = []) :
    ∃ after slot, info.installReader name dumper = .ok (after, slot) := by
  unfold installReader
  dsimp only
  split
  · rename_i slot _ isSome
    rw [List.find?_range_eq_some] at isSome
    have named := (of_decide_eq_true isSome.1).2
    exact ⟨_, _, installConsumer_eq info (.inl ⟨rfl, named⟩)⟩
  · exact ⟨_, _, installConsumer_eq info (.inr ⟨rfl, rfl⟩)⟩
  · rename_i isNone
    obtain ⟨i, inside, empty⟩ := free
    rw [List.find?_eq_none] at isNone
    exact absurd (decide_eq_true empty) (isNone i (List.mem_range.mpr inside))

/-- No user was installed yet. -/
structure NoUsers : Prop where
  consumers : ∀ i, (info.consumers i).name = []
  productor : info.productor.name = []

theorem cleanAllConsumer_name {i : Nat} (inside : i < MAX_CONSUMER_NUM) :
    (info.cleanAllConsumer.consumers i).name = [] := by
  unfold cleanAllConsumer
  dsimp only
  split
  · rfl
  · rename_i free
    apply Classical.byContradiction
    intro used
    exact free ⟨inside, used⟩

theorem cleanAllConsumer_of_le {i : Nat} (outside : MAX_CONSUMER_NUM ≤ i) :
    info.cleanAllConsumer.consumers i = info.consumers i :=
  if_neg fun both => absurd both.1 (Nat.not_lt_of_le outside)

/-- The clean-up leaves a free slot. -/
theorem exists_free_cleanWhenCrowded :
    ∃ i < MAX_CONSUMER_NUM, (info.cleanWhenCrowded.consumers i).name = [] := by
  unfold cleanWhenCrowded
  split
  · refine ⟨0, by decide, ?_⟩
    exact cleanAllConsumer_name info (by decide)
  · rename_i spacious
    apply Classical.byContradiction
    intro full
    have every : info.validConsumers = List.range MAX_CONSUMER_NUM := by
      apply List.filter_eq_self.mpr
      intro i member
      apply decide_eq_true
      refine ⟨List.mem_range.mp member, ?_⟩
      intro empty
      exact full ⟨i, List.mem_range.mp member, empty⟩
    apply spacious
    rw [getIntalledUserNum, every, List.length_range]
    exact Nat.le_add_left _ _

theorem cleanWhenCrowded_of_noUsers (none : NoUsers info) :
    info.cleanWhenCrowded = info := by
  have empty : info.validConsumers = [] := by
    apply List.filter_eq_nil_iff.mpr
    intro i _ valid
    exact (of_decide_eq_true valid).2 (none.consumers i)
  have count : info.getIntalledUserNum = 0 := by
    have absent : ¬ info.productorExist := not_not_intro none.productor
    rw [getIntalledUserNum, empty, if_neg absent]
    rfl
  rw [cleanWhenCrowded, if_neg (by omega)]

theorem version_cleanWhenCrowded :
    info.cleanWhenCrowded.version = info.version := by
  unfold cleanWhenCrowded
  split
  · rfl
  · rfl

theorem constructReader_ok {info after : RingBufInfo} {name : UserName}
    {dumper : Bool} {obj : Object}
    (constructs : info.constructReader name dumper = .ok (after, obj)) :
    validName name ∧ ∃ slot, obj = newObject false slot ∧
      { info with version := 1 }.cleanWhenCrowded.installReader name dumper =
        .ok (after, slot) := by
  unfold constructReader at constructs
  by_cases valid : validName name
  · rw [if_pos valid] at constructs
    obtain ⟨⟨middle, slot⟩, installs, rest⟩ := bind_eq_ok_iff.mp constructs
    obtain ⟨rfl, rfl⟩ := Prod.mk.inj (pure_eq_ok_iff.mp rest)
    exact ⟨valid, slot, rfl, installs⟩
  · rw [if_neg valid] at constructs
    cases constructs

/-- The constructor of a reader always returns: after the clean-up there is a
slot for it. -/
theorem constructReader_returns {name : UserName} (dumper : Bool)
    (valid : validName name) :
    ∃ after obj, info.constructReader name dumper = .ok (after, obj) := by
  obtain ⟨after, slot, installs⟩ := installReader_returns _ name dumper
    (exists_free_cleanWhenCrowded { info with version := 1 })
  refine ⟨after, newObject false slot, ?_⟩
  rw [constructReader, if_pos valid]
  dsimp only
  rw [installs]
  rfl

theorem constructReader_error {name : UserName} {dumper : Bool}
    {fault : Fault}
    (fails : info.constructReader name dumper = .error fault) :
    fault = .construct := by
  by_cases valid : validName name
  · obtain ⟨after, obj, returns⟩ := info.constructReader_returns dumper valid
    rw [returns] at fails
    cases fails
  · rw [constructReader, if_neg valid] at fails
    cases fails
    rfl

/-- The header after a writer was attached. -/
structure WriterInstalled (before after : RingBufInfo) (name : UserName)
    (liveStream : Bool) : Prop where
  free : ∀ i < MAX_CONSUMER_NUM, (after.consumers i).name = []
  others : ∀ i, MAX_CONSUMER_NUM ≤ i → after.consumers i = before.consumers i
  productorName : after.productor.name = name
  productorOffset : after.productorOffset = 0
  productorIndex : after.productorIndex = 0
  dataWriten : after.dataWriten = false
  holes : after.holes = before.holes
  frameIdx : after.frameIdx = before.frameIdx
  bufSize : after.bufSize = before.bufSize
  version : after.version = 1
  liveStream : after.liveStream = liveStream

theorem installWriter_of_absent {info : RingBufInfo}
    (absent : info.productor.name = []) (now : Nat) (name : UserName) :
    info.installWriter now name =
      .ok { info with
        productor :=
          { info.productor with name := name, offset := 0, index := 0 }
        dataWriten := false
        contiBytesWriten := 0 } := by
  rw [installWriter, if_neg fun named => named.1 absent, if_pos absent]

/-- The constructor of a writer always returns: it finds no productor, because
the ring is new or it has cleaned it. -/
theorem constructWriter_returns (now : Nat) {name : UserName}
    (liveStream : Bool) (valid : validName name)
    (unused : info.version = 0 → NoUsers info) :
    ∃ after,
      info.constructWriter now name liveStream =
        .ok (after, newObject true 0) ∧
      WriterInstalled info after name liveStream := by
  rw [constructWriter, if_pos valid]
  by_cases binit : info.version = 0
  · have none : NoUsers { info with version := 1 } :=
      ⟨(unused binit).consumers, (unused binit).productor⟩
    dsimp only
    rw [if_pos binit, cleanWhenCrowded_of_noUsers _ none,
      installWriter_of_absent]
    swap
    · exact none.productor
    refine ⟨_, rfl, ?_⟩
    constructor <;> try rfl
    · exact fun i _ => none.consumers i
    · exact fun _ _ => rfl
  · dsimp only
    rw [if_neg binit, installWriter_of_absent]
    swap
    · rfl
    refine ⟨_, rfl, ?_⟩
    have cleaned : ∀ info : RingBufInfo, ∀ i, MAX_CONSUMER_NUM ≤ i →
        info.cleanWhenCrowded.consumers i = info.consumers i := by
      intro info i outside
      unfold cleanWhenCrowded
      split
      · exact cleanAllConsumer_of_le info outside
      · rfl
    have kept : ∀ info : RingBufInfo,
        info.cleanWhenCrowded.holes = info.holes ∧
          info.cleanWhenCrowded.frameIdx = info.frameIdx ∧
          info.cleanWhenCrowded.bufSize = info.bufSize ∧
          info.cleanWhenCrowded.version = info.version := by
      intro info
      unfold cleanWhenCrowded
      split
      · exact ⟨rfl, rfl, rfl, rfl⟩
      · exact ⟨rfl, rfl, rfl, rfl⟩
    constructor
    · exact fun i inside => cleanAllConsumer_name _ inside
    · intro i outside
      exact (cleanAllConsumer_of_le _ outside).trans (cleaned _ i outside)
    · rfl
    · rfl
    · rfl
    · rfl
    · exact (kept { info with version := 1 }).1
    · exact (kept { info with version := 1 }).2.1
    · exact (kept { info with version := 1 }).2.2.1
    · exact (kept { info with version := 1 }).2.2.2
    · rfl

theorem destroyObject_of_writer {obj : Object}
    (writes : obj.isProductor = true) :
    (info.destroyObject obj).1 = info.cleanProductor := by
  unfold destroyObject
  rw [writes]
  rfl

theorem destroyObject_of_reader {obj : Object}
    (reads : obj.isProductor = false) :
    (info.destroyObject obj).1 =
      info.updateConsumer obj.m_userIdx fun _ => emptyUser := by
  unfold destroyObject
  rw [reads]
  rfl

theorem destroyObject_of_ne {obj : Object} {i : Nat}
    (elsewhere : obj.isProductor = false → i ≠ obj.m_userIdx) :
    (info.destroyObject obj).1.consumers i = info.consumers i := by
  cases kind : obj.isProductor with
  | true => rw [destroyObject_of_writer info kind, cleanProductor]
  | false =>
      rw [destroyObject_of_reader info kind,
        updateConsumer_of_ne (elsewhere kind)]

/-- A slot that is still used was not the one that the destructor cleared. -/
theorem destroyObject_used {obj : Object} {i : Nat}
    (used : ((info.destroyObject obj).1.consumers i).name ≠ [])
    (reads : obj.isProductor = false) : i ≠ obj.m_userIdx := by
  rintro rfl
  rw [destroyObject_of_reader info reads, updateConsumer_self] at used
  exact used rfl

theorem version_destroyObject (obj : Object) :
    (info.destroyObject obj).1.version = info.version := by
  cases kind : obj.isProductor with
  | true => rw [destroyObject_of_writer info kind, cleanProductor]
  | false => rw [destroyObject_of_reader info kind, updateConsumer]

theorem NoUsers.destroyObject {info : RingBufInfo} (unused : info.NoUsers)
    (obj : Object) : (info.destroyObject obj).1.NoUsers := by
  cases kind : obj.isProductor with
  | true =>
      rw [destroyObject_of_writer info kind]
      exact ⟨unused.consumers, rfl⟩
  | false =>
      rw [destroyObject_of_reader info kind]
      refine ⟨?_, unused.productor⟩
      intro i
      by_cases same : i = obj.m_userIdx
      · rw [same, updateConsumer_self]
        rfl
      · rw [updateConsumer_of_ne same]
        exact unused.consumers i

end RingBufInfo

end CRingBuf

end MbedtlsKcp
