import MbedtlsKcp.CRingBufUsers

/-!
# The writer's calls

`RequestWriteFrame` tries to reserve a byte range that no reader still needs.
In NON_BLOCK mode it moves the readers in its way forward and tries again; a
reader that holds a frame leaves a black hole behind.  The lock is released
between two tries.
-/

namespace MbedtlsKcp

namespace CRingBuf

open FallibleSteps

/-- The answer of `__RequestWritePtr`: the header, the padding and the offset
of the granted range, or the consumers in the way. -/
inductive WritePtr
  | granted (info : RingBufInfo) (alignmentBytes offset : Nat)
  | notEnough (info : RingBufInfo) (blockers : List Nat)

/-- The answer of one try of `RequestWriteFrame`. -/
inductive WriteTry
  | granted (offset : Nat)
  | failed
  | again

namespace RingBufInfo

variable (info : RingBufInfo)

/-- `IndexFindBlocker`. -/
def indexFindBlocker : List Nat :=
  info.validConsumers.filter fun i =>
    advanceIndex info.productorIndex 1 = (info.consumers i).index

/-- The slot a blocker is moved to, and whether it is a new I frame. -/
def nextIframe (consumerIndex : Nat) : Nat × Bool :=
  let index := (info.consumers consumerIndex).index
  match info.indexFindNextFrame info.productorIndex (advanceIndex index 1)
      (ofType .CRB_FRAME_I_SLICE) with
  | some idx =>
      if idx = index then (stepbackIndex info.productorIndex 1, false)
      else (idx, true)
  | none => (stepbackIndex info.productorIndex 1, false)

/-- One round of the loop of `MoveAllBlockers`; the flag is `iFrameFound`,
which is not reset between two blockers. -/
def moveBlocker (now : Nat) (state : RingBufInfo × Bool)
    (consumerIndex : Nat) : Except Fault (RingBufInfo × Bool) :=
  let (info, iFrameFound) := state
  let (slot, found) := info.nextIframe consumerIndex
  let iFrameFound := iFrameFound || found
  let readOffset := (info.frameIdx slot).offset
  match (info.consumers consumerIndex).state with
  | .USER_FREE =>
      .ok (info.moveConsumer consumerIndex slot readOffset (!iFrameFound),
        iFrameFound)
  | .USER_BLOCKED =>
      .ok ((info.moveConsumer consumerIndex slot readOffset
        (!iFrameFound)).setConsumerMoved consumerIndex, iFrameFound)
  | .USER_HOLDING_FRAME => do
      let info ← info.insertHoleOfConsumer now consumerIndex
      let info := info.moveConsumer consumerIndex slot readOffset
        (!iFrameFound)
      let info := info.setConsumerMoved consumerIndex
      return (info.setConsumerState consumerIndex .USER_BLOCKED, iFrameFound)

/-- `MoveAllBlockers`. -/
def moveAllBlockers (now : Nat) (blockers : List Nat) :
    Except Fault RingBufInfo := do
  let (info, _) ← blockers.foldlM (moveBlocker now) (info, false)
  return info

/-- The writable size in front of consumer `i`. -/
def writableSizeOf (i : Nat) : Nat :=
  info.getWritableSize (info.consumers i).offset info.productorOffset

/-- `minWritableSize` after the loop over the consumers. -/
def minWritableSize : Nat :=
  info.validConsumers.foldl (fun least i => min least (info.writableSizeOf i))
    info.bufSize

/-- The productor behind a jump over black holes. -/
def skipHoles (holeSkipedBytes : Nat) : RingBufInfo :=
  if holeSkipedBytes = 0 then info else
    { info with
      productor := { info.productor with
        offset := info.advanceOffset info.productorOffset holeSkipedBytes }
      jumpOverHole := true }

/-- `__RequestWritePtr` of a writer. -/
def requestWritePtr (size alignment : Nat) : Except Fault WritePtr :=
  if info.minWritableSize ≤ size then
    .ok (.notEnough info (info.validConsumers.filter fun i =>
      info.writableSizeOf i ≤ size))
  else do
    let jumped ← info.blackholeJump info.productorOffset size alignment
    let holeSkipedBytes := info.bufferLen info.productorOffset jumped
    if info.minWritableSize ≤ holeSkipedBytes + alignment + size then
      return .notEnough info (info.validConsumers.filter fun i =>
        info.writableSizeOf i ≤ holeSkipedBytes + alignment + size)
    else
      let skipped := info.skipHoles holeSkipedBytes
      if alignment ≠ 0 ∧ ∀ i ∈ info.validConsumers,
          size + alignment < info.writableSizeOf i then
        let writeOffset :=
          info.advanceOffset (align skipped.productorOffset alignment) 0
        return .granted skipped
          (info.bufferLen skipped.productorOffset writeOffset) writeOffset
      else if ∀ i ∈ info.validConsumers, size < info.writableSizeOf i then
        return .granted skipped 0 skipped.productorOffset
      else
        return .notEnough skipped (info.validConsumers.filter fun i =>
          info.writableSizeOf i ≤ size)

/-- The alignment `RequestWriteFrame` asks for. -/
def writeAlignment (type : FRAME_E) : Nat :=
  if type = .CRB_FRAME_I_SLICE ∨ info.bufSize / 5 ≤ info.contiBytesWriten then
    CRB_DEFAULT_ALIGNMENT
  else 0

/-- The part of a round of `RequestWriteFrame` that asks for the bytes. -/
def requestWriteBytes (now : Nat) (obj : Object) (size : Nat) (type : FRAME_E)
    (mode : CRB_WRITE_MODE_E) :
    Except Fault (RingBufInfo × Object × WriteTry) := do
  match ← info.requestWritePtr size (info.writeAlignment type) with
  | .granted info alignmentBytes offset =>
      return (info, { obj with
        m_lastWriteBytes := size
        m_lastAlignmentBytes := alignmentBytes
        m_lastWriteFrameType := type }, .granted offset)
  | .notEnough info blockers =>
      match mode with
      | .CRB_WRITE_MODE_BLOCK => return (info, obj, .failed)
      | .CRB_WRITE_MODE_NON_BLOCK =>
          let info ← info.moveAllBlockers now blockers
          return (info, obj, .again)

/-- One round of the loop of `RequestWriteFrame`, from `lock` to `unlock`. -/
def requestWriteTry (now : Nat) (obj : Object) (size : Nat) (type : FRAME_E)
    (mode : CRB_WRITE_MODE_E) :
    Except Fault (RingBufInfo × Object × WriteTry) := do
  if 0 < size ∧ size ≤ info.bufSize ∧ type ≠ .CRB_FRAME_ANY then
    let info ← info.deleteAgedBlackHole now
    let blockers := info.indexFindBlocker
    if blockers ≠ [] ∧ mode = .CRB_WRITE_MODE_BLOCK then
      return (info, obj, .failed)
    else
      let info ← info.moveAllBlockers now blockers
      info.requestWriteBytes now obj size type mode
  else
    throw .requestWriteFrame

/-- `RequestWriteFrame` when nothing happens between its rounds; `rounds` is
what is left of `MAX_RETRY_TIME`. -/
def requestWriteRounds (now : Nat) (obj : Object) (size : Nat)
    (type : FRAME_E) (mode : CRB_WRITE_MODE_E) :
    Nat → RingBufInfo → Except Fault (RingBufInfo × Object × WriteTry)
  | 0, info => .ok (info, obj, .failed)
  | rounds + 1, info => do
      let (info, obj, answer) ← info.requestWriteTry now obj size type mode
      match answer with
      | .again => requestWriteRounds now obj size type mode rounds info
      | _ => return (info, obj, answer)

/-- `RequestWriteFrame`. -/
def requestWriteFrame (now : Nat) (obj : Object) (size : Nat)
    (type : FRAME_E) (mode : CRB_WRITE_MODE_E) :
    Except Fault (RingBufInfo × Object × WriteTry) :=
  requestWriteRounds now obj size type mode MAX_RETRY_TIME info

/-- The offset of the range a writer may fill. -/
def writeAddress (obj : Object) : Nat :=
  info.advanceOffset info.productorOffset obj.m_lastAlignmentBytes

/-- What `CommitWrite` does with the bytes it commits. -/
def commitFrame (obj : Object) (commitBytes : Nat) (frameTime : Int) :
    RingBufInfo :=
  let indexed :=
    if obj.m_lastWriteFrameType = .CRB_FRAME_ANY then info else
      let added := info.indexAdd (info.writeAddress obj) commitBytes
        obj.m_lastWriteFrameType
        (info.dataWriten && !info.jumpOverHole &&
          obj.m_lastAlignmentBytes == 0) frameTime
      { added with
        productor := { added.productor with
          offset := info.advanceOffset2 info.productorOffset commitBytes
            obj.m_lastAlignmentBytes } }
  { indexed with
    dataWriten := true
    contiBytesWriten :=
      if 0 < obj.m_lastAlignmentBytes then 0
      else (info.contiBytesWriten + commitBytes) % 2 ^ 32 }

/-- `CommitWrite`; no `size` stands for `CRB_COMMIT_LAST_REQ_SIZE`. -/
def commitWrite (obj : Object) (size : Option Nat) (frameTime : Int) :
    Except Fault (RingBufInfo × Object) :=
  let commitBytes := size.getD obj.m_lastWriteBytes
  if obj.m_lastWriteBytes < commitBytes then
    .error .commitWrite
  else if obj.m_lastWriteBytes = 0 then
    .ok (info, obj)
  else
    let committed :=
      if commitBytes = 0 then info
      else info.commitFrame obj commitBytes frameTime
    .ok ({ committed with jumpOverHole := false },
      { obj with m_lastWriteBytes := 0, m_lastAlignmentBytes := 0 })

/-- `ResetAllUser`. -/
def resetAllUser (now : Nat) (obj : Object) :
    Except Fault (RingBufInfo × Object) := do
  let info ← info.resetAllUserNoLock now
  return (info, { obj with m_lastWriteBytes := 0 })

/-- The rounds of `MoveAllBlockers` only differ from those of a reset in the
position the consumer is moved to. -/
theorem moveBlocker_eq (now : Nat) (iFrameFound : Bool) (i : Nat) :
    moveBlocker now (info, iFrameFound) i =
      (info.displace now i (info.nextIframe i).1
        (info.frameIdx (info.nextIframe i).1).offset
        (!(iFrameFound || (info.nextIframe i).2))).map
          fun after => (after, iFrameFound || (info.nextIframe i).2) := by
  unfold moveBlocker displace
  cases state : (info.consumers i).state with
  | USER_FREE =>
      simp [bind, Except.bind, pure, Except.pure, Except.map, moveConsumer,
        updateConsumer, RingBufUser.displaced, state]
  | USER_BLOCKED =>
      simp [bind, Except.bind, pure, Except.pure, Except.map, moveConsumer,
        setConsumerMoved, updateConsumer, RingBufUser.displaced, state]
  | USER_HOLDING_FRAME =>
      simp only [if_true]
      cases inserts : info.insertHoleOfConsumer now i with
      | error fault => simp [bind, Except.bind, Except.map, state]
      | ok after =>
          have same := consumers_insertBlackHole inserts
          simp [bind, Except.bind, pure, Except.pure, Except.map, moveConsumer,
            setConsumerMoved, setConsumerState, updateConsumer,
            RingBufUser.displaced, same, state]

theorem moveBlocker_ok {info after : RingBufInfo} {now i : Nat}
    {iFrameFound found : Bool}
    (moves : moveBlocker now (info, iFrameFound) i = .ok (after, found)) :
    ∃ waitIFrame, info.displace now i (info.nextIframe i).1
      (info.frameIdx (info.nextIframe i).1).offset waitIFrame = .ok after := by
  rw [moveBlocker_eq] at moves
  cases displaced : info.displace now i (info.nextIframe i).1
      (info.frameIdx (info.nextIframe i).1).offset
      (!(iFrameFound || (info.nextIframe i).2)) with
  | error fault =>
      rw [displaced] at moves
      cases moves
  | ok middle =>
      rw [displaced] at moves
      cases moves
      exact ⟨_, displaced⟩

/-- What every displacement to the next I frame keeps, moving all blockers
keeps. -/
theorem moveAllBlockers_invariant (property : RingBufInfo → Prop)
    {info after : RingBufInfo} {now : Nat} {blockers : List Nat}
    (keeps : ∀ before, ∀ i ∈ blockers, ∀ waitIFrame middle,
      property before →
      before.displace now i (before.nextIframe i).1
        (before.frameIdx (before.nextIframe i).1).offset waitIFrame =
          .ok middle → property middle)
    (holds : property info)
    (moves : info.moveAllBlockers now blockers = .ok after) :
    property after := by
  obtain ⟨⟨middle, found⟩, loop, rest⟩ := bind_eq_ok_iff.mp moves
  obtain rfl := pure_eq_ok_iff.mp rest
  apply foldlM_invariant (fun state => property state.1) _ holds loop
  rintro ⟨before, found⟩ i member ⟨after, found'⟩ kept steps
  obtain ⟨waitIFrame, displaced⟩ := moveBlocker_ok steps
  exact keeps before i member waitIFrame after kept displaced

/-- Blockers that can be displaced one after the other can all be moved. -/
theorem moveAllBlockers_returns (property : RingBufInfo → Prop)
    {info : RingBufInfo} {now : Nat} {blockers : List Nat}
    (displaces : ∀ before, ∀ i ∈ blockers, ∀ slot offset waitIFrame,
      property before → ∃ after,
        before.displace now i slot offset waitIFrame = .ok after ∧
          property after)
    (holds : property info) :
    ∃ after, info.moveAllBlockers now blockers = .ok after ∧
      property after := by
  have progress : ∀ state : RingBufInfo × Bool, ∀ i ∈ blockers,
      property state.1 → ∃ after, moveBlocker now state i = .ok after ∧
        property after.1 := by
    rintro ⟨before, iFrameFound⟩ i member kept
    obtain ⟨after, displaced, keeps⟩ := displaces before i member
      (before.nextIframe i).1 (before.frameIdx (before.nextIframe i).1).offset
      (!(iFrameFound || (before.nextIframe i).2)) kept
    refine ⟨(after, iFrameFound || (before.nextIframe i).2), ?_, keeps⟩
    rw [moveBlocker_eq, displaced]
    rfl
  have first : property (info, false).1 := holds
  obtain ⟨last, loop, kept⟩ :=
    foldlM_returns (fun state : RingBufInfo × Bool => property state.1)
      progress first
  refine ⟨last.1, ?_, kept⟩
  rw [moveAllBlockers, loop]
  rfl

theorem keepsUsers_moveAllBlockers {info after : RingBufInfo} {now : Nat}
    {blockers : List Nat}
    (moves : info.moveAllBlockers now blockers = .ok after) :
    KeepsUsers info after :=
  moveAllBlockers_invariant (KeepsUsers info)
    (fun _ _ _ _ _ kept displaced =>
      kept.trans (keepsUsers_displace displaced))
    (KeepsUsers.refl info) moves

theorem keepsUsers_skipHoles (holeSkipedBytes : Nat) :
    KeepsUsers info (info.skipHoles holeSkipedBytes) := by
  unfold skipHoles
  split
  · exact KeepsUsers.refl info
  · exact ⟨fun _ => rfl, rfl, rfl, rfl, rfl⟩

/-- The wanted range fits in front of the end of the buffer and of every
consumer. -/
theorem lt_minWritableSize_iff {size : Nat} :
    size < info.minWritableSize ↔
      size < info.bufSize ∧
        ∀ i ∈ info.validConsumers, size < info.writableSizeOf i := by
  have bound : ∀ (slots : List Nat) (most : Nat),
      size < slots.foldl (fun least i => min least (info.writableSizeOf i))
          most ↔
        size < most ∧ ∀ i ∈ slots, size < info.writableSizeOf i := by
    intro slots
    induction slots with
    | nil => simp
    | cons i slots ih =>
        intro most
        rw [List.foldl_cons, ih, List.forall_mem_cons, Nat.lt_min, and_assoc]
  exact bound _ _

/-- Both answers of `__RequestWritePtr`: there are blockers and nothing
changes, or the writer jumps over holes and gets an aligned range. -/
theorem requestWritePtr_cases {info : RingBufInfo} {size alignment : Nat}
    {answer : WritePtr}
    (requests : info.requestWritePtr size alignment = .ok answer) :
    (∃ wanted, size ≤ wanted ∧ info.minWritableSize ≤ wanted ∧
      answer = .notEnough info (info.validConsumers.filter fun i =>
        info.writableSizeOf i ≤ wanted)) ∨
    ∃ jumped,
      info.blackholeJump info.productorOffset size alignment = .ok jumped ∧
      info.bufferLen info.productorOffset jumped + alignment + size <
        info.minWritableSize ∧
      let skipped :=
        info.skipHoles (info.bufferLen info.productorOffset jumped)
      (alignment ≠ 0 ∧
          answer = .granted skipped
            (info.bufferLen skipped.productorOffset
              (info.advanceOffset (align skipped.productorOffset alignment) 0))
            (info.advanceOffset (align skipped.productorOffset alignment) 0) ∨
        alignment = 0 ∧
          answer = .granted skipped 0 skipped.productorOffset) := by
  unfold requestWritePtr at requests
  by_cases small : info.minWritableSize ≤ size
  · rw [if_pos small] at requests
    exact .inl ⟨size, Nat.le_refl _, small, (Except.ok.inj requests).symm⟩
  rw [if_neg small] at requests
  obtain ⟨jumped, jumps, rest⟩ := bind_eq_ok_iff.mp requests
  dsimp only at rest
  by_cases short : info.minWritableSize ≤
      info.bufferLen info.productorOffset jumped + alignment + size
  · rw [if_pos short] at rest
    exact .inl ⟨_, Nat.le_add_left _ _, short, (pure_eq_ok_iff.mp rest).symm⟩
  rw [if_neg short] at rest
  have room := Nat.lt_of_not_le short
  obtain ⟨_, apart⟩ := (lt_minWritableSize_iff info).mp room
  refine .inr ⟨jumped, jumps, room, ?_⟩
  by_cases aligned : alignment = 0
  · have fits : ∀ i ∈ info.validConsumers, size < info.writableSizeOf i :=
      fun i member => Nat.lt_of_le_of_lt (by omega) (apart i member)
    rw [if_neg (fun both => both.1 aligned), if_pos fits] at rest
    exact .inr ⟨aligned, (pure_eq_ok_iff.mp rest).symm⟩
  · have fits : ∀ i ∈ info.validConsumers,
        size + alignment < info.writableSizeOf i :=
      fun i member => Nat.lt_of_le_of_lt (by omega) (apart i member)
    rw [if_pos ⟨aligned, fits⟩] at rest
    exact .inl ⟨aligned, (pure_eq_ok_iff.mp rest).symm⟩

/-- The ways one try of `RequestWriteFrame` can end. -/
theorem requestWriteTry_cases {info after : RingBufInfo} {now size : Nat}
    {obj obj' : Object} {type : FRAME_E} {mode : CRB_WRITE_MODE_E}
    {answer : WriteTry}
    (tries : info.requestWriteTry now obj size type mode =
      .ok (after, obj', answer)) :
    (0 < size ∧ size ≤ info.bufSize ∧ type ≠ .CRB_FRAME_ANY) ∧
    ∃ aged, info.deleteAgedBlackHole now = .ok aged ∧
      ((aged.indexFindBlocker ≠ [] ∧ mode = .CRB_WRITE_MODE_BLOCK ∧
          after = aged ∧ obj' = obj ∧ answer = .failed) ∨
        ∃ moved,
          aged.moveAllBlockers now aged.indexFindBlocker = .ok moved ∧
          (mode = .CRB_WRITE_MODE_BLOCK → aged.indexFindBlocker = []) ∧
          ((∃ alignmentBytes offset,
              moved.requestWritePtr size (moved.writeAlignment type) =
                .ok (.granted after alignmentBytes offset) ∧
              obj' = { obj with
                m_lastWriteBytes := size
                m_lastAlignmentBytes := alignmentBytes
                m_lastWriteFrameType := type } ∧
              answer = .granted offset) ∨
            ∃ middle blockers,
              moved.requestWritePtr size (moved.writeAlignment type) =
                .ok (.notEnough middle blockers) ∧ obj' = obj ∧
              (mode = .CRB_WRITE_MODE_BLOCK ∧ after = middle ∧
                  answer = .failed ∨
                mode = .CRB_WRITE_MODE_NON_BLOCK ∧
                  middle.moveAllBlockers now blockers = .ok after ∧
                  answer = .again))) := by
  unfold requestWriteTry at tries
  by_cases valid : 0 < size ∧ size ≤ info.bufSize ∧ type ≠ .CRB_FRAME_ANY
  swap
  · rw [if_neg valid] at tries
    cases tries
  rw [if_pos valid] at tries
  refine ⟨valid, ?_⟩
  obtain ⟨aged, ages, rest⟩ := bind_eq_ok_iff.mp tries
  refine ⟨aged, ages, ?_⟩
  dsimp only at rest
  by_cases blocked : aged.indexFindBlocker ≠ [] ∧ mode = .CRB_WRITE_MODE_BLOCK
  · rw [if_pos blocked] at rest
    cases rest
    exact .inl ⟨blocked.1, blocked.2, rfl, rfl, rfl⟩
  rw [if_neg blocked] at rest
  obtain ⟨moved, moves, rest⟩ := bind_eq_ok_iff.mp rest
  refine .inr ⟨moved, moves, ?_, ?_⟩
  · intro block
    apply Classical.byContradiction
    intro blockers
    exact blocked ⟨blockers, block⟩
  obtain ⟨ptr, requests, rest⟩ := bind_eq_ok_iff.mp rest
  cases ptr with
  | granted middle alignmentBytes offset =>
      cases rest
      exact .inl ⟨alignmentBytes, offset, requests, rfl, rfl⟩
  | notEnough middle blockers =>
      cases mode with
      | CRB_WRITE_MODE_BLOCK =>
          cases rest
          exact .inr ⟨_, blockers, requests, rfl, .inl ⟨rfl, rfl, rfl⟩⟩
      | CRB_WRITE_MODE_NON_BLOCK =>
          obtain ⟨last, again, rest⟩ := bind_eq_ok_iff.mp rest
          cases rest
          exact .inr ⟨middle, blockers, requests, rfl,
            .inr ⟨rfl, again, rfl⟩⟩

theorem keepsUsers_requestWriteTry {info after : RingBufInfo}
    {now size : Nat} {obj obj' : Object} {type : FRAME_E}
    {mode : CRB_WRITE_MODE_E} {answer : WriteTry}
    (tries : info.requestWriteTry now obj size type mode =
      .ok (after, obj', answer)) :
    KeepsUsers info after := by
  obtain ⟨_, aged, ages, ends⟩ := requestWriteTry_cases tries
  rw [deleteAgedBlackHole_eq] at ages
  obtain rfl := Except.ok.inj ages
  apply (keepsUsers_holes info _).trans
  rcases ends with ⟨_, _, rfl, _⟩ | ⟨moved, moves, _, ends⟩
  · exact KeepsUsers.refl _
  apply (keepsUsers_moveAllBlockers moves).trans
  have requested : ∀ answer,
      moved.requestWritePtr size (moved.writeAlignment type) = .ok answer →
        match answer with
        | .granted after _ _ => KeepsUsers moved after
        | .notEnough after _ => KeepsUsers moved after := by
    intro answer requests
    rcases requestWritePtr_cases requests with
      ⟨_, _, _, rfl⟩ | ⟨_, _, _, ⟨_, rfl⟩ | ⟨_, rfl⟩⟩
    · exact KeepsUsers.refl moved
    · exact keepsUsers_skipHoles moved _
    · exact keepsUsers_skipHoles moved _
  rcases ends with ⟨_, _, requests, _⟩ | ⟨middle, _, requests, _, ends⟩
  · exact requested _ requests
  · apply (requested _ requests).trans
    rcases ends with ⟨_, rfl, _⟩ | ⟨_, moves, _⟩
    · exact KeepsUsers.refl _
    · exact keepsUsers_moveAllBlockers moves

/-- The ways `CommitWrite` can end. -/
theorem commitWrite_cases {info after : RingBufInfo} {obj obj' : Object}
    {size : Option Nat} {frameTime : Int}
    (commits : info.commitWrite obj size frameTime = .ok (after, obj')) :
    size.getD obj.m_lastWriteBytes ≤ obj.m_lastWriteBytes ∧
      (obj.m_lastWriteBytes = 0 ∧ after = info ∧ obj' = obj ∨
        0 < obj.m_lastWriteBytes ∧
          obj' = { obj with m_lastWriteBytes := 0, m_lastAlignmentBytes := 0 } ∧
          (size.getD obj.m_lastWriteBytes = 0 ∧
              after = { info with jumpOverHole := false } ∨
            0 < size.getD obj.m_lastWriteBytes ∧
              after = { info.commitFrame obj
                  (size.getD obj.m_lastWriteBytes) frameTime with
                jumpOverHole := false })) := by
  unfold commitWrite at commits
  dsimp only at commits
  by_cases exceeds : obj.m_lastWriteBytes < size.getD obj.m_lastWriteBytes
  · rw [if_pos exceeds] at commits
    cases commits
  rw [if_neg exceeds] at commits
  refine ⟨Nat.le_of_not_lt exceeds, ?_⟩
  by_cases nothing : obj.m_lastWriteBytes = 0
  · rw [if_pos nothing] at commits
    cases commits
    exact .inl ⟨nothing, rfl, rfl⟩
  rw [if_neg nothing] at commits
  obtain ⟨rfl, rfl⟩ := Prod.mk.inj (Except.ok.inj commits)
  refine .inr ⟨Nat.pos_of_ne_zero nothing, rfl, ?_⟩
  by_cases empty : size.getD obj.m_lastWriteBytes = 0
  · rw [if_pos empty]
    exact .inl ⟨empty, rfl⟩
  · rw [if_neg empty]
    exact .inr ⟨Nat.pos_of_ne_zero empty, rfl⟩

theorem commitWrite_error {info : RingBufInfo} {obj : Object}
    {size : Option Nat} {frameTime : Int} {fault : Fault}
    (fails : info.commitWrite obj size frameTime = .error fault) :
    fault = .commitWrite := by
  unfold commitWrite at fails
  dsimp only at fails
  by_cases exceeds : obj.m_lastWriteBytes < size.getD obj.m_lastWriteBytes
  · rw [if_pos exceeds] at fails
    cases fails
    rfl
  rw [if_neg exceeds] at fails
  by_cases nothing : obj.m_lastWriteBytes = 0
  · rw [if_pos nothing] at fails
    cases fails
  · rw [if_neg nothing] at fails
    cases fails

theorem keepsUsers_commitFrame (obj : Object) (commitBytes : Nat)
    (frameTime : Int) :
    KeepsUsers info (info.commitFrame obj commitBytes frameTime) := by
  by_cases indexed : obj.m_lastWriteFrameType = .CRB_FRAME_ANY
  · simp only [commitFrame, if_pos indexed]
    exact ⟨fun _ => rfl, rfl, rfl, rfl, rfl⟩
  · simp only [commitFrame, if_neg indexed]
    exact ⟨fun _ => rfl, rfl, rfl, rfl, rfl⟩

theorem keepsUsers_commitWrite {info after : RingBufInfo}
    {obj obj' : Object} {size : Option Nat} {frameTime : Int}
    (commits : info.commitWrite obj size frameTime = .ok (after, obj')) :
    KeepsUsers info after := by
  rcases (commitWrite_cases commits).2 with
    ⟨_, rfl, _⟩ | ⟨_, _, ⟨_, rfl⟩ | ⟨_, rfl⟩⟩
  · exact KeepsUsers.refl _
  · exact ⟨fun _ => rfl, rfl, rfl, rfl, rfl⟩
  · have keeps := keepsUsers_commitFrame info obj
      (size.getD obj.m_lastWriteBytes) frameTime
    exact ⟨keeps.names, keeps.productorName, keeps.version, keeps.liveStream,
      keeps.bufSize⟩

theorem sameUser_requestWriteTry {info after : RingBufInfo}
    {now size : Nat} {obj obj' : Object} {type : FRAME_E}
    {mode : CRB_WRITE_MODE_E} {answer : WriteTry}
    (tries : info.requestWriteTry now obj size type mode =
      .ok (after, obj', answer)) : obj.SameUser obj' := by
  obtain ⟨_, _, _, ends⟩ := requestWriteTry_cases tries
  rcases ends with ⟨_, _, _, rfl, _⟩ |
    ⟨_, _, _, ⟨_, _, _, rfl, _⟩ | ⟨_, _, _, rfl, _⟩⟩
  · exact ⟨rfl, rfl⟩
  · exact ⟨rfl, rfl⟩
  · exact ⟨rfl, rfl⟩

theorem sameUser_commitWrite {info after : RingBufInfo}
    {obj obj' : Object} {size : Option Nat} {frameTime : Int}
    (commits : info.commitWrite obj size frameTime = .ok (after, obj')) :
    obj.SameUser obj' := by
  rcases (commitWrite_cases commits).2 with ⟨_, _, rfl⟩ | ⟨_, rfl, _⟩
  · exact ⟨rfl, rfl⟩
  · exact ⟨rfl, rfl⟩

end RingBufInfo

end CRingBuf

end MbedtlsKcp
