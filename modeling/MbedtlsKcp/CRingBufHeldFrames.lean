import MbedtlsKcp.CRingBufReaderShelter

/-!
# Frames that readers still hold

The frames that readers obtained and have not given back are followed over a
run of calls.  `RequestWriteFrame` must not hand out their bytes again before
their black hole is too old.
-/

namespace MbedtlsKcp

namespace CRingBuf

open CyclicWindows FallibleSteps TransitionRuns

/-- A reader with the bytes that it obtained and has neither committed, discarded
nor requested again. -/
structure Holder where
  handle : Nat
  bytes : HeldBytes
  deriving DecidableEq

/-- A ring with its writer and what its readers hold. -/
structure Watch where
  system : System
  writer : Option Nat
  held : List Holder

/-- What every reachable ring keeps, whatever its readers do. -/
structure System.Steady (s : System) : Prop where
  unused : s.info.version = 0 → s.info.NoUsers
  frames : s.FramesHold
  inside : s.PositionsInside

theorem System.Steady.step {s t : System} {call : Call} {answer : Answer}
    (steady : s.Steady) (holes : s.info.HoleInvariant)
    (returns : s.step call = .ok (t, answer)) : t.Steady where
  unused := by
    by_cases changes : call.changesUsers
    · have invariant : s.HoleInvariant := ⟨holes, steady.unused⟩
      exact (invariant.users changes returns).unused
    · have keeps := (System.keepsUsers_step returns changes).info
      intro isZero
      have none := steady.unused (keeps.version.symm.trans isZero)
      exact ⟨fun i => (keeps.names i).trans (none.consumers i),
        keeps.productorName.trans none.productor⟩
  frames := steady.frames.step returns
  inside := (System.frameStep steady.frames.proper returns).positionsInside
    steady.inside

namespace Watch

/-- A ring before its first user. -/
def fresh (bufSize now : Nat) (data : Nat → UInt8) : Watch :=
  ⟨freshSystem bufSize now data, none, []⟩

variable (w : Watch)

/-- The slot of a reader. -/
def slot (handle : Nat) : Option Nat :=
  (w.system.reader handle).map Object.m_userIdx

/-- The black hole of a reader is older than `BLACKHOLE_MAX_LIFE_SEC`. -/
def Overdue (holder : Holder) : Prop :=
  ∃ slot ∈ w.slot holder.handle, ∃ hole ∈ w.system.info.holes,
    hole.blockerName = (w.system.info.consumers slot).name ∧
      RingBufInfo.aged w.system.now hole = true

instance : DecidablePred w.Overdue :=
  fun _ => inferInstanceAs (Decidable (∃ _ ∈ _, _))

/-- What the other readers hold. -/
def others (handle : Nat) : List Holder :=
  w.held.filter fun holder => holder.handle ≠ handle

/-- What readers hold after one of them has got an answer. -/
def obtained (handle : Nat) (answer : ReadAnswer) : List Holder :=
  (answer.bytes.map fun bytes => ⟨handle, bytes⟩).toList ++ w.others handle

/-- What readers hold after a call. -/
def heldAfter : Call → Answer → List Holder
  | .requestReadFrame handle _, .read answer => w.obtained handle answer
  | .requestReadContinuousFrames handle _, .read answer =>
      w.obtained handle answer
  | .commitRead handle _, _ => w.others handle
  | .discardAllData handle, _ => w.others handle
  | .destroy handle, _ => w.others handle
  | .requestWriteFrame .., _ => w.held.filter fun holder => ¬ w.Overdue holder
  | _, _ => w.held

/-- The writer after a call. -/
def writerAfter : Call → Option Nat
  | .attachWriter handle _ _ =>
      if w.system.linked = true ∧ w.system.objects handle = none then
        some handle
      else w.writer
  | .destroy handle => if w.writer = some handle then none else w.writer
  | _ => w.writer

def next (call : Call) : Option Watch :=
  (w.system.step call).toOption.map fun result =>
    ⟨result.1, w.writerAfter call, w.heldAfter call result.2⟩

/-- A range that is handed out has no byte of a frame that is held, unless its
black hole is too old. -/
def GrantsClear (call : Call) : Prop :=
  ∀ t answer, w.system.step call = .ok (t, answer) →
    ∀ range ∈ handedOut call answer, ∀ holder ∈ w.held, ¬ w.Overdue holder →
      holder.bytes.Clear w.system.info.bufSize range.1 range.2

/-- A ring has one writer at a time. -/
def OneWriter : Call → Prop
  | .attachWriter .. => w.writer = none
  | _ => True

instance (call : Call) : Decidable (w.OneWriter call) :=
  match call with
  | .attachWriter .. => inferInstanceAs (Decidable (w.writer = none))
  | .tick .. | .attachReader .. | .destroy .. | .requestWriteFrame ..
  | .fill .. | .commitWrite .. | .resetAllUser .. | .requestReadFrame ..
  | .requestReadContinuousFrames .. | .commitRead .. | .discardAllData ..
  | .indexMoveToSpecifiedTime .. | .indexMoveToOldest .. => instDecidableTrue

/-- No other reader that holds a frame has the slot. -/
def Unshared (handle slot : Nat) : Prop :=
  ∀ holder ∈ w.others handle, w.slot holder.handle ≠ some slot

instance (handle slot : Nat) : Decidable (w.Unshared handle slot) :=
  inferInstanceAs (Decidable (∀ _ ∈ _, _))

/-- The calls come from a reader that is still installed in a slot of its own. -/
def Installed (handle : Nat) : Prop :=
  ∀ slot ∈ w.slot handle, w.system.info.validConsumer slot ∧
    w.Unshared handle slot

instance (handle : Nat) : Decidable (w.Installed handle) :=
  inferInstanceAs (Decidable (∀ _ ∈ _, _))

/-- The frame that a read request finds is not in the range that the writer has
reserved and not yet committed, and its slot is not the next one. -/
def FindsCommitted (handle : Nat) (type : FRAME_E) : Prop :=
  ∀ obj ∈ w.system.reader handle, ∀ slot ∈ w.system.info.readSlot obj type,
    ∀ writer ∈ w.writer, ∀ writing ∈ w.system.writer writer,
      0 < writing.m_lastWriteBytes →
        writing.m_lastAlignmentBytes + writing.m_lastWriteBytes <
            gap w.system.info.bufSize w.system.info.productorOffset
              (w.system.info.frameIdx slot).offset ∧
          advanceIndex w.system.info.productorIndex 1 ≠ slot

instance (handle : Nat) (type : FRAME_E) :
    Decidable (w.FindsCommitted handle type) :=
  inferInstanceAs (Decidable (∀ _ ∈ _, _))

/-- The reader holds nothing, and its slot says so. -/
def Idle (handle : Nat) : Prop :=
  (∀ holder ∈ w.held, holder.handle ≠ handle) ∧
    ∀ slot ∈ w.slot handle,
      (w.system.info.consumers slot).state = .USER_FREE

instance (handle : Nat) : Decidable (w.Idle handle) :=
  inferInstanceAs (Decidable (_ ∧ _))

/-- A request that is granted has found a gap between the black holes that it has
to stay clear of. -/
def FindsGap (handle size : Nat) (type : FRAME_E) (mode : CRB_WRITE_MODE_E) :
    Prop :=
  ∀ t offset, w.system.step (.requestWriteFrame handle size type mode) =
      .ok (t, .write (.granted offset)) →
    (w.system.info.standing w.system.now).FindsGap
      (size + w.system.info.writeAlignment type)

instance (handle size : Nat) (type : FRAME_E) (mode : CRB_WRITE_MODE_E) :
    Decidable (w.FindsGap handle size type mode) :=
  match ends : w.system.step (.requestWriteFrame handle size type mode) with
  | .ok (_, .write (.granted _)) =>
      decidable_of_iff ((w.system.info.standing w.system.now).FindsGap
          (size + w.system.info.writeAlignment type))
        ⟨fun finds _ _ _ => finds, fun finds => finds _ _ ends⟩
  | .ok (_, .write .failed) | .ok (_, .write .again) | .ok (_, .done)
  | .ok (_, .read _) | .error _ =>
      isTrue fun _ _ granted => by cases ends.symm.trans granted

/-- The readers that hold frames keep their slots and holes, and the writer finds
a gap. -/
def KeepsHeld : Call → Prop
  | .attachReader _ name _ => w.held = [] ∨
      w.system.info.getIntalledUserNum < 10 ∧ ∀ holder ∈ w.held,
        ∀ slot ∈ w.slot holder.handle,
          (w.system.info.consumers slot).name ≠ name
  | .attachWriter .. => w.held = []
  | .destroy handle => ∀ slot ∈ w.slot handle, w.Unshared handle slot
  | .requestWriteFrame handle size type mode =>
      w.system.now ≠ 0 ∧ w.FindsGap handle size type mode
  | .resetAllUser _ => w.system.now ≠ 0
  | .requestReadFrame handle type =>
      w.Installed handle ∧ w.FindsCommitted handle type
  | .requestReadContinuousFrames handle _ =>
      w.Installed handle ∧ w.FindsCommitted handle .CRB_FRAME_ANY
  | .commitRead handle _ => w.Installed handle
  | .discardAllData handle => w.Installed handle
  | .indexMoveToSpecifiedTime handle _ _ => w.Installed handle ∧ w.Idle handle
  | .indexMoveToOldest handle => w.Installed handle ∧ w.Idle handle
  | _ => True

instance (call : Call) : Decidable (w.KeepsHeld call) :=
  match call with
  | .attachReader .. => inferInstanceAs (Decidable (_ ∨ _ ∧ ∀ _ ∈ _, _))
  | .attachWriter .. => inferInstanceAs (Decidable (w.held = []))
  | .destroy .. => inferInstanceAs (Decidable (∀ _ ∈ _, _))
  | .requestWriteFrame .. | .requestReadFrame ..
  | .requestReadContinuousFrames .. | .indexMoveToSpecifiedTime ..
  | .indexMoveToOldest .. => inferInstanceAs (Decidable (_ ∧ _))
  | .resetAllUser .. => inferInstanceAs (Decidable (w.system.now ≠ 0))
  | .commitRead handle _ | .discardAllData handle =>
      inferInstanceAs (Decidable (w.Installed handle))
  | .tick .. | .fill .. | .commitWrite .. => instDecidableTrue

/-- What holds between the ring and what its readers hold. -/
structure Watched : Prop where
  steady : w.system.Steady
  sound : w.system.info.Sound
  writers : ∀ handle obj, w.system.writer handle = some obj →
    w.writer = some handle
  sheltered : w.writer ≠ none → w.system.info.Sheltered
  pending : ∀ handle obj, w.system.writer handle = some obj →
    0 < obj.m_lastWriteBytes → w.system.info.KeepsAhead
      (obj.m_lastAlignmentBytes + obj.m_lastWriteBytes)
  held : ∀ holder ∈ w.held, ∃ slot ∈ w.slot holder.handle,
    w.system.info.Protects slot holder.bytes

theorem watched_fresh {bufSize : Nat} (positive : 0 < bufSize) (now : Nat)
    (data : Nat → UInt8) : (fresh bufSize now data).Watched where
  steady :=
    { unused := fun _ => ⟨fun _ => rfl, rfl⟩
      frames := System.framesHold_fresh bufSize now data
      inside := fun positive => ⟨positive, fun _ => positive⟩ }
  sound :=
    { invariant := (System.holeInvariant_freshSystem bufSize now data).holes
      indexed := ⟨frameNum_pos, fun _ => frameNum_pos⟩
      placed := fun _ member => nomatch member
      offset := positive }
  writers _ _ found := by cases found
  sheltered absent := absurd rfl absent
  pending _ _ found := by cases found
  held _ member := nomatch member

section Steps

variable {w : Watch} {handle : Nat} {obj obj' : Object}
variable {after : RingBufInfo} {t : System} {held : List Holder}

theorem slot_eq_some (found : w.system.reader handle = some obj) :
    w.slot handle = some obj.m_userIdx := by
  rw [slot, found]
  rfl

/-- Calls that keep the users keep their slots. -/
theorem slot_of_keepsUsers (keeps : w.system.KeepsUsers t) (other : Nat) :
    (t.reader other).map Object.m_userIdx = w.slot other := by
  rw [slot, System.reader, System.reader]
  cases now : t.objects other with
  | none => rw [(keeps.others other).mpr now]
  | some obj' =>
      obtain ⟨obj, before, kind, user⟩ := keeps.objects other obj' now
      rw [before]
      simp only [Option.filter, kind]
      split
      · exact congrArg some user
      · rfl

theorem Watched.offsets (watched : w.Watched) (slot : Nat) :
    (w.system.info.frameIdx slot).offset < w.system.info.bufSize :=
  (watched.steady.inside (Nat.zero_lt_of_lt watched.sound.offset)).2 slot

/-- A call of a reader that is still installed. -/
theorem Watched.readerCall (watched : w.Watched)
    (steady : (w.system.afterCall handle after obj').Steady)
    (found : w.system.reader handle = some obj) (same : obj.SameUser obj')
    (installed : w.Installed handle)
    (changed : w.system.info.ChangedBy after obj.m_userIdx)
    (sheltered : w.system.info.Sheltered → after.Sheltered)
    (pending : ∀ writer writing, w.writer = some writer →
      w.system.writer writer = some writing → 0 < writing.m_lastWriteBytes →
        w.system.info.KeepsAhead
          (writing.m_lastAlignmentBytes + writing.m_lastWriteBytes) →
        after.KeepsAhead
          (writing.m_lastAlignmentBytes + writing.m_lastWriteBytes))
    (isHeld : ∀ holder ∈ held, holder ∈ w.others handle ∨
      holder.handle = handle ∧
        after.Protects obj.m_userIdx holder.bytes) :
    Watched ⟨w.system.afterCall handle after obj', w.writer, held⟩ := by
  have writers : (w.system.afterCall handle after obj').writer =
      w.system.writer :=
    System.writer_afterCall_of_reader found same
  have own := slot_eq_some found
  obtain ⟨valid, unshared⟩ := installed _ own
  constructor
  · exact steady
  · exact changed.sound watched.sound
  · intro other writing isWriter
    exact watched.writers other writing (writers ▸ isWriter)
  · exact fun exist => sheltered (watched.sheltered exist)
  · intro other writing isWriter active
    have isWriter : w.system.writer other = some writing := writers ▸ isWriter
    exact pending other writing (watched.writers other writing isWriter)
      isWriter active (watched.pending other writing isWriter active)
  · intro holder member
    rcases isHeld holder member with other | ⟨isOwn, protects⟩
    · obtain ⟨before, different⟩ := List.mem_filter.mp other
      have different : holder.handle ≠ handle := of_decide_eq_true different
      obtain ⟨slot, isSlot, protects⟩ := watched.held holder before
      refine ⟨slot, ?_, changed.protects watched.sound.invariant valid ?_
        protects⟩
      · change slot ∈ ((w.system.afterCall handle after obj').reader
          holder.handle).map Object.m_userIdx
        rw [System.reader_afterCall_of_ne different]
        exact isSlot
      · rintro rfl
        exact unshared holder other isSlot
    · refine ⟨obj.m_userIdx, ?_, protects⟩
      have isReader : (w.system.afterCall handle after obj').reader handle =
          some obj' :=
        System.reader_eq_some_iff.mpr ⟨System.afterCall_self,
          same.1.trans (System.reader_eq_some_iff.mp found).2⟩
      rw [isOwn]
      exact (slot_eq_some (w := ⟨_, w.writer, held⟩) isReader).trans
        (congrArg some same.2)

/-- A call of the writer. -/
theorem Watched.writerCall (watched : w.Watched)
    (steady : (w.system.afterCall handle after obj').Steady)
    (found : w.system.writer handle = some obj) (same : obj.SameUser obj')
    (sheltered : after.Sheltered)
    (pending : 0 < obj'.m_lastWriteBytes → after.KeepsAhead
      (obj'.m_lastAlignmentBytes + obj'.m_lastWriteBytes))
    (isHeld : ∀ holder ∈ held, holder ∈ w.held ∧
      ∀ slot ∈ w.slot holder.handle,
        w.system.info.Protects slot holder.bytes →
          after.Protects slot holder.bytes) :
    Watched ⟨w.system.afterCall handle after obj', w.writer, held⟩ := by
  have writers : (w.system.afterCall handle after obj').writer =
      Function.update w.system.writer handle (some obj') :=
    System.writer_afterCall_of_writer found same
  have isWriter := watched.writers handle obj found
  have only : ∀ other writing,
      (w.system.afterCall handle after obj').writer other = some writing →
        other = handle := by
    intro other writing isOther
    by_contra different
    rw [writers, Function.update_of_ne different] at isOther
    exact different (Option.some.inj
      ((watched.writers other writing isOther).symm.trans isWriter))
  constructor
  · exact steady
  · exact sheltered.toSound
  · intro other writing isOther
    rw [only other writing isOther]
    exact isWriter
  · exact fun _ => sheltered
  · intro other writing isOther active
    obtain rfl := only other writing isOther
    have isOther : (w.system.afterCall other after obj').writer other =
        some writing := isOther
    rw [writers, Function.update_self] at isOther
    obtain rfl := Option.some.inj isOther
    exact pending active
  · intro holder member
    obtain ⟨before, keeps⟩ := isHeld holder member
    obtain ⟨slot, isSlot, protects⟩ := watched.held holder before
    refine ⟨slot, ?_, keeps slot isSlot protects⟩
    have different : holder.handle ≠ handle := by
      rintro rfl
      obtain ⟨reader, isReader, -⟩ := Option.map_eq_some_iff.mp isSlot
      rw [System.reader_eq_some_iff] at isReader
      rw [System.writer_eq_some_iff] at found
      obtain rfl := Option.some.inj (isReader.1.symm.trans found.1)
      rw [isReader.2] at found
      cases found.2
    change slot ∈ ((w.system.afterCall handle after obj').reader
      holder.handle).map Object.m_userIdx
    rw [System.reader_afterCall_of_ne different]
    exact isSlot

/-- Calls that leave the ring, its objects and what is held alone. -/
theorem Watched.quiet (watched : w.Watched) (steady : t.Steady)
    (info : t.info = w.system.info) (objects : t.objects = w.system.objects)
    (fewer : ∀ holder ∈ held, holder ∈ w.held) :
    Watched ⟨t, w.writer, held⟩ := by
  have readers : t.reader = w.system.reader := by
    funext other
    rw [System.reader, System.reader, objects]
  have writers : t.writer = w.system.writer := by
    funext other
    rw [System.writer, System.writer, objects]
  constructor
  · exact steady
  · exact info ▸ watched.sound
  · intro other writing isWriter
    exact watched.writers other writing (writers ▸ isWriter)
  · exact fun exist => info ▸ watched.sheltered exist
  · intro other writing isWriter active
    change t.info.KeepsAhead _
    rw [info]
    exact watched.pending other writing (writers ▸ isWriter) active
  · intro holder member
    obtain ⟨slot, isSlot, protects⟩ := watched.held holder (fewer holder member)
    refine ⟨slot, ?_, info ▸ protects⟩
    change slot ∈ (t.reader holder.handle).map Object.m_userIdx
    rw [readers]
    exact isSlot

theorem mem_others_or_own {answer : ReadAnswer} {holder : Holder}
    (member : holder ∈ w.obtained handle answer) :
    holder ∈ w.others handle ∨
      holder.handle = handle ∧ answer.bytes = some holder.bytes := by
  rcases List.mem_append.mp member with own | other
  · right
    obtain ⟨bytes, isBytes, rfl⟩ :=
      Option.map_eq_some_iff.mp (Option.mem_toList.mp own)
    exact ⟨rfl, isBytes⟩
  · exact .inl other

/-- A read request. -/
theorem Watched.reads {type : FRAME_E} {answer : ReadAnswer}
    (watched : w.Watched)
    (steady : (w.system.afterCall handle after obj').Steady)
    (found : w.system.reader handle = some obj) (same : obj.SameUser obj')
    (installed : w.Installed handle) (finds : w.FindsCommitted handle type)
    (reads : w.system.info.Reads after obj type answer) :
    Watched ⟨w.system.afterCall handle after obj', w.writer,
      w.obtained handle answer⟩ := by
  obtain ⟨valid, _⟩ := installed _ (slot_eq_some found)
  obtain ⟨changed, ends⟩ := reads
  rcases ends with ⟨nothing, kept⟩ | ⟨first, bytes, isFirst, isBytes, obtains⟩
  · have releases : w.system.info.Releases after obj.m_userIdx :=
      ⟨changed, .inl kept⟩
    refine watched.readerCall steady found same installed changed
      releases.sheltered (fun _ _ _ _ _ => releases.keepsAhead) ?_
    intro holder member
    rcases mem_others_or_own member with other | ⟨_, isOwn⟩
    · exact .inl other
    · rw [nothing] at isOwn
      cases isOwn
  · refine watched.readerCall steady found same installed changed ?_ ?_ ?_
    · exact fun sheltered =>
        changed.sheltered sheltered fun _ => obtains.inFront
    · intro writer writing isWriter isWriting active before
      refine changed.keepsAhead before fun _ => ?_
      rw [obtains.offset, obtains.refIdxStart]
      exact finds obj found first isFirst writer isWriter writing isWriting
        active
    · intro holder member
      rcases mem_others_or_own member with other | ⟨isOwn, isAnswer⟩
      · exact .inl other
      · rw [isBytes] at isAnswer
        obtain rfl := Option.some.inj isAnswer
        exact .inr ⟨isOwn, obtains.protects changed valid⟩

/-- A call with which a reader gives back what it holds, or holds nothing. -/
theorem Watched.releases (watched : w.Watched)
    (steady : (w.system.afterCall handle after obj').Steady)
    (found : w.system.reader handle = some obj) (same : obj.SameUser obj')
    (installed : w.Installed handle)
    (releases : w.system.info.Releases after obj.m_userIdx)
    (others : ∀ holder ∈ held, holder ∈ w.others handle) :
    Watched ⟨w.system.afterCall handle after obj', w.writer, held⟩ :=
  watched.readerCall steady found same installed releases.toChangedBy
    releases.sheltered (fun _ _ _ _ _ => releases.keepsAhead)
    fun holder member => .inl (others holder member)

/-- An explicit move of a reader that holds nothing. -/
theorem Watched.moves (watched : w.Watched)
    (steady : (w.system.afterCall handle after obj).Steady)
    (found : w.system.reader handle = some obj)
    (installed : w.Installed handle) (idle : w.Idle handle)
    (releases : w.system.info.Releases after obj.m_userIdx) :
    Watched ⟨w.system.afterCall handle after obj, w.writer, w.held⟩ := by
  refine watched.releases steady found ⟨rfl, rfl⟩ installed releases ?_
  exact fun holder member =>
    List.mem_filter.mpr ⟨member, decide_eq_true (idle.1 holder member)⟩

/-- Bytes whose black hole is not too old are protected when a request has
deleted the others. -/
theorem Watched.young (watched : w.Watched) {holder : Holder}
    (member : holder ∈ w.held) (young : ¬ w.Overdue holder) :
    ∃ slot ∈ w.slot holder.handle,
      (w.system.info.withoutAged w.system.now).Protects slot holder.bytes := by
  obtain ⟨slot, isSlot, protects⟩ := watched.held holder member
  refine ⟨slot, isSlot, protects.withoutAged ?_⟩
  intro hole isHole owned
  rw [← Bool.not_eq_true]
  exact fun aged => young ⟨slot, isSlot, hole, isHole, owned, aged⟩

/-- A try of `RequestWriteFrame`, and the range that it hands out. -/
theorem Watched.requestWriteFrame {size : Nat} {type : FRAME_E}
    {mode : CRB_WRITE_MODE_E} {answer : WriteTry} (watched : w.Watched)
    (steady : (w.system.afterCall handle after obj').Steady)
    (found : w.system.writer handle = some obj) (clock : w.system.now ≠ 0)
    (tries : w.system.info.requestWriteTry w.system.now obj size type mode =
      .ok (after, obj', answer)) :
    Watched ⟨w.system.afterCall handle after obj', w.writer,
        w.held.filter fun holder => ¬ w.Overdue holder⟩ ∧
      ∀ offset, answer = .granted offset →
        (w.system.info.standing w.system.now).FindsGap
            (size + w.system.info.writeAlignment type) →
          ∀ holder ∈ w.held, ¬ w.Overdue holder →
            holder.bytes.Clear w.system.info.bufSize offset size := by
  have same := RingBufInfo.sameUser_requestWriteTry tries
  have exist : w.writer ≠ none := by
    rw [watched.writers handle obj found]
    exact Option.some_ne_none handle
  have keep : (∀ slot bytes,
        (w.system.info.withoutAged w.system.now).Protects slot bytes →
          after.Protects slot bytes) →
      ∀ holder ∈ w.held.filter fun holder => ¬ w.Overdue holder,
        holder ∈ w.held ∧ ∀ slot ∈ w.slot holder.handle,
          w.system.info.Protects slot holder.bytes →
            after.Protects slot holder.bytes := by
    intro protects holder member
    obtain ⟨before, young⟩ := List.mem_filter.mp member
    refine ⟨before, fun slot isSlot _ => protects slot _ ?_⟩
    obtain ⟨_, isSame, kept⟩ := watched.young before (of_decide_eq_true young)
    obtain rfl := Option.some.inj (isSlot.symm.trans isSame)
    exact kept
  rcases (watched.sheltered exist).requestWriteTry clock tries with
    ⟨shelters, rfl, notGranted⟩ | ⟨offset, rfl, sheltered, ahead, clears⟩
  · refine ⟨watched.writerCall steady found same shelters.sheltered ?_
      (keep shelters.protects), ?_⟩
    · intro active
      apply shelters.keepsAhead
      exact watched.pending handle obj' found active
    · intro offset granted
      exact absurd granted (notGranted offset)
  · refine ⟨watched.writerCall steady found same sheltered (fun _ => ahead)
      (keep fun slot bytes before => (clears slot bytes before).1), ?_⟩
    rintro _ ⟨⟩ finds holder member young
    obtain ⟨slot, _, protects⟩ := watched.young member young
    exact (clears slot _ protects).2 finds

theorem Watched.commitWrite {commitSize : Option Nat} {frameTime : Int}
    (watched : w.Watched)
    (steady : (w.system.afterCall handle after obj').Steady)
    (found : w.system.writer handle = some obj)
    (commits : w.system.info.commitWrite obj commitSize frameTime =
      .ok (after, obj')) :
    Watched ⟨w.system.afterCall handle after obj', w.writer, w.held⟩ := by
  have exist : w.writer ≠ none := by
    rw [watched.writers handle obj found]
    exact Option.some_ne_none handle
  have sheltered := watched.sheltered exist
  obtain ⟨idle, distance, advances⟩ := RingBufInfo.advances_commitWrite
    sheltered (watched.steady.frames.proper handle obj found)
    (watched.pending handle obj found) commits
  refine watched.writerCall steady found
    (RingBufInfo.sameUser_commitWrite commits) (advances.sheltered sheltered)
    ?_ ?_
  · intro active
    rw [idle] at active
    cases active
  · exact fun holder member =>
      ⟨member, fun slot _ => advances.protects sheltered⟩

theorem Watched.resetAllUser (watched : w.Watched)
    (steady : (w.system.afterCall handle after obj').Steady)
    (found : w.system.writer handle = some obj) (clock : w.system.now ≠ 0)
    (resets : w.system.info.resetAllUser w.system.now obj =
      .ok (after, obj')) :
    Watched ⟨w.system.afterCall handle after obj', w.writer, w.held⟩ := by
  have exist : w.writer ≠ none := by
    rw [watched.writers handle obj found]
    exact Option.some_ne_none handle
  obtain ⟨idle, sheltered, protects⟩ :=
    (watched.sheltered exist).resetAllUser clock resets
  have same : obj.SameUser obj' := by
    obtain ⟨_, _, rest⟩ := bind_eq_ok_iff.mp resets
    obtain ⟨_, rfl⟩ := Prod.mk.inj (pure_eq_ok_iff.mp rest)
    exact ⟨rfl, rfl⟩
  refine watched.writerCall steady found same sheltered ?_ ?_
  · intro active
    rw [idle] at active
    cases active
  · exact fun holder member =>
      ⟨member, fun slot _ => protects slot holder.bytes⟩

/-- A new reader, when nothing is held or its slot and name are new. -/
theorem Watched.attachReader {name : UserName} {dumper : Bool}
    (watched : w.Watched)
    (steady : (w.system.afterCall handle after obj).Steady)
    (attaches : w.system.linked = true ∧ w.system.objects handle = none)
    (keeps : w.KeepsHeld (.attachReader handle name dumper))
    (constructs : w.system.info.constructReader name dumper =
      .ok (after, obj)) :
    Watched ⟨w.system.afterCall handle after obj, w.writer, w.held⟩ := by
  have frames := RingBufInfo.frames_constructReader constructs
  have resettled :=
    RingBufInfo.resettled_constructReader watched.sound constructs
  have reads : obj.isProductor = false := by
    obtain ⟨_, slot, rfl, _⟩ := RingBufInfo.constructReader_ok constructs
    rfl
  have writers : (w.system.afterCall handle after obj).writer =
      w.system.writer := by
    rw [System.writer_afterCall, reads, if_neg Bool.false_ne_true]
    apply Function.update_eq_self_iff.mpr
    rw [System.writer, attaches.2]
    rfl
  constructor
  · exact steady
  · exact resettled.sound_of_frames frames watched.sound
  · intro other writing isWriter
    exact watched.writers other writing (writers ▸ isWriter)
  · exact fun exist => resettled.sheltered frames (watched.sheltered exist)
  · intro other writing isWriter active
    exact (watched.pending other writing (writers ▸ isWriter) active).mono
      frames fun i => resettled.holdsFrame
  · intro holder member
    rcases keeps with nothing | ⟨roomy, apart⟩
    · change holder ∈ w.held at member
      rw [nothing] at member
      cases member
    obtain ⟨slot, isSlot, protects⟩ := watched.held holder member
    refine ⟨slot, ?_, protects.constructReader roomy
      (apart holder member slot isSlot) constructs⟩
    have different : holder.handle ≠ handle := by
      rintro rfl
      obtain ⟨reader, isReader, -⟩ := Option.map_eq_some_iff.mp isSlot
      rw [System.reader_eq_some_iff, attaches.2] at isReader
      cases isReader.1
    change slot ∈ ((w.system.afterCall handle after obj).reader
      holder.handle).map Object.m_userIdx
    rw [System.reader_afterCall_of_ne different]
    exact isSlot

/-- The one writer, when nothing is held. -/
theorem Watched.attachWriter {name : UserName} {liveStream : Bool}
    (watched : w.Watched)
    (steady : (w.system.afterCall handle after obj).Steady)
    (one : w.writer = none) (nothing : w.held = [])
    (constructs : w.system.info.constructWriter w.system.now name liveStream =
      .ok (after, obj)) :
    Watched ⟨w.system.afterCall handle after obj, some handle, w.held⟩ := by
  obtain ⟨rfl, sheltered⟩ :=
    watched.sound.constructWriter watched.steady.unused constructs
  have writers : (w.system.afterCall handle after (newObject true 0)).writer =
      Function.update w.system.writer handle (some (newObject true 0)) := by
    rw [System.writer_afterCall]
    rfl
  have only : ∀ other writing,
      (w.system.afterCall handle after (newObject true 0)).writer other =
        some writing → other = handle := by
    intro other writing isWriter
    by_contra different
    rw [writers, Function.update_of_ne different] at isWriter
    rw [watched.writers other writing isWriter] at one
    cases one
  constructor
  · exact steady
  · exact sheltered.toSound
  · exact fun other writing isWriter =>
      congrArg some (only other writing isWriter).symm
  · exact fun _ => sheltered
  · intro other writing isWriter active
    obtain rfl := only other writing isWriter
    have isWriter : (w.system.afterCall other after
        (newObject true 0)).writer other = some writing := isWriter
    rw [writers, Function.update_self] at isWriter
    obtain rfl := Option.some.inj isWriter
    cases active
  · intro holder member
    change holder ∈ w.held at member
    rw [nothing] at member
    cases member

/-- A destructor of another object than the writer only changes the readers. -/
theorem Watched.resettled_destroy (watched : w.Watched)
    (apart : w.writer ≠ some handle) :
    w.system.info.Resettled (w.system.destroy handle).info ∧
      (w.system.destroy handle).info.frames = w.system.info.frames := by
  cases found : w.system.objects handle with
  | none =>
      rw [System.destroy_of_none found]
      exact ⟨.refl watched.sound, rfl⟩
  | some obj =>
      have reads : obj.isProductor = false := by
        refine Bool.eq_false_iff.mpr fun writes => apart ?_
        exact watched.writers handle obj
          (System.writer_eq_some_iff.mpr ⟨found, writes⟩)
      rw [System.info_destroy found]
      exact ⟨RingBufInfo.resettled_destroyObject watched.sound reads,
        RingBufInfo.frames_destroyObject reads⟩

theorem Watched.sound_destroy (watched : w.Watched) (handle : Nat) :
    (w.system.destroy handle).info.Sound := by
  cases found : w.system.objects handle with
  | none =>
      rw [System.destroy_of_none found]
      exact watched.sound
  | some obj =>
      rw [System.info_destroy found]
      cases kind : obj.isProductor with
      | true =>
          rw [RingBufInfo.destroyObject_of_writer _ kind]
          exact watched.sound.cleanProductor
      | false =>
          exact (RingBufInfo.resettled_destroyObject watched.sound
            kind).sound_of_frames (RingBufInfo.frames_destroyObject kind)
              watched.sound

/-- A destructor, when no other reader that holds a frame has the slot. -/
theorem Watched.destroy (watched : w.Watched)
    (steady : (w.system.destroy handle).Steady)
    (keeps : w.KeepsHeld (.destroy handle)) :
    Watched ⟨w.system.destroy handle,
      if w.writer = some handle then none else w.writer,
      w.others handle⟩ := by
  have writers : ∀ other writing,
      (w.system.destroy handle).writer other = some writing →
        w.system.writer other = some writing ∧ w.writer = some other ∧
          w.writer ≠ some handle := by
    intro other writing isWriter
    rw [System.writer_eq_some_iff, System.objects_destroy] at isWriter
    obtain ⟨isObject, kind⟩ := isWriter
    split at isObject
    · cases isObject
    rename_i different
    have before := System.writer_eq_some_iff.mpr ⟨isObject, kind⟩
    have isOther := watched.writers other writing before
    refine ⟨before, isOther, ?_⟩
    rw [isOther]
    exact fun same => different (Option.some.inj same)
  constructor
  · exact steady
  · exact watched.sound_destroy handle
  · intro other writing isWriter
    obtain ⟨_, isOther, apart⟩ := writers other writing isWriter
    exact (if_neg apart).trans isOther
  · intro exist
    have apart : w.writer ≠ some handle := fun same => exist (if_pos same)
    obtain ⟨resettled, frames⟩ := watched.resettled_destroy apart
    refine resettled.sheltered frames (watched.sheltered ?_)
    exact fun absent => exist ((if_neg apart).trans absent)
  · intro other writing isWriter active
    obtain ⟨before, _, apart⟩ := writers other writing isWriter
    obtain ⟨resettled, frames⟩ := watched.resettled_destroy apart
    exact (watched.pending other writing before active).mono frames
      fun i => resettled.holdsFrame
  · intro holder member
    obtain ⟨before, different⟩ := List.mem_filter.mp member
    obtain ⟨slot, isSlot, protects⟩ := watched.held holder before
    obtain ⟨reader, isReader, rfl⟩ := Option.map_eq_some_iff.mp isSlot
    refine ⟨reader.m_userIdx, ?_, ?_⟩
    · exact Option.map_eq_some_iff.mpr ⟨reader, System.reader_destroy.mpr
        ⟨of_decide_eq_true different, isReader⟩, rfl⟩
    · change (w.system.destroy handle).info.Protects _ _
      cases found : w.system.objects handle with
      | none =>
          rw [System.destroy_of_none found]
          exact protects
      | some obj =>
          rw [System.info_destroy found]
          apply protects.destroyObject
          intro kind same
          have own := slot_eq_some
            (System.reader_eq_some_iff.mpr ⟨found, kind⟩)
          exact keeps _ own holder member (by rw [isSlot, same])

theorem Watched.step {call : Call} {v : Watch} (watched : w.Watched)
    (one : w.OneWriter call) (keeps : w.KeepsHeld call)
    (steps : w.next call = some v) : v.Watched := by
  obtain ⟨⟨t, answer⟩, isOk, rfl⟩ := Option.map_eq_some_iff.mp steps
  have returns := toOption_eq_some_iff.mp isOk
  have steady := watched.steady.step watched.sound.invariant returns
  cases call with
  | tick seconds =>
      obtain ⟨rfl, rfl⟩ := Prod.mk.inj (Except.ok.inj returns)
      exact watched.quiet steady rfl rfl fun _ member => member
  | fill handle bytes =>
      rw [System.step] at returns
      split at returns
      · obtain ⟨rfl, rfl⟩ := Prod.mk.inj (Except.ok.inj returns)
        exact watched.quiet steady rfl rfl fun _ member => member
      · obtain ⟨rfl, rfl⟩ := Prod.mk.inj (Except.ok.inj returns)
        exact watched.quiet steady rfl rfl fun _ member => member
  | attachReader handle name dumper =>
      rw [System.step] at returns
      rcases System.construct_ok returns with
        ⟨_, rfl⟩ | ⟨attaches, info, obj, constructs, rfl⟩
      · exact watched.quiet steady rfl rfl fun _ member => member
      · exact watched.attachReader steady attaches keeps constructs
  | attachWriter handle name liveStream =>
      rw [System.step] at returns
      rcases System.construct_ok returns with
        ⟨refused, rfl⟩ | ⟨attaches, info, obj, constructs, rfl⟩
      · rw [writerAfter, if_neg refused]
        exact watched.quiet steady rfl rfl fun _ member => member
      · rw [writerAfter, if_pos attaches]
        exact watched.attachWriter steady one keeps constructs
  | destroy handle =>
      obtain ⟨rfl, rfl⟩ := Prod.mk.inj (Except.ok.inj returns)
      exact watched.destroy steady keeps
  | requestWriteFrame handle size type mode =>
      rcases System.requestWriteFrame_ok returns with
        ⟨_, rfl⟩ | ⟨obj, info, obj', given, found, tries, rfl, _⟩
      · exact watched.quiet steady rfl rfl
          fun _ member => (List.mem_filter.mp member).1
      · exact (watched.requestWriteFrame steady found keeps.1 tries).1
  | commitWrite handle size frameTime =>
      rcases System.plainCall_ok returns with
        ⟨_, rfl⟩ | ⟨obj, info, obj', found, commits, rfl⟩
      · exact watched.quiet steady rfl rfl fun _ member => member
      · exact watched.commitWrite steady found commits
  | resetAllUser handle =>
      rcases System.plainCall_ok returns with
        ⟨_, rfl⟩ | ⟨obj, info, obj', found, resets, rfl⟩
      · exact watched.quiet steady rfl rfl fun _ member => member
      · exact watched.resetAllUser steady found keeps resets
  | requestReadFrame handle type =>
      rcases System.readCall_ok returns with
        ⟨_, rfl, rfl⟩ | ⟨obj, info, obj', given, found, requests, rfl, rfl⟩
      · exact watched.quiet steady rfl rfl fun _ member => member
      · exact watched.reads steady found
          (RingBufInfo.sameUser_requestReadFrame requests) keeps.1 keeps.2
          (RingBufInfo.reads_requestReadFrame watched.sound watched.offsets
            requests)
  | requestReadContinuousFrames handle frameCount =>
      rcases System.readCall_ok returns with
        ⟨_, rfl, rfl⟩ | ⟨obj, info, obj', given, found, requests, rfl, rfl⟩
      · exact watched.quiet steady rfl rfl fun _ member => member
      · exact watched.reads steady found
          (RingBufInfo.sameUser_requestReadContinuousFrames requests) keeps.1
          keeps.2 (RingBufInfo.reads_requestReadContinuousFrames watched.sound
            watched.offsets requests)
  | commitRead handle size =>
      rcases System.plainCall_ok returns with
        ⟨_, rfl⟩ | ⟨obj, info, obj', found, commits, rfl⟩
      · exact watched.quiet steady rfl rfl
          fun _ member => (List.mem_filter.mp member).1
      · exact watched.releases steady found
          (RingBufInfo.sameUser_commitRead commits) keeps
          (RingBufInfo.releases_commitRead watched.sound commits)
          fun _ member => member
  | discardAllData handle =>
      rcases System.plainCall_ok returns with
        ⟨_, rfl⟩ | ⟨obj, info, obj', found, discards, rfl⟩
      · exact watched.quiet steady rfl rfl
          fun _ member => (List.mem_filter.mp member).1
      · have same : obj.SameUser obj' := by
          rw [RingBufInfo.discardAllData_eq] at discards
          obtain ⟨_, rfl⟩ := Prod.mk.inj (Except.ok.inj discards)
          exact ⟨rfl, rfl⟩
        exact watched.releases steady found same keeps
          (RingBufInfo.releases_discardAllData watched.sound discards)
          fun _ member => member
  | indexMoveToSpecifiedTime handle type timeStamp =>
      rcases System.plainCall_ok returns with
        ⟨_, rfl⟩ | ⟨obj, info, obj', found, calls, rfl⟩
      · exact watched.quiet steady rfl rfl fun _ member => member
      · obtain ⟨middle, moves, rest⟩ := bind_eq_ok_iff.mp calls
        obtain ⟨rfl, rfl⟩ := Prod.mk.inj (pure_eq_ok_iff.mp rest)
        exact watched.moves steady found keeps.1 keeps.2
          (RingBufInfo.releases_indexMoveToSpecifiedTime watched.sound
            (keeps.2.2 _ (slot_eq_some found)) moves)
  | indexMoveToOldest handle =>
      rcases System.plainCall_ok returns with
        ⟨_, rfl⟩ | ⟨obj, info, obj', found, calls, rfl⟩
      · exact watched.quiet steady rfl rfl fun _ member => member
      · obtain ⟨middle, moves, rest⟩ := bind_eq_ok_iff.mp calls
        obtain ⟨rfl, rfl⟩ := Prod.mk.inj (pure_eq_ok_iff.mp rest)
        exact watched.moves steady found keeps.1 keeps.2
          (RingBufInfo.releases_indexMoveTo watched.sound
            (keeps.2.2 _ (slot_eq_some found))
            (RingBufInfo.findOldesValidIndex_lt
              watched.sound.indexed.productor) moves)

theorem Watched.grantsClear {call : Call} (watched : w.Watched)
    (keeps : w.KeepsHeld call) : w.GrantsClear call := by
  rintro t answer returns range isRange holder member young
  cases call with
  | requestWriteFrame handle size type mode =>
      have steady := watched.steady.step watched.sound.invariant returns
      rcases System.requestWriteFrame_ok returns with
        ⟨absent, _⟩ | ⟨obj, info, obj', given, found, tries, rfl, rfl⟩
      · rw [System.step, absent] at returns
        obtain ⟨_, rfl⟩ := Prod.mk.inj (Except.ok.inj returns)
        cases isRange
      obtain ⟨offset, isOffset, rfl⟩ := Option.map_eq_some_iff.mp isRange
      have granted : given = .granted offset := by
        cases given with
        | granted other => exact congrArg _ (Option.some.inj isOffset)
        | failed => cases isOffset
        | again => cases isOffset
      subst granted
      exact (watched.requestWriteFrame steady found keeps.1 tries).2 offset rfl
        (keeps.2 _ _ returns) holder member young
  | _ => cases isRange

end Steps

/-- In a ring without bytes nothing is handed out. -/
theorem grantsClear_of_empty {w : Watch} (empty : w.system.info.bufSize = 0)
    (call : Call) : w.GrantsClear call := by
  rintro t answer returns range isRange
  cases call with
  | requestWriteFrame handle size type mode =>
      rcases System.requestWriteFrame_ok returns with
        ⟨absent, _⟩ | ⟨obj, info, obj', given, _, tries, _⟩
      · rw [System.step, absent] at returns
        obtain ⟨_, rfl⟩ := Prod.mk.inj (Except.ok.inj returns)
        cases isRange
      · have valid := (RingBufInfo.requestWriteTry_cases tries).1
        omega
  | _ => cases isRange

/-- While the readers keep what they hold and the writer finds gaps, no frame
that is held is handed out. -/
theorem grantsClear_of_keepsHeld (bufSize now : Nat) (data : Nat → UInt8)
    (calls : List Call)
    (one : StepsMeet next OneWriter (fresh bufSize now data) calls)
    (keeps : StepsMeet next KeepsHeld (fresh bufSize now data) calls) :
    StepsMeet next GrantsClear (fresh bufSize now data) calls := by
  rcases Nat.eq_zero_or_pos bufSize with rfl | positive
  · have kept : ∀ (before : Watch) (call : Call) (after : Watch),
        before.system.FramesHold ∧ before.system.info.bufSize = 0 →
          before.KeepsHeld call → before.next call = some after →
            after.system.FramesHold ∧ after.system.info.bufSize = 0 := by
      rintro before call after ⟨holds, empty⟩ _ steps
      obtain ⟨⟨t, answer⟩, isOk, rfl⟩ := Option.map_eq_some_iff.mp steps
      have returns := toOption_eq_some_iff.mp isOk
      refine ⟨holds.step returns, ?_⟩
      exact (System.frameStep holds.proper returns).table.1.trans empty
    have states := statesMeet_of_stepsMeet kept
      ⟨System.framesHold_fresh 0 now data, rfl⟩ keeps
    exact states.steps (fun w call holds _ => grantsClear_of_empty holds.2 call)
      keeps
  · have kept : ∀ (before : Watch) (call : Call) (after : Watch),
        before.Watched → before.OneWriter call ∧ before.KeepsHeld call →
          before.next call = some after → after.Watched :=
      fun _ _ _ watched meets steps => watched.step meets.1 meets.2 steps
    have both := one.and keeps
    have states :=
      statesMeet_of_stepsMeet kept (watched_fresh positive now data) both
    exact states.steps (fun _ _ watched meets => watched.grantsClear meets.2)
      both

/-- A reader that holds the first frame is moved, and the writer jumps over the
hole. -/
def movedHolder : List Call :=
  [.attachWriter 0 [0x57] false, .attachReader 1 [0x61] false,
    .requestWriteFrame 0 700 .CRB_FRAME_P_SLICE .CRB_WRITE_MODE_NON_BLOCK,
    .commitWrite 0 none 0, .requestReadFrame 1 .CRB_FRAME_ANY,
    .requestWriteFrame 0 1000 .CRB_FRAME_P_SLICE .CRB_WRITE_MODE_NON_BLOCK,
    .commitWrite 0 none 0,
    .requestWriteFrame 0 1800 .CRB_FRAME_P_SLICE .CRB_WRITE_MODE_NON_BLOCK,
    .commitWrite 0 none 0,
    .requestWriteFrame 0 700 .CRB_FRAME_P_SLICE .CRB_WRITE_MODE_NON_BLOCK,
    .requestWriteFrame 0 700 .CRB_FRAME_P_SLICE .CRB_WRITE_MODE_NON_BLOCK]

theorem grantsClear_moved_holder :
    StepsMeet next GrantsClear (fresh 4096 1 fun _ => 0) movedHolder :=
  grantsClear_of_keepsHeld 4096 1 _ _ (by decide +kernel) (by decide +kernel)

/-- Reader 1 holds the second frame and reader 2 the last one, which ends at the
productor; two tries move both. -/
def twoMovedHolders : List Call :=
  [.attachWriter 0 [0x57] false, .attachReader 1 [0x61] false,
    .attachReader 2 [0x62] false,
    .requestWriteFrame 0 700 .CRB_FRAME_P_SLICE .CRB_WRITE_MODE_NON_BLOCK,
    .commitWrite 0 none 0,
    .requestReadFrame 1 .CRB_FRAME_ANY, .commitRead 1 none,
    .requestReadFrame 2 .CRB_FRAME_ANY, .commitRead 2 none,
    .requestWriteFrame 0 300 .CRB_FRAME_P_SLICE .CRB_WRITE_MODE_NON_BLOCK,
    .commitWrite 0 none 0,
    .requestReadFrame 1 .CRB_FRAME_ANY,
    .requestReadFrame 2 .CRB_FRAME_ANY, .commitRead 2 none,
    .requestWriteFrame 0 2048 .CRB_FRAME_P_SLICE .CRB_WRITE_MODE_NON_BLOCK,
    .commitWrite 0 none 0,
    .requestReadFrame 2 .CRB_FRAME_ANY, .commitRead 2 none,
    .requestWriteFrame 0 1024 .CRB_FRAME_P_SLICE .CRB_WRITE_MODE_NON_BLOCK,
    .commitWrite 0 none 0,
    .requestReadFrame 2 .CRB_FRAME_ANY,
    .requestWriteFrame 0 2200 .CRB_FRAME_P_SLICE .CRB_WRITE_MODE_NON_BLOCK,
    .requestWriteFrame 0 2200 .CRB_FRAME_P_SLICE .CRB_WRITE_MODE_NON_BLOCK]

/-- No gap takes the bytes, the jump ends behind the last hole at the productor,
and the frame of reader 1 is handed out. -/
theorem not_forall_grantsClear :
    ¬ ∀ (bufSize now : Nat) (data : Nat → UInt8) (calls : List Call),
      StepsMeet next OneWriter (fresh bufSize now data) calls →
        StepsMeet next GrantsClear (fresh bufSize now data) calls := by
  intro claimed
  have clear := claimed 4096 1 (fun _ => 0) (twoMovedHolders ++
    [.requestWriteFrame 0 2200 .CRB_FRAME_P_SLICE .CRB_WRITE_MODE_NON_BLOCK])
    (by decide +kernel)
  have ends : ((run next (fresh 4096 1 fun _ => 0) twoMovedHolders).map
      fun w => (w.system.info.bufSize,
        decide (⟨1, ⟨700, 300⟩⟩ ∈ w.held ∧ ¬ w.Overdue ⟨1, ⟨700, 300⟩⟩),
        (w.system.step (.requestWriteFrame 0 2200 .CRB_FRAME_P_SLICE
          .CRB_WRITE_MODE_NON_BLOCK)).toOption.bind fun result =>
            handedOut (.requestWriteFrame 0 2200 .CRB_FRAME_P_SLICE
              .CRB_WRITE_MODE_NON_BLOCK) result.2)) =
      some (4096, true, some (0, 2200)) := by
    decide +kernel
  obtain ⟨w, runs, shape⟩ := Option.map_eq_some_iff.mp ends
  simp only [Prod.mk.injEq, decide_eq_true_eq] at shape
  obtain ⟨size, ⟨isHeld, young⟩, handed⟩ := shape
  obtain ⟨⟨t, answer⟩, isOk, isRange⟩ := Option.bind_eq_some_iff.mp handed
  have apart := clear.last runs t answer (toOption_eq_some_iff.mp isOk) _
    isRange _ isHeld young
  rw [size] at apart
  exact apart 700 (by decide) 0 (by decide) rfl

end Watch

end CRingBuf

end MbedtlsKcp
