import MbedtlsKcp.CRingBufReader
import MbedtlsKcp.CRingBufWriter
import MbedtlsKcp.TransitionRuns

/-!
# A ring with its users

The state of a ring with the objects attached to it, the bytes of its data
buffer and the clock.  Every call holds the ring's lock, so a run is a sequence
of calls of any objects; `RequestWriteFrame` releases the lock between its
tries and contributes one step for each.  A call with a handle of the wrong
kind is not made and changes nothing.
-/

namespace MbedtlsKcp

namespace CRingBuf

open FallibleSteps TransitionRuns

/-- A ring.  `linked` says that its backend file still has its name, so that
constructors attach to this ring. -/
structure System where
  info : RingBufInfo
  data : Nat → UInt8
  now : Nat
  linked : Bool
  objects : Nat → Option Object

/-- The calls of the objects, the passing of time, and a writer that fills the
range it was granted. -/
inductive Call
  | tick (seconds : Nat)
  | attachReader (handle : Nat) (name : UserName) (dumper : Bool)
  | attachWriter (handle : Nat) (name : UserName) (liveStream : Bool)
  | destroy (handle : Nat)
  | requestWriteFrame (handle size : Nat) (type : FRAME_E)
      (mode : CRB_WRITE_MODE_E)
  | fill (handle : Nat) (bytes : Nat → UInt8)
  | commitWrite (handle : Nat) (size : Option Nat) (frameTime : Int)
  | resetAllUser (handle : Nat)
  | requestReadFrame (handle : Nat) (type : FRAME_E)
  | requestReadContinuousFrames (handle frameCount : Nat)
  | commitRead (handle : Nat) (size : Option Nat)
  | discardAllData (handle : Nat)
  | indexMoveToSpecifiedTime (handle : Nat) (type : FRAME_E)
      (timeStamp : Int)
  | indexMoveToOldest (handle : Nat)

/-- The name of the user that a constructor attaches. -/
def Call.userName : Call → Option UserName
  | .attachReader _ name _ => some name
  | .attachWriter _ name _ => some name
  | _ => none

/-- What a call gives back. -/
inductive Answer
  | done
  | write (answer : WriteTry)
  | read (answer : ReadAnswer)

/-- A ring before its first user. -/
def freshSystem (bufSize now : Nat) (data : Nat → UInt8) : System where
  info := freshInfo bufSize
  data := data
  now := now
  linked := true
  objects := fun _ => none

namespace System

variable (s : System)

/-- The object of a handle, if it is a reader. -/
def reader (handle : Nat) : Option Object :=
  (s.objects handle).filter fun obj => !obj.isProductor

/-- The object of a handle, if it is a writer. -/
def writer (handle : Nat) : Option Object :=
  (s.objects handle).filter fun obj => obj.isProductor

/-- The ring after a call of the object of `handle`. -/
def afterCall (handle : Nat) (info : RingBufInfo) (obj : Object) : System :=
  { s with
    info := info
    objects := Function.update s.objects handle (some obj) }

/-- A constructor call under a new handle. -/
def construct (handle : Nat)
    (constructor : RingBufInfo → Except Fault (RingBufInfo × Object)) :
    Except Fault (System × Answer) :=
  if s.linked ∧ s.objects handle = none then do
    let (info, obj) ← constructor s.info
    return (s.afterCall handle info obj, .done)
  else
    return (s, .done)

/-- The destructor call of a handle. -/
def destroy (handle : Nat) : System :=
  match s.objects handle with
  | some obj =>
      let (info, unlinks) := s.info.destroyObject obj
      { s with
        info := info
        linked := s.linked && !unlinks
        objects := Function.update s.objects handle none }
  | none => s

/-- The data buffer after the writer has stored `bytes` in its range. -/
def fillRange (obj : Object) (bytes : Nat → UInt8) : Nat → UInt8 :=
  fun position =>
    let distance := s.info.bufferLen (s.info.writeAddress obj) position
    if position < s.info.bufSize ∧ distance < obj.m_lastWriteBytes then
      bytes distance
    else s.data position

/-- A call of a reader that may give a frame. -/
def readCall (handle : Nat)
    (call : Object → Except Fault (RingBufInfo × Object × ReadAnswer)) :
    Except Fault (System × Answer) :=
  match s.reader handle with
  | some obj => do
      let (info, obj, answer) ← call obj
      return (s.afterCall handle info obj, .read answer)
  | none => return (s, .done)

/-- Any other call of an object. -/
def plainCall (handle : Nat) (object : Option Object)
    (call : Object → Except Fault (RingBufInfo × Object)) :
    Except Fault (System × Answer) :=
  match object with
  | some obj => do
      let (info, obj) ← call obj
      return (s.afterCall handle info obj, .done)
  | none => return (s, .done)

/-- One call. -/
def step (call : Call) : Except Fault (System × Answer) :=
  match call with
  | .tick seconds => .ok ({ s with now := s.now + seconds }, .done)
  | .attachReader handle name dumper =>
      s.construct handle fun info => info.constructReader name dumper
  | .attachWriter handle name liveStream =>
      s.construct handle fun info =>
        info.constructWriter s.now name liveStream
  | .destroy handle => .ok (s.destroy handle, .done)
  | .requestWriteFrame handle size type mode =>
      match s.writer handle with
      | some obj => do
          let (info, obj, answer) ←
            s.info.requestWriteTry s.now obj size type mode
          return (s.afterCall handle info obj, .write answer)
      | none => return (s, .done)
  | .fill handle bytes =>
      match s.writer handle with
      | some obj => .ok ({ s with data := s.fillRange obj bytes }, .done)
      | none => .ok (s, .done)
  | .commitWrite handle size frameTime =>
      s.plainCall handle (s.writer handle) fun obj =>
        s.info.commitWrite obj size frameTime
  | .resetAllUser handle =>
      s.plainCall handle (s.writer handle) fun obj =>
        s.info.resetAllUser s.now obj
  | .requestReadFrame handle type =>
      s.readCall handle fun obj => s.info.requestReadFrame obj type
  | .requestReadContinuousFrames handle frameCount =>
      s.readCall handle fun obj =>
        s.info.requestReadContinuousFrames obj frameCount
  | .commitRead handle size =>
      s.plainCall handle (s.reader handle) fun obj =>
        s.info.commitRead obj size
  | .discardAllData handle =>
      s.plainCall handle (s.reader handle) fun obj =>
        s.info.discardAllData obj
  | .indexMoveToSpecifiedTime handle type timeStamp =>
      s.plainCall handle (s.reader handle) fun obj => do
        let info ← s.info.indexMoveToSpecifiedTime obj type timeStamp
        return (info, obj)
  | .indexMoveToOldest handle =>
      s.plainCall handle (s.reader handle) fun obj => do
        let info ← s.info.indexMoveToOldest obj
        return (info, obj)

/-- The ring after one call, if it returns. -/
def next (call : Call) : Option System :=
  (s.step call).toOption.map Prod.fst

section Calls

variable {s : System}

@[simp]
theorem afterCall_info {handle : Nat} {info : RingBufInfo} {obj : Object} :
    (s.afterCall handle info obj).info = info :=
  rfl

@[simp]
theorem afterCall_self {handle : Nat} {info : RingBufInfo} {obj : Object} :
    (s.afterCall handle info obj).objects handle = some obj :=
  Function.update_self ..

theorem afterCall_of_ne {handle other : Nat} {info : RingBufInfo}
    {obj : Object} (different : other ≠ handle) :
    (s.afterCall handle info obj).objects other = s.objects other :=
  Function.update_of_ne different ..

theorem reader_eq_some_iff {handle : Nat} {obj : Object} :
    s.reader handle = some obj ↔
      s.objects handle = some obj ∧ obj.isProductor = false := by
  rw [reader, Option.filter_eq_some_iff, Bool.not_eq_true']

theorem writer_eq_some_iff {handle : Nat} {obj : Object} :
    s.writer handle = some obj ↔
      s.objects handle = some obj ∧ obj.isProductor = true := by
  rw [writer, Option.filter_eq_some_iff]

theorem reader_afterCall_of_ne {handle other : Nat} {info : RingBufInfo}
    {obj : Object} (different : other ≠ handle) :
    (s.afterCall handle info obj).reader other = s.reader other := by
  rw [reader, afterCall_of_ne different, reader]

theorem objects_destroy (handle other : Nat) :
    (s.destroy handle).objects other =
      if other = handle then none else s.objects other := by
  unfold destroy
  cases found : s.objects handle with
  | none =>
      dsimp only
      split
      · rename_i same
        rw [same, found]
      · rfl
  | some obj =>
      dsimp only
      rw [Function.update_apply]

theorem reader_destroy {handle other : Nat} {obj : Object} :
    (s.destroy handle).reader other = some obj ↔
      other ≠ handle ∧ s.reader other = some obj := by
  rw [reader_eq_some_iff, objects_destroy, reader_eq_some_iff]
  split
  · rename_i same
    simp [same]
  · rename_i different
    simp [different]

theorem info_destroy {handle : Nat} {obj : Object}
    (found : s.objects handle = some obj) :
    (s.destroy handle).info = (s.info.destroyObject obj).1 := by
  rw [destroy, found]

theorem destroy_of_none {handle : Nat} (found : s.objects handle = none) :
    s.destroy handle = s := by
  rw [destroy, found]

theorem construct_ok {t : System} {answer : Answer} {handle : Nat}
    {constructor : RingBufInfo → Except Fault (RingBufInfo × Object)}
    (returns : s.construct handle constructor = .ok (t, answer)) :
    (¬ (s.linked ∧ s.objects handle = none) ∧ t = s) ∨
      (s.linked ∧ s.objects handle = none) ∧
        ∃ info obj, constructor s.info = .ok (info, obj) ∧
          t = s.afterCall handle info obj := by
  unfold construct at returns
  by_cases attaches : s.linked ∧ s.objects handle = none
  · rw [if_pos attaches] at returns
    obtain ⟨⟨info, obj⟩, constructs, rest⟩ := bind_eq_ok_iff.mp returns
    obtain ⟨rfl, _⟩ := Prod.mk.inj (pure_eq_ok_iff.mp rest)
    exact .inr ⟨attaches, info, obj, constructs, rfl⟩
  · rw [if_neg attaches] at returns
    obtain ⟨rfl, _⟩ := Prod.mk.inj (pure_eq_ok_iff.mp returns)
    exact .inl ⟨attaches, rfl⟩

theorem plainCall_ok {t : System} {answer : Answer} {handle : Nat}
    {object : Option Object}
    {call : Object → Except Fault (RingBufInfo × Object)}
    (returns : s.plainCall handle object call = .ok (t, answer)) :
    (object = none ∧ t = s) ∨
      ∃ obj info obj', object = some obj ∧ call obj = .ok (info, obj') ∧
        t = s.afterCall handle info obj' := by
  unfold plainCall at returns
  cases object with
  | none =>
      obtain ⟨rfl, _⟩ := Prod.mk.inj (pure_eq_ok_iff.mp returns)
      exact .inl ⟨rfl, rfl⟩
  | some obj =>
      obtain ⟨⟨info, obj'⟩, calls, rest⟩ := bind_eq_ok_iff.mp returns
      obtain ⟨rfl, _⟩ := Prod.mk.inj (pure_eq_ok_iff.mp rest)
      exact .inr ⟨obj, info, obj', rfl, calls, rfl⟩

theorem readCall_ok {t : System} {answer : Answer} {handle : Nat}
    {call : Object → Except Fault (RingBufInfo × Object × ReadAnswer)}
    (returns : s.readCall handle call = .ok (t, answer)) :
    (s.reader handle = none ∧ t = s ∧ answer = .done) ∨
      ∃ obj info obj' given, s.reader handle = some obj ∧
        call obj = .ok (info, obj', given) ∧
        t = s.afterCall handle info obj' ∧ answer = .read given := by
  unfold readCall at returns
  cases found : s.reader handle with
  | none =>
      rw [found] at returns
      obtain ⟨rfl, rfl⟩ := Prod.mk.inj (pure_eq_ok_iff.mp returns)
      exact .inl ⟨rfl, rfl, rfl⟩
  | some obj =>
      rw [found] at returns
      obtain ⟨⟨info, obj', given⟩, calls, rest⟩ := bind_eq_ok_iff.mp returns
      obtain ⟨rfl, rfl⟩ := Prod.mk.inj (pure_eq_ok_iff.mp rest)
      exact .inr ⟨obj, info, obj', given, rfl, calls, rfl, rfl⟩

theorem construct_error {handle : Nat} {fault : Fault}
    {constructor : RingBufInfo → Except Fault (RingBufInfo × Object)}
    (fails : s.construct handle constructor = .error fault) :
    constructor s.info = .error fault := by
  unfold construct at fails
  split at fails
  · rcases bind_eq_error_iff.mp fails with here | ⟨_, _, later⟩
    · exact here
    · cases later
  · cases fails

theorem plainCall_error {handle : Nat} {object : Option Object}
    {call : Object → Except Fault (RingBufInfo × Object)} {fault : Fault}
    (fails : s.plainCall handle object call = .error fault) :
    ∃ obj, object = some obj ∧ call obj = .error fault := by
  unfold plainCall at fails
  cases object with
  | none => cases fails
  | some obj =>
      rcases bind_eq_error_iff.mp fails with here | ⟨_, _, later⟩
      · exact ⟨obj, rfl, here⟩
      · cases later

theorem readCall_error {handle : Nat}
    {call : Object → Except Fault (RingBufInfo × Object × ReadAnswer)}
    {fault : Fault} (fails : s.readCall handle call = .error fault) :
    ∃ obj, s.reader handle = some obj ∧ call obj = .error fault := by
  unfold readCall at fails
  cases found : s.reader handle with
  | none =>
      rw [found] at fails
      cases fails
  | some obj =>
      rw [found] at fails
      rcases bind_eq_error_iff.mp fails with here | ⟨_, _, later⟩
      · exact ⟨obj, rfl, here⟩
      · cases later

theorem requestWriteFrame_error {handle size : Nat} {type : FRAME_E}
    {mode : CRB_WRITE_MODE_E} {fault : Fault}
    (fails : s.step (.requestWriteFrame handle size type mode) =
      .error fault) :
    ∃ obj, s.writer handle = some obj ∧
      s.info.requestWriteTry s.now obj size type mode = .error fault := by
  rw [step] at fails
  cases found : s.writer handle with
  | none =>
      rw [found] at fails
      cases fails
  | some obj =>
      rw [found] at fails
      rcases bind_eq_error_iff.mp fails with here | ⟨_, _, later⟩
      · exact ⟨obj, rfl, here⟩
      · cases later

theorem requestWriteFrame_ok {t : System} {answer : Answer}
    {handle size : Nat} {type : FRAME_E} {mode : CRB_WRITE_MODE_E}
    (returns : s.step (.requestWriteFrame handle size type mode) =
      .ok (t, answer)) :
    (s.writer handle = none ∧ t = s) ∨
      ∃ obj info obj' given, s.writer handle = some obj ∧
        s.info.requestWriteTry s.now obj size type mode =
          .ok (info, obj', given) ∧
        t = s.afterCall handle info obj' ∧ answer = .write given := by
  rw [step] at returns
  cases found : s.writer handle with
  | none =>
      rw [found] at returns
      obtain ⟨rfl, _⟩ := Prod.mk.inj (pure_eq_ok_iff.mp returns)
      exact .inl ⟨rfl, rfl⟩
  | some obj =>
      rw [found] at returns
      obtain ⟨⟨info, obj', given⟩, tries, rest⟩ := bind_eq_ok_iff.mp returns
      obtain ⟨rfl, rfl⟩ := Prod.mk.inj (pure_eq_ok_iff.mp rest)
      exact .inr ⟨obj, info, obj', given, rfl, tries, rfl, rfl⟩

theorem next_eq_some_iff {t : System} {call : Call} :
    s.next call = some t ↔ ∃ answer, s.step call = .ok (t, answer) := by
  unfold next
  cases s.step call with
  | error fault => simp [Except.toOption]
  | ok result =>
      constructor
      · intro same
        obtain rfl := Option.some.inj same
        exact ⟨result.2, rfl⟩
      · rintro ⟨answer, same⟩
        obtain rfl := Except.ok.inj same
        rfl

/-- Only a writer that fills its range changes the bytes of the ring. -/
theorem data_step {t : System} {call : Call} {answer : Answer}
    (fills : ∀ handle bytes, call ≠ .fill handle bytes)
    (returns : s.step call = .ok (t, answer)) : t.data = s.data := by
  have plain : ∀ {handle : Nat} {object : Option Object}
      {calls : Object → Except Fault (RingBufInfo × Object)},
      s.plainCall handle object calls = .ok (t, answer) →
        t.data = s.data := by
    intro handle object calls returns
    rcases plainCall_ok returns with ⟨_, rfl⟩ | ⟨_, _, _, _, _, rfl⟩
    · rfl
    · rfl
  have reads : ∀ {handle : Nat}
      {calls : Object → Except Fault (RingBufInfo × Object × ReadAnswer)},
      s.readCall handle calls = .ok (t, answer) → t.data = s.data := by
    intro handle calls returns
    rcases readCall_ok returns with ⟨_, rfl, _⟩ | ⟨_, _, _, _, _, _, rfl, _⟩
    · rfl
    · rfl
  have constructs : ∀ {handle : Nat}
      {constructor : RingBufInfo → Except Fault (RingBufInfo × Object)},
      s.construct handle constructor = .ok (t, answer) →
        t.data = s.data := by
    intro handle constructor returns
    rcases construct_ok returns with ⟨_, rfl⟩ | ⟨_, _, _, _, rfl⟩
    · rfl
    · rfl
  cases call with
  | tick seconds =>
      cases returns
      rfl
  | attachReader handle name dumper =>
      rw [step] at returns
      exact constructs returns
  | attachWriter handle name liveStream =>
      rw [step] at returns
      exact constructs returns
  | destroy handle =>
      cases returns
      unfold destroy
      split
      · rfl
      · rfl
  | requestWriteFrame handle size type mode =>
      rcases requestWriteFrame_ok returns with
        ⟨_, rfl⟩ | ⟨_, _, _, _, _, _, rfl, _⟩
      · rfl
      · rfl
  | fill handle bytes => exact absurd rfl (fills handle bytes)
  | commitWrite handle size frameTime => exact plain returns
  | resetAllUser handle => exact plain returns
  | requestReadFrame handle type => exact reads returns
  | requestReadContinuousFrames handle frameCount => exact reads returns
  | commitRead handle size => exact plain returns
  | discardAllData handle => exact plain returns
  | indexMoveToSpecifiedTime handle type timeStamp => exact plain returns
  | indexMoveToOldest handle => exact plain returns

end Calls

end System

/-- The calls of constructors and destructors. -/
def Call.changesUsers : Call → Prop
  | .attachReader .. => True
  | .attachWriter .. => True
  | .destroy .. => True
  | _ => False

namespace System

/-- Two rings with the same users, seen from the header and from the
objects. -/
structure KeepsUsers (s t : System) : Prop where
  info : s.info.KeepsUsers t.info
  linked : t.linked = s.linked
  others : ∀ handle, s.objects handle = none ↔ t.objects handle = none
  objects : ∀ handle obj', t.objects handle = some obj' →
    ∃ obj, s.objects handle = some obj ∧ obj.SameUser obj'

theorem KeepsUsers.refl (s : System) : KeepsUsers s s where
  info := .refl s.info
  linked := rfl
  others _ := Iff.rfl
  objects _ obj' found := ⟨obj', found, rfl, rfl⟩

theorem keepsUsers_afterCall {s : System} {handle : Nat} {obj obj' : Object}
    {info : RingBufInfo} (found : s.objects handle = some obj)
    (keeps : s.info.KeepsUsers info) (same : obj.SameUser obj') :
    KeepsUsers s (s.afterCall handle info obj') where
  info := keeps
  linked := rfl
  others other := by
    by_cases here : other = handle
    · subst other
      simp [found]
    · rw [afterCall_of_ne here]
  objects other obj'' found' := by
    by_cases here : other = handle
    · subst other
      rw [afterCall_self] at found'
      obtain rfl := Option.some.inj found'
      exact ⟨obj, found, same⟩
    · rw [afterCall_of_ne here] at found'
      exact ⟨obj'', found', rfl, rfl⟩

theorem keepsUsers_plainCall {s t : System} {answer : Answer} {handle : Nat}
    {object : Option Object}
    {call : Object → Except Fault (RingBufInfo × Object)}
    (returns : s.plainCall handle object call = .ok (t, answer))
    (found : ∀ obj, object = some obj → s.objects handle = some obj)
    (keeps : ∀ obj info obj', call obj = .ok (info, obj') →
      s.info.KeepsUsers info ∧ obj.SameUser obj') : KeepsUsers s t := by
  rcases plainCall_ok returns with ⟨_, rfl⟩ | ⟨obj, info, obj', isSome, calls, rfl⟩
  · exact KeepsUsers.refl _
  · obtain ⟨keepsInfo, same⟩ := keeps obj info obj' calls
    exact keepsUsers_afterCall (found obj isSome) keepsInfo same

theorem keepsUsers_readCall {s t : System} {answer : Answer} {handle : Nat}
    {call : Object → Except Fault (RingBufInfo × Object × ReadAnswer)}
    (returns : s.readCall handle call = .ok (t, answer))
    (keeps : ∀ obj info obj' given, call obj = .ok (info, obj', given) →
      s.info.KeepsUsers info ∧ obj.SameUser obj') : KeepsUsers s t := by
  rcases readCall_ok returns with
    ⟨_, rfl, _⟩ | ⟨obj, info, obj', given, found, calls, rfl, _⟩
  · exact KeepsUsers.refl _
  · obtain ⟨keepsInfo, same⟩ := keeps obj info obj' given calls
    exact keepsUsers_afterCall (reader_eq_some_iff.mp found).1 keepsInfo same

/-- Only constructors and destructors change the users of a ring. -/
theorem keepsUsers_step {s t : System} {answer : Answer} {call : Call}
    (steps : s.step call = .ok (t, answer)) (plain : ¬ call.changesUsers) :
    KeepsUsers s t := by
  have readerFound : ∀ handle obj, s.reader handle = some obj →
      s.objects handle = some obj :=
    fun _ _ found => (reader_eq_some_iff.mp found).1
  have writerFound : ∀ handle obj, s.writer handle = some obj →
      s.objects handle = some obj :=
    fun _ _ found => (writer_eq_some_iff.mp found).1
  cases call with
  | attachReader | attachWriter | destroy => exact absurd trivial plain
  | tick seconds =>
      obtain ⟨rfl, _⟩ := Prod.mk.inj (Except.ok.inj steps)
      exact ⟨.refl _, rfl, fun _ => Iff.rfl,
        fun _ obj' found => ⟨obj', found, rfl, rfl⟩⟩
  | fill handle bytes =>
      rw [step] at steps
      split at steps
      · obtain ⟨rfl, _⟩ := Prod.mk.inj (Except.ok.inj steps)
        exact ⟨.refl _, rfl, fun _ => Iff.rfl,
          fun _ obj' found => ⟨obj', found, rfl, rfl⟩⟩
      · obtain ⟨rfl, _⟩ := Prod.mk.inj (Except.ok.inj steps)
        exact KeepsUsers.refl _
  | requestWriteFrame handle size type mode =>
      rcases requestWriteFrame_ok steps with
        ⟨_, rfl⟩ | ⟨obj, info, obj', given, found, tries, rfl, _⟩
      · exact KeepsUsers.refl _
      · apply keepsUsers_afterCall (writerFound _ _ found)
          (RingBufInfo.keepsUsers_requestWriteTry tries)
        exact RingBufInfo.sameUser_requestWriteTry tries
  | commitWrite handle size frameTime =>
      exact keepsUsers_plainCall steps (writerFound handle)
        fun obj info obj' calls =>
          ⟨RingBufInfo.keepsUsers_commitWrite calls,
            RingBufInfo.sameUser_commitWrite calls⟩
  | resetAllUser handle =>
      refine keepsUsers_plainCall steps (writerFound handle) ?_
      intro obj info obj' calls
      obtain ⟨middle, resets, rest⟩ := bind_eq_ok_iff.mp calls
      obtain ⟨rfl, rfl⟩ := Prod.mk.inj (pure_eq_ok_iff.mp rest)
      exact ⟨RingBufInfo.keepsUsers_resetAllUserNoLock resets, rfl, rfl⟩
  | requestReadFrame handle type =>
      exact keepsUsers_readCall steps fun obj info obj' given calls =>
        ⟨RingBufInfo.keepsUsers_requestReadFrame calls,
          RingBufInfo.sameUser_requestReadFrame calls⟩
  | requestReadContinuousFrames handle frameCount =>
      exact keepsUsers_readCall steps fun obj info obj' given calls =>
        ⟨RingBufInfo.keepsUsers_requestReadContinuousFrames calls,
          RingBufInfo.sameUser_requestReadContinuousFrames calls⟩
  | commitRead handle size =>
      exact keepsUsers_plainCall steps (readerFound handle)
        fun obj info obj' calls =>
          ⟨RingBufInfo.keepsUsers_commitRead calls,
            RingBufInfo.sameUser_commitRead calls⟩
  | discardAllData handle =>
      refine keepsUsers_plainCall steps (readerFound handle) ?_
      intro obj info obj' calls
      refine ⟨RingBufInfo.keepsUsers_discardAllData calls, ?_⟩
      rw [RingBufInfo.discardAllData_eq] at calls
      obtain ⟨_, rfl⟩ := Prod.mk.inj (Except.ok.inj calls)
      exact ⟨rfl, rfl⟩
  | indexMoveToSpecifiedTime handle type timeStamp =>
      refine keepsUsers_plainCall steps (readerFound handle) ?_
      intro obj info obj' calls
      obtain ⟨middle, moves, rest⟩ := bind_eq_ok_iff.mp calls
      obtain ⟨rfl, rfl⟩ := Prod.mk.inj (pure_eq_ok_iff.mp rest)
      refine ⟨?_, rfl, rfl⟩
      rcases RingBufInfo.indexMoveToSpecifiedTime_cases moves with
        rfl | ⟨slot, moves⟩
      · exact .refl _
      · exact RingBufInfo.keepsUsers_indexMoveTo moves
  | indexMoveToOldest handle =>
      refine keepsUsers_plainCall steps (readerFound handle) ?_
      intro obj info obj' calls
      obtain ⟨middle, moves, rest⟩ := bind_eq_ok_iff.mp calls
      obtain ⟨rfl, rfl⟩ := Prod.mk.inj (pure_eq_ok_iff.mp rest)
      exact ⟨RingBufInfo.keepsUsers_indexMoveTo moves, rfl, rfl⟩

end System

end CRingBuf

end MbedtlsKcp
