import MbedtlsKcp.CRingBufFrames

/-!
# Positioning a reader

A reader is positioned on the newest I frame when it is installed, and on the
frame of a requested time when it asks for it.  Both searches walk backwards
and stop in front of the oldest valid slot; their results are compared here
with the frames they are meant to find.
-/

namespace MbedtlsKcp

namespace CRingBuf

open CyclicWindows FallibleSteps TransitionRuns

/-- A frame of the type that carries a time stamp not after `timeStamp`. -/
def datedUntil (type : FRAME_E) (timeStamp : Int) (frame : FrameIndex) :
    Bool :=
  ofType type frame ∧ frame.timeStamp ≠ 0 ∧ frame.timeStamp ≤ timeStamp

namespace RingBufInfo

variable (info : RingBufInfo)

/-- `ringbuffer_reader_latest`.  It only compares the slot found with 0. -/
def ringbufferReaderLatest (ringbufctx : Option Object) : RingBufInfo × Int :=
  match ringbufctx with
  | none => (info, -1)
  | some _ =>
      match info.indexFindLatestIFrame with
      | some 0 => (info, 0)
      | _ => (info, -1)

/-- `IndexMoveToSpecifiedTime` with the value that it returns and the time
stamp that it stores through its last argument. -/
def indexMoveToSpecifiedTimeReturn (obj : Object) (type : FRAME_E)
    (timeStamp gettimeStamp : Int) :
    Except Fault (RingBufInfo × Int × Int) :=
  match info.indexFindSpecifiedTimeFrameInstance info.productorIndex
      info.findOldesValidIndex type timeStamp with
  | some slot => do
      let info ← info.indexMoveTo obj slot
      return (info, 0, (info.frameIdx slot).timeStamp)
  | none => .ok (info, -1, gettimeStamp)

theorem indexMoveToSpecifiedTime_eq_return (obj : Object) (type : FRAME_E)
    (timeStamp gettimeStamp : Int) :
    info.indexMoveToSpecifiedTime obj type timeStamp =
      (info.indexMoveToSpecifiedTimeReturn obj type timeStamp
        gettimeStamp).map Prod.fst := by
  unfold indexMoveToSpecifiedTime indexMoveToSpecifiedTimeReturn
  cases info.indexFindSpecifiedTimeFrameInstance info.productorIndex
      info.findOldesValidIndex type timeStamp with
  | none => rfl
  | some slot =>
      dsimp only
      rw [indexMoveTo_eq]
      rfl

/-- The slots of the valid frames, from the oldest one to the newest. -/
def validSlots : List Nat :=
  window MAX_FRAME_NUM info.findOldesValidIndex info.productorIndex

/-- The newest I frame among the valid frames. -/
def newestIFrame : Option Nat :=
  info.validSlots.reverse.find? fun slot =>
    ofType .CRB_FRAME_I_SLICE (info.frameIdx slot)

/-- The newest valid frame of the type up to the time, or else the oldest one
of the type. -/
def frameOfTime (type : FRAME_E) (timeStamp : Int) : Option Nat :=
  (info.validSlots.reverse.find? fun slot =>
    datedUntil type timeStamp (info.frameIdx slot)).or
      (info.validSlots.find? fun slot => ofType type (info.frameIdx slot))

/-- A consumer stands at the start of the frame of `slot`. -/
def PositionedOn (which slot : Nat) : Prop :=
  (info.consumers which).index = slot ∧
    (info.consumers which).offset = (info.frameIdx slot).offset

section Searches

variable {info} {later : List Nat}

/-- There is no valid frame, or an oldest one and later ones. -/
theorem validSlots_cases (inside : info.productorIndex < MAX_FRAME_NUM) :
    info.validSlots = [] ∧
        (info.dataWriten = false ∨
          info.findOldesValidIndex = info.productorIndex) ∨
      info.dataWriten = true ∧
        info.findOldesValidIndex ≠ info.productorIndex ∧
        ∃ later, info.validSlots = info.findOldesValidIndex :: later ∧
          info.findOldesValidIndex ∉ later := by
  have bounded := findOldesValidIndex_lt inside
  by_cases same : info.findOldesValidIndex = info.productorIndex
  · refine .inl ⟨?_, .inr same⟩
    rw [validSlots, same, window_self]
  · refine .inr ⟨?_, same, _, window_cons bounded inside same,
      first_not_mem_window_next bounded inside same⟩
    cases written : info.dataWriten with
    | true => rfl
    | false =>
        apply absurd _ same
        rw [findOldesValidIndex, written]
        rfl

theorem slotsBackTo_oldest
    (valid : info.validSlots = info.findOldesValidIndex :: later) :
    slotsBackTo info.productorIndex info.findOldesValidIndex =
      later.reverse :=
  congrArg (fun slots => slots.tail.reverse) valid

/-- The search looks at all valid frames but the oldest one. -/
theorem indexFindLatestIFrame_eq (written : info.dataWriten = true)
    (valid : info.validSlots = info.findOldesValidIndex :: later) :
    info.indexFindLatestIFrame = later.reverse.find? fun slot =>
      ofType .CRB_FRAME_I_SLICE (info.frameIdx slot) := by
  rw [indexFindLatestIFrame, indexFindLatestFrame, if_pos written,
    slotsBackTo_oldest valid]

/-- The newest I frame is found unless it is the oldest valid frame. -/
theorem indexFindLatestIFrame_eq_newest_iff
    (inside : info.productorIndex < MAX_FRAME_NUM) :
    info.indexFindLatestIFrame = info.newestIFrame ↔
      info.newestIFrame ≠ some info.findOldesValidIndex := by
  rcases validSlots_cases inside with
    ⟨empty, _⟩ | ⟨written, _, later, valid, notLater⟩
  · have nothing : info.newestIFrame = none := by
      rw [newestIFrame, empty]
      rfl
    have missed : info.indexFindLatestIFrame = none := by
      have noSlots : slotsBackTo info.productorIndex
          info.findOldesValidIndex = [] :=
        congrArg (fun slots => slots.tail.reverse) empty
      rw [indexFindLatestIFrame, indexFindLatestFrame, noSlots]
      exact ite_self _
    simp [nothing, missed]
  · rw [newestIFrame, indexFindLatestIFrame_eq written valid, valid,
      List.reverse_cons, List.find?_append]
    cases found : later.reverse.find? fun slot =>
        ofType .CRB_FRAME_I_SLICE (info.frameIdx slot) with
    | some slot =>
        have isLater := List.mem_reverse.mp (List.mem_of_find?_eq_some found)
        have apart : slot ≠ info.findOldesValidIndex := by
          rintro rfl
          exact notLater isLater
        simp [apart]
    | none =>
        cases kind : ofType .CRB_FRAME_I_SLICE
            (info.frameIdx info.findOldesValidIndex) with
        | true => simp [kind]
        | false => simp [kind]

/-- The loop of the search by time, over slots from the newest on. -/
theorem specifiedTimeSlot_eq (type : FRAME_E) (timeStamp : Int)
    (slots : List Nat) (closest_idx : Nat) :
    info.specifiedTimeSlot type timeStamp slots closest_idx =
      ((slots.find? fun slot =>
        datedUntil type timeStamp (info.frameIdx slot)).or
          (slots.reverse.find? fun slot =>
            ofType type (info.frameIdx slot))).getD closest_idx := by
  induction slots generalizing closest_idx with
  | nil => rfl
  | cons slot slots ih =>
      rw [specifiedTimeSlot, List.find?_cons, List.reverse_cons,
        List.find?_append]
      cases kind : ofType type (info.frameIdx slot) with
      | false =>
          have undated : datedUntil type timeStamp (info.frameIdx slot) =
              false := by
            simp [datedUntil, kind]
          simp [undated, kind, ih]
      | true =>
          by_cases dated : (info.frameIdx slot).timeStamp ≠ 0 ∧
              (info.frameIdx slot).timeStamp ≤ timeStamp
          · have meets : datedUntil type timeStamp (info.frameIdx slot) =
                true := by
              simp [datedUntil, kind, dated]
            simp [meets, dated]
          · have undated : datedUntil type timeStamp (info.frameIdx slot) =
                false := by
              simp only [datedUntil, kind, true_and, decide_eq_false_iff_not]
              exact dated
            simp only [undated, if_neg dated, if_true, ih]
            cases slots.find? fun slot =>
                datedUntil type timeStamp (info.frameIdx slot) with
            | some other => rfl
            | none =>
                cases slots.reverse.find? fun slot =>
                    ofType type (info.frameIdx slot) with
                | some other => rfl
                | none => simp [kind]

/-- A new reader stands where `installPosition` says. -/
theorem constructReader_position {after : RingBufInfo} {name : UserName}
    {dumper : Bool} {obj : Object}
    (constructs : info.constructReader name dumper = .ok (after, obj)) :
    after.frameIdx = info.frameIdx ∧
      after.consumers obj.m_userIdx =
        installedUser name (info.installPosition dumper) := by
  obtain ⟨_, slot, rfl, installs⟩ := constructReader_ok constructs
  obtain ⟨_, rfl, _⟩ := installReader_ok installs
  have same : SameFrames info
      ({ info with version := 1 } : RingBufInfo).cleanWhenCrowded := by
    unfold cleanWhenCrowded
    split
    · exact ⟨rfl, rfl, rfl, rfl⟩
    · exact ⟨rfl, rfl, rfl, rfl⟩
  refine ⟨same.frameIdx, ?_⟩
  rw [← same.installPosition dumper]
  exact Function.update_self ..

theorem positionedOn_constructReader_iff {after : RingBufInfo}
    {name : UserName} {dumper : Bool} {obj : Object} {slot : Nat}
    (constructs : info.constructReader name dumper = .ok (after, obj)) :
    after.PositionedOn obj.m_userIdx slot ↔
      (info.installPosition dumper).1 = slot ∧
        (info.installPosition dumper).2.1 = (info.frameIdx slot).offset := by
  obtain ⟨frameIdx, user⟩ := constructReader_position constructs
  rw [PositionedOn, user, frameIdx]
  rfl

theorem written_of_newestIFrame {slot : Nat}
    (inside : info.productorIndex < MAX_FRAME_NUM)
    (newest : info.newestIFrame = some slot) : info.dataWriten = true := by
  rcases validSlots_cases inside with ⟨empty, _⟩ | ⟨written, _⟩
  · rw [newestIFrame, empty] at newest
    cases newest
  · exact written

theorem ringbufferReaderLatest_eq (obj : Object) :
    info.ringbufferReaderLatest (some obj) =
      (info, if info.indexFindLatestIFrame = some 0 then 0 else -1) := by
  unfold ringbufferReaderLatest
  cases info.indexFindLatestIFrame with
  | none => rfl
  | some slot =>
      cases slot with
      | zero => rfl
      | succ slot => rfl

/-- The newest I frame that is found is the position of a new reader, if the
productor is there. -/
theorem installPosition_of_found {slot : Nat}
    (written : info.dataWriten = true)
    (found : info.indexFindLatestIFrame = some slot) :
    info.installPosition false =
      if info.productorExist then (slot, (info.frameIdx slot).offset, false)
      else (0, 0, true) := by
  rw [installPosition, found]
  by_cases exist : info.productorExist
  · rw [if_pos ⟨exist, written⟩, if_pos exist]
    rfl
  · rw [if_neg fun both => exist both.1, if_neg exist]

/-- The search by time takes the oldest valid frame for slot 0 or leaves it
out. -/
theorem indexFindSpecifiedTimeFrameInstance_eq (type : FRAME_E)
    (timeStamp : Int) (written : info.dataWriten = true)
    (someFrames : info.findOldesValidIndex ≠ info.productorIndex)
    (valid : info.validSlots = info.findOldesValidIndex :: later) :
    info.indexFindSpecifiedTimeFrameInstance info.productorIndex
        info.findOldesValidIndex type timeStamp =
      some (if info.findOldesValidIndex = 0 then
          (info.frameOfTime type timeStamp).getD 0
        else
          ((later.reverse.find? fun slot =>
            datedUntil type timeStamp (info.frameIdx slot)).or
              (later.find? fun slot =>
                ofType type (info.frameIdx slot))).getD 0) := by
  have written' : ¬ info.dataWriten = false := by simp [written]
  rw [indexFindSpecifiedTimeFrameInstance,
    if_neg (not_or.mpr ⟨written', someFrames⟩), slotsBackTo_oldest valid]
  congr 1
  by_cases first : info.findOldesValidIndex = 0
  · rw [if_pos first, if_pos first, specifiedTimeSlot_eq, frameOfTime, valid,
      first, List.reverse_cons, List.reverse_append, List.reverse_reverse]
    rfl
  · rw [if_neg first, if_neg first, List.append_nil, specifiedTimeSlot_eq,
      List.reverse_reverse]

/-- There is a frame of the time exactly where there is one of the type. -/
theorem frameOfTime_ne_none_iff (type : FRAME_E) (timeStamp : Int) :
    info.frameOfTime type timeStamp ≠ none ↔
      ∃ slot ∈ info.validSlots, ofType type (info.frameIdx slot) := by
  rw [frameOfTime, Ne, Option.or_eq_none_iff, List.find?_eq_none,
    List.find?_eq_none]
  constructor
  · intro notBoth
    apply Classical.byContradiction
    intro nowhere
    apply notBoth
    constructor
    · intro slot member dated
      refine nowhere ⟨slot, List.mem_reverse.mp member, ?_⟩
      exact (of_decide_eq_true dated).1
    · intro slot member kind
      exact nowhere ⟨slot, member, kind⟩
  · rintro ⟨slot, member, kind⟩ ⟨_, none⟩
    exact none slot member kind

/-- The newest frame up to the time, the oldest valid frame being the last
resort. -/
theorem frameOfTime_eq {type : FRAME_E} {timeStamp : Int}
    (valid : info.validSlots = info.findOldesValidIndex :: later) :
    info.frameOfTime type timeStamp =
      if ofType type (info.frameIdx info.findOldesValidIndex) then
        (later.reverse.find? fun slot =>
          datedUntil type timeStamp (info.frameIdx slot)).or
            (some info.findOldesValidIndex)
      else
        (later.reverse.find? fun slot =>
          datedUntil type timeStamp (info.frameIdx slot)).or
            (later.find? fun slot => ofType type (info.frameIdx slot)) := by
  rw [frameOfTime, valid, List.reverse_cons, List.find?_append]
  cases kind : ofType type (info.frameIdx info.findOldesValidIndex) with
  | false =>
      have undated : datedUntil type timeStamp
          (info.frameIdx info.findOldesValidIndex) = false := by
        simp [datedUntil, kind]
      simp [undated, kind]
  | true =>
      cases dated : datedUntil type timeStamp
          (info.frameIdx info.findOldesValidIndex) with
      | false => simp [dated, kind]
      | true => simp [dated]

/-- An oldest valid frame of the type outside slot 0, which the search leaves
out, is the frame of the time when no other one is dated. -/
theorem frameOfTime_eq_searched_iff {type : FRAME_E} {timeStamp : Int}
    (valid : info.validSlots = info.findOldesValidIndex :: later)
    (notLater : info.findOldesValidIndex ∉ later)
    (first : info.findOldesValidIndex ≠ 0)
    (kind : ofType type (info.frameIdx info.findOldesValidIndex)) :
    info.frameOfTime type timeStamp =
        some (((later.reverse.find? fun slot =>
          datedUntil type timeStamp (info.frameIdx slot)).or
            (later.find? fun slot =>
              ofType type (info.frameIdx slot))).getD 0) ↔
      ∃ slot ∈ info.validSlots, slot ≠ info.findOldesValidIndex ∧
        datedUntil type timeStamp (info.frameIdx slot) := by
  rw [frameOfTime_eq valid, if_pos kind]
  cases dated : later.reverse.find? fun slot =>
      datedUntil type timeStamp (info.frameIdx slot) with
  | some slot =>
      have isLater := List.mem_reverse.mp (List.mem_of_find?_eq_some dated)
      refine iff_of_true rfl ⟨slot, ?_, ?_, ?_⟩
      · rw [valid]
        exact List.mem_cons_of_mem _ isLater
      · rintro rfl
        exact notLater isLater
      · have isDated := List.find?_some dated
        exact isDated
  | none =>
      -- the search left the oldest frame out and took another one
      refine iff_of_false ?_ ?_
      · intro same
        have oldest : info.findOldesValidIndex = (later.find? fun slot =>
            ofType type (info.frameIdx slot)).getD 0 :=
          Option.some.inj same
        cases other : later.find? fun slot =>
            ofType type (info.frameIdx slot) with
        | none =>
            rw [other] at oldest
            exact first oldest
        | some slot =>
            rw [other] at oldest
            exact notLater (oldest ▸ List.mem_of_find?_eq_some other)
      · rintro ⟨slot, isValid, different, isDated⟩
        rw [valid] at isValid
        have isLater := (List.mem_cons.mp isValid).resolve_left different
        exact List.find?_eq_none.mp dated slot (List.mem_reverse.mpr isLater)
          isDated

end Searches

end RingBufInfo

namespace System

variable (s : System)

/-- Readers are positioned on the newest I frame, and only where there is
one. -/
structure LatestPositioning : Prop where
  search : s.info.indexFindLatestIFrame = s.info.newestIFrame
  install : s.linked = true → ∀ slot, s.info.newestIFrame = some slot →
    ∀ name after obj, s.info.constructReader name false = .ok (after, obj) →
      after.PositionedOn obj.m_userIdx slot
  latest : ∀ handle obj, s.reader handle = some obj →
    ((s.info.ringbufferReaderLatest (some obj)).2 = 0 ↔
        s.info.newestIFrame ≠ none) ∧
      ∀ slot, s.info.newestIFrame = some slot →
        (s.info.ringbufferReaderLatest (some obj)).1.PositionedOn
          obj.m_userIdx slot

/-- When that is so: there is no I frame, or the newest one is found, the new
reader is led to it, and the readers already stand on it in slot 0. -/
def LatestReached : Prop :=
  ∀ slot, s.info.newestIFrame = some slot →
    slot ≠ s.info.findOldesValidIndex ∧
      (s.linked = true → s.info.productorExist ∨
        slot = 0 ∧ (s.info.frameIdx 0).offset = 0) ∧
      ∀ handle obj, s.reader handle = some obj →
        slot = 0 ∧ s.info.PositionedOn obj.m_userIdx 0

variable {s}

/-- Where the search finds the newest I frame, a new reader is led to it. -/
theorem install_iff {slot : Nat} (written : s.info.dataWriten = true)
    (found : s.info.indexFindLatestIFrame = some slot) :
    (∀ name after obj, s.info.constructReader name false = .ok (after, obj) →
        after.PositionedOn obj.m_userIdx slot) ↔
      s.info.productorExist ∨ slot = 0 ∧ (s.info.frameIdx 0).offset = 0 := by
  have position := RingBufInfo.installPosition_of_found written found
  constructor
  · intro installs
    obtain ⟨after, obj, constructs⟩ := s.info.constructReader_returns false
      (by decide : RingBufInfo.validName [0x61])
    have stands := (RingBufInfo.positionedOn_constructReader_iff
      constructs).mp (installs _ _ _ constructs)
    rw [position] at stands
    by_cases exist : s.info.productorExist
    · exact .inl exist
    · rw [if_neg exist] at stands
      obtain ⟨rfl, offset⟩ := stands
      exact .inr ⟨rfl, offset.symm⟩
  · intro reaches name after obj constructs
    rw [RingBufInfo.positionedOn_constructReader_iff constructs, position]
    by_cases exist : s.info.productorExist
    · rw [if_pos exist]
      exact ⟨rfl, rfl⟩
    · rw [if_neg exist]
      obtain ⟨rfl, offset⟩ := reaches.resolve_left exist
      exact ⟨rfl, offset.symm⟩

/-- The readers of a reachable ring are positioned on the newest I frame
exactly where the slots and the readers agree that far. -/
theorem latestPositioning_iff_latestReached (bufSize now : Nat)
    (data : Nat → UInt8)
    (reached : Reachable (fun s => s = freshSystem bufSize now data) next
      (fun _ _ => True) s) :
    s.LatestPositioning ↔ s.LatestReached := by
  have inside := (framesHold_of_reachable reached).index
  have searches := RingBufInfo.indexFindLatestIFrame_eq_newest_iff inside
  constructor
  · intro positioning slot newest
    have written := RingBufInfo.written_of_newestIFrame inside newest
    have found := positioning.search.trans newest
    refine ⟨?_, ?_, ?_⟩
    · intro same
      exact searches.mp positioning.search (same ▸ newest)
    · intro linked
      exact (install_iff written found).mp
        (positioning.install linked slot newest)
    · intro handle obj reads
      obtain ⟨success, stands⟩ := positioning.latest handle obj reads
      have isOn := stands slot newest
      rw [RingBufInfo.ringbufferReaderLatest_eq] at success isOn
      have zero := success.mpr (by rw [newest]; exact Option.some_ne_none slot)
      by_cases first : slot = 0
      · exact ⟨first, first ▸ isOn⟩
      · have other : ¬ s.info.indexFindLatestIFrame = some 0 := by
          rw [found]
          exact fun same => first (Option.some.inj same)
        rw [if_neg other] at zero
        cases zero
  · intro reaches
    have search : s.info.indexFindLatestIFrame = s.info.newestIFrame :=
      searches.mpr fun newest => (reaches _ newest).1 rfl
    refine ⟨search, ?_, ?_⟩
    · intro linked slot newest
      have written := RingBufInfo.written_of_newestIFrame inside newest
      exact (install_iff written (search.trans newest)).mpr
        ((reaches slot newest).2.1 linked)
    · intro handle obj reads
      rw [RingBufInfo.ringbufferReaderLatest_eq, search]
      cases newest : s.info.newestIFrame with
      | none => simp
      | some slot =>
          obtain ⟨rfl, stands⟩ := (reaches slot newest).2.2 handle obj reads
          refine ⟨by simp, ?_⟩
          rintro _ ⟨⟩
          exact stands

/-- Without an I frame nothing is found and nobody is led anywhere. -/
theorem latestPositioning_without_iFrame :
    ∃ s, run next (freshSystem 4096 1 fun _ => 0)
        [.attachWriter 0 [0x57] false, .attachReader 1 [0x61] false,
          .requestWriteFrame 0 100 .CRB_FRAME_P_SLICE .CRB_WRITE_MODE_NON_BLOCK,
          .commitWrite 0 none 1] = some s ∧
      s.LatestPositioning := by
  have ends : ((run next (freshSystem 4096 1 fun _ => 0)
      [.attachWriter 0 [0x57] false, .attachReader 1 [0x61] false,
        .requestWriteFrame 0 100 .CRB_FRAME_P_SLICE .CRB_WRITE_MODE_NON_BLOCK,
        .commitWrite 0 none 1]).map fun s => s.info.newestIFrame) =
          some none := by
    decide +kernel
  obtain ⟨s, runs, newest⟩ := Option.map_eq_some_iff.mp ends
  refine ⟨s, runs, (latestPositioning_iff_latestReached 4096 1 _
    (.of_run rfl runs)).mpr ?_⟩
  intro slot isNewest
  cases newest.symm.trans isNewest

/-- A single I frame is the oldest valid frame and is not found. -/
theorem not_forall_latestPositioning :
    ¬ ∀ (bufSize now : Nat) (data : Nat → UInt8) (s : System),
      Reachable (fun s => s = freshSystem bufSize now data) next
        (fun _ _ => True) s → s.LatestPositioning := by
  intro claimed
  have ends : ((run next (freshSystem 4096 1 fun _ => 0)
      [.attachWriter 0 [0x57] false,
        .requestWriteFrame 0 100 .CRB_FRAME_I_SLICE .CRB_WRITE_MODE_NON_BLOCK,
        .commitWrite 0 none 1]).map fun s =>
      (s.info.newestIFrame, s.info.indexFindLatestIFrame)) =
        some (some 0, none) := by
    decide +kernel
  obtain ⟨s, runs, slots⟩ := Option.map_eq_some_iff.mp ends
  obtain ⟨newest, missed⟩ := Prod.mk.inj slots
  have search := (claimed 4096 1 _ s (.of_run rfl runs)).search
  rw [newest, missed] at search
  cases search

/-- A move by time leads to the frame of that time, or fails and changes
nothing. -/
def SeeksTime (s : System) (obj : Object) (type : FRAME_E)
    (timeStamp : Int) : Prop :=
  ∀ gettimeStamp, ∃ after iret stored,
    s.info.indexMoveToSpecifiedTimeReturn obj type timeStamp gettimeStamp =
        .ok (after, iret, stored) ∧
      match s.info.frameOfTime type timeStamp with
      | some slot => iret = 0 ∧ after.PositionedOn obj.m_userIdx slot
      | none => iret ≠ 0 ∧ after = s.info

/-- When it does: there is no valid frame; or there is one of the type, and
the oldest valid frame is in slot 0, is of another type or is older than a
dated one. -/
def TimeReached (s : System) (type : FRAME_E) (timeStamp : Int) : Prop :=
  s.info.validSlots = [] ∨
    (∃ slot ∈ s.info.validSlots, ofType type (s.info.frameIdx slot)) ∧
      (s.info.findOldesValidIndex = 0 ∨
        ¬ ofType type (s.info.frameIdx s.info.findOldesValidIndex) ∨
        ∃ slot ∈ s.info.validSlots, slot ≠ s.info.findOldesValidIndex ∧
          datedUntil type timeStamp (s.info.frameIdx slot))

/-- A move that finds a slot is right when that is the frame of the time. -/
theorem seeksTime_iff_of_found {obj : Object} {type : FRAME_E}
    {timeStamp : Int} {slot : Nat}
    (found : s.info.indexFindSpecifiedTimeFrameInstance s.info.productorIndex
      s.info.findOldesValidIndex type timeStamp = some slot) :
    s.SeeksTime obj type timeStamp ↔
      s.info.frameOfTime type timeStamp = some slot := by
  have moves : ∀ gettimeStamp,
      s.info.indexMoveToSpecifiedTimeReturn obj type timeStamp gettimeStamp =
        .ok ((s.info.releaseHole obj.m_userIdx).moveConsumer obj.m_userIdx slot
          (s.info.frameIdx slot).offset true, 0,
          (s.info.frameIdx slot).timeStamp) := by
    intro gettimeStamp
    rw [RingBufInfo.indexMoveToSpecifiedTimeReturn, found]
    dsimp only
    rw [RingBufInfo.indexMoveTo_eq]
    rfl
  constructor
  · intro seeks
    obtain ⟨after, iret, stored, returns, ends⟩ := seeks 0
    rw [moves] at returns
    obtain ⟨rfl, rest⟩ := Prod.mk.inj (Except.ok.inj returns)
    obtain ⟨isZero, _⟩ := Prod.mk.inj rest
    cases wanted : s.info.frameOfTime type timeStamp with
    | none =>
        rw [wanted] at ends
        exact absurd isZero.symm ends.1
    | some other =>
        rw [wanted] at ends
        have index := ends.2.1
        rw [RingBufInfo.moveConsumer, RingBufInfo.updateConsumer_self] at index
        exact congrArg some index.symm
  · intro wanted gettimeStamp
    refine ⟨_, _, _, moves gettimeStamp, ?_⟩
    rw [wanted]
    refine ⟨rfl, ?_⟩
    rw [RingBufInfo.PositionedOn, RingBufInfo.moveConsumer,
      RingBufInfo.updateConsumer_self]
    exact ⟨rfl, rfl⟩

/-- Without a valid frame the move fails. -/
theorem seeksTime_of_empty {obj : Object} {type : FRAME_E} {timeStamp : Int}
    (empty : s.info.validSlots = [])
    (noFrames : s.info.dataWriten = false ∨
      s.info.findOldesValidIndex = s.info.productorIndex) :
    s.SeeksTime obj type timeStamp := by
  intro gettimeStamp
  have nothing : s.info.frameOfTime type timeStamp = none := by
    rw [RingBufInfo.frameOfTime, empty]
    rfl
  refine ⟨s.info, -1, gettimeStamp, ?_, ?_⟩
  · rw [RingBufInfo.indexMoveToSpecifiedTimeReturn,
      RingBufInfo.indexFindSpecifiedTimeFrameInstance, if_pos noFrames]
  · rw [nothing]
    exact ⟨by decide, rfl⟩

/-- In a reachable ring a move by time is right exactly where the oldest valid
frame is in slot 0 or is not the one wanted. -/
theorem seeksTime_iff_timeReached (bufSize now : Nat) (data : Nat → UInt8)
    (reached : Reachable (fun s => s = freshSystem bufSize now data) next
      (fun _ _ => True) s)
    (obj : Object) (type : FRAME_E) (timeStamp : Int) :
    s.SeeksTime obj type timeStamp ↔ s.TimeReached type timeStamp := by
  have inside := (framesHold_of_reachable reached).index
  rcases RingBufInfo.validSlots_cases inside with
    ⟨empty, noFrames⟩ | ⟨written, someFrames, later, valid, notLater⟩
  · exact iff_of_true (seeksTime_of_empty empty noFrames) (.inl empty)
  have found := RingBufInfo.indexFindSpecifiedTimeFrameInstance_eq
    type timeStamp written someFrames valid
  rw [seeksTime_iff_of_found found]
  have isSome : s.info.frameOfTime type timeStamp =
        some ((s.info.frameOfTime type timeStamp).getD 0) ↔
      ∃ slot ∈ s.info.validSlots, ofType type (s.info.frameIdx slot) := by
    rw [← RingBufInfo.frameOfTime_ne_none_iff type timeStamp]
    cases s.info.frameOfTime type timeStamp with
    | none => simp
    | some slot => simp
  have notEmpty : s.info.validSlots ≠ [] := by
    rw [valid]
    exact List.cons_ne_nil _ _
  rw [TimeReached, or_iff_right notEmpty]
  by_cases first : s.info.findOldesValidIndex = 0
  · rw [if_pos first, isSome, and_iff_left (.inl first)]
  rw [if_neg first]
  by_cases kind : ofType type (s.info.frameIdx s.info.findOldesValidIndex)
  swap
  · rw [and_iff_left (.inr (.inl kind)), ← isSome,
      RingBufInfo.frameOfTime_eq valid, if_neg kind]
  have member : s.info.findOldesValidIndex ∈ s.info.validSlots := by
    rw [valid]
    exact List.mem_cons_self
  rw [and_iff_right ⟨_, member, kind⟩, or_iff_right first,
    or_iff_right (not_not_intro kind)]
  exact RingBufInfo.frameOfTime_eq_searched_iff valid notLater first kind

/-- The only frame, in slot 0, is found. -/
theorem seeksTime_first_frame :
    ∃ s obj, run next (freshSystem 4096 1 fun _ => 0)
        [.attachWriter 0 [0x57] false, .attachReader 1 [0x61] false,
          .requestWriteFrame 0 100 .CRB_FRAME_P_SLICE .CRB_WRITE_MODE_NON_BLOCK,
          .commitWrite 0 none 5] = some s ∧
      s.reader 1 = some obj ∧ s.SeeksTime obj .CRB_FRAME_ANY 7 := by
  have ends : ((run next (freshSystem 4096 1 fun _ => 0)
      [.attachWriter 0 [0x57] false, .attachReader 1 [0x61] false,
        .requestWriteFrame 0 100 .CRB_FRAME_P_SLICE .CRB_WRITE_MODE_NON_BLOCK,
        .commitWrite 0 none 5]).map fun s =>
      (s.info.validSlots, s.info.findOldesValidIndex,
        (s.reader 1).isSome)) = some ([0], 0, true) := by
    decide +kernel
  obtain ⟨s, runs, slots⟩ := Option.map_eq_some_iff.mp ends
  simp only [Prod.mk.injEq] at slots
  obtain ⟨valid, oldest, isReader⟩ := slots
  obtain ⟨obj, reads⟩ := Option.isSome_iff_exists.mp isReader
  refine ⟨s, obj, runs, reads, (seeksTime_iff_timeReached 4096 1 _
    (.of_run rfl runs) obj _ _).mpr (.inr ⟨⟨0, ?_, rfl⟩, .inl oldest⟩)⟩
  rw [valid]
  exact List.mem_singleton_self 0

/-- With a frame of another type only, the reader is moved to slot 0. -/
theorem not_forall_seeksTime :
    ¬ ∀ (bufSize now : Nat) (data : Nat → UInt8) (s : System),
      Reachable (fun s => s = freshSystem bufSize now data) next
        (fun _ _ => True) s →
      ∀ handle obj, s.reader handle = some obj →
        ∀ type timeStamp, s.SeeksTime obj type timeStamp := by
  intro claimed
  have ends : ((run next (freshSystem 4096 1 fun _ => 0)
      [.attachWriter 0 [0x57] false, .attachReader 1 [0x61] false,
        .requestWriteFrame 0 100 .CRB_FRAME_P_SLICE .CRB_WRITE_MODE_NON_BLOCK,
        .commitWrite 0 none 5]).map fun s =>
      (s.info.frameOfTime .CRB_FRAME_I_SLICE 7,
        s.info.indexFindSpecifiedTimeFrameInstance s.info.productorIndex
          s.info.findOldesValidIndex .CRB_FRAME_I_SLICE 7,
        (s.reader 1).isSome)) = some (none, some 0, true) := by
    decide +kernel
  obtain ⟨s, runs, slots⟩ := Option.map_eq_some_iff.mp ends
  simp only [Prod.mk.injEq] at slots
  obtain ⟨wanted, found, isReader⟩ := slots
  obtain ⟨obj, reads⟩ := Option.isSome_iff_exists.mp isReader
  have seeks := (seeksTime_iff_of_found found).mp
    (claimed 4096 1 _ s (.of_run rfl runs) 1 obj reads _ 7)
  cases wanted.symm.trans seeks

end System

end CRingBuf

end MbedtlsKcp
