import MbedtlsKcp.CRingBufFrames

/-!
# The continuity flag

A frame is marked `FRAME_CONTINUOUS` when no reset, jump or padding lies between
it and the frame committed before it.  The header remembers a jump in
`jumpOverHole`; a commit of 0 bytes forgets it although the productor stays
behind the hole.
-/

namespace MbedtlsKcp

namespace CRingBuf

open TransitionRuns

/-- A ring with the history of its frames: the one committed last since the
last reset, and for every slot of the table the one that had been committed last
when its frame was.  Frames are given by offset and length. -/
structure Traced where
  system : System
  last : Option (Nat × Nat)
  before : Nat → Option (Nat × Nat)

namespace Traced

def fresh (bufSize now : Nat) (data : Nat → UInt8) : Traced :=
  ⟨freshSystem bufSize now data, none, fun _ => none⟩

variable (r : Traced)

/-- The history after a call that ends in `system`. -/
def record (event : FrameEvent) (system : System) : Traced :=
  match event with
  | .nothing => { r with system := system }
  | .frame offset length =>
      { system := system
        last := some (offset, length)
        before := Function.update r.before r.system.info.productorIndex r.last }
  | .restart => { r with system := system, last := none }

theorem system_record (event : FrameEvent) (system : System) :
    (r.record event system).system = system := by
  cases event with
  | nothing => rfl
  | frame offset length => rfl
  | restart => rfl

def next (call : Call) : Option Traced :=
  (r.system.next call).map (r.record (r.system.event call))

/-- A frame that is marked continuous starts where the frame before it ends. -/
def Truthful : Prop :=
  ∀ slot, (r.system.info.frameIdx slot).continuous = true →
    ∃ offset length, r.before slot = some (offset, length) ∧
      (r.system.info.frameIdx slot).offset =
        (offset + length) % r.system.info.bufSize

/-- No request is discarded after its jump over a hole. -/
def KeepsJump : Call → Prop
  | .commitWrite handle size _ =>
      ∀ obj, r.system.writer handle = some obj → 0 < obj.m_lastWriteBytes →
        size = some 0 → r.system.info.dataWriten = true →
          r.system.info.jumpOverHole = false
  | _ => True

/-- A writer is only destroyed when it is the only one. -/
def LastWriter : Call → Prop
  | .destroy handle => r.system.writer handle ≠ none →
      ∀ other, other ≠ handle → r.system.writer other = none
  | _ => True

/-- Where nothing lies between, the productor is at the end of the frame
committed last. -/
structure Continuity : Prop where
  truthful : r.Truthful
  proper : r.system.WritersProper
  ends : (∃ handle, r.system.writer handle ≠ none) →
    r.system.info.dataWriten = true → r.system.info.jumpOverHole = false →
      ∃ offset length, r.last = some (offset, length) ∧
        r.system.info.productorOffset % r.system.info.bufSize =
          (offset + length) % r.system.info.bufSize

theorem continuity_fresh (bufSize now : Nat) (data : Nat → UInt8) :
    (fresh bufSize now data).Continuity where
  truthful _ marked := by cases marked
  proper _ _ found := by cases found
  ends _ written := by cases written

variable {r} {t : System} {call : Call}

/-- The table and what was recorded of it are the same. -/
theorem Truthful.keep {last : Option (Nat × Nat)} (truthful : r.Truthful)
    (frameIdx : t.info.frameIdx = r.system.info.frameIdx)
    (bufSize : t.info.bufSize = r.system.info.bufSize) :
    Truthful ⟨t, last, r.before⟩ := by
  intro slot marked
  dsimp only at marked ⊢
  rw [frameIdx] at marked ⊢
  rw [bufSize]
  exact truthful slot marked

/-- The end of the frame before the one that is committed. -/
theorem Continuity.committed {handle commitBytes : Nat} {frameTime : Int}
    {obj : Object} (holds : r.Continuity)
    (found : r.system.writer handle = some obj)
    (frames : t.info.frames =
      r.system.info.frames.commit obj commitBytes frameTime)
    (writers : t.writer =
      Function.update r.system.writer handle (some obj.released)) :
    (r.record (.frame (r.system.info.writeAddress obj) commitBytes)
      t).Continuity := by
  have frameIdx : t.info.frameIdx = Function.update r.system.info.frameIdx
      r.system.info.productorIndex
      (r.system.info.frames.entry obj commitBytes frameTime) :=
    congrArg Frames.frameIdx frames
  have bufSize : t.info.bufSize = r.system.info.bufSize :=
    congrArg Frames.bufSize frames
  have offset : t.info.productorOffset =
      (r.system.info.productorOffset + commitBytes +
        obj.m_lastAlignmentBytes) % r.system.info.bufSize :=
    congrArg Frames.offset frames
  refine ⟨?_, ?_, ?_⟩
  · intro slot marked
    dsimp only [record] at marked ⊢
    rw [frameIdx] at marked ⊢
    rw [bufSize]
    by_cases same : slot = r.system.info.productorIndex
    · rw [same, Function.update_self] at marked ⊢
      rw [Function.update_self]
      -- neither a reset nor a jump nor padding lies before the frame
      have plain : (r.system.info.dataWriten && !r.system.info.jumpOverHole &&
          obj.m_lastAlignmentBytes == 0) = true := marked
      rw [Bool.and_eq_true, Bool.and_eq_true, Bool.not_eq_true',
        beq_iff_eq] at plain
      obtain ⟨⟨written, noJump⟩, noPadding⟩ := plain
      have someWriter : ∃ handle, r.system.writer handle ≠ none :=
        ⟨handle, by rw [found]; exact Option.some_ne_none obj⟩
      obtain ⟨before, length, isLast, ends⟩ :=
        holds.ends someWriter written noJump
      refine ⟨before, length, isLast, ?_⟩
      show (r.system.info.productorOffset + obj.m_lastAlignmentBytes) % _ = _
      rw [noPadding]
      exact ends
    · rw [Function.update_of_ne same] at marked ⊢
      rw [Function.update_of_ne same]
      exact holds.truthful slot marked
  · exact holds.proper.update writers (holds.proper handle obj found)
  · intro _ _ _
    refine ⟨_, _, rfl, ?_⟩
    dsimp only [record]
    rw [offset, bufSize, RingBufInfo.writeAddress, RingBufInfo.advanceOffset,
      Nat.mod_mod, Nat.mod_add_mod]
    congr 1
    omega

/-- A step keeps the continuity. -/
theorem Continuity.step (holds : r.Continuity)
    (steps : System.FrameStep r.system t call)
    (lastWriter : r.LastWriter call) (keepsJump : r.KeepsJump call) :
    (r.record (r.system.event call) t).Continuity := by
  cases steps with
  | keeps quiet frames writers =>
      rw [quiet]
      have offset : t.info.productorOffset = r.system.info.productorOffset :=
        congrArg Frames.offset frames
      have bufSize : t.info.bufSize = r.system.info.bufSize :=
        congrArg Frames.bufSize frames
      have dataWriten : t.info.dataWriten = r.system.info.dataWriten :=
        congrArg Frames.dataWriten frames
      have jump : t.info.jumpOverHole = r.system.info.jumpOverHole :=
        congrArg Frames.jumpOverHole frames
      refine ⟨holds.truthful.keep (congrArg Frames.frameIdx frames) bufSize,
        ?_, ?_⟩
      · intro other obj' isWriter
        dsimp only [record] at isWriter
        rw [writers] at isWriter
        exact holds.proper other obj' isWriter
      · dsimp only [record]
        rw [writers, dataWriten, jump, offset, bufSize]
        exact holds.ends
  | granted obj found holeSkipedBytes alignmentBytes positive proper frames
      writers =>
      change (r.record .nothing t).Continuity
      refine ⟨holds.truthful.keep
        ((congrArg Frames.frameIdx frames).trans (Frames.skip_frameIdx _ _))
        ((congrArg Frames.bufSize frames).trans (Frames.skip_bufSize _ _)),
        holds.proper.update writers proper, ?_⟩
      intro _ written noJump
      by_cases stays : holeSkipedBytes = 0
      · rw [stays, Frames.skip, if_pos rfl] at frames
        have offset : t.info.productorOffset = r.system.info.productorOffset :=
          congrArg Frames.offset frames
        have bufSize : t.info.bufSize = r.system.info.bufSize :=
          congrArg Frames.bufSize frames
        have dataWriten : t.info.dataWriten = r.system.info.dataWriten :=
          congrArg Frames.dataWriten frames
        have jump : t.info.jumpOverHole = r.system.info.jumpOverHole :=
          congrArg Frames.jumpOverHole frames
        have someWriter : ∃ handle, r.system.writer handle ≠ none :=
          ⟨_, by rw [found]; exact Option.some_ne_none obj⟩
        dsimp only [record] at written noJump ⊢
        rw [offset, bufSize]
        exact holds.ends someWriter (dataWriten ▸ written) (jump ▸ noJump)
      · rw [Frames.skip, if_neg stays] at frames
        cases (congrArg Frames.jumpOverHole frames).symm.trans noJump
  | discarded obj found pending frames writers =>
      rw [System.event_discard]
      refine ⟨holds.truthful.keep (congrArg Frames.frameIdx frames)
        (congrArg Frames.bufSize frames),
        holds.proper.update writers (holds.proper _ obj found), ?_⟩
      intro _ written _
      have wasWritten : r.system.info.dataWriten = true :=
        (congrArg Frames.dataWriten frames).symm.trans written
      have noJump := keepsJump obj found pending rfl wasWritten
      have someWriter : ∃ handle, r.system.writer handle ≠ none :=
        ⟨_, by rw [found]; exact Option.some_ne_none obj⟩
      have offset : t.info.productorOffset = r.system.info.productorOffset :=
        congrArg Frames.offset frames
      have bufSize : t.info.bufSize = r.system.info.bufSize :=
        congrArg Frames.bufSize frames
      dsimp only [record]
      rw [offset, bufSize]
      exact holds.ends someWriter wasWritten noJump
  | committed obj found positive inside frames writers =>
      rw [System.event_commit found positive inside]
      exact holds.committed found frames writers
  | reset obj found frames writers =>
      rw [System.event_reset found]
      refine ⟨holds.truthful.keep (congrArg Frames.frameIdx frames)
        (congrArg Frames.bufSize frames),
        holds.proper.update writers (holds.proper _ obj found), ?_⟩
      intro _ written
      cases (congrArg Frames.dataWriten frames).symm.trans written
  | attached attaches frames writers =>
      rw [System.event, if_pos attaches]
      refine ⟨holds.truthful.keep (congrArg Frames.frameIdx frames)
        (congrArg Frames.bufSize frames),
        holds.proper.update writers (by decide), ?_⟩
      intro _ written
      cases (congrArg Frames.dataWriten frames).symm.trans written
  | destroyed obj found frames writers =>
      rename_i handle
      have noneLeft : ∀ other, t.writer other = none := by
        intro other
        rw [writers]
        by_cases same : other = handle
        · rw [same, Function.update_self]
        · rw [Function.update_of_ne same]
          apply lastWriter
          · rw [found]
            exact Option.some_ne_none obj
          · exact same
      change (r.record .nothing t).Continuity
      refine ⟨holds.truthful.keep (congrArg Frames.frameIdx frames)
        (congrArg Frames.bufSize frames), ?_, ?_⟩
      · intro other obj' isWriter
        cases (noneLeft other).symm.trans isWriter
      · rintro ⟨other, isWriter⟩
        exact absurd (noneLeft other) isWriter

/-- In every run in which no request is discarded after a jump, every frame
that is marked continuous starts where the one before it ends. -/
theorem truthful_of_keepsJump (bufSize now : Nat) (data : Nat → UInt8)
    (r : Traced)
    (reached : Reachable (fun r => r = fresh bufSize now data) Traced.next
      (fun r call => r.LastWriter call ∧ r.KeepsJump call) r) :
    r.Truthful := by
  have holds : r.Continuity := by
    apply reached.invariant Continuity
    · rintro _ rfl
      exact continuity_fresh bufSize now data
    · rintro before call after holds ⟨lastWriter, keepsJump⟩ steps
      obtain ⟨t, calls, rfl⟩ := Option.map_eq_some_iff.mp steps
      obtain ⟨answer, returns⟩ := System.next_eq_some_iff.mp calls
      exact holds.step (System.frameStep holds.proper returns) lastWriter
        keepsJump
  exact holds.truthful

/-- A reader holds the second of two frames when the writer starts again. -/
def heldSecond : List Call :=
  [.attachWriter 0 [0x57] false, .attachReader 1 [0x61] false,
    .requestWriteFrame 0 100 .CRB_FRAME_P_SLICE .CRB_WRITE_MODE_NON_BLOCK,
    .commitWrite 0 none 1,
    .requestWriteFrame 0 100 .CRB_FRAME_P_SLICE .CRB_WRITE_MODE_NON_BLOCK,
    .commitWrite 0 none 2,
    .requestReadFrame 1 .CRB_FRAME_ANY, .commitRead 1 none,
    .requestReadFrame 1 .CRB_FRAME_ANY, .resetAllUser 0,
    .requestWriteFrame 0 50 .CRB_FRAME_P_SLICE .CRB_WRITE_MODE_NON_BLOCK,
    .commitWrite 0 none 3,
    .requestWriteFrame 0 80 .CRB_FRAME_P_SLICE .CRB_WRITE_MODE_NON_BLOCK]

/-- The writer has jumped over the frame that is held. -/
theorem truthful_after_jump :
    ∃ r, run next (fresh 4096 1 fun _ => 0) heldSecond = some r ∧
      r.Truthful := by
  obtain ⟨r, runs⟩ : ∃ r, run next (fresh 4096 1 fun _ => 0) heldSecond =
      some r :=
    Option.isSome_iff_exists.mp (by decide +kernel)
  have meets : ∀ call ∈ heldSecond, ∀ r : Traced,
      r.LastWriter call ∧ r.KeepsJump call := by
    simp [heldSecond, LastWriter, KeepsJump]
  exact ⟨r, runs, truthful_of_keepsJump 4096 1 _ r
    (.append_run (.start rfl) (stepsMeet_of_forall meets _) runs)⟩

/-- The second request finds the productor behind the hole, and its frame is
marked continuous. -/
theorem discard_forgets_jump :
    ¬ ∀ r : Traced,
      Reachable (fun r => r = fresh 4096 1 fun _ => 0) Traced.next LastWriter r →
        r.Truthful := by
  intro always
  have ends : ((run next (fresh 4096 1 fun _ => 0)
      (heldSecond ++ [.commitWrite 0 (some 0) 4,
        .requestWriteFrame 0 80 .CRB_FRAME_P_SLICE .CRB_WRITE_MODE_NON_BLOCK,
        .commitWrite 0 none 5])).map fun r =>
      ((r.system.info.frameIdx 1).continuous,
        (r.system.info.frameIdx 1).offset, r.before 1,
        r.system.info.bufSize)) = some (true, 200, some (0, 50), 4096) := by
    decide +kernel
  obtain ⟨r, runs, slot⟩ := Option.map_eq_some_iff.mp ends
  simp only [Prod.mk.injEq] at slot
  obtain ⟨marked, offset, before, bufSize⟩ := slot
  have meets : ∀ call ∈ heldSecond ++ [.commitWrite 0 (some 0) 4,
      .requestWriteFrame 0 80 .CRB_FRAME_P_SLICE .CRB_WRITE_MODE_NON_BLOCK,
      .commitWrite 0 none 5], ∀ r : Traced, r.LastWriter call := by
    simp [heldSecond, LastWriter]
  obtain ⟨start, length, isBefore, ends⟩ := always r
    (.append_run (.start rfl) (stepsMeet_of_forall meets _) runs) 1 marked
  rw [before] at isBefore
  cases isBefore
  rw [offset, bufSize] at ends
  exact absurd ends (by decide)

end Traced

end CRingBuf

end MbedtlsKcp
