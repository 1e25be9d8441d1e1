import MbedtlsKcp.CRingBufFrames

/-!
# The oldest valid index

`FindOldesValidIndex` walks back from the productor while the frames lie farther
and farther behind its offset.  What it returns is compared with a ledger of the
frames committed since the last reset whose bytes have not been handed to the
writer again.
-/

namespace MbedtlsKcp

namespace CRingBuf

open FallibleSteps TransitionRuns CyclicWindows

theorem advanceIndex_stepbackIndex {slot : Nat} (inside : slot < MAX_FRAME_NUM) :
    advanceIndex (stepbackIndex slot 1) 1 = slot := by
  unfold advanceIndex stepbackIndex MAX_FRAME_NUM at *
  omega

theorem stepbackIndex_advanceIndex {slot : Nat} (inside : slot < MAX_FRAME_NUM) :
    stepbackIndex (advanceIndex slot 1) 1 = slot := by
  unfold advanceIndex stepbackIndex MAX_FRAME_NUM at *
  omega

theorem stepbackIndex_succ {slot step : Nat} (inside : slot < MAX_FRAME_NUM)
    (few : step < MAX_FRAME_NUM) :
    stepbackIndex (stepbackIndex slot step) 1 =
      stepbackIndex slot (step + 1) := by
  unfold stepbackIndex MAX_FRAME_NUM at *
  omega

theorem stepbackIndex_last {slot : Nat} (inside : slot < MAX_FRAME_NUM) :
    stepbackIndex slot MAX_FRAME_NUM = slot := by
  unfold stepbackIndex MAX_FRAME_NUM at *
  omega

theorem stepbackIndex_lt (slot step : Nat) :
    stepbackIndex slot step < MAX_FRAME_NUM :=
  Nat.mod_lt _ frameNum_pos

namespace RingBufInfo

variable (info : RingBufInfo)

/-- How far the frame of a slot starts behind the productor. -/
def distance (slot : Nat) : Nat :=
  info.bufferLen (info.frameIdx slot).offset info.productorOffset

/-- The frames of a list stand in the slots from `slot` back, without overlap
and each farther behind the productor than the one before it; the slot behind
the last one does not continue them. -/
def Trail : Nat → Nat → List (Nat × FrameIndex) → Prop
  | slot, bound, [] =>
      slot = info.productorIndex ∨ info.distance slot ≤ bound
  | slot, bound, frame :: older =>
      frame = (slot, info.frameIdx slot) ∧ slot ≠ info.productorIndex ∧
        0 < frame.2.length ∧ bound + frame.2.length ≤ info.distance slot ∧
        Trail (stepbackIndex slot 1) (info.distance slot) older

/-- The slot behind the last frame of a trail. -/
def trailEnd (slot : Nat) (trail : List (Nat × FrameIndex)) : Nat :=
  trail.foldl (fun slot _ => stepbackIndex slot 1) slot

variable {info} {slot bound : Nat} {trail : List (Nat × FrameIndex)}

theorem trail_cons_iff {frame : Nat × FrameIndex}
    {older : List (Nat × FrameIndex)} :
    info.Trail slot bound (frame :: older) ↔
      frame = (slot, info.frameIdx slot) ∧ slot ≠ info.productorIndex ∧
        0 < frame.2.length ∧ bound + frame.2.length ≤ info.distance slot ∧
        info.Trail (stepbackIndex slot 1) (info.distance slot) older :=
  Iff.rfl

theorem trailEnd_cons (slot : Nat) (frame : Nat × FrameIndex)
    (older : List (Nat × FrameIndex)) :
    trailEnd slot (frame :: older) = trailEnd (stepbackIndex slot 1) older :=
  List.foldl_cons ..

/-- The search goes to the end of a trail. -/
theorem Trail.growingFrom_eq {rounds : Nat}
    (holds : info.Trail slot bound trail) (nonempty : trail ≠ [])
    (enough : trail.length ≤ rounds) :
    info.growingFrom rounds slot bound = trailEnd slot trail := by
  induction trail generalizing slot bound rounds with
  | nil => exact absurd rfl nonempty
  | cons frame older ih =>
      obtain ⟨isFrame, _, positive, farther, rest⟩ := trail_cons_iff.mp holds
      cases rounds with
      | zero => simp at enough
      | succ rounds =>
          have grows : ¬ info.bufferLen (info.frameIdx slot).offset
              info.productorOffset ≤ bound := by
            change ¬ info.distance slot ≤ bound
            omega
          rw [growingFrom, if_neg grows, trailEnd_cons]
          dsimp only
          cases older with
          | nil =>
              split
              · rfl
              · rename_i inside
                -- the next slot is not farther behind
                cases rounds with
                | zero => rfl
                | succ rounds =>
                    have stops : info.bufferLen
                        (info.frameIdx (stepbackIndex slot 1)).offset
                        info.productorOffset ≤ info.bufferLen
                          (info.frameIdx slot).offset info.productorOffset :=
                      rest.resolve_left inside
                    rw [growingFrom, if_pos stops]
                    rfl
          | cons next older =>
              rw [if_neg rest.2.1]
              exact ih rest (List.cons_ne_nil next older)
                (Nat.le_of_succ_le_succ enough)

/-- The window from behind the end of a trail consists of its frames. -/
theorem Trail.window_eq (holds : info.Trail slot bound trail)
    (inside : slot < MAX_FRAME_NUM)
    (indexed : info.productorIndex < MAX_FRAME_NUM) :
    (window MAX_FRAME_NUM (advanceIndex (trailEnd slot trail) 1)
        info.productorIndex).map (fun slot => (slot, info.frameIdx slot)) =
      trail.reverse ++
        (window MAX_FRAME_NUM (advanceIndex slot 1) info.productorIndex).map
          (fun slot => (slot, info.frameIdx slot)) := by
  induction trail generalizing slot bound with
  | nil => rfl
  | cons frame older ih =>
      obtain ⟨isFrame, different, _, _, rest⟩ := trail_cons_iff.mp holds
      have before := ih rest (stepbackIndex_lt slot 1)
      rw [advanceIndex_stepbackIndex inside,
        window_cons inside indexed different, List.map_cons,
        ← advanceIndex_one inside, ← isFrame] at before
      rw [trailEnd_cons, List.reverse_cons, List.append_assoc,
        List.singleton_append]
      exact before

/-- A trail is shorter than the table. -/
theorem Trail.length_lt {steps : Nat} (holds : info.Trail slot bound trail)
    (isSlot : slot = stepbackIndex info.productorIndex (steps + 1))
    (indexed : info.productorIndex < MAX_FRAME_NUM)
    (few : steps < MAX_FRAME_NUM) :
    steps + trail.length < MAX_FRAME_NUM := by
  induction trail generalizing slot steps bound with
  | nil => exact few
  | cons frame older ih =>
      have different : slot ≠ info.productorIndex := holds.2.1
      have rest := holds.2.2.2.2
      have more : steps + 1 < MAX_FRAME_NUM := by
        by_contra last
        apply different
        rw [isSlot, show steps + 1 = MAX_FRAME_NUM by omega]
        exact stepbackIndex_last indexed
      have back : stepbackIndex slot 1 =
          stepbackIndex info.productorIndex (steps + 1 + 1) := by
        rw [isSlot, stepbackIndex_succ indexed more]
      have := ih rest back more
      rw [List.length_cons]
      omega

/-- With a trail behind the productor the search is exact. -/
theorem Trail.findOldesValidIndex_window (written : info.dataWriten = true)
    (holds : info.Trail (stepbackIndex info.productorIndex 1) 0 trail)
    (nonempty : trail ≠ [])
    (indexed : info.productorIndex < MAX_FRAME_NUM) :
    (window MAX_FRAME_NUM info.findOldesValidIndex info.productorIndex).map
        (fun slot => (slot, info.frameIdx slot)) = trail.reverse := by
  have short : 0 + trail.length < MAX_FRAME_NUM :=
    holds.length_lt rfl indexed frameNum_pos
  rw [findOldesValidIndex, if_pos written,
    holds.growingFrom_eq nonempty (by omega),
    holds.window_eq (stepbackIndex_lt _ _) indexed,
    advanceIndex_stepbackIndex indexed, window_self]
  simp

theorem Trail.mem {frame : Nat × FrameIndex}
    (holds : info.Trail slot bound trail) (member : frame ∈ trail) :
    frame = (frame.1, info.frameIdx frame.1) ∧
      frame.1 ≠ info.productorIndex ∧ 0 < frame.2.length ∧
        bound + frame.2.length ≤ info.distance frame.1 := by
  induction trail generalizing slot bound with
  | nil => cases member
  | cons first older ih =>
      obtain ⟨isFrame, different, positive, farther, later⟩ :=
        trail_cons_iff.mp holds
      rcases List.mem_cons.mp member with rfl | older
      · have isSlot : frame.1 = slot := by rw [isFrame]
        rw [isSlot]
        exact ⟨isFrame, different, positive, farther⟩
      · obtain ⟨isEntry, apart, nonempty, behind⟩ := ih later older
        exact ⟨isEntry, apart, nonempty, by omega⟩

/-- A trail with a frame may start nearer to the productor. -/
theorem Trail.weaken {nearer : Nat} (holds : info.Trail slot bound trail)
    (nonempty : trail ≠ []) (near : nearer ≤ bound) :
    info.Trail slot nearer trail := by
  cases trail with
  | nil => exact absurd rfl nonempty
  | cons frame older =>
      obtain ⟨isFrame, different, positive, farther, later⟩ :=
        trail_cons_iff.mp holds
      exact trail_cons_iff.mpr
        ⟨isFrame, different, positive, by omega, later⟩

theorem distance_lt (inside : (info.frameIdx slot).offset < info.bufSize) :
    info.distance slot < info.bufSize :=
  Nat.mod_lt _ (by omega)

end RingBufInfo

/-- From `info` to `after` the productor moves on and at most its slot of the
table is filled. -/
structure Moved (info after : RingBufInfo) : Prop where
  bufSize : after.bufSize = info.bufSize
  before : info.productorOffset < info.bufSize
  later : after.productorOffset < info.bufSize
  offsets : ∀ slot, (info.frameIdx slot).offset < info.bufSize
  entries : ∀ slot, slot ≠ info.productorIndex →
    after.frameIdx slot = info.frameIdx slot
  index : after.productorIndex = info.productorIndex ∨
    after.productorIndex = advanceIndex info.productorIndex 1

/-- A frame that the productor has not come to, neither its offset to the
frame's start nor its index to the frame's slot. -/
def Stays (info after : RingBufInfo) (frame : Nat × FrameIndex) : Prop :=
  info.bufferLen info.productorOffset after.productorOffset <
      info.bufferLen info.productorOffset frame.2.offset ∧
    frame.1 ≠ after.productorIndex

instance (info after : RingBufInfo) : DecidablePred (Stays info after) :=
  fun _ => inferInstanceAs (Decidable (_ ∧ _))

namespace Moved

open RingBufInfo

variable {info after : RingBufInfo} (moved : Moved info after)
variable {slot bound : Nat} {trail : List (Nat × FrameIndex)}

include moved

theorem positive : 0 < info.bufSize :=
  Nat.zero_lt_of_lt moved.before

theorem travelled_lt :
    info.bufferLen info.productorOffset after.productorOffset <
      info.bufSize :=
  Nat.mod_lt _ moved.positive

theorem distance_eq (entry : after.frameIdx slot = info.frameIdx slot) :
    after.distance slot =
      (info.distance slot +
          info.bufferLen info.productorOffset after.productorOffset) %
        info.bufSize := by
  unfold distance
  rw [entry, bufferLen_eq_gap (moved.offsets slot) moved.before,
    bufferLen_eq_gap moved.before moved.later,
    ← gap_advance_last (moved.offsets slot) moved.before
      (gap_lt moved.before moved.later), add_gap_mod moved.before moved.later]
  unfold bufferLen
  rw [moved.bufSize, mod_eq_gap (moved.offsets slot) moved.later]

/-- The productor does not come to a frame it is far enough from. -/
theorem distance_add (entry : after.frameIdx slot = info.frameIdx slot)
    (far : info.distance slot +
      info.bufferLen info.productorOffset after.productorOffset <
        info.bufSize) :
    after.distance slot = info.distance slot +
      info.bufferLen info.productorOffset after.productorOffset := by
  rw [moved.distance_eq entry, Nat.mod_eq_of_lt far]

/-- A frame that the productor passes is then nearer than it has moved. -/
theorem distance_lt_travelled
    (entry : after.frameIdx slot = info.frameIdx slot)
    (passed : info.bufSize ≤ info.distance slot +
      info.bufferLen info.productorOffset after.productorOffset) :
    after.distance slot <
      info.bufferLen info.productorOffset after.productorOffset := by
  have near : info.distance slot < info.bufSize :=
    distance_lt (moved.offsets slot)
  have short := moved.travelled_lt
  rw [moved.distance_eq entry, Nat.mod_eq_sub_mod passed,
    Nat.mod_eq_of_lt (by omega)]
  omega

theorem stays_iff (behind : 0 < info.distance slot) :
    Stays info after (slot, info.frameIdx slot) ↔
      info.distance slot +
          info.bufferLen info.productorOffset after.productorOffset <
        info.bufSize ∧ slot ≠ after.productorIndex := by
  have start := moved.offsets slot
  have apart : info.productorOffset ≠ (info.frameIdx slot).offset := by
    intro same
    rw [distance, bufferLen_eq_gap start moved.before, same, gap_self] at behind
    exact Nat.lt_irrefl 0 behind
  have round : info.bufferLen info.productorOffset
      (info.frameIdx slot).offset + info.distance slot = info.bufSize := by
    rw [distance, bufferLen_eq_gap start moved.before,
      bufferLen_eq_gap moved.before start]
    exact gap_add_gap moved.before start apart
  unfold Stays
  dsimp only
  constructor
  · rintro ⟨far, different⟩
    exact ⟨by omega, different⟩
  · rintro ⟨far, different⟩
    exact ⟨by omega, different⟩

/-- Behind a frame that the productor has come to it has come to all. -/
theorem filter_stays_nil {frame : Nat × FrameIndex}
    {older : List (Nat × FrameIndex)}
    (indexed : info.productorIndex < MAX_FRAME_NUM)
    (holds : info.Trail slot bound (frame :: older))
    (reached : ¬ Stays info after frame) :
    older.filter (Stays info after) = [] := by
  obtain ⟨isFrame, different, positive, farther, later⟩ :=
    trail_cons_iff.mp holds
  rw [isFrame, moved.stays_iff (by omega)] at reached
  by_cases same : slot = after.productorIndex
  · -- the table is full, and the frame is its oldest
    have collides : after.productorIndex =
        advanceIndex info.productorIndex 1 :=
      moved.index.resolve_left fun still => different (same.trans still)
    have back : stepbackIndex slot 1 = info.productorIndex := by
      rw [same, collides]
      exact stepbackIndex_advanceIndex indexed
    cases older with
    | nil => rfl
    | cons next older => exact absurd back later.2.1
  · apply List.filter_eq_nil_iff.mpr
    intro other member stays
    obtain ⟨isEntry, _, nonempty, behind⟩ := later.mem member
    rw [isEntry, decide_eq_true_eq, moved.stays_iff (by omega)] at stays
    apply reached
    exact ⟨by omega, same⟩

/-- The frames of a trail that the productor has not come to are one. -/
theorem trail_filter (indexed : info.productorIndex < MAX_FRAME_NUM)
    (inside : slot < MAX_FRAME_NUM)
    (old : slot ≠ info.productorIndex ∨
      after.productorIndex = info.productorIndex)
    (holds : info.Trail slot bound trail)
    (far : bound +
      info.bufferLen info.productorOffset after.productorOffset <
        info.bufSize) :
    after.Trail slot
      (bound + info.bufferLen info.productorOffset after.productorOffset)
      (trail.filter (Stays info after)) := by
  induction trail generalizing slot bound with
  | nil =>
      by_cases atProductor : slot = info.productorIndex
      · exact .inl (atProductor.trans
          (old.resolve_left fun different => different atProductor).symm)
      · have near : info.distance slot ≤ bound :=
          holds.resolve_left atProductor
        right
        rw [moved.distance_add (moved.entries slot atProductor) (by omega)]
        omega
  | cons frame older ih =>
      obtain ⟨isFrame, different, positive, farther, later⟩ :=
        trail_cons_iff.mp holds
      have entry := moved.entries slot different
      by_cases stays : Stays info after frame
      · rw [List.filter_cons_of_pos (by simpa using stays)]
        rw [isFrame, moved.stays_iff (by omega)] at stays
        obtain ⟨away, apart⟩ := stays
        have moves := moved.distance_add entry away
        have olderSlot : stepbackIndex slot 1 ≠ info.productorIndex ∨
            after.productorIndex = info.productorIndex := by
          rcases moved.index with still | collides
          · exact .inr still
          · left
            intro back
            apply apart
            rw [collides, ← back, advanceIndex_stepbackIndex inside]
        refine trail_cons_iff.mpr
          ⟨by rw [entry]; exact isFrame, apart, positive, by omega, ?_⟩
        rw [moves]
        exact ih (stepbackIndex_lt slot 1) olderSlot later away
      · rw [List.filter_cons_of_neg (by simpa using stays),
          moved.filter_stays_nil indexed holds stays]
        rw [isFrame, moved.stays_iff (by omega)] at stays
        by_cases same : slot = after.productorIndex
        · exact .inl same
        · have passed := moved.distance_lt_travelled entry
            (Nat.le_of_not_lt fun away => stays ⟨away, same⟩)
          right
          omega

end Moved

end CRingBuf

end MbedtlsKcp
