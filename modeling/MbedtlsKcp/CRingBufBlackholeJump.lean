import MbedtlsKcp.CRingBufHoleTable
import MbedtlsKcp.CyclicSpans

/-!
# Jumping over black holes

Seen from the productor, a hole that the productor is not inside of is a span.
`BlackHoleSortMerge` merges these spans and `BlackholeJump` looks for the first
fit between them.  The loops compare raw offsets; a hole that ends where the
productor stands looks to them like one that ends at distance zero, so the
answer is the first fit only when some gap takes the bytes.
-/

namespace MbedtlsKcp

namespace CRingBuf

open CyclicSpans CyclicWindows FallibleSteps

/-- A hole with offsets in the buffer and at least one byte. -/
structure BlackHole.Placed (hole : BlackHole) (bufSize : Nat) : Prop where
  start : hole.startOffset < bufSize
  stop : hole.endOffset < bufSize
  proper : hole.startOffset ≠ hole.endOffset

/-- The hole as it is seen from an offset. -/
def BlackHole.span (hole : BlackHole) (bufSize origin : Nat) : Span :=
  arc bufSize origin hole.startOffset hole.endOffset

section Offsets

variable {bufSize origin : Nat} {hole : BlackHole}

theorem BlackHole.Placed.span_proper (origin : Nat)
    (placed : hole.Placed bufSize) :
    (hole.span bufSize origin).start < (hole.span bufSize origin).stop := by
  have positive : gap bufSize hole.startOffset hole.endOffset ≠ 0 := by
    rw [Ne, gap_eq_zero_iff placed.start]
    exact placed.proper
  unfold BlackHole.span arc
  dsimp only
  omega

theorem BlackHole.Placed.span_short (origin : Nat)
    (placed : hole.Placed bufSize) :
    (hole.span bufSize origin).stop - (hole.span bufSize origin).start <
      bufSize := by
  have length := gap_lt placed.start placed.stop
  unfold BlackHole.span arc
  dsimp only
  omega

theorem BlackHole.Placed.endOffset_eq (placed : hole.Placed bufSize)
    (bounded : origin < bufSize) :
    hole.endOffset = (origin + (hole.span bufSize origin).stop) % bufSize := by
  unfold BlackHole.span arc
  dsimp only
  rw [← Nat.add_assoc, ← Nat.mod_add_mod, add_gap_mod bounded placed.start,
    add_gap_mod placed.start placed.stop]

theorem BlackHole.Placed.startOffset_eq (placed : hole.Placed bufSize)
    (bounded : origin < bufSize) :
    hole.startOffset = (origin + (hole.span bufSize origin).start) % bufSize :=
  (add_gap_mod bounded placed.start).symm

/-- A hole between two offsets that are given by their distances. -/
theorem BlackHole.placed_of_distances {start stop : Nat}
    (bounded : origin < bufSize)
    (isStart : hole.startOffset = (origin + start) % bufSize)
    (isStop : hole.endOffset = (origin + stop) % bufSize)
    (startBounded : start < bufSize) (proper : start < stop)
    (notWhole : stop - start < bufSize) :
    hole.Placed bufSize ∧ hole.span bufSize origin = ⟨start, stop⟩ := by
  have positive : 0 < bufSize := by omega
  have far : gap bufSize hole.startOffset hole.endOffset = stop - start := by
    rw [isStart, isStop]
    exact gap_mod_mod (by omega) notWhole
  have startInside : hole.startOffset < bufSize :=
    isStart ▸ Nat.mod_lt _ positive
  refine ⟨⟨startInside, isStop ▸ Nat.mod_lt _ positive, ?_⟩, ?_⟩
  · rw [Ne, ← gap_eq_zero_iff startInside]
    omega
  · have near : gap bufSize origin hole.startOffset = start := by
      rw [isStart]
      exact gap_add_mod bounded startBounded
    rw [span, arc, near, far, Nat.add_sub_of_le (Nat.le_of_lt proper)]

/-- The test of `BlackholeJump` is right but for a hole that ends where the
write starts. -/
theorem clearsHole_iff {first count : Nat} (bounded : origin < bufSize)
    (placed : hole.Placed bufSize)
    (inside : (hole.span bufSize origin).stop ≤ bufSize)
    (before : first ≤ (hole.span bufSize origin).start)
    (positive : 0 < count) (short : count < bufSize) :
    RingBufInfo.clearsHole ((origin + first) % bufSize)
        (((origin + first) % bufSize + count) % bufSize) hole ↔
      first + count ≤ (hole.span bufSize origin).start ∧
        ¬ (first = 0 ∧ (hole.span bufSize origin).stop = bufSize) := by
  obtain ⟨start, stop, proper⟩ := placed
  have near := gap_lt bounded start
  have length := gap_lt start stop
  unfold BlackHole.span arc at inside before ⊢
  dsimp only at inside before ⊢
  unfold RingBufInfo.clearsHole
  obtain ⟨x, isX⟩ : ∃ x, x = (origin + first) % bufSize := ⟨_, rfl⟩
  obtain ⟨y, isY⟩ : ∃ y, y = (x + count) % bufSize := ⟨_, rfl⟩
  have xBounded : x < bufSize := isX ▸ Nat.mod_lt _ (by omega)
  rw [← isX, ← isY]
  rw [mod_of_lt_double (by omega)] at isX isY
  unfold gap at *
  split_ifs at * <;> omega

end Offsets

namespace RingBufInfo

variable {info : RingBufInfo} {origin : Nat}

/-- The jumping loop ends at the first fit. -/
theorem jumpHoles_eq {writeLength alignment : Nat} {holes : List BlackHole}
    {first : Nat} (bounded : origin < info.bufSize)
    (placed : ∀ hole ∈ holes, hole.Placed info.bufSize)
    (inside : ∀ hole ∈ holes,
      (hole.span info.bufSize origin).stop ≤ info.bufSize)
    (ahead : Ahead (holes.map fun hole => hole.span info.bufSize origin) first)
    (positive : 0 < writeLength + alignment)
    (short : writeLength + alignment < info.bufSize) :
    info.jumpHoles writeLength alignment holes
        ((origin + first) % info.bufSize) =
      (origin + firstFit (writeLength + alignment)
        (holes.map fun hole => hole.span info.bufSize origin) first) %
        info.bufSize := by
  induction holes generalizing first with
  | nil => rfl
  | cons hole holes ih =>
      have isPlaced := placed hole List.mem_cons_self
      have isInside := inside hole List.mem_cons_self
      have before := ahead.behind (hole.span info.bufSize origin) (by simp)
      have rest := ih (fun other member => placed other (by simp [member]))
        (fun other member => inside other (by simp [member])) ahead.tail
      rw [← isPlaced.endOffset_eq bounded] at rest
      rw [jumpHoles, advanceOffset2, Nat.add_assoc _ writeLength,
        List.map_cons, firstFit]
      simp only [clearsHole_iff bounded isPlaced isInside before positive short]
      by_cases fits : first + (writeLength + alignment) ≤
          (hole.span info.bufSize origin).start
      swap
      · rw [if_neg (fun both => fits both.1), if_neg fits]
        exact rest
      rw [if_pos fits]
      by_cases around : first = 0 ∧
          (hole.span info.bufSize origin).stop = info.bufSize
      · -- the hole ends where the search started, and no other hole follows
        have last : holes = [] := by
          apply List.eq_nil_iff_forall_not_mem.mpr
          intro other member
          have behind : (hole.span info.bufSize origin).stop ≤
              (other.span info.bufSize origin).start :=
            ahead.tail.behind _ (List.mem_map_of_mem member)
          have near : (other.span info.bufSize origin).start < info.bufSize :=
            gap_lt bounded (placed other (by simp [member])).start
          omega
        rw [if_neg (fun both => both.2 around), last, jumpHoles,
          isPlaced.endOffset_eq bounded, around.1, around.2]
        simp
      · rw [if_pos ⟨fits, around⟩]

/-- A hole that leaves a position at a distance from the origin. -/
structure Seen (bufSize origin free : Nat) (hole : BlackHole) : Prop where
  placed : hole.Placed bufSize
  leaves : (hole.span bufSize origin).Leaves bufSize free

/-- A round of the merging loop adds the span of its hole. -/
theorem mergeHole_eq_absorb {free : Nat} {ordered : Bool}
    {merged result : List BlackHole} {hole : BlackHole}
    (freeBounded : free < info.bufSize) (bounded : origin < info.bufSize)
    (seen : ∀ other ∈ hole :: merged, Seen info.bufSize origin free other)
    (precedes : Precedes
      (merged.map fun other => other.span info.bufSize origin)
      (hole.span info.bufSize origin))
    (steps : info.mergeHole ordered merged hole = .ok result) :
    (∀ other ∈ result, Seen info.bufSize origin free other) ∧
      result.map (fun other => other.span info.bufSize origin) =
        absorb (merged.map fun other => other.span info.bufSize origin)
          (hole.span info.bufSize origin) := by
  cases merged with
  | nil =>
      obtain rfl := Except.ok.inj steps
      exact ⟨seen, rfl⟩
  | cons last others =>
      obtain ⟨placed, leaves⟩ := seen hole List.mem_cons_self
      obtain ⟨lastPlaced, lastLeaves⟩ := seen last (by simp)
      have before : (last.span info.bufSize origin).start ≤
          (hole.span info.bufSize origin).start := precedes _ rfl
      have proper := placed.span_proper origin
      have lastProper := lastPlaced.span_proper origin
      have lastShort := lastPlaced.span_short origin
      have lastStart := lastPlaced.startOffset_eq bounded
      have startBounded :
          (hole.span info.bufSize origin).start < info.bufSize :=
        gap_lt bounded placed.start
      have distance : info.bufferLen last.startOffset hole.startOffset =
          (hole.span info.bufSize origin).start -
            (last.span info.bufSize origin).start := by
        rw [bufferLen_eq_gap lastPlaced.start placed.start, lastStart,
          placed.startOffset_eq bounded]
        exact gap_mod_mod before (by omega)
      have length : info.bufferLen last.startOffset last.endOffset =
          (last.span info.bufSize origin).stop -
            (last.span info.bufSize origin).start := by
        rw [bufferLen_eq_gap lastPlaced.start lastPlaced.stop]
        exact (Nat.add_sub_cancel_left _ _).symm
      rw [mergeHole] at steps
      split at steps
      · cases steps
      dsimp only at steps
      rw [distance, length] at steps
      rw [List.map_cons, absorb]
      by_cases touches : (hole.span info.bufSize origin).start ≤
          (last.span info.bufSize origin).stop
      swap
      · rw [if_neg (by omega)] at steps
        obtain rfl := Except.ok.inj steps
        rw [if_neg touches]
        exact ⟨seen, rfl⟩
      have notWhole := lastLeaves.stop_lt leaves freeBounded touches
      have newLength : info.bufferLen last.startOffset hole.endOffset =
          (hole.span info.bufSize origin).stop -
            (last.span info.bufSize origin).start := by
        rw [bufferLen_eq_gap lastPlaced.start placed.stop, lastStart,
          placed.endOffset_eq bounded]
        exact gap_mod_mod (by omega) (by omega)
      rw [if_pos (by omega), newLength] at steps
      obtain rfl := Except.ok.inj steps
      rw [if_pos touches]
      obtain ⟨joined, isJoined⟩ : ∃ joined : BlackHole, joined =
          { last with
            endOffset :=
              if (last.span info.bufSize origin).stop -
                    (last.span info.bufSize origin).start ≤
                  (hole.span info.bufSize origin).stop -
                    (last.span info.bufSize origin).start then
                info.advanceOffset last.startOffset
                  ((hole.span info.bufSize origin).stop -
                    (last.span info.bufSize origin).start)
              else last.endOffset
            blockerName := mergedName last.blockerName hole.blockerName } :=
        ⟨_, rfl⟩
      have start : joined.startOffset = last.startOffset := by rw [isJoined]
      have stop : joined.endOffset =
          (origin + max (last.span info.bufSize origin).stop
            (hole.span info.bufSize origin).stop) % info.bufSize := by
        rw [isJoined]
        dsimp only
        split
        · rw [advanceOffset, lastStart, Nat.mod_add_mod, Nat.max_eq_right
            (by omega)]
          congr 1
          omega
        · rw [Nat.max_eq_left (by omega)]
          exact lastPlaced.endOffset_eq bounded
      obtain ⟨joinedPlaced, joinedSpan⟩ := BlackHole.placed_of_distances bounded
        (start.trans lastStart) stop (by omega) (by omega) (by omega)
      rw [← isJoined]
      refine ⟨?_, by rw [List.map_cons, joinedSpan]⟩
      intro other member
      rcases List.mem_cons.mp member with rfl | old
      · refine ⟨joinedPlaced, ?_⟩
        rw [joinedSpan]
        exact lastLeaves.join leaves touches
      · exact seen other (by simp [old])

/-- The merged holes, the last one first, after some holes were merged. -/
structure MergeState (info : RingBufInfo) (origin free : Nat)
    (merged done : List BlackHole) : Prop where
  seen : ∀ hole ∈ merged, Seen info.bufSize origin free hole
  stacked : Stacked (merged.map fun hole => hole.span info.bufSize origin)
  covers : ∀ hole ∈ done, ∃ whole ∈ merged.map fun hole =>
      hole.span info.bufSize origin,
    whole.start ≤ (hole.span info.bufSize origin).start ∧
      (hole.span info.bufSize origin).stop ≤ whole.stop
  parts : ∀ whole ∈ merged.map fun hole => hole.span info.bufSize origin,
    ∀ position, whole.Contains position → ∃ hole ∈ done,
      (hole.span info.bufSize origin).Contains position

theorem MergeState.round {free : Nat} {ordered : Bool}
    {merged done result : List BlackHole} {hole : BlackHole}
    (freeBounded : free < info.bufSize) (bounded : origin < info.bufSize)
    (state : MergeState info origin free merged done)
    (seen : Seen info.bufSize origin free hole)
    (precedes : Precedes
      (merged.map fun other => other.span info.bufSize origin)
      (hole.span info.bufSize origin))
    (steps : info.mergeHole ordered merged hole = .ok result) :
    MergeState info origin free result (done ++ [hole]) ∧
      result.map (fun other => other.span info.bufSize origin) =
        absorb (merged.map fun other => other.span info.bufSize origin)
          (hole.span info.bufSize origin) := by
  have both : ∀ other ∈ hole :: merged,
      Seen info.bufSize origin free other := by
    intro other member
    rcases List.mem_cons.mp member with rfl | old
    · exact seen
    · exact state.seen other old
  obtain ⟨seenResult, spans⟩ :=
    mergeHole_eq_absorb freeBounded bounded both precedes steps
  refine ⟨⟨seenResult, ?_, ?_, ?_⟩, spans⟩
  · rw [spans]
    exact state.stacked.absorb (seen.placed.span_proper _) precedes
  · rw [spans]
    intro other member
    rcases List.mem_append.mp member with old | isLast
    · obtain ⟨part, isPart, start, stop⟩ := state.covers other old
      obtain ⟨whole, isWhole, start', stop'⟩ := exists_absorb_of_mem precedes
        (List.mem_cons_of_mem _ isPart)
      exact ⟨whole, isWhole, Nat.le_trans start' start,
        Nat.le_trans stop stop'⟩
    · obtain rfl := List.mem_singleton.mp isLast
      exact exists_absorb_of_mem precedes List.mem_cons_self
  · rw [spans]
    intro whole member position contains
    obtain ⟨part, isPart, partContains⟩ :=
      exists_contains_of_mem_absorb member contains
    rcases List.mem_cons.mp isPart with rfl | old
    · exact ⟨hole, by simp, partContains⟩
    · obtain ⟨other, isDone, otherContains⟩ :=
        state.parts part old position partContains
      exact ⟨other, List.mem_append_left _ isDone, otherContains⟩

/-- The merging loop over holes whose spans ascend. -/
theorem MergeState.loop {free : Nat} {ordered : Bool}
    {merged done holes result : List BlackHole}
    (freeBounded : free < info.bufSize) (bounded : origin < info.bufSize)
    (state : MergeState info origin free merged done)
    (seen : ∀ hole ∈ holes, Seen info.bufSize origin free hole)
    (ascending : holes.Pairwise fun first second =>
      (first.span info.bufSize origin).start ≤
        (second.span info.bufSize origin).start)
    (precedes : ∀ hole ∈ holes, Precedes
      (merged.map fun other => other.span info.bufSize origin)
      (hole.span info.bufSize origin))
    (loops : holes.foldlM (info.mergeHole ordered) merged = .ok result) :
    MergeState info origin free result (done ++ holes) := by
  induction holes generalizing merged done with
  | nil =>
      obtain rfl := pure_eq_ok_iff.mp loops
      rw [List.append_nil]
      exact state
  | cons hole holes ih =>
      rw [List.foldlM_cons, bind_eq_ok_iff] at loops
      obtain ⟨middle, steps, rest⟩ := loops
      obtain ⟨first, ascending⟩ := List.pairwise_cons.mp ascending
      have isSeen := seen hole List.mem_cons_self
      have before := precedes hole List.mem_cons_self
      obtain ⟨next, spans⟩ :=
        state.round freeBounded bounded isSeen before steps
      have last := ih next (fun other member => seen other (by simp [member]))
        ascending
        (fun other member => by
          rw [spans]
          exact precedes_absorb before (first other member)) rest
      rwa [List.append_assoc] at last

/-- The assertion on the order only decides whether the loop goes on. -/
theorem mergeHoles_unordered {holes merged result : List BlackHole}
    (loops : holes.foldlM (info.mergeHole true) merged = .ok result) :
    holes.foldlM (info.mergeHole false) merged = .ok result := by
  induction holes generalizing merged with
  | nil => exact loops
  | cons hole holes ih =>
      rw [List.foldlM_cons, bind_eq_ok_iff] at loops ⊢
      obtain ⟨middle, steps, rest⟩ := loops
      refine ⟨middle, ?_, ih rest⟩
      cases merged with
      | nil => exact steps
      | cons last others =>
          rw [mergeHole] at steps ⊢
          split at steps
          · cases steps
          · rw [if_neg (by simp)]
            exact steps

/-- The table from the first hole at or after an offset on, seen from that
offset. -/
theorem ascending_rotated {holes : List BlackHole} {bufSize : Nat}
    (bounded : origin < bufSize) (placed : ∀ hole ∈ holes, hole.Placed bufSize)
    (sorted : holes.Pairwise BlackHole.Before) :
    let nearestHole := holes.findIdx fun hole => origin ≤ hole.startOffset
    (holes.drop nearestHole ++ holes.take nearestHole).Pairwise
      fun first second => (first.span bufSize origin).start ≤
        (second.span bufSize origin).start := by
  intro nearestHole
  have starts : holes.Pairwise fun first second =>
      first.startOffset ≤ second.startOffset := by
    apply sorted.imp
    intro first second before
    unfold BlackHole.Before at before
    omega
  have earlier : ∀ hole ∈ holes.take nearestHole,
      hole.startOffset < origin := by
    intro hole member
    obtain ⟨i, inside, rfl⟩ := List.mem_take_iff_getElem.mp member
    have isBefore : decide (origin ≤ holes[i].startOffset) = false :=
      List.not_of_lt_findIdx (p := fun hole : BlackHole =>
        origin ≤ hole.startOffset) (i := i) (by omega)
    simpa using isBefore
  have later : ∀ hole ∈ holes.drop nearestHole,
      origin ≤ hole.startOffset := by
    intro hole member
    obtain ⟨i, inside, rfl⟩ := List.mem_drop_iff_getElem.mp member
    have isFound : nearestHole < holes.length := by omega
    have found : origin ≤ holes[nearestHole].startOffset := by
      simpa using List.findIdx_getElem (p := fun hole : BlackHole =>
        origin ≤ hole.startOffset) (w := isFound)
    rcases Nat.eq_zero_or_pos i with rfl | positive
    · exact found
    · have := List.pairwise_iff_getElem.mp starts nearestHole (nearestHole + i)
        (by omega) (by omega) (by omega)
      omega
  have near : ∀ first second : BlackHole, first.startOffset < bufSize →
      second.startOffset < bufSize →
      first.startOffset ≤ second.startOffset →
      (origin ≤ first.startOffset ∨ second.startOffset < origin) →
      (first.span bufSize origin).start ≤
        (second.span bufSize origin).start := by
    intro first second firstInside secondInside before sameSide
    unfold BlackHole.span arc gap
    dsimp only
    split_ifs <;> omega
  apply List.pairwise_append.mpr
  refine ⟨?_, ?_, ?_⟩
  · apply (starts.sublist (List.drop_sublist _ _)).imp_of_mem
    intro first second isFirst isSecond before
    exact near first second (placed _ (List.mem_of_mem_drop isFirst)).start
      (placed _ (List.mem_of_mem_drop isSecond)).start before
      (.inl (later first isFirst))
  · apply (starts.sublist (List.take_sublist _ _)).imp_of_mem
    intro first second isFirst isSecond before
    exact near first second (placed _ (List.mem_of_mem_take isFirst)).start
      (placed _ (List.mem_of_mem_take isSecond)).start before
      (.inr (earlier second isSecond))
  · intro first isFirst second isSecond
    have firstInside := (placed _ (List.mem_of_mem_drop isFirst)).start
    have isLater := later first isFirst
    have isEarlier := earlier second isSecond
    unfold BlackHole.span arc gap
    dsimp only
    split_ifs <;> omega

/-- `BlackHoleSortMerge` of a sorted table answers the merged spans of all its
holes. -/
theorem mergeState_blackHoleSortMerge {free : Nat}
    {merged : List BlackHole} (freeBounded : free < info.bufSize)
    (bounded : origin < info.bufSize)
    (sorted : info.holes.Pairwise BlackHole.Before)
    (seen : ∀ hole ∈ info.holes, Seen info.bufSize origin free hole)
    (merges : info.blackHoleSortMerge origin = .ok merged) :
    MergeState info origin free merged.reverse info.holes := by
  have placed : ∀ hole ∈ info.holes, hole.Placed info.bufSize :=
    fun hole member => (seen hole member).placed
  have ascending := ascending_rotated bounded placed sorted
  dsimp only at ascending
  obtain ⟨nearestHole, isNearest⟩ : ∃ nearestHole, nearestHole =
      info.holes.findIdx fun hole => origin ≤ hole.startOffset := ⟨_, rfl⟩
  rw [← isNearest] at ascending
  unfold blackHoleSortMerge at merges
  dsimp only at merges
  rw [← isNearest] at merges
  -- in every case the loops go over the table from `nearestHole` on
  have parts : ∃ first second, (if nearestHole = 0 ∨
        nearestHole = info.holes.length then (info.holes, [])
      else (info.holes.drop nearestHole, info.holes.take nearestHole)) =
        (first, second) ∧ first ++ second =
          info.holes.drop nearestHole ++ info.holes.take nearestHole := by
    split
    · rename_i whole
      refine ⟨_, _, rfl, ?_⟩
      rcases whole with rfl | rfl
      · simp
      · simp
    · exact ⟨_, _, rfl, rfl⟩
  obtain ⟨first, second, split, parts⟩ := parts
  rw [split] at merges
  obtain ⟨middle, firstLoop, rest⟩ := bind_eq_ok_iff.mp merges
  obtain ⟨last, secondLoop, rest⟩ := bind_eq_ok_iff.mp rest
  have loops : (first ++ second).foldlM (info.mergeHole false) [] =
      .ok last := by
    rw [List.foldlM_append, bind_eq_ok_iff]
    exact ⟨middle, mergeHoles_unordered firstLoop, secondLoop⟩
  have isReverse : merged.reverse = last := by
    split at rest
    · rw [← pure_eq_ok_iff.mp rest, List.reverse_reverse]
    · cases rest
  rw [parts] at loops
  have same : ∀ hole, hole ∈ info.holes.drop nearestHole ++
      info.holes.take nearestHole ↔ hole ∈ info.holes := by
    intro hole
    rw [List.mem_append, or_comm, ← List.mem_append, List.take_append_drop]
  have start : MergeState info origin free [] [] :=
    { seen := fun _ member => (nomatch member)
      stacked := ⟨List.Pairwise.nil, fun _ member => (nomatch member)⟩
      covers := fun _ member => (nomatch member)
      parts := fun _ member => (nomatch member) }
  have final := start.loop freeBounded bounded
    (fun hole member => seen hole ((same hole).mp member)) ascending
    (fun _ _ _ isHead => nomatch isHead) loops
  rw [isReverse]
  exact
    { seen := final.seen
      stacked := final.stacked
      covers := fun hole member => final.covers hole ((same hole).mpr member)
      parts := fun whole member position contains => by
        obtain ⟨hole, isHole, within⟩ :=
          final.parts whole member position contains
        exact ⟨hole, (same hole).mp isHole, within⟩ }

/-- Merged holes in the order in which they are jumped over. -/
structure MergedHoles (info : RingBufInfo) (origin free : Nat)
    (merged : List BlackHole) : Prop where
  seen : ∀ whole ∈ merged, Seen info.bufSize origin free whole
  ahead : Ahead (merged.map fun whole => whole.span info.bufSize origin) 0
  covers : ∀ hole ∈ info.holes, ∃ whole ∈ merged,
    (whole.span info.bufSize origin).start ≤
        (hole.span info.bufSize origin).start ∧
      (hole.span info.bufSize origin).stop ≤
        (whole.span info.bufSize origin).stop
  parts : ∀ whole ∈ merged, ∀ position,
    (whole.span info.bufSize origin).Contains position →
      ∃ hole ∈ info.holes,
        (hole.span info.bufSize origin).Contains position

theorem mergedHoles_blackHoleSortMerge {free : Nat} {merged : List BlackHole}
    (freeBounded : free < info.bufSize) (bounded : origin < info.bufSize)
    (sorted : info.holes.Pairwise BlackHole.Before)
    (seen : ∀ hole ∈ info.holes, Seen info.bufSize origin free hole)
    (merges : info.blackHoleSortMerge origin = .ok merged) :
    MergedHoles info origin free merged := by
  have state :=
    mergeState_blackHoleSortMerge freeBounded bounded sorted seen merges
  have ahead := state.stacked.ahead_reverse
  rw [List.map_reverse, List.reverse_reverse] at ahead
  have isSpan : ∀ whole ∈ merged, whole.span info.bufSize origin ∈
      merged.reverse.map fun hole => hole.span info.bufSize origin :=
    fun whole member => List.mem_map_of_mem (List.mem_reverse.mpr member)
  exact
    { seen := fun whole member => state.seen whole (List.mem_reverse.mpr member)
      ahead := ahead
      covers := fun hole member => by
        obtain ⟨span, isSpan, within⟩ := state.covers hole member
        obtain ⟨whole, isWhole, rfl⟩ := List.mem_map.mp isSpan
        exact ⟨whole, List.mem_reverse.mp isWhole, within⟩
      parts := fun whole member => state.parts _ (isSpan whole member) }

section Merged

variable {free : Nat} {merged : List BlackHole}

theorem MergedHoles.proper (holds : MergedHoles info origin free merged)
    {whole : BlackHole} (member : whole ∈ merged) :
    (whole.span info.bufSize origin).start <
      (whole.span info.bufSize origin).stop :=
  (holds.seen whole member).placed.span_proper origin

/-- A merged hole ends with some hole. -/
theorem MergedHoles.exists_stop (holds : MergedHoles info origin free merged)
    {whole : BlackHole} (member : whole ∈ merged) :
    ∃ hole ∈ info.holes, (whole.span info.bufSize origin).stop ≤
      (hole.span info.bufSize origin).stop := by
  have proper := holds.proper member
  obtain ⟨hole, isHole, within⟩ := holds.parts whole member
    ((whole.span info.bufSize origin).stop - 1) ⟨by omega, by omega⟩
  unfold Span.Contains at within
  exact ⟨hole, isHole, by omega⟩

/-- Merged spans avoid what all holes avoid. -/
theorem MergedHoles.avoids {first count : Nat}
    (holds : MergedHoles info origin free merged) (positive : 0 < count)
    (avoided : ∀ hole ∈ info.holes,
      (hole.span info.bufSize origin).Avoids first count)
    {whole : BlackHole} (member : whole ∈ merged) :
    (whole.span info.bufSize origin).Avoids first count := by
  have proper := holds.proper member
  by_contra meets
  unfold Span.Avoids at meets
  obtain ⟨hole, isHole, within⟩ := holds.parts whole member
    (max first (whole.span info.bufSize origin).start) ⟨by omega, by omega⟩
  have apart := avoided hole isHole
  unfold Span.Avoids at apart
  unfold Span.Contains at within
  omega

/-- The first fit between the merged spans avoids the holes. -/
theorem MergedHoles.avoids_firstFit (count : Nat)
    (holds : MergedHoles info origin free merged) :
    ∀ hole ∈ info.holes, (hole.span info.bufSize origin).Avoids
      (firstFit count (merged.map fun whole => whole.span info.bufSize origin)
        0) count := by
  intro hole member
  obtain ⟨whole, isWhole, start, stop⟩ := holds.covers hole member
  have apart : Span.Avoids _ _ count :=
    CyclicSpans.avoids_firstFit holds.ahead _ (List.mem_map_of_mem isWhole)
  unfold Span.Avoids at apart ⊢
  omega

/-- The jump goes over the merged holes. -/
theorem exists_mergedHoles {writeLength alignment jumped : Nat}
    (freeBounded : free < info.bufSize) (bounded : origin < info.bufSize)
    (sorted : info.holes.Pairwise BlackHole.Before)
    (seen : ∀ hole ∈ info.holes, Seen info.bufSize origin free hole)
    (jumps : info.blackholeJump origin writeLength alignment = .ok jumped) :
    ∃ merged, MergedHoles info origin free merged ∧
      info.jumpHoles writeLength alignment merged origin = jumped := by
  unfold blackholeJump at jumps
  split at jumps
  · rename_i noHole
    have empty := List.eq_nil_of_length_eq_zero noHole
    refine ⟨[], ⟨?_, ⟨List.Pairwise.nil, ?_, ?_⟩, ?_, ?_⟩,
      Except.ok.inj jumps⟩
    · exact fun _ member => nomatch member
    · exact fun _ member => nomatch member
    · exact fun _ member => nomatch member
    · rw [empty]
      exact fun _ member => nomatch member
    · exact fun _ member => nomatch member
  · obtain ⟨merged, merges, rest⟩ := bind_eq_ok_iff.mp jumps
    exact ⟨merged, mergedHoles_blackHoleSortMerge freeBounded bounded sorted
      seen merges, pure_eq_ok_iff.mp rest⟩

end Merged

/-- No hole goes beyond the offset, and if one ends there, some gap takes
`count` bytes. -/
structure ClearAt (info : RingBufInfo) (origin count : Nat) : Prop where
  inside : ∀ hole ∈ info.holes,
    (hole.span info.bufSize origin).stop ≤ info.bufSize
  fits : (∃ hole ∈ info.holes,
      (hole.span info.bufSize origin).stop = info.bufSize) →
    ∃ first, first + count ≤ info.bufSize ∧ ∀ hole ∈ info.holes,
      (hole.span info.bufSize origin).Avoids first count

/-- Where the productor is clear of the holes, it jumps to bytes that no hole
has. -/
theorem blackholeJump_avoids {writeLength alignment jumped : Nat}
    (bounded : origin < info.bufSize)
    (sorted : info.holes.Pairwise BlackHole.Before)
    (placed : ∀ hole ∈ info.holes, hole.Placed info.bufSize)
    (clear : info.ClearAt origin (writeLength + alignment))
    (positive : 0 < writeLength + alignment)
    (short : writeLength + alignment < info.bufSize)
    (jumps : info.blackholeJump origin writeLength alignment = .ok jumped) :
    jumped < info.bufSize ∧ ∀ hole ∈ info.holes,
      (hole.span info.bufSize origin).Avoids
        (gap info.bufSize origin jumped) (writeLength + alignment) := by
  obtain ⟨free, freeBounded, leaves, ends⟩ : ∃ free < info.bufSize,
      (∀ hole ∈ info.holes,
        (hole.span info.bufSize origin).Leaves info.bufSize free) ∧
      ((∀ hole ∈ info.holes,
          (hole.span info.bufSize origin).stop < info.bufSize) ∨
        ∀ hole ∈ info.holes, (hole.span info.bufSize origin).Avoids free
          (writeLength + alignment)) := by
    by_cases around : ∃ hole ∈ info.holes,
        (hole.span info.bufSize origin).stop = info.bufSize
    · obtain ⟨window, inside, free⟩ := clear.fits around
      exact ⟨window, by omega, fun hole member =>
        .of_avoids (free hole member) positive (clear.inside hole member),
        .inr free⟩
    · have short : ∀ hole ∈ info.holes,
          (hole.span info.bufSize origin).stop < info.bufSize := by
        intro hole member
        apply Nat.lt_of_le_of_ne (clear.inside hole member)
        exact fun ends => around ⟨hole, member, ends⟩
      refine ⟨info.bufSize - 1, by omega, ?_, .inl short⟩
      intro hole member
      have := short hole member
      exact .inl (by omega)
  obtain ⟨merged, holds, rfl⟩ := exists_mergedHoles freeBounded bounded sorted
    (fun hole member => ⟨placed hole member, leaves hole member⟩) jumps
  have inside : ∀ whole ∈ merged,
      (whole.span info.bufSize origin).stop ≤ info.bufSize := by
    intro whole member
    obtain ⟨hole, isHole, stop⟩ := holds.exists_stop member
    exact stop.trans (clear.inside hole isHole)
  have jump := jumpHoles_eq bounded
    (fun whole member => (holds.seen whole member).placed) inside holds.ahead
    positive short
  rw [Nat.add_zero, Nat.mod_eq_of_lt bounded] at jump
  have near : firstFit (writeLength + alignment)
      (merged.map fun whole => whole.span info.bufSize origin) 0 <
        info.bufSize := by
    rcases ends with short | avoided
    · apply firstFit_lt (by omega)
      intro span member
      obtain ⟨whole, isWhole, rfl⟩ := List.mem_map.mp member
      obtain ⟨hole, isHole, stop⟩ := holds.exists_stop isWhole
      exact stop.trans_lt (short hole isHole)
    · have before := firstFit_le (Nat.zero_le free) (fun span member => by
        obtain ⟨whole, isWhole, rfl⟩ := List.mem_map.mp member
        exact holds.avoids positive avoided isWhole)
      exact Nat.lt_of_le_of_lt before freeBounded
  rw [jump]
  refine ⟨Nat.mod_lt _ (by omega), ?_⟩
  rw [gap_add_mod bounded near]
  exact holds.avoids_firstFit (writeLength + alignment)

end RingBufInfo

end CRingBuf

end MbedtlsKcp
