import MbedtlsKcp.CRingBufSystem
import Mathlib.Data.List.Pairwise

/-!
# The hole table

The table has one slot for each consumer.  Its holes stay sorted and no blocker
has two, but a hole outlives the reader that it belongs to, so the table has
room for the frames of the present readers only as long as the holes and the
readers that hold a frame are not more than its slots.
-/

namespace MbedtlsKcp

namespace CRingBuf

open FallibleSteps TransitionRuns

/-- The order of the hole table. -/
def BlackHole.Before (first second : BlackHole) : Prop :=
  first.startOffset < second.startOffset ∨
    first.startOffset = second.startOffset ∧
      first.endOffset ≤ second.endOffset

/-- The hole goes behind all holes that are not after it. -/
theorem findInsertIdx_sorted (hole : BlackHole) {holes : List BlackHole}
    (sorted : holes.Pairwise BlackHole.Before)
    (timed : ∀ other ∈ holes, other.createTime ≠ 0)
    (unblocked : ∀ other ∈ holes, other.blockerName ≠ hole.blockerName) :
    ∃ i ≤ holes.length,
      findInsertIdx hole.blockerName hole.startOffset hole.endOffset holes =
        some i ∧
      (holes.insertIdx i hole).Pairwise BlackHole.Before := by
  induction holes with
  | nil => exact ⟨0, Nat.le_refl _, rfl, List.pairwise_singleton _ _⟩
  | cons other holes ih =>
      have isTimed := timed other List.mem_cons_self
      have isUnblocked := unblocked other List.mem_cons_self
      rw [List.pairwise_cons] at sorted
      rw [findInsertIdx]
      by_cases isAfter : other.createTime = 0 ∨
          hole.startOffset < other.startOffset ∨
          other.startOffset = hole.startOffset ∧
            hole.endOffset < other.endOffset
      · rw [if_pos isAfter]
        have first : hole.Before other := by
          unfold BlackHole.Before
          omega
        refine ⟨0, Nat.zero_le _, rfl, ?_⟩
        rw [List.insertIdx_zero, List.pairwise_cons]
        refine ⟨?_, List.pairwise_cons.mpr sorted⟩
        intro next member
        rcases List.mem_cons.mp member with rfl | member
        · exact first
        · have second := sorted.1 next member
          unfold BlackHole.Before at first second ⊢
          omega
      · rw [if_neg isAfter, if_neg isUnblocked]
        have first : other.Before hole := by
          unfold BlackHole.Before
          omega
        obtain ⟨i, inside, found, isSorted⟩ := ih sorted.2
          (fun next member => timed next (List.mem_cons_of_mem _ member))
          (fun next member => unblocked next (List.mem_cons_of_mem _ member))
        refine ⟨i + 1, Nat.succ_le_succ inside, by rw [found]; rfl, ?_⟩
        rw [List.insertIdx_succ_cons, List.pairwise_cons]
        refine ⟨?_, isSorted⟩
        intro next member
        rcases List.mem_cons.mp
          ((List.perm_insertIdx hole holes inside).mem_iff.mp member)
          with rfl | member
        · exact first
        · exact sorted.1 next member

namespace RingBufInfo

/-- The table has room, is sorted and has one hole for each blocker. -/
structure HoleTable (info : RingBufInfo) : Prop where
  short : info.holes.length ≤ MAX_CONSUMER_NUM
  sorted : info.holes.Pairwise BlackHole.Before
  distinct : (info.holes.map BlackHole.blockerName).Nodup

/-- The consumer of a slot holds a frame. -/
def holdsFrame (info : RingBufInfo) (i : Nat) : Prop :=
  info.validConsumer i ∧ (info.consumers i).state = .USER_HOLDING_FRAME

instance (info : RingBufInfo) (i : Nat) : Decidable (info.holdsFrame i) :=
  inferInstanceAs (Decidable (_ ∧ _))

/-- The consumers that hold a frame. -/
def holders (info : RingBufInfo) : List Nat :=
  (List.range MAX_CONSUMER_NUM).filter fun i => info.holdsFrame i

/-- The table with the consumers that may get a hole: they have different
names, and who holds a frame has no hole. -/
structure HoleInvariant (info : RingBufInfo) : Prop where
  table : info.HoleTable
  timed : ∀ hole ∈ info.holes, hole.createTime ≠ 0
  names : ∀ i j, info.validConsumer i → info.validConsumer j →
    (info.consumers i).name = (info.consumers j).name → i = j
  holding : ∀ i, info.holdsFrame i → ∀ hole ∈ info.holes,
    hole.blockerName ≠ (info.consumers i).name

/-- A change that keeps the names, drops holes and makes nobody hold a frame
keeps the invariant. -/
theorem HoleInvariant.mono {info after : RingBufInfo}
    (invariant : info.HoleInvariant)
    (names : ∀ i, info.validConsumer i → after.validConsumer i →
      (after.consumers i).name = (info.consumers i).name)
    (valid : ∀ i, after.validConsumer i → info.validConsumer i)
    (holding : ∀ i, after.holdsFrame i → info.holdsFrame i)
    (holes : after.holes.Sublist info.holes) : after.HoleInvariant where
  table :=
    { short := Nat.le_trans holes.length_le invariant.table.short
      sorted := invariant.table.sorted.sublist holes
      distinct := invariant.table.distinct.sublist (holes.map _) }
  timed hole member := invariant.timed hole (holes.subset member)
  names i j isValid isValid' same :=
    invariant.names i j (valid i isValid) (valid j isValid')
      ((names i (valid i isValid) isValid).symm.trans
        (same.trans (names j (valid j isValid') isValid')))
  holding i holds hole member := by
    rw [names i (valid i holds.1) holds.1]
    exact invariant.holding i (holding i holds) hole (holes.subset member)

/-- There is room for the holes of all consumers that hold a frame. -/
def Room (info : RingBufInfo) : Prop :=
  info.holes.length + info.holders.length ≤ MAX_CONSUMER_NUM

instance (info : RingBufInfo) : Decidable info.Room :=
  inferInstanceAs (Decidable (_ ≤ _))

theorem mem_holders {info : RingBufInfo} {i : Nat} :
    i ∈ info.holders ↔ info.holdsFrame i := by
  rw [holders, List.mem_filter, List.mem_range, decide_eq_true_eq]
  exact ⟨fun both => both.2, fun holds => ⟨holds.1.1, holds⟩⟩

theorem nodup_holders (info : RingBufInfo) : info.holders.Nodup :=
  List.nodup_range.filter _

/-- With fewer holders and fewer holes there is still room. -/
theorem Room.mono {info after : RingBufInfo} (room : info.Room)
    (holding : ∀ i, after.holdsFrame i → info.holdsFrame i)
    (holes : after.holes.length ≤ info.holes.length) : after.Room := by
  have fewer : after.holders.length ≤ info.holders.length := by
    apply (nodup_holders after).length_le_of_subset
    intro i member
    exact mem_holders.mpr (holding i (mem_holders.mp member))
  unfold Room at room ⊢
  omega

/-- A displaced consumer does not hold a frame, and the others hold theirs. -/
theorem holdsFrame_displaced {info : RingBufInfo}
    {which slot offset : Nat} {waitIFrame : Bool} {i : Nat}
    (holds : (info.updateConsumer which fun user =>
      user.displaced slot offset waitIFrame).holdsFrame i) :
    i ≠ which ∧ info.holdsFrame i := by
  have keeps : KeepsUsers info (info.updateConsumer which fun user =>
      user.displaced slot offset waitIFrame) :=
    keepsUsers_updateConsumer info fun _ => rfl
  by_cases same : i = which
  · have state := holds.2
    rw [same, updateConsumer_self, RingBufUser.displaced] at state
    dsimp only at state
    split at state
    · cases state
    · rename_i free
      exact absurd state free
  · refine ⟨same, (keeps.validConsumer_iff i).mp holds.1, ?_⟩
    have state := holds.2
    rwa [updateConsumer_of_ne same] at state

/-- The hole of the frames that a consumer refers to. -/
def holeOf (info : RingBufInfo) (now i : Nat) : BlackHole where
  startOffset := (info.frameIdx (info.consumers i).refIdxStart).offset
  endOffset := info.advanceOffset
    (info.frameIdx (info.consumers i).refIdxEnd).offset
    (info.frameIdx (info.consumers i).refIdxEnd).length
  createTime := now
  blockerName := (info.consumers i).name

/-- A consumer that holds no frame is displaced without a hole. -/
theorem displace_unheld {info : RingBufInfo} {now i : Nat}
    (slot offset : Nat) (waitIFrame : Bool)
    (invariant : info.HoleInvariant)
    (unheld : (info.consumers i).state ≠ .USER_HOLDING_FRAME) :
    info.displace now i slot offset waitIFrame =
        .ok (info.updateConsumer i fun user =>
          user.displaced slot offset waitIFrame) ∧
      (info.updateConsumer i fun user =>
        user.displaced slot offset waitIFrame).HoleInvariant := by
  have keeps : KeepsUsers info (info.updateConsumer i fun user =>
      user.displaced slot offset waitIFrame) :=
    keepsUsers_updateConsumer info fun _ => rfl
  constructor
  · rw [displace, if_neg unheld]
    rfl
  · exact invariant.mono (fun j _ _ => keeps.names j)
      (fun j => (keeps.validConsumer_iff j).mp)
      (fun j holds' => (holdsFrame_displaced holds').2)
      (List.Sublist.refl _)

/-- The frames of a consumer that is displaced get a hole, while the table is
not full. -/
theorem displace_held {info : RingBufInfo} {now i : Nat}
    (slot offset : Nat) (waitIFrame : Bool) (clock : now ≠ 0)
    (isHolder : info.holdsFrame i) (invariant : info.HoleInvariant)
    (short : info.holes.length < MAX_CONSUMER_NUM) :
    ∃ holes, info.displace now i slot offset waitIFrame =
        .ok ({ info with holes := holes }.updateConsumer i fun user =>
          user.displaced slot offset waitIFrame) ∧
      holes.Perm (info.holeOf now i :: info.holes) ∧
      ({ info with holes := holes }.updateConsumer i fun user =>
        user.displaced slot offset waitIFrame).HoleInvariant := by
  have keeps : KeepsUsers info (info.updateConsumer i fun user =>
      user.displaced slot offset waitIFrame) :=
    keepsUsers_updateConsumer info fun _ => rfl
  obtain ⟨insertIdx, inside, found, sorted⟩ :=
    findInsertIdx_sorted (info.holeOf now i) invariant.table.sorted
      invariant.timed
      (fun other member => invariant.holding i isHolder other member)
  have perm := List.perm_insertIdx (info.holeOf now i) info.holes inside
  have inserts : info.insertHoleOfConsumer now i = .ok { info with
      holes := info.holes.insertIdx insertIdx (info.holeOf now i) } := by
    unfold holeOf at found
    rw [insertHoleOfConsumer, insertBlackHole, if_pos short, found]
    rfl
  obtain ⟨after, isAfter⟩ : ∃ after : RingBufInfo, after =
      { info with
        holes := info.holes.insertIdx insertIdx (info.holeOf now i)
      }.updateConsumer i fun user => user.displaced slot offset waitIFrame :=
    ⟨_, rfl⟩
  have holding : ∀ j, after.holdsFrame j → j ≠ i ∧ info.holdsFrame j := by
    intro j holds'
    rw [isAfter] at holds'
    exact holdsFrame_displaced
      (show (info.updateConsumer i _).holdsFrame j from holds')
  have names : ∀ j, (after.consumers j).name = (info.consumers j).name := by
    rw [isAfter]
    exact keeps.names
  have valids : ∀ j, after.validConsumer j → info.validConsumer j := by
    intro j isValid
    exact ⟨isValid.1, names j ▸ isValid.2⟩
  have holes : after.holes =
      info.holes.insertIdx insertIdx (info.holeOf now i) := by
    rw [isAfter]
    rfl
  refine ⟨info.holes.insertIdx insertIdx (info.holeOf now i), ?_, perm, ?_⟩
  · rw [displace, if_pos isHolder.2, inserts]
    rfl
  rw [← isAfter]
  constructor
  · constructor
    · rw [holes, perm.length_eq, List.length_cons]
      exact short
    · rw [holes]
      exact sorted
    · rw [holes, (perm.map BlackHole.blockerName).nodup_iff, List.map_cons,
        List.nodup_cons]
      refine ⟨?_, invariant.table.distinct⟩
      intro member
      obtain ⟨other, isOther, same⟩ := List.mem_map.mp member
      exact invariant.holding i isHolder other isOther same
  · intro other member
    rw [holes] at member
    rcases List.mem_cons.mp (perm.mem_iff.mp member) with rfl | old
    · exact clock
    · exact invariant.timed other old
  · intro j k validJ validK same
    rw [names j, names k] at same
    exact invariant.names j k (valids j validJ) (valids k validK) same
  · intro j holds' other member
    obtain ⟨different, before⟩ := holding j holds'
    rw [names j]
    rw [holes] at member
    rcases List.mem_cons.mp (perm.mem_iff.mp member) with rfl | old
    · intro same
      exact different (invariant.names j i before.1 isHolder.1 same.symm)
    · exact invariant.holding j before other old

/-- Displacing a consumer while there is room succeeds and keeps the
invariant. -/
theorem displace_returns {info : RingBufInfo} {now i : Nat}
    (slot offset : Nat) (waitIFrame : Bool) (clock : now ≠ 0)
    (valid : info.validConsumer i) (invariant : info.HoleInvariant)
    (room : info.Room) :
    ∃ after, info.displace now i slot offset waitIFrame = .ok after ∧
      after.HoleInvariant ∧ after.Room := by
  by_cases holds : (info.consumers i).state = .USER_HOLDING_FRAME
  swap
  · obtain ⟨displaces, kept⟩ :=
      displace_unheld slot offset waitIFrame invariant holds
    exact ⟨_, displaces, kept, room.mono
      (fun j holds' => (holdsFrame_displaced holds').2) (Nat.le_refl _)⟩
  have isHolder : info.holdsFrame i := ⟨valid, holds⟩
  have least : 0 < info.holders.length :=
    List.length_pos_of_mem (mem_holders.mpr isHolder)
  unfold Room at room
  obtain ⟨holes, displaces, perm, kept⟩ :=
    displace_held slot offset waitIFrame clock isHolder invariant (by omega)
  refine ⟨_, displaces, kept, ?_⟩
  -- the new hole takes the place of one holder
  have fewer : (i :: ({ info with holes := holes }.updateConsumer i fun user =>
      user.displaced slot offset waitIFrame).holders).length ≤
        info.holders.length := by
    apply List.Nodup.length_le_of_subset
    · rw [List.nodup_cons]
      refine ⟨?_, nodup_holders _⟩
      intro member
      exact (holdsFrame_displaced (mem_holders.mp member)).1 rfl
    · intro j member
      rcases List.mem_cons.mp member with rfl | member
      · exact mem_holders.mpr isHolder
      · exact mem_holders.mpr
          (holdsFrame_displaced (mem_holders.mp member)).2
  rw [List.length_cons] at fewer
  unfold Room
  rw [updateConsumer_holes, perm.length_eq, List.length_cons]
  omega

/-- The merging loop does not fail on holes that start in order behind the last
merged one. -/
theorem mergeHoles_returns (info : RingBufInfo) (ordered : Bool)
    (holes merged : List BlackHole)
    (sorted : ordered = true → holes.Pairwise fun first second =>
      first.startOffset ≤ second.startOffset)
    (behind : ordered = true → ∀ last ∈ merged.head?, ∀ hole ∈ holes,
      last.startOffset ≤ hole.startOffset) :
    ∃ result, holes.foldlM (info.mergeHole ordered) merged = .ok result ∧
      result.length ≤ merged.length + holes.length := by
  induction holes generalizing merged with
  | nil => exact ⟨merged, rfl, Nat.le_refl _⟩
  | cons hole holes ih =>
      have rest : ordered = true → holes.Pairwise fun first second =>
          first.startOffset ≤ second.startOffset :=
        fun isOrdered => (List.pairwise_cons.mp (sorted isOrdered)).2
      have first : ordered = true → ∀ next ∈ holes,
          hole.startOffset ≤ next.startOffset :=
        fun isOrdered => (List.pairwise_cons.mp (sorted isOrdered)).1
      obtain ⟨middle, steps, length, heads⟩ : ∃ middle,
          info.mergeHole ordered merged hole = .ok middle ∧
          middle.length ≤ merged.length + 1 ∧
          (ordered = true → ∀ last ∈ middle.head?, ∀ next ∈ holes,
            last.startOffset ≤ next.startOffset) := by
        cases merged with
        | nil =>
            refine ⟨[hole], rfl, Nat.le_refl _, ?_⟩
            intro isOrdered last isLast
            obtain rfl := Option.some.inj isLast
            exact first isOrdered
        | cons last others =>
            have unordered : ¬ (ordered = true ∧
                hole.startOffset < last.startOffset) := by
              rintro ⟨isOrdered, early⟩
              have := behind isOrdered last rfl hole List.mem_cons_self
              omega
            rw [mergeHole, if_neg unordered]
            dsimp only
            split
            · refine ⟨_, rfl, Nat.le_succ _, ?_⟩
              intro isOrdered head isHead next member
              obtain rfl := Option.some.inj isHead
              exact behind isOrdered last rfl next
                (List.mem_cons_of_mem _ member)
            · refine ⟨_, rfl, Nat.le_refl _, ?_⟩
              intro isOrdered head isHead
              obtain rfl := Option.some.inj isHead
              exact first isOrdered
      obtain ⟨result, loop, short⟩ := ih middle rest heads
      refine ⟨result, ?_, ?_⟩
      · rw [List.foldlM_cons, steps]
        exact loop
      · rw [List.length_cons]
        omega

/-- Merging a sorted table does not fail. -/
theorem blackHoleSortMerge_returns {info : RingBufInfo} (writeOffset : Nat)
    (sorted : info.holes.Pairwise BlackHole.Before) :
    ∃ merged, info.blackHoleSortMerge writeOffset = .ok merged := by
  have starts : info.holes.Pairwise fun first second =>
      first.startOffset ≤ second.startOffset := by
    apply sorted.imp
    intro first second before
    unfold BlackHole.Before at before
    omega
  unfold blackHoleSortMerge
  dsimp only
  obtain ⟨first, second, split, isSorted, length⟩ : ∃ first second,
      (if info.holes.findIdx (fun hole => writeOffset ≤ hole.startOffset) = 0 ∨
          info.holes.findIdx (fun hole => writeOffset ≤ hole.startOffset) =
            info.holes.length then
        (info.holes, [])
      else
        (info.holes.drop
            (info.holes.findIdx fun hole => writeOffset ≤ hole.startOffset),
          info.holes.take
            (info.holes.findIdx fun hole => writeOffset ≤ hole.startOffset))) =
        (first, second) ∧
      first.Pairwise (fun first second =>
        first.startOffset ≤ second.startOffset) ∧
      first.length + second.length = info.holes.length := by
    split
    · exact ⟨_, _, rfl, starts, rfl⟩
    · refine ⟨_, _, rfl, starts.sublist (List.drop_sublist _ _), ?_⟩
      rw [List.length_drop, List.length_take]
      omega
  rw [split]
  obtain ⟨merged, loop, short⟩ := info.mergeHoles_returns true
    first [] (fun _ => isSorted) (fun _ last isLast => nomatch isLast)
  obtain ⟨merged', loop', short'⟩ := info.mergeHoles_returns false
    second merged (fun no => nomatch no)
    (fun no => nomatch no)
  refine ⟨merged'.reverse, ?_⟩
  rw [List.length_nil] at short
  have fits : merged'.length ≤ info.holes.length := by omega
  simp only [bind, Except.bind, loop, loop', if_pos fits]
  rfl

theorem requestWritePtr_returns {info : RingBufInfo} (size alignment : Nat)
    (sorted : info.holes.Pairwise BlackHole.Before) :
    ∃ answer, info.requestWritePtr size alignment = .ok answer := by
  obtain ⟨jumped, jumps⟩ : ∃ jumped,
      info.blackholeJump info.productorOffset size alignment = .ok jumped := by
    unfold blackholeJump
    split
    · exact ⟨_, rfl⟩
    · obtain ⟨merged, merges⟩ :=
        blackHoleSortMerge_returns info.productorOffset sorted
      rw [merges]
      exact ⟨_, rfl⟩
  unfold requestWritePtr
  split
  · exact ⟨_, rfl⟩
  · rw [jumps]
    simp only [bind, Except.bind]
    split
    · exact ⟨_, rfl⟩
    · split
      · exact ⟨_, rfl⟩
      · split
        · exact ⟨_, rfl⟩
        · exact ⟨_, rfl⟩

/-- Moving consumers while there is room succeeds. -/
theorem moveAllBlockers_room {info : RingBufInfo} {now : Nat}
    {blockers : List Nat} (clock : now ≠ 0)
    (members : ∀ i ∈ blockers, info.validConsumer i)
    (invariant : info.HoleInvariant) (room : info.Room) :
    ∃ after, info.moveAllBlockers now blockers = .ok after ∧
      KeepsUsers info after ∧ after.HoleInvariant ∧ after.Room := by
  apply moveAllBlockers_returns
    fun after => KeepsUsers info after ∧ after.HoleInvariant ∧ after.Room
  · rintro before i member slot offset waitIFrame ⟨keeps, invariant, room⟩
    have valid := (keeps.validConsumer_iff i).mpr (members i member)
    obtain ⟨after, displaced, kept⟩ :=
      displace_returns slot offset waitIFrame clock valid invariant room
    exact ⟨after, displaced, keeps.trans (keepsUsers_displace displaced), kept⟩
  · exact ⟨KeepsUsers.refl info, invariant, room⟩

/-- What `RequestWriteFrame` may need room for. -/
def RoomFor (info : RingBufInfo) (now : Nat) (mode : CRB_WRITE_MODE_E) : Prop :=
  mode = .CRB_WRITE_MODE_NON_BLOCK → now ≠ 0 ∧ info.Room

theorem requestWriteBytes_returns {info : RingBufInfo} {now size : Nat}
    {type : FRAME_E} {mode : CRB_WRITE_MODE_E} (obj : Object)
    (invariant : info.HoleInvariant) (room : info.RoomFor now mode) :
    ∃ after obj' answer,
      info.requestWriteBytes now obj size type mode =
        .ok (after, obj', answer) ∧ after.HoleInvariant := by
  obtain ⟨ptr, requests⟩ := requestWritePtr_returns size
    (info.writeAlignment type) invariant.table.sorted
  rw [requestWriteBytes, requests]
  rcases requestWritePtr_cases requests with
    ⟨wanted, _, _, rfl⟩ | ⟨jumped, _, _, granted⟩
  · cases mode with
    | CRB_WRITE_MODE_BLOCK => exact ⟨info, obj, .failed, rfl, invariant⟩
    | CRB_WRITE_MODE_NON_BLOCK =>
        obtain ⟨clock, room⟩ := room rfl
        have members : ∀ i ∈ info.validConsumers.filter fun i =>
            info.writableSizeOf i ≤ wanted, info.validConsumer i :=
          fun i member => mem_validConsumers.mp (List.mem_filter.mp member).1
        obtain ⟨after, moves, _, kept, _⟩ :=
          moveAllBlockers_room clock members invariant room
        refine ⟨after, obj, .again, ?_, kept⟩
        simp only [bind, Except.bind, moves]
        rfl
  · have kept : (info.skipHoles
        (info.bufferLen info.productorOffset jumped)).HoleInvariant := by
      unfold skipHoles
      split
      · exact invariant
      · exact invariant.mono (fun _ _ _ => rfl) (fun _ valid => valid)
          (fun _ holds => holds) (List.Sublist.refl _)
    rcases granted with ⟨_, rfl⟩ | ⟨_, rfl⟩
    · exact ⟨_, _, _, rfl, kept⟩
    · exact ⟨_, _, _, rfl, kept⟩

/-- A request leaves the invariant intact when there is room for the holes of
the consumers it may move. -/
theorem requestWriteTry_returns {info : RingBufInfo} {now size : Nat}
    {type : FRAME_E} {mode : CRB_WRITE_MODE_E} (obj : Object)
    (valid : 0 < size ∧ size ≤ info.bufSize ∧ type ≠ .CRB_FRAME_ANY)
    (invariant : info.HoleInvariant)
    (room : (info.withoutAged now).RoomFor now mode) :
    ∃ after obj' answer,
      info.requestWriteTry now obj size type mode =
        .ok (after, obj', answer) ∧ after.HoleInvariant := by
  have kept : (info.withoutAged now).HoleInvariant :=
    invariant.mono (fun _ _ _ => rfl) (fun _ valid => valid)
      (fun _ holds => holds) List.filter_sublist
  rw [requestWriteTry, if_pos valid, deleteAgedBlackHole_eq]
  simp only [bind, Except.bind]
  by_cases blocked : (info.withoutAged now).indexFindBlocker ≠ [] ∧
      mode = .CRB_WRITE_MODE_BLOCK
  · rw [if_pos blocked]
    exact ⟨_, _, _, rfl, kept⟩
  rw [if_neg blocked]
  obtain ⟨moved, moves, keptMoved, roomMoved⟩ : ∃ moved,
      (info.withoutAged now).moveAllBlockers now
        (info.withoutAged now).indexFindBlocker = .ok moved ∧
      moved.HoleInvariant ∧ moved.RoomFor now mode := by
    cases mode with
    | CRB_WRITE_MODE_BLOCK =>
        have none : (info.withoutAged now).indexFindBlocker = [] := by
          apply Classical.byContradiction
          intro some
          exact blocked ⟨some, rfl⟩
        rw [none]
        exact ⟨_, rfl, kept, room⟩
    | CRB_WRITE_MODE_NON_BLOCK =>
        obtain ⟨clock, room⟩ := room rfl
        obtain ⟨moved, moves, _, keptMoved, roomMoved⟩ :=
          moveAllBlockers_room clock
            (fun i member =>
              mem_validConsumers.mp (List.mem_filter.mp member).1) kept room
        exact ⟨moved, moves, keptMoved, fun _ => ⟨clock, roomMoved⟩⟩
  rw [moves]
  exact requestWriteBytes_returns obj keptMoved roomMoved

theorem HoleInvariant.releaseHole {info : RingBufInfo}
    (invariant : info.HoleInvariant) (which : Nat) :
    (info.releaseHole which).HoleInvariant :=
  invariant.mono (fun _ _ _ => rfl) (fun _ valid => valid)
    (fun _ holds => holds) List.filter_sublist

/-- After the release of its hole a consumer may change its slot as it likes,
but for its name. -/
theorem HoleInvariant.updateReleased {info : RingBufInfo} {which : Nat}
    {change : RingBufUser → RingBufUser} (invariant : info.HoleInvariant)
    (keepsName : ∀ user, (change user).name = user.name) :
    ((info.releaseHole which).updateConsumer which change).HoleInvariant := by
  have released := invariant.releaseHole which
  have keeps : KeepsUsers (info.releaseHole which)
      ((info.releaseHole which).updateConsumer which change) :=
    keepsUsers_updateConsumer _ keepsName
  constructor
  · exact ⟨released.table.short, released.table.sorted,
      released.table.distinct⟩
  · exact released.timed
  · intro i j validI validJ same
    rw [keeps.names, keeps.names] at same
    exact released.names i j ((keeps.validConsumer_iff i).mp validI)
      ((keeps.validConsumer_iff j).mp validJ) same
  · intro i holds hole member
    rw [keeps.names]
    by_cases here : i = which
    · subst i
      exact of_decide_eq_true (List.mem_filter.mp member).2
    · apply released.holding i _ hole member
      refine ⟨(keeps.validConsumer_iff i).mp holds.1, ?_⟩
      have state := holds.2
      rwa [updateConsumer_of_ne here] at state

theorem HoleInvariant.holdFrames {info : RingBufInfo}
    (invariant : info.HoleInvariant) (which first last : Nat) :
    ((info.releaseHole which).holdFrames which first last).HoleInvariant := by
  unfold RingBufInfo.holdFrames
  exact invariant.updateReleased fun _ => rfl

theorem HoleInvariant.requestReadFrame {info after : RingBufInfo}
    {obj obj' : Object} {type : FRAME_E} {answer : ReadAnswer}
    (invariant : info.HoleInvariant)
    (requests : info.requestReadFrame obj type = .ok (after, obj', answer)) :
    after.HoleInvariant := by
  rcases requestReadFrame_cases requests with
    ⟨rfl, _⟩ | ⟨slot, _, _, rfl, _⟩
  · exact invariant.releaseHole _
  · exact invariant.holdFrames _ _ _

theorem HoleInvariant.requestReadContinuousFrames {info after : RingBufInfo}
    {obj obj' : Object} {frameCount : Nat} {answer : ReadAnswer}
    (invariant : info.HoleInvariant)
    (requests : info.requestReadContinuousFrames obj frameCount =
      .ok (after, obj', answer)) :
    after.HoleInvariant := by
  rcases requestReadContinuousFrames_cases requests with
    ⟨rfl, _⟩ | ⟨_, _, _, _, _, _, _, rfl, _⟩
  · exact invariant.releaseHole _
  · exact invariant.holdFrames _ _ _

theorem HoleInvariant.commitRead {info after : RingBufInfo}
    {obj obj' : Object} {size : Option Nat} (invariant : info.HoleInvariant)
    (commits : info.commitRead obj size = .ok (after, obj')) :
    after.HoleInvariant := by
  rcases (commitRead_cases commits).2 with ⟨_, rfl, _⟩ | ⟨_, rfl, _⟩
  · exact invariant.releaseHole _
  · unfold freeFrames
    apply invariant.updateReleased
    intro user
    split <;> rfl

theorem HoleInvariant.discardAllData {info after : RingBufInfo}
    {obj obj' : Object} (invariant : info.HoleInvariant)
    (discards : info.discardAllData obj = .ok (after, obj')) :
    after.HoleInvariant := by
  rw [discardAllData_eq] at discards
  obtain ⟨rfl, _⟩ := Prod.mk.inj (Except.ok.inj discards)
  apply invariant.updateReleased
  intro user
  rfl

theorem HoleInvariant.indexMoveTo {info after : RingBufInfo} {obj : Object}
    {slot : Nat} (invariant : info.HoleInvariant)
    (moves : info.indexMoveTo obj slot = .ok after) :
    after.HoleInvariant := by
  rw [indexMoveTo_eq] at moves
  obtain rfl := Except.ok.inj moves
  unfold moveConsumer
  apply invariant.updateReleased
  intro user
  rfl

theorem HoleInvariant.commitWrite {info after : RingBufInfo}
    {obj obj' : Object} {size : Option Nat} {frameTime : Int}
    (invariant : info.HoleInvariant)
    (commits : info.commitWrite obj size frameTime = .ok (after, obj')) :
    after.HoleInvariant := by
  have framed : ∀ commitBytes,
      (info.commitFrame obj commitBytes frameTime).HoleInvariant := by
    intro commitBytes
    unfold commitFrame
    split
    · exact invariant.mono (fun _ _ _ => rfl) (fun _ valid => valid)
        (fun _ holds => holds) (List.Sublist.refl _)
    · exact invariant.mono (fun _ _ _ => rfl) (fun _ valid => valid)
        (fun _ holds => holds) (List.Sublist.refl _)
  rcases (commitWrite_cases commits).2 with
    ⟨_, rfl, _⟩ | ⟨_, _, ⟨_, rfl⟩ | ⟨_, rfl⟩⟩
  · exact invariant
  · exact invariant.mono (fun _ _ _ => rfl) (fun _ valid => valid)
      (fun _ holds => holds) (List.Sublist.refl _)
  · exact (framed _).mono (fun _ _ _ => rfl) (fun _ valid => valid)
      (fun _ holds => holds) (List.Sublist.refl _)

theorem HoleInvariant.resetAllUserNoLock {info : RingBufInfo} {now : Nat}
    (clock : now ≠ 0) (invariant : info.HoleInvariant) (room : info.Room) :
    ∃ after, info.resetAllUserNoLock now = .ok after ∧
      after.HoleInvariant := by
  have displaces : ∀ before, ∀ i ∈ info.validConsumers,
      (KeepsUsers info before ∧ before.HoleInvariant ∧ before.Room) →
      ∃ after, before.displace now i 0 0 true = .ok after ∧
        KeepsUsers info after ∧ after.HoleInvariant ∧ after.Room := by
    rintro before i member ⟨keeps, invariant, room⟩
    have valid :=
      (keeps.validConsumer_iff i).mpr (mem_validConsumers.mp member)
    obtain ⟨after, displaced, kept⟩ :=
      displace_returns 0 0 true clock valid invariant room
    exact ⟨after, displaced, keeps.trans (keepsUsers_displace displaced), kept⟩
  obtain ⟨after, ⟨_, kept, _⟩, resets⟩ := resetAllUserNoLock_returns
    (fun after => KeepsUsers info after ∧ after.HoleInvariant ∧ after.Room)
    displaces ⟨KeepsUsers.refl info, invariant, room⟩
  exact ⟨_, resets, kept.mono (fun _ _ _ => rfl) (fun _ valid => valid)
    (fun _ holds => holds) (List.Sublist.refl _)⟩

theorem HoleInvariant.cleanWhenCrowded {info : RingBufInfo}
    (invariant : info.HoleInvariant) :
    info.cleanWhenCrowded.HoleInvariant := by
  unfold RingBufInfo.cleanWhenCrowded
  split
  · have none : ∀ i, ¬ info.cleanAllConsumer.validConsumer i :=
      fun i valid => valid.2 (cleanAllConsumer_name info valid.1)
    exact invariant.mono (fun i _ valid => absurd valid (none i))
      (fun i valid => absurd valid (none i))
      (fun i holds => absurd holds.1 (none i)) (List.Sublist.refl _)
  · exact invariant

/-- A reader that attaches has no hole and does not hold a frame. -/
theorem HoleInvariant.constructReader {info after : RingBufInfo}
    {name : UserName} {dumper : Bool} {obj : Object}
    (invariant : info.HoleInvariant)
    (constructs : info.constructReader name dumper = .ok (after, obj)) :
    after.HoleInvariant := by
  obtain ⟨_, slot, _, installs⟩ := constructReader_ok constructs
  obtain ⟨inside, rfl, chosen⟩ := installReader_ok installs
  have versioned : RingBufInfo.HoleInvariant { info with version := 1 } :=
    invariant.mono (fun _ _ _ => rfl) (fun _ valid => valid)
      (fun _ holds => holds) (List.Sublist.refl _)
  have cleaned := versioned.cleanWhenCrowded
  obtain ⟨base, isBase⟩ : ∃ base : RingBufInfo, base =
      { info with version := 1 }.cleanWhenCrowded := ⟨_, rfl⟩
  rw [← isBase] at chosen cleaned ⊢
  have here : ((base.installed slot name dumper).consumers slot) =
      installedUser name (base.installPosition dumper) :=
    Function.update_self ..
  have elsewhere : ∀ i, i ≠ slot →
      (base.installed slot name dumper).consumers i = base.consumers i :=
    fun _ different => Function.update_of_ne different ..
  have unique : ∀ i, i ≠ slot → base.validConsumer i →
      (base.consumers i).name ≠ name := by
    intro i different valid same
    rcases chosen with named | ⟨others, _, _⟩
    · apply different
      apply cleaned.names i slot valid ⟨inside, ?_⟩ (same.trans named.symm)
      rw [named, ← same]
      exact valid.2
    · exact others i valid.1 valid.2 same
  have valids : ∀ i, i ≠ slot →
      (base.installed slot name dumper).validConsumer i →
        base.validConsumer i := by
    intro i different valid
    exact ⟨valid.1, elsewhere i different ▸ valid.2⟩
  have holes : (base.installed slot name dumper).holes.Sublist base.holes :=
    List.filter_sublist
  constructor
  · exact
      { short := Nat.le_trans holes.length_le cleaned.table.short
        sorted := cleaned.table.sorted.sublist holes
        distinct := cleaned.table.distinct.sublist (holes.map _) }
  · exact fun hole member => cleaned.timed hole (holes.subset member)
  · intro i j validI validJ same
    by_cases isI : i = slot
    · by_cases isJ : j = slot
      · exact isI.trans isJ.symm
      · rw [isI, here, elsewhere j isJ] at same
        exact absurd same.symm (unique j isJ (valids j isJ validJ))
    · by_cases isJ : j = slot
      · rw [isJ, here, elsewhere i isI] at same
        exact absurd same (unique i isI (valids i isI validI))
      · rw [elsewhere i isI, elsewhere j isJ] at same
        exact cleaned.names i j (valids i isI validI) (valids j isJ validJ)
          same
  · intro i holds hole member
    by_cases isSlot : i = slot
    · have state := holds.2
      rw [isSlot, here] at state
      cases state
    · have state := holds.2
      rw [elsewhere i isSlot] at state ⊢
      exact cleaned.holding i ⟨valids i isSlot holds.1, state⟩ hole
        (holes.subset member)

theorem HoleInvariant.destroyObject {info : RingBufInfo}
    (invariant : info.HoleInvariant) (obj : Object) :
    (info.destroyObject obj).1.HoleInvariant := by
  have kept : ∀ i, (info.destroyObject obj).1.validConsumer i →
      (info.destroyObject obj).1.consumers i = info.consumers i :=
    fun i valid =>
      destroyObject_of_ne info (destroyObject_used info valid.2)
  have valids : ∀ i, (info.destroyObject obj).1.validConsumer i →
      info.validConsumer i := by
    intro i valid
    exact ⟨valid.1, kept i valid ▸ valid.2⟩
  have holes : (info.destroyObject obj).1.holes = info.holes := by
    cases kind : obj.isProductor with
    | true => rw [destroyObject_of_writer info kind, cleanProductor]
    | false =>
        rw [destroyObject_of_reader info kind, updateConsumer_holes]
  apply invariant.mono
  · exact fun i _ valid => congrArg RingBufUser.name (kept i valid)
  · exact valids
  · intro i holds
    exact ⟨valids i holds.1, kept i holds.1 ▸ holds.2⟩
  · rw [holes]

end RingBufInfo

/-- The assertions of the functions that work on the hole table. -/
def Fault.ofHoleTable (fault : Fault) : Prop :=
  fault = .insertBlackHole ∨ fault = .deleteBlackHoleByIdx ∨
    fault = .blackHoleSortMerge

namespace System

/-- A writer makes holes while the clock has started and the table has room for
the frames that readers hold: besides the holes that are not aged for a request,
besides all holes for a reset. -/
def RoomForHoles (s : System) : Call → Prop
  | .requestWriteFrame _ _ _ mode =>
      (s.info.withoutAged s.now).RoomFor s.now mode
  | .resetAllUser _ => s.now ≠ 0 ∧ s.info.Room
  | _ => True

instance (s : System) (call : Call) : Decidable (s.RoomForHoles call) := by
  unfold RoomForHoles RingBufInfo.RoomFor
  cases call <;> infer_instance

/-- The hole table of a ring that may still be new. -/
structure HoleInvariant (s : System) : Prop where
  holes : s.info.HoleInvariant
  unused : s.info.version = 0 → s.info.NoUsers

theorem holeInvariant_freshSystem (bufSize now : Nat) (data : Nat → UInt8) :
    (freshSystem bufSize now data).HoleInvariant where
  holes :=
    { table := ⟨Nat.zero_le _, List.Pairwise.nil, List.nodup_nil⟩
      timed := fun _ member => nomatch member
      names := fun _ _ valid => absurd rfl valid.2
      holding := fun _ holds => absurd rfl holds.1.2 }
  unused := fun _ => ⟨fun _ => rfl, rfl⟩

section Steps

variable {s t : System} {answer : Answer} {call : Call}

/-- The hole table after a call of a constructor or destructor. -/
theorem HoleInvariant.users (invariant : s.HoleInvariant)
    (changes : call.changesUsers) (steps : s.step call = .ok (t, answer)) :
    t.HoleInvariant := by
  cases call with
  | attachReader handle name dumper =>
      rw [System.step] at steps
      rcases construct_ok steps with
        ⟨_, rfl⟩ | ⟨_, info, obj, constructs, rfl⟩
      · exact invariant
      · refine ⟨invariant.holes.constructReader constructs, ?_⟩
        intro isZero
        obtain ⟨_, slot, _, installs⟩ :=
          RingBufInfo.constructReader_ok constructs
        obtain ⟨_, rfl, _⟩ := RingBufInfo.installReader_ok installs
        change RingBufInfo.version
          (RingBufInfo.cleanWhenCrowded _) = 0 at isZero
        rw [RingBufInfo.version_cleanWhenCrowded] at isZero
        cases isZero
  | attachWriter handle name liveStream =>
      rw [System.step] at steps
      rcases construct_ok steps with
        ⟨_, rfl⟩ | ⟨_, info, obj, constructs, rfl⟩
      · exact invariant
      · by_cases valid : RingBufInfo.validName name
        swap
        · rw [RingBufInfo.constructWriter, if_neg valid] at constructs
          cases constructs
        obtain ⟨installed, returns, installs⟩ :=
          RingBufInfo.constructWriter_returns s.info s.now liveStream valid
            invariant.unused
        rw [returns] at constructs
        obtain ⟨rfl, rfl⟩ := Prod.mk.inj (Except.ok.inj constructs)
        have none : ∀ i, ¬ installed.validConsumer i :=
          fun i used => used.2 (installs.free i used.1)
        refine ⟨invariant.holes.mono (fun i _ used => absurd used (none i))
          (fun i used => absurd used (none i))
          (fun i holds => absurd holds.1 (none i)) ?_, ?_⟩
        · change installed.holes.Sublist s.info.holes
          rw [installs.holes]
        · intro isZero
          rw [afterCall_info, installs.version] at isZero
          cases isZero
  | destroy handle =>
      obtain ⟨rfl, _⟩ := Prod.mk.inj (Except.ok.inj steps)
      cases found : s.objects handle with
      | none =>
          rw [destroy_of_none found]
          exact invariant
      | some obj =>
          constructor
          · rw [info_destroy found]
            exact invariant.holes.destroyObject obj
          · rw [info_destroy found]
            intro isZero
            rw [RingBufInfo.version_destroyObject] at isZero
            exact (invariant.unused isZero).destroyObject obj
  | _ => cases changes

/-- Every call that finds room keeps the hole table. -/
theorem HoleInvariant.step (invariant : s.HoleInvariant)
    (room : s.RoomForHoles call) (steps : s.step call = .ok (t, answer)) :
    t.HoleInvariant := by
  by_cases changes : call.changesUsers
  · exact invariant.users changes steps
  have keeps := (keepsUsers_step steps changes).info
  suffices holes : t.info.HoleInvariant by
    refine ⟨holes, ?_⟩
    intro isZero
    have unused := invariant.unused (keeps.version.symm.trans isZero)
    exact ⟨fun i => (keeps.names i).trans (unused.consumers i),
      keeps.productorName.trans unused.productor⟩
  have holes := invariant.holes
  cases call with
  | attachReader | attachWriter | destroy => exact absurd trivial changes
  | tick seconds =>
      obtain ⟨rfl, _⟩ := Prod.mk.inj (Except.ok.inj steps)
      exact holes
  | fill handle bytes =>
      rw [System.step] at steps
      split at steps
      · obtain ⟨rfl, _⟩ := Prod.mk.inj (Except.ok.inj steps)
        exact holes
      · obtain ⟨rfl, _⟩ := Prod.mk.inj (Except.ok.inj steps)
        exact holes
  | requestWriteFrame handle size type mode =>
      rcases requestWriteFrame_ok steps with
        ⟨_, rfl⟩ | ⟨obj, info, obj', given, _, tries, rfl, _⟩
      · exact holes
      · have valid := (RingBufInfo.requestWriteTry_cases tries).1
        obtain ⟨after, obj'', given', returns, kept⟩ :=
          RingBufInfo.requestWriteTry_returns obj valid holes room
        rw [returns] at tries
        cases tries
        exact kept
  | commitWrite handle size frameTime =>
      rcases plainCall_ok steps with
        ⟨_, rfl⟩ | ⟨obj, info, obj', _, calls, rfl⟩
      · exact holes
      · exact holes.commitWrite calls
  | resetAllUser handle =>
      rcases plainCall_ok steps with
        ⟨_, rfl⟩ | ⟨obj, info, obj', _, calls, rfl⟩
      · exact holes
      · obtain ⟨after, resets, kept⟩ :=
          holes.resetAllUserNoLock room.1 room.2
        rw [RingBufInfo.resetAllUser, resets] at calls
        cases calls
        exact kept
  | requestReadFrame handle type =>
      rcases readCall_ok steps with
        ⟨_, rfl, _⟩ | ⟨obj, info, obj', given, _, calls, rfl, _⟩
      · exact holes
      · exact holes.requestReadFrame calls
  | requestReadContinuousFrames handle frameCount =>
      rcases readCall_ok steps with
        ⟨_, rfl, _⟩ | ⟨obj, info, obj', given, _, calls, rfl, _⟩
      · exact holes
      · exact holes.requestReadContinuousFrames calls
  | commitRead handle size =>
      rcases plainCall_ok steps with
        ⟨_, rfl⟩ | ⟨obj, info, obj', _, calls, rfl⟩
      · exact holes
      · exact holes.commitRead calls
  | discardAllData handle =>
      rcases plainCall_ok steps with
        ⟨_, rfl⟩ | ⟨obj, info, obj', _, calls, rfl⟩
      · exact holes
      · exact holes.discardAllData calls
  | indexMoveToSpecifiedTime handle type timeStamp =>
      rcases plainCall_ok steps with
        ⟨_, rfl⟩ | ⟨obj, info, obj', _, calls, rfl⟩
      · exact holes
      · obtain ⟨middle, moves, rest⟩ := bind_eq_ok_iff.mp calls
        obtain ⟨rfl, _⟩ := Prod.mk.inj (pure_eq_ok_iff.mp rest)
        rcases RingBufInfo.indexMoveToSpecifiedTime_cases moves with
          rfl | ⟨slot, moves⟩
        · exact holes
        · exact holes.indexMoveTo moves
  | indexMoveToOldest handle =>
      rcases plainCall_ok steps with
        ⟨_, rfl⟩ | ⟨obj, info, obj', _, calls, rfl⟩
      · exact holes
      · obtain ⟨middle, moves, rest⟩ := bind_eq_ok_iff.mp calls
        obtain ⟨rfl, _⟩ := Prod.mk.inj (pure_eq_ok_iff.mp rest)
        exact holes.indexMoveTo moves

/-- No call that finds room fails an assertion of the hole table. -/
theorem HoleInvariant.not_fault {fault : Fault} (invariant : s.HoleInvariant)
    (room : s.RoomForHoles call) (fails : s.step call = .error fault) :
    ¬ fault.ofHoleTable := by
  suffices harmless : fault = .construct ∨ fault = .requestWriteFrame ∨
      fault = .commitWrite ∨ fault = .commitRead ∨ fault = .endless by
    rintro (rfl | rfl | rfl) <;> simp at harmless
  cases call with
  | tick | destroy => cases fails
  | fill handle bytes =>
      rw [System.step] at fails
      split at fails
      · cases fails
      · cases fails
  | attachReader handle name dumper =>
      rw [System.step] at fails
      exact .inl
        (RingBufInfo.constructReader_error s.info (construct_error fails))
  | attachWriter handle name liveStream =>
      rw [System.step] at fails
      have fails := construct_error fails
      by_cases valid : RingBufInfo.validName name
      · obtain ⟨installed, returns, _⟩ :=
          RingBufInfo.constructWriter_returns s.info s.now liveStream valid
            invariant.unused
        rw [returns] at fails
        cases fails
      · rw [RingBufInfo.constructWriter, if_neg valid] at fails
        cases fails
        exact .inl rfl
  | requestWriteFrame handle size type mode =>
      obtain ⟨obj, _, fails⟩ := requestWriteFrame_error fails
      by_cases valid : 0 < size ∧ size ≤ s.info.bufSize ∧
          type ≠ .CRB_FRAME_ANY
      · obtain ⟨_, _, _, returns, _⟩ :=
          RingBufInfo.requestWriteTry_returns obj valid invariant.holes room
        rw [returns] at fails
        cases fails
      · rw [RingBufInfo.requestWriteTry, if_neg valid] at fails
        cases fails
        exact .inr (.inl rfl)
  | commitWrite handle size frameTime =>
      obtain ⟨obj, _, fails⟩ := plainCall_error fails
      exact .inr (.inr (.inl (RingBufInfo.commitWrite_error fails)))
  | resetAllUser handle =>
      obtain ⟨obj, _, fails⟩ := plainCall_error fails
      obtain ⟨after, resets, _⟩ :=
        invariant.holes.resetAllUserNoLock room.1 room.2
      rw [RingBufInfo.resetAllUser, resets] at fails
      cases fails
  | requestReadFrame handle type =>
      obtain ⟨obj, _, fails⟩ := readCall_error fails
      obtain ⟨_, returns⟩ :=
        RingBufInfo.requestReadFrame_returns s.info obj type
      rw [returns] at fails
      cases fails
  | requestReadContinuousFrames handle frameCount =>
      obtain ⟨obj, _, fails⟩ := readCall_error fails
      exact .inr (.inr (.inr (.inr
        (RingBufInfo.requestReadContinuousFrames_error fails))))
  | commitRead handle size =>
      obtain ⟨obj, _, fails⟩ := plainCall_error fails
      exact .inr (.inr (.inr (.inl (RingBufInfo.commitRead_error fails))))
  | discardAllData handle =>
      obtain ⟨obj, _, fails⟩ := plainCall_error fails
      rw [RingBufInfo.discardAllData_eq] at fails
      cases fails
  | indexMoveToSpecifiedTime handle type timeStamp =>
      obtain ⟨obj, _, fails⟩ := plainCall_error fails
      obtain ⟨_, returns⟩ := RingBufInfo.indexMoveToSpecifiedTime_returns
        s.info obj type timeStamp
      rw [returns] at fails
      cases fails
  | indexMoveToOldest handle =>
      obtain ⟨obj, _, fails⟩ := plainCall_error fails
      rw [RingBufInfo.indexMoveToOldest, RingBufInfo.indexMoveTo_eq] at fails
      cases fails

end Steps

/-- As long as the writer finds room for the holes it makes, the hole table is
sound in every state and none of its assertions fails. -/
theorem holeTable_of_roomForHoles (bufSize now : Nat) (data : Nat → UInt8)
    (calls : List Call)
    (meets :
      StepsMeet next RoomForHoles (freshSystem bufSize now data) calls) :
    StatesMeet next (fun s => s.info.HoleTable)
        (freshSystem bufSize now data) calls ∧
      StepsMeet next
        (fun s call => ∀ fault, fault.ofHoleTable →
          s.step call ≠ .error fault)
        (freshSystem bufSize now data) calls := by
  have keeps : ∀ (before : System) (call : Call) (after : System),
      before.HoleInvariant → before.RoomForHoles call →
        before.next call = some after → after.HoleInvariant := by
    intro before call after invariant room steps
    obtain ⟨answer, steps⟩ := next_eq_some_iff.mp steps
    exact invariant.step room steps
  have states := statesMeet_of_stepsMeet keeps
    (holeInvariant_freshSystem bufSize now data) meets
  constructor
  · exact states.weaken fun s invariant => invariant.holes.table
  · refine states.steps ?_ meets
    intro s call invariant room fault isTable fails
    exact invariant.not_fault room fails isTable

/-- One reader holds a frame while the writer resets its users. -/
theorem holeTable_one_reader :
    StatesMeet next (fun s => s.info.HoleTable)
        (freshSystem 4096 1 fun _ => 0)
        [.attachWriter 0 [0x57] false, .attachReader 1 [0x61] false,
          .requestWriteFrame 0 100 .CRB_FRAME_I_SLICE .CRB_WRITE_MODE_NON_BLOCK,
          .commitWrite 0 none 0, .requestReadFrame 1 .CRB_FRAME_ANY,
          .resetAllUser 0] ∧
      StepsMeet next
        (fun s call => ∀ fault, fault.ofHoleTable →
          s.step call ≠ .error fault)
        (freshSystem 4096 1 fun _ => 0)
        [.attachWriter 0 [0x57] false, .attachReader 1 [0x61] false,
          .requestWriteFrame 0 100 .CRB_FRAME_I_SLICE .CRB_WRITE_MODE_NON_BLOCK,
          .commitWrite 0 none 0, .requestReadFrame 1 .CRB_FRAME_ANY,
          .resetAllUser 0] :=
  holeTable_of_roomForHoles 4096 1 _ _ (by decide +kernel)

/-- The calls of six readers with the handles from `first` on, which attach and
hold the next frame that the writer commits when the writer resets its users. -/
def heldThroughReset (first : Nat) : List Call :=
  ((List.range 6).map fun i =>
      .attachReader (first + i) [UInt8.ofNat (first + i)] false) ++
    [.requestWriteFrame 0 100 .CRB_FRAME_I_SLICE .CRB_WRITE_MODE_NON_BLOCK,
      .commitWrite 0 none 0] ++
    (List.range 6).map fun i => .requestReadFrame (first + i) .CRB_FRAME_ANY

/-- The holes of six destroyed readers and the frames of six new ones are too
many for the table. -/
theorem not_forall_holeTable :
    ¬ ∀ (bufSize now : Nat) (data : Nat → UInt8) (calls : List Call),
      StatesMeet next (fun s => s.info.HoleTable)
          (freshSystem bufSize now data) calls ∧
        StepsMeet next
          (fun s call => ∀ fault, fault.ofHoleTable →
            s.step call ≠ .error fault)
          (freshSystem bufSize now data) calls := by
  intro claimed
  have steps := (claimed 4096 1 (fun _ => 0)
    ((.attachWriter 0 [0x57] false :: heldThroughReset 1 ++
      .resetAllUser 0 :: (List.range 6).map (fun i => .destroy (1 + i)) ++
      heldThroughReset 7) ++ [.resetAllUser 0])).2
  have fails : ((run next (freshSystem 4096 1 fun _ => 0)
      (.attachWriter 0 [0x57] false :: heldThroughReset 1 ++
        .resetAllUser 0 :: (List.range 6).map (fun i => .destroy (1 + i)) ++
        heldThroughReset 7)).map fun s =>
      match s.step (.resetAllUser 0) with
      | .error fault => some fault
      | .ok _ => none) = some (some .insertBlackHole) := by
    decide +kernel
  obtain ⟨last, runs, stops⟩ := Option.map_eq_some_iff.mp fails
  refine steps.last runs .insertBlackHole (.inl rfl) ?_
  split at stops
  · rename_i fault stopped
    rw [stopped]
    exact congrArg Except.error (Option.some.inj stops)
  · cases stops

end System

end CRingBuf

end MbedtlsKcp
