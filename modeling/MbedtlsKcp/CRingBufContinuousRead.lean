import MbedtlsKcp.CRingBufContinuity
import Mathlib.Data.List.TakeWhile

/-!
# Reading a run of frames

`RequestReadContinuousFrames` gives the frames from the next one up to the next
start of a run and describes each of them.  The search, the end of the run, its
size and the entries are computed separately from the table; they agree when
the slots of the run were filled one right after the other and hold less than a
buffer.
-/

namespace MbedtlsKcp

namespace CRingBuf

open CyclicWindows FallibleSteps TransitionRuns

namespace RingBufInfo

variable (info : RingBufInfo)

/-- The run of frames that starts in a slot. -/
def runFrom (first : Nat) : List Nat :=
  first :: (window MAX_FRAME_NUM (advanceIndex first 1)
    info.productorIndex).takeWhile fun slot => !startsRun (info.frameIdx slot)

/-- The bytes of the frames in some slots. -/
def bytesOf (slots : List Nat) : Nat :=
  (slots.map fun slot => (info.frameIdx slot).length).sum

/-- The frame that a request for a run starts with. -/
def chosenFrame (obj : Object) : Option Nat :=
  let user := info.consumers obj.m_userIdx
  info.indexFindNextFrame info.productorIndex user.index
    (ofType (info.readType user .CRB_FRAME_ANY))

/-- A request for a run is not refused: the end of the run is found, and its
bytes can be read. -/
def grantsRun (obj : Object) (first frameCount : Nat) : Prop :=
  ∃ next, info.indexFindNextFrame info.productorIndex (advanceIndex first 1)
      startsRun = some next ∧
    let found := (next + MAX_FRAME_NUM - first) % MAX_FRAME_NUM
    let endFrame := stepbackIndex
      (stepbackIndex next (found - min found frameCount)) 1
    info.requestReadPtr obj (info.frameIdx first).offset info.productorOffset
      (info.bufferLen (info.frameIdx first).offset
          (info.frameIdx endFrame).offset + (info.frameIdx endFrame).length)

/-- The entries describe `frameCount` frames of the run, or all of it, as one
range of `length` bytes. -/
structure DescribesRun (first frameCount length : Nat) (pIdx : List FrameIdx) :
    Prop where
  count : pIdx.length = min frameCount (info.runFrom first).length
  starts : ∀ entry ∈ pIdx.head?, entry.offset = 0
  chained : pIdx.IsChain fun entry next =>
    entry.offset + entry.length = next.offset
  total : (pIdx.map FrameIdx.length).sum = length

section Runs

variable {info} {first next : Nat}

/-- The run that the search finds the end of. -/
theorem runFrom_eq (bounded : first < MAX_FRAME_NUM)
    (inside : info.productorIndex < MAX_FRAME_NUM)
    (found : info.indexFindNextFrame info.productorIndex
      (advanceIndex first 1) startsRun = some next) :
    next < MAX_FRAME_NUM ∧ first ≠ next ∧
      info.runFrom first = walk MAX_FRAME_NUM first
        (gap MAX_FRAME_NUM first next) := by
  rw [indexFindNextFrame, advanceIndex_one bounded] at found
  obtain ⟨starts, front, back, splits, plain⟩ :=
    List.find?_eq_some_iff_append.mp found
  have bounded' := next_lt bounded
  obtain ⟨nextInside, isWalk⟩ := eq_walk_of_append bounded'
    (Nat.le_of_lt (gap_lt bounded' inside)) splits
  have different : first ≠ next := by
    rintro rfl
    have member := List.mem_of_find?_eq_some found
    by_cases newest : first = info.productorIndex
    · rw [← newest] at member
      exact last_not_mem_window bounded' member
    · exact first_not_mem_window_next bounded inside newest member
  have taken : (window MAX_FRAME_NUM
      (CyclicWindows.next MAX_FRAME_NUM first)
      info.productorIndex).takeWhile
        (fun slot => !startsRun (info.frameIdx slot)) = front := by
    rw [splits, List.takeWhile_append_of_pos plain,
      List.takeWhile_cons_of_neg (by simpa using starts), List.append_nil]
  refine ⟨nextInside, different, ?_⟩
  rw [runFrom, advanceIndex_one bounded, taken, isWalk,
    gap_next_first bounded nextInside different]
  rfl

/-- The slots whose entries are stored. -/
theorem described_eq {frameCount : Nat} (bounded : first < MAX_FRAME_NUM)
    (inside : info.productorIndex < MAX_FRAME_NUM)
    (found : info.indexFindNextFrame info.productorIndex
      (advanceIndex first 1) startsRun = some next) :
    walk MAX_FRAME_NUM first
        (min ((next + MAX_FRAME_NUM - first) % MAX_FRAME_NUM) frameCount) =
      (info.runFrom first).take frameCount := by
  obtain ⟨nextInside, _, isRun⟩ := runFrom_eq bounded inside found
  rw [isRun, walk_take, Nat.add_comm next, mod_eq_gap bounded nextInside,
    Nat.min_comm]

/-- The last of `count + 1` slots in front of `next`. -/
theorem gap_lastSlot {count : Nat} (bounded : first < MAX_FRAME_NUM)
    (inside : next < MAX_FRAME_NUM)
    (short : count + 1 ≤ gap MAX_FRAME_NUM first next) :
    stepbackIndex (stepbackIndex next
        (gap MAX_FRAME_NUM first next - (count + 1))) 1 < MAX_FRAME_NUM ∧
      gap MAX_FRAME_NUM first (stepbackIndex (stepbackIndex next
        (gap MAX_FRAME_NUM first next - (count + 1))) 1) = count := by
  unfold stepbackIndex gap MAX_FRAME_NUM at *
  split_ifs at * <;> omega

theorem stepbackIndex_gap (bounded : first < MAX_FRAME_NUM)
    (inside : next < MAX_FRAME_NUM) :
    stepbackIndex next (gap MAX_FRAME_NUM first next) = first := by
  unfold stepbackIndex gap MAX_FRAME_NUM at *
  split_ifs at * <;> omega

/-- The frame that the size is computed from is the last one described. -/
theorem getLast?_described {frameCount : Nat} (wanted : 1 ≤ frameCount)
    (bounded : first < MAX_FRAME_NUM)
    (inside : info.productorIndex < MAX_FRAME_NUM)
    (found : info.indexFindNextFrame info.productorIndex
      (advanceIndex first 1) startsRun = some next) :
    ((info.runFrom first).take frameCount).getLast? =
      some (stepbackIndex (stepbackIndex next
        ((next + MAX_FRAME_NUM - first) % MAX_FRAME_NUM -
          min ((next + MAX_FRAME_NUM - first) % MAX_FRAME_NUM)
            frameCount)) 1) := by
  obtain ⟨nextInside, different, _⟩ := runFrom_eq bounded inside found
  rw [← described_eq bounded inside found, Nat.add_comm next,
    mod_eq_gap bounded nextInside]
  have positive : gap MAX_FRAME_NUM first next ≠ 0 :=
    fun zero => different ((gap_eq_zero_iff bounded).mp zero)
  obtain ⟨count, isCount⟩ : ∃ count,
      min (gap MAX_FRAME_NUM first next) frameCount = count + 1 :=
    Nat.exists_eq_succ_of_ne_zero (by omega)
  have short : count + 1 ≤ gap MAX_FRAME_NUM first next := by omega
  rw [isCount]
  have position := gap_lastSlot bounded nextInside short
  rw [walk_append_last bounded position.1 position.2,
    List.getLast?_append_cons]
  rfl

@[simp]
theorem bytesOf_cons (slot : Nat) (slots : List Nat) :
    info.bytesOf (slot :: slots) =
      (info.frameIdx slot).length + info.bytesOf slots := by
  simp [bytesOf]

theorem bytesOf_eq_dropLast_add {slots : List Nat} {last : Nat}
    (isLast : slots.getLast? = some last) :
    info.bytesOf slots =
      info.bytesOf slots.dropLast + (info.frameIdx last).length := by
  have splits := List.dropLast_append_getLast? last isLast
  conv_lhs => rw [← splits]
  simp [bytesOf]

theorem bytesOf_frameIdxs (slots : List Nat) :
    ((info.frameIdxs first slots).map FrameIdx.length).sum =
      info.bytesOf slots := by
  rw [frameIdxs, List.map_map]
  rfl

/-- A frame starts where the one before it ends. -/
def Follows (info : RingBufInfo) (slot other : Nat) : Prop :=
  (info.frameIdx other).offset = ((info.frameIdx slot).offset +
    (info.frameIdx slot).length) % info.bufSize

/-- Frames that follow each other are described without gaps while they hold
less than a buffer.  `start` is the distance from frame `first`. -/
theorem frameIdxs_chained {start : Nat} {slots : List Nat}
    (inside : (info.frameIdx first).offset < info.bufSize)
    (follow : slots.IsChain info.Follows)
    (short : start + info.bytesOf slots.dropLast < info.bufSize)
    (begins : ∀ slot ∈ slots.head?, (info.frameIdx slot).offset =
      ((info.frameIdx first).offset + start) % info.bufSize) :
    (∀ entry ∈ (info.frameIdxs first slots).head?, entry.offset = start) ∧
      (info.frameIdxs first slots).IsChain (fun entry next =>
        entry.offset + entry.length = next.offset) ∧
      ∀ last ∈ slots.getLast?, info.bufferLen (info.frameIdx first).offset
        (info.frameIdx last).offset = start + info.bytesOf slots.dropLast := by
  have distance : ∀ {slot near : Nat}, near < info.bufSize →
      (info.frameIdx slot).offset =
          ((info.frameIdx first).offset + near) % info.bufSize →
        info.bufferLen (info.frameIdx first).offset
          (info.frameIdx slot).offset = near := by
    intro slot near bounded isAt
    have stop := Nat.mod_lt ((info.frameIdx first).offset + near)
      (Nat.lt_of_le_of_lt (Nat.zero_le _) inside)
    rw [isAt, bufferLen_eq_gap inside stop, gap_add_mod inside bounded]
  induction slots generalizing start with
  | nil => simp [frameIdxs]
  | cons slot slots ih =>
      have isAt := begins slot rfl
      cases slots with
      | nil =>
          have near : start < info.bufSize := short
          refine ⟨?_, .singleton _, ?_⟩
          · rintro _ ⟨⟩
            exact distance near isAt
          · rintro _ ⟨⟩
            exact distance near isAt
      | cons other slots =>
          rw [List.dropLast_cons_cons, bytesOf_cons] at short
          have near : start < info.bufSize := by omega
          obtain ⟨follows, rest⟩ := List.isChain_cons_cons.mp follow
          have shorter : start + (info.frameIdx slot).length +
              info.bytesOf (other :: slots).dropLast < info.bufSize := by
            omega
          obtain ⟨head, chained, last⟩ := ih rest shorter (by
            rintro _ ⟨⟩
            rw [follows, isAt, Nat.mod_add_mod, Nat.add_assoc])
          refine ⟨?_, ?_, ?_⟩
          · rintro _ ⟨⟩
            exact distance near isAt
          · refine List.isChain_cons_cons.mpr ⟨?_, chained⟩
            dsimp only
            rw [distance near isAt]
            exact (head _ rfl).symm
          · intro isLast member
            rw [List.getLast?_cons_cons] at member
            rw [last isLast member, List.dropLast_cons_cons, bytesOf_cons]
            omega

/-- A request that does not end is one for more than 255 frames. -/
theorem requestReadContinuousFrames_endless {obj : Object} {frameCount : Nat}
    {fault : Fault}
    (fails : info.requestReadContinuousFrames obj frameCount = .error fault) :
    ∃ first next, info.chosenFrame obj = some first ∧
      info.grantsRun obj first frameCount ∧
      info.indexFindNextFrame info.productorIndex (advanceIndex first 1)
        startsRun = some next ∧
      255 < min ((next + MAX_FRAME_NUM - first) % MAX_FRAME_NUM)
        frameCount := by
  rw [requestReadContinuousFrames, deleteBlackHoleOwnedBy_eq] at fails
  simp only [bind, Except.bind] at fails
  split at fails
  · cases fails
  · rename_i first chosen
    split at fails
    · cases fails
    · rename_i next found
      split at fails
      · rename_i readable
        split at fails
        · cases fails
        · rename_i long
          exact ⟨first, next, chosen, ⟨next, found, readable⟩, found,
            Nat.lt_of_not_le long⟩
      · cases fails

/-- A request for a run ends and describes it, if the run that it grants is
described by at most 255 entries, whose frames follow each other and hold less
than a buffer. -/
theorem requestReadContinuousFrames_describes {obj : Object}
    {frameCount : Nat} (wanted : 1 ≤ frameCount)
    (inside : info.productorIndex < MAX_FRAME_NUM)
    (whole : ∀ first, info.chosenFrame obj = some first →
      info.grantsRun obj first frameCount →
        let described := (info.runFrom first).take frameCount
        first < MAX_FRAME_NUM ∧
          (info.frameIdx first).offset < info.bufSize ∧
          described.IsChain info.Follows ∧ described.length ≤ 255 ∧
          info.bytesOf described.dropLast < info.bufSize) :
    ∃ after obj' answer,
      info.requestReadContinuousFrames obj frameCount =
        .ok (after, obj', answer) ∧
      ∀ offset length pIdx, answer = .frames offset length pIdx →
        ∃ first, info.chosenFrame obj = some first ∧
          offset = (info.frameIdx first).offset ∧
          info.DescribesRun first frameCount length pIdx := by
  cases requests : info.requestReadContinuousFrames obj frameCount with
  | error fault =>
      obtain ⟨first, next, chosen, grants, found, long⟩ :=
        requestReadContinuousFrames_endless requests
      obtain ⟨bounded, _, _, short, _⟩ := whole first chosen grants
      rw [← described_eq bounded inside found, length_walk] at short
      omega
  | ok result =>
      obtain ⟨after, obj', answer⟩ := result
      refine ⟨after, obj', answer, rfl, ?_⟩
      rintro offset length pIdx rfl
      rcases requestReadContinuousFrames_cases requests with
        ⟨_, _, refused⟩ | ⟨first, next, count, chosen, found, rfl, readable,
          _, _, answers⟩
      · cases refused
      obtain ⟨bounded, offsetInside, follow, _, short⟩ :=
        whole first chosen ⟨next, found, readable⟩
      obtain ⟨rfl, rfl, rfl⟩ := ReadAnswer.frames.inj answers
      have described : walk MAX_FRAME_NUM first
          (min ((next + MAX_FRAME_NUM - first) % MAX_FRAME_NUM) frameCount) =
            (info.runFrom first).take frameCount :=
        described_eq bounded inside found
      have last := getLast?_described wanted bounded inside found
      have begins : ∀ slot ∈ ((info.runFrom first).take frameCount).head?,
          (info.frameIdx slot).offset =
            ((info.frameIdx first).offset + 0) % info.bufSize := by
        intro slot member
        rw [List.head?_take, if_neg (by omega)] at member
        obtain rfl : first = slot := Option.some.inj member
        rw [Nat.add_zero, Nat.mod_eq_of_lt offsetInside]
      obtain ⟨head, chained, ends⟩ := frameIdxs_chained offsetInside follow
        (by rwa [Nat.zero_add]) begins
      refine ⟨first, chosen, rfl, ?_⟩
      change info.DescribesRun first frameCount _
        (info.frameIdxs first (walk MAX_FRAME_NUM first _))
      rw [described]
      refine ⟨?_, head, chained, ?_⟩
      · rw [frameIdxs, List.length_map, List.length_take]
      · rw [bytesOf_frameIdxs, bytesOf_eq_dropLast_add last]
        have size := ends _ last
        rw [Nat.zero_add] at size
        exact congrArg (· + _) size.symm

end Runs

end RingBufInfo

/-- A ring with the history of its frames in which the commits are counted:
every slot of the table knows the number of the commit that filled it. -/
structure Numbered where
  traced : Traced
  count : Nat
  number : Nat → Option Nat

namespace Numbered

def fresh (bufSize now : Nat) (data : Nat → UInt8) : Numbered :=
  ⟨.fresh bufSize now data, 0, fun _ => none⟩

variable (r : Numbered)

def info : RingBufInfo :=
  r.traced.system.info

/-- The history after a call that ends in `system`. -/
def record (event : FrameEvent) (system : System) : Numbered :=
  let traced := r.traced.record event system
  match event with
  | .frame _ _ =>
      { traced := traced
        count := r.count + 1
        number := Function.update r.number r.info.productorIndex
          (some r.count) }
  | _ => { r with traced := traced }

def next (call : Call) : Option Numbered :=
  (r.traced.system.next call).map (r.record (r.traced.system.event call))

/-- The slots were filled by commits that directly followed each other. -/
structure FilledInOrder (slots : List Nat) : Prop where
  filled : ∀ slot ∈ slots.head?, r.number slot ≠ none
  ordered : slots.IsChain fun slot other =>
    ∃ n, r.number slot = some n ∧ r.number other = some (n + 1)

/-- A request for a run that is granted describes at most 255 frames, which
were committed in order and without the last one hold less than a buffer. -/
def WholeRun : Call → Prop
  | .requestReadContinuousFrames handle frameCount =>
      ∀ obj, r.traced.system.reader handle = some obj →
        ∀ first, r.info.chosenFrame obj = some first →
          r.info.grantsRun obj first frameCount →
            let described := (r.info.runFrom first).take frameCount
            r.FilledInOrder described ∧ described.length ≤ 255 ∧
              r.info.bytesOf described.dropLast < r.info.bufSize
  | _ => True

/-- A request for a run ends, and the entries that it gives describe the run
that starts at the chosen frame. -/
def ReadsRun : Call → Prop
  | .requestReadContinuousFrames handle frameCount =>
      ∀ obj, r.traced.system.reader handle = some obj → 1 ≤ frameCount →
        ∃ after obj' answer,
          r.info.requestReadContinuousFrames obj frameCount =
            .ok (after, obj', answer) ∧
          ∀ offset length pIdx, answer = .frames offset length pIdx →
            ∃ first, r.info.chosenFrame obj = some first ∧
              offset = (r.info.frameIdx first).offset ∧
              r.info.DescribesRun first frameCount length pIdx
  | _ => True

/-- What the numbers say about the table. -/
structure Numbering : Prop where
  below : ∀ slot n, r.number slot = some n →
    n < r.count ∧ slot < MAX_FRAME_NUM ∧
      (r.info.frameIdx slot).offset % r.info.bufSize =
        (r.info.frameIdx slot).offset
  newest : ∀ slot n, r.number slot = some n → n + 1 = r.count →
    r.traced.last ≠ none → r.traced.last =
      some ((r.info.frameIdx slot).offset, (r.info.frameIdx slot).length)
  before : ∀ slot other n, r.number slot = some n →
    r.number other = some (n + 1) → r.traced.before other ≠ none →
      r.traced.before other =
        some ((r.info.frameIdx slot).offset, (r.info.frameIdx slot).length)

theorem numbering_fresh (bufSize now : Nat) (data : Nat → UInt8) :
    (fresh bufSize now data).Numbering where
  below _ _ filled := by cases filled
  newest _ _ filled := by cases filled
  before _ _ _ filled := by cases filled

variable {r} {t : System} {call : Call}

theorem traced_record (event : FrameEvent) :
    (r.record event t).traced = r.traced.record event t := by
  cases event with
  | nothing => rfl
  | frame offset length => rfl
  | restart => rfl

/-- A commit numbers its slot. -/
theorem Numbering.committed {entry : FrameIndex} (holds : r.Numbering)
    (inside : r.info.productorIndex < MAX_FRAME_NUM)
    (bufSize : t.info.bufSize = r.info.bufSize)
    (placed : entry.offset % r.info.bufSize = entry.offset)
    (frameIdx : t.info.frameIdx =
      Function.update r.info.frameIdx r.info.productorIndex entry) :
    (r.record (.frame entry.offset entry.length) t).Numbering := by
  obtain ⟨after, isAfter⟩ : ∃ after, after =
      r.record (.frame entry.offset entry.length) t := ⟨_, rfl⟩
  have frame : after.info.frameIdx =
      Function.update r.info.frameIdx r.info.productorIndex entry := by
    rw [isAfter]
    exact frameIdx
  have number : after.number =
      Function.update r.number r.info.productorIndex (some r.count) := by
    rw [isAfter]
    rfl
  have before : after.traced.before = Function.update r.traced.before
      r.info.productorIndex r.traced.last := by
    rw [isAfter]
    rfl
  have last : after.traced.last = some (entry.offset, entry.length) := by
    rw [isAfter]
    rfl
  have count : after.count = r.count + 1 := by
    rw [isAfter]
    rfl
  have size : after.info.bufSize = r.info.bufSize := by
    rw [isAfter]
    exact bufSize
  rw [← isAfter]
  -- a slot is the one filled now or was filled earlier
  have cases_ : ∀ slot n, after.number slot = some n →
      slot = r.info.productorIndex ∧ n = r.count ∧
          after.info.frameIdx slot = entry ∨
        slot ≠ r.info.productorIndex ∧ r.number slot = some n ∧
          after.info.frameIdx slot = r.info.frameIdx slot := by
    intro slot n filled
    rw [number] at filled
    rw [frame]
    by_cases same : slot = r.info.productorIndex
    · rw [same, Function.update_self] at filled
      rw [same, Function.update_self]
      exact .inl ⟨rfl, (Option.some.inj filled).symm, rfl⟩
    · rw [Function.update_of_ne same] at filled
      rw [Function.update_of_ne same]
      exact .inr ⟨same, filled, rfl⟩
  refine ⟨?_, ?_, ?_⟩
  · intro slot n filled
    rw [count, size]
    rcases cases_ slot n filled with ⟨rfl, rfl, isEntry⟩ | ⟨_, earlier, kept⟩
    · rw [isEntry]
      exact ⟨Nat.lt_succ_self _, inside, placed⟩
    · obtain ⟨less, bounded, offset⟩ := holds.below slot n earlier
      rw [kept]
      exact ⟨Nat.lt_succ_of_lt less, bounded, offset⟩
  · intro slot n filled isNewest _
    rw [count] at isNewest
    rcases cases_ slot n filled with ⟨_, _, isEntry⟩ | ⟨_, earlier, _⟩
    · rw [last, isEntry]
    · have less := (holds.below slot n earlier).1
      omega
  · intro slot other n filled next recorded
    rcases cases_ other (n + 1) next with ⟨rfl, isCount, _⟩ |
      ⟨different, earlier, _⟩
    · rw [before, Function.update_self] at recorded ⊢
      rcases cases_ slot n filled with ⟨_, same, _⟩ | ⟨_, isLast, kept⟩
      · omega
      · rw [kept]
        exact holds.newest slot n isLast isCount recorded
    · rw [before, Function.update_of_ne different] at recorded ⊢
      rcases cases_ slot n filled with ⟨_, rfl, _⟩ | ⟨_, isBefore, kept⟩
      · have less := (holds.below other _ earlier).1
        omega
      · rw [kept]
        exact holds.before slot other n isBefore earlier recorded

/-- What commits nothing keeps the numbering. -/
theorem Numbering.keep {after : Numbered} (holds : r.Numbering)
    (number : after.number = r.number) (count : after.count = r.count)
    (before : after.traced.before = r.traced.before)
    (last : after.traced.last = r.traced.last ∨ after.traced.last = none)
    (frameIdx : after.info.frameIdx = r.info.frameIdx)
    (bufSize : after.info.bufSize = r.info.bufSize) : after.Numbering := by
  refine ⟨?_, ?_, ?_⟩
  · rw [number, count, frameIdx, bufSize]
    exact holds.below
  · rw [number, count, frameIdx]
    intro slot n filled isNewest recorded
    rcases last with same | none
    · rw [same] at recorded ⊢
      exact holds.newest slot n filled isNewest recorded
    · exact absurd none recorded
  · rw [number, before, frameIdx]
    exact holds.before

/-- Every step keeps the numbering. -/
theorem Numbering.step (holds : r.Numbering)
    (inside : r.info.productorIndex < MAX_FRAME_NUM)
    (steps : System.FrameStep r.traced.system t call) :
    (r.record (r.traced.system.event call) t).Numbering := by
  obtain ⟨bufSize, ⟨noFrame, frameIdx⟩ | ⟨entry, isFrame, placed, frameIdx⟩⟩ :=
    steps.table
  swap
  · rw [isFrame]
    exact holds.committed inside bufSize placed frameIdx
  cases event : r.traced.system.event call with
  | frame offset length => exact absurd event (noFrame offset length)
  | nothing => exact holds.keep rfl rfl rfl (.inl rfl) frameIdx bufSize
  | restart => exact holds.keep rfl rfl rfl (.inr rfl) frameIdx bufSize

/-- Frames committed one after the other follow each other where the second is
marked continuous. -/
theorem Numbering.follows {slot other n : Nat} (holds : r.Numbering)
    (truthful : r.traced.Truthful) (filled : r.number slot = some n)
    (next : r.number other = some (n + 1))
    (marked : (r.info.frameIdx other).continuous = true) :
    r.info.Follows slot other := by
  obtain ⟨offset, length, recorded, starts⟩ := truthful other marked
  have isBefore := holds.before slot other n filled next
    (by rw [recorded]; exact Option.some_ne_none _)
  obtain ⟨rfl, rfl⟩ := Prod.mk.inj
    (Option.some.inj (recorded.symm.trans isBefore))
  exact starts

theorem Numbering.isChain_follows {slots : List Nat} (holds : r.Numbering)
    (truthful : r.traced.Truthful)
    (ordered : slots.IsChain fun slot other =>
      ∃ n, r.number slot = some n ∧ r.number other = some (n + 1))
    (plain : ∀ slot ∈ slots.tail, startsRun (r.info.frameIdx slot) = false) :
    slots.IsChain r.info.Follows := by
  induction ordered with
  | nil => exact .nil
  | singleton slot => exact .singleton slot
  | cons_cons numbers rest ih =>
      rename_i slot other slots
      obtain ⟨n, filled, next⟩ := numbers
      refine .cons_cons ?_ (ih fun slot member =>
        plain slot (List.mem_cons_of_mem _ member))
      apply holds.follows truthful filled next
      have unmarked := plain other List.mem_cons_self
      simp only [startsRun, decide_eq_false_iff_not, not_or] at unmarked
      simpa using unmarked.1

/-- A request that meets its condition reads a run. -/
theorem Numbering.readsRun (holds : r.Numbering)
    (inside : r.info.productorIndex < MAX_FRAME_NUM)
    (truthful : r.traced.Truthful) (whole : r.WholeRun call) :
    r.ReadsRun call := by
  cases call with
  | requestReadContinuousFrames handle frameCount =>
      intro obj reads wanted
      apply RingBufInfo.requestReadContinuousFrames_describes wanted inside
      intro first chosen grants
      obtain ⟨inOrder, short, bytes⟩ := whole obj reads first chosen grants
      obtain ⟨n, filled⟩ := Option.ne_none_iff_exists'.mp
        (inOrder.filled first (by
          rw [List.head?_take, if_neg (by omega)]
          rfl))
      obtain ⟨_, bounded, placed⟩ := holds.below first n filled
      refine ⟨bounded, ?_, ?_, short, bytes⟩
      · rw [← placed]
        exact Nat.mod_lt _ (Nat.zero_lt_of_lt bytes)
      · apply holds.isChain_follows truthful inOrder.ordered
        intro slot member
        obtain ⟨count, rfl⟩ := Nat.exists_eq_add_of_le' wanted
        have later : slot ∈ (r.info.runFrom first).tail :=
          List.mem_of_mem_take (i := count) member
        have unmarked := List.mem_takeWhile_imp later
        simpa using unmarked
  | _ => trivial

/-- In every run in which the continuity flags are kept truthful and every
request for a run meets its condition, all of them read a run. -/
theorem readsRun_of_wholeRun (bufSize now : Nat) (data : Nat → UInt8)
    (calls : List Call)
    (meets : StepsMeet next
      (fun r call => (r.traced.LastWriter call ∧ r.traced.KeepsJump call) ∧
        r.WholeRun call) (fresh bufSize now data) calls) :
    StepsMeet next ReadsRun (fresh bufSize now data) calls := by
  have starts : (fresh bufSize now data).traced.system.FramesHold ∧
      (fresh bufSize now data).traced.Continuity ∧
      (fresh bufSize now data).Numbering :=
    ⟨System.framesHold_fresh bufSize now data,
      Traced.continuity_fresh bufSize now data,
      numbering_fresh bufSize now data⟩
  have keeps : ∀ (before : Numbered) (call : Call) (after : Numbered),
      (before.traced.system.FramesHold ∧ before.traced.Continuity ∧
        before.Numbering) →
      ((before.traced.LastWriter call ∧ before.traced.KeepsJump call) ∧
        before.WholeRun call) →
      before.next call = some after →
        after.traced.system.FramesHold ∧ after.traced.Continuity ∧
          after.Numbering := by
    rintro before call after ⟨frames, continuity, numbering⟩
      ⟨⟨lastWriter, keepsJump⟩, _⟩ steps
    obtain ⟨t, called, rfl⟩ := Option.map_eq_some_iff.mp steps
    obtain ⟨answer, returns⟩ := System.next_eq_some_iff.mp called
    have frameStep := System.frameStep frames.proper returns
    refine ⟨?_, ?_, numbering.step frames.index frameStep⟩
    · rw [traced_record, Traced.system_record]
      exact frames.step returns
    · rw [traced_record]
      exact continuity.step frameStep lastWriter keepsJump
  have states := statesMeet_of_stepsMeet keeps starts meets
  apply states.steps _ meets
  rintro r call ⟨frames, continuity, numbering⟩ ⟨_, whole⟩
  exact numbering.readsRun frames.index continuity.truthful whole

/-- A writer and a reader, two frames of one run and the start of the next. -/
def twoFrames : List Call :=
  [.attachWriter 0 [0x57] false, .attachReader 1 [0x61] false,
    .requestWriteFrame 0 100 .CRB_FRAME_P_SLICE .CRB_WRITE_MODE_NON_BLOCK,
    .commitWrite 0 none 1,
    .requestWriteFrame 0 50 .CRB_FRAME_P_SLICE .CRB_WRITE_MODE_NON_BLOCK,
    .commitWrite 0 none 2,
    .requestWriteFrame 0 80 .CRB_FRAME_I_SLICE .CRB_WRITE_MODE_NON_BLOCK,
    .commitWrite 0 none 3]

/-- Both frames are read together. -/
theorem readsRun_two_frames :
    StepsMeet next ReadsRun (fresh 4096 1 fun _ => 0)
      (twoFrames ++ [.requestReadContinuousFrames 1 8]) := by
  apply readsRun_of_wholeRun
  have plain : ∀ call ∈ twoFrames, ∀ r : Numbered,
      (r.traced.LastWriter call ∧ r.traced.KeepsJump call) ∧
        r.WholeRun call := by
    simp [twoFrames, Traced.LastWriter, Traced.KeepsJump, WholeRun]
  apply (stepsMeet_of_forall plain _).append_last
  intro r runs
  refine ⟨⟨trivial, trivial⟩, ?_⟩
  have ends : ((run next (fresh 4096 1 fun _ => 0) twoFrames).map fun r =>
      ((r.traced.system.reader 1).map r.info.chosenFrame,
        (r.info.runFrom 0).take 8, r.number 0, r.number 1,
        r.info.bytesOf [0], r.info.bufSize)) =
      some (some (some 0), [0, 1], some 0, some 1, 100, 4096) := by
    decide +kernel
  rw [runs, Option.map_some, Option.some.injEq] at ends
  simp only [Prod.mk.injEq] at ends
  obtain ⟨chooses, described, filled, next, bytes, bufSize⟩ := ends
  intro obj reads first chosen _
  rw [reads, Option.map_some, Option.some.injEq, chosen] at chooses
  obtain rfl := Option.some.inj chooses
  dsimp only
  rw [described]
  refine ⟨⟨?_, .cons_cons ⟨0, filled, next⟩ (.singleton 1)⟩, by decide, ?_⟩
  · rintro _ ⟨⟩
    rw [filled]
    exact Option.some_ne_none 0
  · change r.info.bytesOf [0] < _
    rw [bytes, bufSize]
    decide

/-- A run of 256 frames of one byte, with a reader at its start. -/
def longRun : List Call :=
  [.attachWriter 0 [0x57] false, .attachReader 1 [0x61] false] ++
    (List.replicate 256 [
      .requestWriteFrame 0 1 .CRB_FRAME_P_SLICE .CRB_WRITE_MODE_NON_BLOCK,
      .commitWrite 0 none 1]).flatten ++
    [.requestWriteFrame 0 1 .CRB_FRAME_I_SLICE .CRB_WRITE_MODE_NON_BLOCK,
      .commitWrite 0 none 2]

/-- A request for all of them does not end. -/
theorem not_forall_readsRun :
    ¬ ∀ (bufSize now : Nat) (data : Nat → UInt8) (calls : List Call),
      StepsMeet next ReadsRun (fresh bufSize now data) calls := by
  intro claimed
  have ends : ((run next (fresh 4096 1 fun _ => 0) longRun).any fun r =>
      (r.traced.system.reader 1).any fun obj =>
        !(r.info.requestReadContinuousFrames obj 256).toBool) = true := by
    decide +kernel
  rw [Option.any_eq_true] at ends
  obtain ⟨r, runs, stuck⟩ := ends
  rw [Option.any_eq_true] at stuck
  obtain ⟨obj, reads, fails⟩ := stuck
  have meets := claimed 4096 1 (fun _ => 0)
    (longRun ++ [.requestReadContinuousFrames 1 256])
  obtain ⟨after, obj', answer, returns, _⟩ :=
    meets.last runs obj reads (by decide)
  rw [returns] at fails
  cases fails

end Numbered

end CRingBuf

end MbedtlsKcp
