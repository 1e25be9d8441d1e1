import MbedtlsKcp.RingBufReader

/-!
# Fills that return and stay inside the buffer

The eviction loops of `RING_BUF_FillBuf` go around the index table until the
lengths they meet add up to the frame.  On a table without a byte they never
stop, and nothing compares the frame with the capacity of the channel.
-/

namespace MbedtlsKcp

namespace RingBufChannel

open CyclicWindows FallibleSteps TransitionRuns

/-- A channel before `RING_BUF_Init` and after `RING_BUF_Release`. -/
def ringBufReleased : RingBuf where
  nIsInit := false
  nIsFull := false
  uiMaxLen := 0
  uiCurPos := 0
  uiHeadIndex := 0
  uiCurIndex := 0
  uiLeftLen := 0
  uiOldestIndex := 0
  uinewIFrameIndex := 0
  index := fun _ => ⟨0, 0, 0, 0, 0, 0⟩
  pRingBuf := fun _ => 0

/-- The calls that change a channel.  `RING_BUF_Init` allocates its buffer,
which can fail. -/
inductive ChannelCall
  | init (malloced : Option (Nat → UInt8))
  | fillBuf (call : FillCall)
  | release

/-- The channel after a call; `none` when the call does not return. -/
def channelStep (nChannel : Fin MAX_CHANNEL_NUM) (ring : RingBuf) :
    ChannelCall → Option RingBuf
  | .init (some malloced) => some (ringBufInit nChannel malloced)
  | .init none =>
      some { ringBufReleased with
        uiMaxLen := channelLen nChannel
        uiLeftLen := channelLen nChannel }
  | .fillBuf call =>
      match ringBufFillBuf nChannel ring call with
      | .ok (after, _) => some after
      | .error _ => none
  | .release => some ringBufReleased

/-- A fill returns; it writes its frame inside the buffer, or it fails and
changes nothing. -/
def FillsInBounds (nChannel : Fin MAX_CHANNEL_NUM) (ring : RingBuf) :
    ChannelCall → Prop
  | .fillBuf call => ∃ after code,
      ringBufFillBuf nChannel ring call = .ok (after, code) ∧
        (code = 0 ∧ (∃ position,
            position + call.uiDataLen ≤ ring.uiMaxLen ∧
            after.pRingBuf =
              memcpy ring.pRingBuf position call.uiDataLen call.pData) ∨
          code = -1 ∧ after = ring)
  | _ => True

/-- The frame fits the buffer, and where the fill has to evict, the table has
something that ends the loop. -/
def RoomFound (nChannel : Fin MAX_CHANNEL_NUM) (ring : RingBuf) :
    ChannelCall → Prop
  | .fillBuf call => ring.nIsInit = true →
      call.uiDataLen ≤ channelLen nChannel ∧
        if channelLen nChannel - ring.uiCurPos < call.uiDataLen then
          ∃ i < MAX_INDEX, 0 < (ring.index i).len
        else
          ring.nIsFull = true → call.uiDataLen ≤ ring.uiLeftLen ∨
            ∃ i < MAX_INDEX,
              (ring.index i).offset = 0 ∨ 0 < (ring.index i).len
  | _ => True

/-- What every call keeps of a channel. -/
structure TableBounded (nChannel : Fin MAX_CHANNEL_NUM) (ring : RingBuf) :
    Prop where
  maxLen : ring.nIsInit = true → ring.uiMaxLen = channelLen nChannel
  curPos : ring.uiCurPos ≤ channelLen nChannel
  head : ring.uiHeadIndex < MAX_INDEX
  cur : ring.uiCurIndex < MAX_INDEX
  oldest : ring.uiOldestIndex < MAX_INDEX
  short : ∀ i, (ring.index i).len ≤ channelLen nChannel

section Loops

variable {index : Nat → Index} {uiDataLen capacity : Nat}

/-- No number of rounds finds a byte in an empty table. -/
theorem evictFromHead_endless {uiLeftLen first : Nat}
    (empty : ∀ i < MAX_INDEX, (index i).len = 0)
    (short : uiLeftLen < uiDataLen) (bounded : uiLeftLen < 2 ^ 32)
    (firstBounded : first < MAX_INDEX) (rounds : Nat) :
    evictFromHead index uiDataLen rounds uiLeftLen first =
      .error .endless := by
  induction rounds generalizing first with
  | zero => rfl
  | succ rounds ih =>
      rw [evictFromHead, if_pos short, empty first firstBounded,
        Nat.add_zero, Nat.mod_eq_of_lt bounded]
      exact ih (next_lt firstBounded)

theorem evictOldest_endless {uiLeftLen toEnd first : Nat}
    (empty : ∀ i < MAX_INDEX, (index i).offset ≠ 0 ∧ (index i).len = 0)
    (short : uiLeftLen < uiDataLen) (bounded : uiLeftLen < 2 ^ 32)
    (firstBounded : first < MAX_INDEX) (rounds : Nat) :
    evictOldest index uiDataLen toEnd rounds uiLeftLen first =
      .error .endless := by
  induction rounds generalizing first with
  | zero => rfl
  | succ rounds ih =>
      rw [evictOldest, if_pos short, if_neg (empty first firstBounded).1,
        (empty first firstBounded).2, Nat.add_zero, Nat.mod_eq_of_lt bounded]
      exact ih (next_lt firstBounded)

/-- A round either comes closer to the slot `j` or, at `j`, frees a byte and
has the whole table ahead of it again. -/
theorem evictionMeasure_lt {uiLeftLen first j : Nat}
    (firstBounded : first < MAX_INDEX) (jBounded : j < MAX_INDEX)
    (short : uiLeftLen < uiDataLen) (frees : first = j → 0 < (index j).len) :
    gap MAX_INDEX (next MAX_INDEX first) j +
        MAX_INDEX * (uiDataLen - (uiLeftLen + (index first).len)) <
      gap MAX_INDEX first j + MAX_INDEX * (uiDataLen - uiLeftLen) := by
  by_cases same : first = j
  · subst same
    have freed := frees rfl
    have near := gap_lt (next_lt firstBounded) firstBounded
    have fewer : uiDataLen - (uiLeftLen + (index first).len) + 1 ≤
        uiDataLen - uiLeftLen := by
      omega
    have scaled := Nat.mul_le_mul_left MAX_INDEX fewer
    rw [Nat.mul_succ] at scaled
    omega
  · have step := gap_next_first firstBounded jBounded same
    have fewer : uiDataLen - (uiLeftLen + (index first).len) ≤
        uiDataLen - uiLeftLen := by
      omega
    have scaled := Nat.mul_le_mul_left MAX_INDEX fewer
    omega

/-- One slot with a byte ends the eviction of a wrapping fill. -/
theorem evictFromHead_returns {uiLeftLen first j rounds : Nat}
    (short : ∀ i, (index i).len ≤ capacity) (bounded : capacity < 2 ^ 31)
    (wanted : uiDataLen ≤ capacity) (firstBounded : first < MAX_INDEX)
    (jBounded : j < MAX_INDEX) (frees : 0 < (index j).len)
    (time : gap MAX_INDEX first j + MAX_INDEX * (uiDataLen - uiLeftLen) <
      rounds) :
    ∃ freed oldest, oldest < MAX_INDEX ∧
      evictFromHead index uiDataLen rounds uiLeftLen first =
        .ok (freed, oldest) := by
  induction rounds generalizing uiLeftLen first with
  | zero => omega
  | succ rounds ih =>
      rw [evictFromHead]
      by_cases runs : uiLeftLen < uiDataLen
      · have fewer := evictionMeasure_lt firstBounded jBounded runs
          fun _ => frees
        rw [if_pos runs, evictedLength_mod short bounded wanted runs,
          ringBufGetNextIndex]
        exact ih (next_lt firstBounded) (by omega)
      · rw [if_neg runs]
        exact ⟨uiLeftLen, first, firstBounded, rfl⟩

/-- Any other fill also stops at a slot at the beginning of the buffer. -/
theorem evictOldest_returns {uiLeftLen toEnd first j rounds : Nat}
    (short : ∀ i, (index i).len ≤ capacity) (bounded : capacity < 2 ^ 31)
    (wanted : uiDataLen ≤ capacity) (firstBounded : first < MAX_INDEX)
    (jBounded : j < MAX_INDEX)
    (ends : (index j).offset = 0 ∨ 0 < (index j).len)
    (time : gap MAX_INDEX first j + MAX_INDEX * (uiDataLen - uiLeftLen) <
      rounds) :
    ∃ freed oldest, oldest < MAX_INDEX ∧
      evictOldest index uiDataLen toEnd rounds uiLeftLen first =
        .ok (freed, oldest) := by
  induction rounds generalizing uiLeftLen first with
  | zero => omega
  | succ rounds ih =>
      rw [evictOldest]
      by_cases runs : uiLeftLen < uiDataLen
      · rw [if_pos runs]
        by_cases atHead : (index first).offset = 0
        · rw [if_pos atHead]
          exact ⟨toEnd, first, firstBounded, rfl⟩
        · have frees : first = j → 0 < (index j).len := by
            rintro rfl
            exact ends.resolve_left atHead
          have fewer := evictionMeasure_lt firstBounded jBounded runs frees
          rw [if_neg atHead, evictedLength_mod short bounded wanted runs,
            ringBufGetNextIndex]
          exact ih (next_lt firstBounded) (by omega)
      · rw [if_neg runs]
        exact ⟨uiLeftLen, first, firstBounded, rfl⟩

theorem evictFromHead_oldest {uiLeftLen first rounds freed oldest : Nat}
    (firstBounded : first < MAX_INDEX)
    (returns : evictFromHead index uiDataLen rounds uiLeftLen first =
      .ok (freed, oldest)) : oldest < MAX_INDEX := by
  induction rounds generalizing uiLeftLen first with
  | zero => cases returns
  | succ rounds ih =>
      rw [evictFromHead] at returns
      split at returns
      · exact ih (next_lt firstBounded) returns
      · obtain ⟨_, rfl⟩ := Prod.mk.inj (Except.ok.inj returns)
        exact firstBounded

theorem evictOldest_oldest {uiLeftLen toEnd first rounds freed oldest : Nat}
    (firstBounded : first < MAX_INDEX)
    (returns : evictOldest index uiDataLen toEnd rounds uiLeftLen first =
      .ok (freed, oldest)) : oldest < MAX_INDEX := by
  induction rounds generalizing uiLeftLen first with
  | zero => cases returns
  | succ rounds ih =>
      rw [evictOldest] at returns
      split at returns
      · split at returns
        · obtain ⟨_, rfl⟩ := Prod.mk.inj (Except.ok.inj returns)
          exact firstBounded
        · exact ih (next_lt firstBounded) returns
      · obtain ⟨_, rfl⟩ := Prod.mk.inj (Except.ok.inj returns)
        exact firstBounded

theorem evictionMeasure_start {uiLeftLen first j : Nat}
    (firstBounded : first < MAX_INDEX) (jBounded : j < MAX_INDEX) :
    gap MAX_INDEX first j + MAX_INDEX * (uiDataLen - uiLeftLen) <
      evictionRounds uiDataLen := by
  have near := gap_lt firstBounded jBounded
  have fewer := Nat.mul_le_mul_left MAX_INDEX (Nat.sub_le uiDataLen uiLeftLen)
  rw [evictionRounds, Nat.mul_succ]
  omega

end Loops

section Fill

variable {nChannel : Fin MAX_CHANNEL_NUM} {ring : RingBuf}

/-- What making room leaves of a channel. -/
structure RoomMade (nChannel : Fin MAX_CHANNEL_NUM) (before after : RingBuf) :
    Prop where
  table : TableBounded nChannel after
  init : after.nIsInit = before.nIsInit
  maxLen : after.uiMaxLen = before.uiMaxLen
  bytes : after.pRingBuf = before.pRingBuf

theorem coverData_made {uiDataLen freed : Nat} {after : RingBuf}
    (table : TableBounded nChannel ring)
    (returns : coverData nChannel ring uiDataLen = .ok (after, freed)) :
    RoomMade nChannel ring after := by
  obtain ⟨oldest, ⟨evicts, rfl⟩ | ⟨_, evicts, rfl⟩⟩ := coverData_eq_ok returns
  · refine ⟨?_, rfl, rfl, rfl⟩
    exact
      { table with
        curPos := Nat.zero_le _
        head := table.cur
        oldest := evictFromHead_oldest table.head evicts }
  · refine ⟨?_, rfl, rfl, rfl⟩
    exact { table with oldest := evictOldest_oldest table.oldest evicts }

theorem makeRoom_made {uiDataLen freed : Nat} {after : RingBuf}
    (table : TableBounded nChannel ring)
    (returns : makeRoom nChannel ring uiDataLen = .ok (after, freed)) :
    RoomMade nChannel ring after := by
  obtain ⟨full, covers⟩ | ⟨_, rfl⟩ := makeRoom_eq_ok returns
  · have flagged : TableBounded nChannel { ring with nIsFull := full } :=
      { table with }
    obtain ⟨kept, init, maxLen, bytes⟩ := coverData_made flagged covers
    exact ⟨kept, init, maxLen, bytes⟩
  · exact ⟨table, rfl, rfl, rfl⟩

theorem coverData_returns {uiDataLen : Nat}
    (table : TableBounded nChannel ring)
    (wanted : uiDataLen ≤ channelLen nChannel) :
    (if channelLen nChannel - ring.uiCurPos < uiDataLen then
        ∃ i < MAX_INDEX, 0 < (ring.index i).len
      else uiDataLen ≤ ring.uiLeftLen ∨ ∃ i < MAX_INDEX,
        (ring.index i).offset = 0 ∨ 0 < (ring.index i).len) ↔
      ∃ after freed,
        coverData nChannel ring uiDataLen = .ok (after, freed) := by
  have capacity := channelLen_lt nChannel
  unfold coverData
  split_ifs with restarts
  · constructor
    · rintro ⟨j, jBounded, frees⟩
      obtain ⟨freed, oldest, _, result⟩ := evictFromHead_returns table.short
        capacity wanted table.head jBounded frees
        (evictionMeasure_start table.head jBounded)
      exact ⟨_, _, by rw [result]; rfl⟩
    · rintro ⟨after, freed, returns⟩
      by_contra! empty
      rw [evictFromHead_endless (fun i inside => by
        have := empty i inside
        omega) (by omega) (by omega) table.head] at returns
      cases returns
  · constructor
    · intro ends
      by_cases enough : uiDataLen ≤ ring.uiLeftLen
      · have stops : evictOldest ring.index uiDataLen
            (ring.uiMaxLen - ring.uiCurPos) (evictionRounds uiDataLen)
              ring.uiLeftLen ring.uiOldestIndex =
            .ok (ring.uiLeftLen, ring.uiOldestIndex) := by
          rw [evictionRounds, Nat.mul_succ, MAX_INDEX, evictOldest,
            if_neg (by omega)]
        exact ⟨_, _, by rw [stops]; rfl⟩
      · obtain ⟨j, jBounded, stopsAt⟩ := ends.resolve_left enough
        obtain ⟨freed, oldest, _, result⟩ := evictOldest_returns table.short
          capacity wanted table.oldest jBounded stopsAt
          (evictionMeasure_start table.oldest jBounded)
        exact ⟨_, _, by rw [result]; rfl⟩
    · rintro ⟨after, freed, returns⟩
      by_contra! empty
      obtain ⟨short, empty⟩ := empty
      rw [evictOldest_endless (fun i inside => by
        have := empty i inside
        omega) short (by omega) table.oldest] at returns
      cases returns

/-- Making room returns exactly if the table has something that ends the
loop. -/
theorem makeRoom_returns {uiDataLen : Nat}
    (table : TableBounded nChannel ring)
    (wanted : uiDataLen ≤ channelLen nChannel) :
    (if channelLen nChannel - ring.uiCurPos < uiDataLen then
        ∃ i < MAX_INDEX, 0 < (ring.index i).len
      else ring.nIsFull = true → uiDataLen ≤ ring.uiLeftLen ∨
        ∃ i < MAX_INDEX,
          (ring.index i).offset = 0 ∨ 0 < (ring.index i).len) ↔
      ∃ after freed,
        makeRoom nChannel ring uiDataLen = .ok (after, freed) := by
  unfold makeRoom
  by_cases full : ring.nIsFull
  · rw [if_pos full, ← coverData_returns table wanted]
    simp only [full, true_imp_iff]
  · rw [if_neg full]
    by_cases restarts : channelLen nChannel - ring.uiCurPos < uiDataLen
    · have flagged : TableBounded nChannel { ring with nIsFull := true } :=
        { table with }
      rw [if_pos restarts, if_pos restarts, ← coverData_returns flagged wanted,
        if_pos restarts]
    · rw [if_neg restarts, if_neg restarts]
      exact iff_of_true (fun isFull => absurd isFull full) ⟨_, _, rfl⟩

/-- The frame is stored behind the end of the ones in front of it, or at the
beginning. -/
theorem makeRoom_fits {uiDataLen freed : Nat} {after : RingBuf}
    (wanted : uiDataLen ≤ channelLen nChannel)
    (returns : makeRoom nChannel ring uiDataLen = .ok (after, freed))
    (curPos : ring.uiCurPos ≤ channelLen nChannel) :
    after.uiCurPos + uiDataLen ≤ channelLen nChannel := by
  obtain ⟨full, covers⟩ | ⟨fits, rfl⟩ := makeRoom_eq_ok returns
  · obtain ⟨oldest, ⟨_, rfl⟩ | ⟨fits, _, rfl⟩⟩ := coverData_eq_ok covers
    · rw [Nat.zero_add]
      exact wanted
    · change uiDataLen ≤ channelLen nChannel - ring.uiCurPos at fits
      change ring.uiCurPos + uiDataLen ≤ channelLen nChannel
      omega
  · omega

/-- A fill of an initialised channel that returns has made room and stored its
frame. -/
theorem ringBufFillBuf_eq_ok_iff {call : FillCall} {after : RingBuf}
    {code : Int} (init : ring.nIsInit = true) :
    ringBufFillBuf nChannel ring call = .ok (after, code) ↔
      ∃ middle freed,
        makeRoom nChannel ring call.uiDataLen = .ok (middle, freed) ∧
        middle.uiCurPos + call.uiDataLen ≤ channelLen nChannel ∧
        after = storeFrame middle call freed ∧ code = 0 := by
  rw [ringBufFillBuf, if_pos init, bind_eq_ok_iff]
  constructor
  · rintro ⟨⟨middle, freed⟩, makes, rest⟩
    dsimp only at rest
    split at rest
    · rename_i fits
      obtain ⟨rfl, rfl⟩ := Prod.mk.inj (pure_eq_ok_iff.mp rest)
      exact ⟨middle, freed, makes, fits, rfl, rfl⟩
    · cases rest
  · rintro ⟨middle, freed, makes, fits, rfl, rfl⟩
    exact ⟨(middle, freed), makes, if_pos fits⟩

/-- A fill keeps the bounds of the table. -/
theorem ringBufFillBuf_table {call : FillCall} {after : RingBuf} {code : Int}
    (table : TableBounded nChannel ring)
    (returns : ringBufFillBuf nChannel ring call = .ok (after, code)) :
    TableBounded nChannel after := by
  by_cases init : ring.nIsInit
  · obtain ⟨middle, freed, makes, fits, rfl, rfl⟩ :=
      (ringBufFillBuf_eq_ok_iff init).mp returns
    have made := (makeRoom_made table makes).table
    refine
      { maxLen := made.maxLen
        curPos := fits
        head := made.head
        cur := next_lt made.cur
        oldest := made.oldest
        short := ?_ }
    intro i
    by_cases same : i = middle.uiCurIndex
    · subst same
      simp only [storeFrame, Function.update_self]
      exact Nat.le_trans (Nat.le_add_left _ _) fits
    · simp only [storeFrame, Function.update_of_ne same]
      exact made.short i
  · rw [ringBufFillBuf, if_neg init] at returns
    obtain ⟨rfl, _⟩ := Prod.mk.inj (pure_eq_ok_iff.mp returns)
    exact table

theorem tableBounded_released (nChannel : Fin MAX_CHANNEL_NUM) :
    TableBounded nChannel ringBufReleased where
  maxLen := by simp [ringBufReleased]
  curPos := Nat.zero_le _
  head := show 0 < MAX_INDEX by decide
  cur := show 0 < MAX_INDEX by decide
  oldest := show 0 < MAX_INDEX by decide
  short := fun _ => Nat.zero_le _

theorem channelStep_table {after : RingBuf} {call : ChannelCall}
    (table : TableBounded nChannel ring)
    (steps : channelStep nChannel ring call = some after) :
    TableBounded nChannel after := by
  cases call with
  | init malloced =>
      have released := tableBounded_released nChannel
      cases malloced with
      | none =>
          obtain rfl := Option.some.inj steps
          exact { released with maxLen := fun _ => rfl }
      | some bytes =>
          obtain rfl := Option.some.inj steps
          exact
            { maxLen := fun _ => rfl
              curPos := released.curPos
              head := released.head
              cur := released.cur
              oldest := released.oldest
              short := released.short }
  | fillBuf call =>
      rw [channelStep] at steps
      cases fills : ringBufFillBuf nChannel ring call with
      | error fault =>
          rw [fills] at steps
          cases steps
      | ok result =>
          rw [fills] at steps
          obtain rfl := Option.some.inj steps
          exact ringBufFillBuf_table table fills
  | release =>
      obtain rfl := Option.some.inj steps
      exact tableBounded_released nChannel

/-- A call returns inside the buffer exactly if it finds room. -/
theorem fillsInBounds_iff_of_table (table : TableBounded nChannel ring)
    (call : ChannelCall) :
    FillsInBounds nChannel ring call ↔ RoomFound nChannel ring call := by
  cases call with
  | init malloced => exact Iff.rfl
  | release => exact Iff.rfl
  | fillBuf call =>
      by_cases init : ring.nIsInit
      swap
      · refine iff_of_true ⟨ring, -1, ?_, .inr ⟨rfl, rfl⟩⟩
          fun isInit => absurd isInit init
        rw [ringBufFillBuf, if_neg init]
        rfl
      rw [RoomFound, FillsInBounds]
      simp only [init, true_imp_iff]
      constructor
      · rintro ⟨after, code, returns, _⟩
        obtain ⟨middle, freed, makes, fits, _, _⟩ :=
          (ringBufFillBuf_eq_ok_iff init).mp returns
        have wanted := Nat.le_trans (Nat.le_add_left _ _) fits
        exact ⟨wanted, (makeRoom_returns table wanted).mpr
          ⟨middle, freed, makes⟩⟩
      · rintro ⟨wanted, ends⟩
        obtain ⟨middle, freed, makes⟩ :=
          (makeRoom_returns table wanted).mp ends
        have fits := makeRoom_fits wanted makes table.curPos
        have made := makeRoom_made table makes
        refine ⟨storeFrame middle call freed, 0,
          (ringBufFillBuf_eq_ok_iff init).mpr
            ⟨middle, freed, makes, fits, rfl, rfl⟩,
          .inl ⟨rfl, middle.uiCurPos, ?_, ?_⟩⟩
        · rw [table.maxLen init]
          exact fits
        · rw [← made.bytes]
          rfl

/-- All fills of a run return inside the buffer exactly if each of them finds
room. -/
theorem fillsInBounds_iff_roomFound (nChannel : Fin MAX_CHANNEL_NUM)
    (calls : List ChannelCall) :
    StepsMeet (channelStep nChannel) (FillsInBounds nChannel) ringBufReleased
        calls ↔
      StepsMeet (channelStep nChannel) (RoomFound nChannel) ringBufReleased
        calls := by
  have states := statesMeet_of_stepsMeet
    (fun _ _ _ table _ steps => channelStep_table table steps)
    (tableBounded_released nChannel)
    (stepsMeet_true (channelStep nChannel) ringBufReleased calls)
  constructor
  · exact states.steps fun _ call table =>
      (fillsInBounds_iff_of_table table call).mp
  · exact states.steps fun _ call table =>
      (fillsInBounds_iff_of_table table call).mpr

/-- A frame of one byte more than the capacity of a new sub channel. -/
theorem not_forall_fillsInBounds :
    ¬ ∀ (nChannel : Fin MAX_CHANNEL_NUM) (calls : List ChannelCall),
      StepsMeet (channelStep nChannel) (FillsInBounds nChannel)
        ringBufReleased calls := by
  intro claimed
  have meets := claimed subChannel
    ([.init (some fun _ => 0)] ++ [.fillBuf (plainFill 262145 1)])
  have opens : run (channelStep subChannel) ringBufReleased
      [.init (some fun _ => 0)] = some (ringBufInit subChannel fun _ => 0) :=
    rfl
  obtain ⟨after, code, returns, _⟩ := meets.last opens
  obtain ⟨middle, freed, _, fits, _⟩ :=
    (ringBufFillBuf_eq_ok_iff rfl).mp returns
  have wanted := Nat.le_trans (Nat.le_add_left _ _) fits
  exact absurd wanted (by decide)

end Fill

end RingBufChannel

end MbedtlsKcp
