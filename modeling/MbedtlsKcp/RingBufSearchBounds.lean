import MbedtlsKcp.RingBufFillBounds
import MbedtlsKcp.RingBufSearch

/-!
# Searches that end inside the table

A search that starts inside the table and walks forwards meets the slots of a
window up to `uiCurIndex`, so what it does is decided by the accepted slots of
that window.  The window need not be the live one.  The backward search is
decided by the slots from its start down to slot 1.
-/

namespace MbedtlsKcp

namespace RingBufChannel

open CyclicWindows FallibleSteps TransitionRuns

/-- The slot holds an I frame of the live window. -/
def HoldsLiveIFrame (ring : RingBuf) (slot : Nat) : Prop :=
  (ring.index slot).frameType = RINGBUF_FRAME_TYPE_VIDEO_I ∧
    slot ∈ liveWindow ring

instance (ring : RingBuf) (slot : Nat) :
    Decidable (HoldsLiveIFrame ring slot) :=
  inferInstanceAs (Decidable (_ ∧ _))

/-- What a search may answer. -/
def AnswerSound (ring : RingBuf) (answer : SearchAnswer) : Prop :=
  answer.startReadIndex < MAX_INDEX ∧
    (0 < answer.nLen →
      ∃ slot, answer.given = some slot ∧ HoldsLiveIFrame ring slot)

/-- A search ends, reads the table only and gives a live I frame or none. -/
def SearchSound (ring : RingBuf) (hasDataBuf : Bool) (startReadIndex : Nat)
    (call : SearchCall) : Prop :=
  ∃ answer, search ring hasDataBuf startReadIndex call = .ok answer ∧
    AnswerSound ring answer

/-- `RING_BUF_GetPreIFrame` takes the frame of an accepted slot and goes on. -/
def staysEarly (ring : RingBuf) (limitTime : UInt64) (slot : Nat) : Bool :=
  (ring.index slot).len ≠ 0 ∧ (ring.index slot).pts < limitTime

/-- The accepted slots from `start` on serve `RING_BUF_GetPreIFrame`: the first
one that is not early holds a live I frame, or the last one if all are early.
An empty frame must come first and not before the time limit. -/
def PreIFrameServed (ring : RingBuf) (limitTime timeStamp : UInt64)
    (start startReadIndex : Nat) : Prop :=
  let accepted := (window MAX_INDEX start ring.uiCurIndex).filter
    fun slot => acceptsPreIFrame ring slot
  start < MAX_INDEX ∧
    match accepted.dropWhile (staysEarly ring limitTime) with
    | [] =>
        (∀ slot, accepted.getLast? = some slot → HoldsLiveIFrame ring slot) ∧
          (start = ring.uiCurIndex → startReadIndex < MAX_INDEX)
    | slot :: _ =>
        if (ring.index slot).len ≠ 0 then HoldsLiveIFrame ring slot
        else
          accepted.takeWhile (staysEarly ring limitTime) = [] ∧
            limitTime ≤ timeStamp ∧
            (slot = start → startReadIndex < MAX_INDEX)

/-- The first accepted slot from `start` on serves a search for the next I
frame, which takes the frames that meet `takes`. -/
def NextIFrameServed (ring : RingBuf) (takes : Nat → Prop)
    (start startReadIndex : Nat) : Prop :=
  start < MAX_INDEX ∧
    match (window MAX_INDEX start ring.uiCurIndex).find?
      fun slot => acceptsIFrame ring slot with
    | none => start = ring.uiCurIndex → startReadIndex < MAX_INDEX
    | some slot =>
        (takes slot → 0 < (ring.index slot).len →
          slot ∈ liveWindow ring) ∧
        (¬ takes slot → slot = start → startReadIndex < MAX_INDEX)

/-- The slots from `count` down to slot 1. -/
def slotsDown : Nat → List Nat
  | 0 => []
  | count + 1 => (count + 1) :: slotsDown count

/-- The slots that `RING_BUF_GetPreOneIFrame` reads before it leaves the
table. -/
def slotsBack (start : Nat) : List Nat :=
  if start = 0 then [0] else slotsDown start

/-- `RING_BUF_GetPreOneIFrame` finds a frame before it leaves the table, in a
slot in front of which lies another one. -/
def PreOneIFrameServed (ring : RingBuf) (start startReadIndex : Nat) : Prop :=
  if ring.uiCurIndex = ring.uiOldestIndex then startReadIndex < MAX_INDEX
  else
    match (slotsBack start).find? fun slot => acceptsIFrame ring slot with
    | none => False
    | some slot =>
        if (ring.index slot).len ≠ 0 then 2 ≤ slot ∧ slot ∈ liveWindow ring
        else slot = start → startReadIndex < MAX_INDEX

/-- The channel has what the search asks for where the search looks. -/
def SearchServed (ring : RingBuf) (hasDataBuf : Bool) (startReadIndex : Nat)
    (call : SearchCall) : Prop :=
  if hasDataBuf = false ∨ ring.nIsInit = false then
    startReadIndex < MAX_INDEX
  else
    match call with
    | .preIFrame PreSec frmRate limitTime timeStamp =>
        if ring.nIsFull = false then startReadIndex < MAX_INDEX
        else PreIFrameServed ring limitTime timeStamp
          (preIFrameStart ring (toUint (frmRate * PreSec.toNat)))
          startReadIndex
    | .preOneIFrame PreFlag =>
        PreOneIFrameServed ring
          (if PreFlag ≠ 0 then ring.uiOldestIndex else ring.uiCurIndex)
          startReadIndex
    | .nextIFrameAllRecord nBufLen lastReadIndex =>
        NextIFrameServed ring (fun slot => nBufLen ≥ (ring.index slot).len)
          (allRecordStart ring lastReadIndex) startReadIndex
    | .nextIFrame preFrmNum =>
        NextIFrameServed ring (fun slot => (ring.index slot).len ≠ 0)
          (nextIFrameStart ring preFrmNum) startReadIndex

section Forward

variable {ring : RingBuf}

/-- The slots that the forward searches walk over, given as a list, decide
`RING_BUF_GetPreIFrame`. -/
def settle (ring : RingBuf) (limitTime : UInt64) :
    UInt64 → SearchAnswer → List Nat → Except Fault SearchAnswer
  | _, answer, [] => .ok answer
  | timeStamp, answer, slot :: slots =>
      if acceptsPreIFrame ring slot then
        if (ring.index slot).len ≠ 0 then
          if limitTime > (ring.index slot).pts then
            settle ring limitTime (ring.index slot).pts
              ⟨(ring.index slot).len, ringBufGetNextIndex slot, some slot⟩
              slots
          else
            .ok ⟨(ring.index slot).len, ringBufGetNextIndex slot, some slot⟩
        else
          if limitTime > timeStamp then .error .endless
          else .ok { answer with nLen := 0 }
      else
        settle ring limitTime timeStamp
          { answer with startReadIndex := ringBufGetNextIndex slot } slots

/-- An accepted empty frame before the time limit holds the loop for ever. -/
theorem preIFrameLoop_endless {limitTime timeStamp : UInt64} {slot : Nat}
    (notCurrent : ring.uiCurIndex ≠ slot) (inside : slot < MAX_INDEX)
    (accepted : acceptsPreIFrame ring slot)
    (empty : (ring.index slot).len = 0) (before : limitTime > timeStamp)
    (rounds : Nat) (answer : SearchAnswer) :
    preIFrameLoop ring limitTime rounds slot timeStamp answer =
      .error .endless := by
  induction rounds generalizing answer with
  | zero => rfl
  | succ rounds ih =>
      rw [preIFrameLoop, if_pos notCurrent, if_neg (Nat.not_le_of_lt inside),
        if_pos accepted, if_neg (not_not_intro empty), if_pos before]
      exact ih _

/-- The loop of `RING_BUF_GetPreIFrame` depends on the slots of the window from
its index on. -/
theorem preIFrameLoop_eq_settle {limitTime timeStamp : UInt64}
    {rounds readIndex : Nat} {answer : SearchAnswer}
    (inside : readIndex < MAX_INDEX) (curInside : ring.uiCurIndex < MAX_INDEX)
    (time : gap MAX_INDEX readIndex ring.uiCurIndex < rounds) :
    preIFrameLoop ring limitTime rounds readIndex timeStamp answer =
      settle ring limitTime timeStamp answer
        (window MAX_INDEX readIndex ring.uiCurIndex) := by
  induction rounds generalizing readIndex timeStamp answer with
  | zero => omega
  | succ rounds ih =>
      by_cases current : ring.uiCurIndex = readIndex
      · rw [preIFrameLoop, if_neg (not_not_intro current), ← current,
          window_self, settle]
      · have apart : readIndex ≠ ring.uiCurIndex := Ne.symm current
        have step := gap_next_first inside curInside apart
        have next : ∀ stamp answer',
            preIFrameLoop ring limitTime rounds (ringBufGetNextIndex readIndex)
                stamp answer' =
              settle ring limitTime stamp answer' (window MAX_INDEX
                (next MAX_INDEX readIndex) ring.uiCurIndex) :=
          fun stamp answer' => ih (next_lt inside) (by
            rw [ringBufGetNextIndex]
            omega)
        rw [window_cons inside curInside apart, settle, preIFrameLoop,
          if_pos current, if_neg (Nat.not_le_of_lt inside)]
        simp only [next]
        split_ifs with accepted nonempty early before
        · rfl
        · rfl
        · exact preIFrameLoop_endless current inside accepted
            (not_not.mp nonempty) before rounds _
        · rfl
        · rfl

/-- A search for the next I frame answers at the first accepted slot of the
window. -/
theorem nextIFrameLoop_eq {take : Nat → Nat → SearchAnswer}
    {rounds readIndex startReadIndex : Nat}
    (inside : readIndex < MAX_INDEX) (curInside : ring.uiCurIndex < MAX_INDEX)
    (time : gap MAX_INDEX readIndex ring.uiCurIndex < rounds) :
    nextIFrameLoop ring take rounds readIndex startReadIndex =
      .ok (match (window MAX_INDEX readIndex ring.uiCurIndex).find?
          fun slot => acceptsIFrame ring slot with
        | none => ⟨-1, if readIndex = ring.uiCurIndex then startReadIndex
            else ring.uiCurIndex, none⟩
        | some slot => take slot
            (if slot = readIndex then startReadIndex else slot)) := by
  induction rounds generalizing readIndex startReadIndex with
  | zero => omega
  | succ rounds ih =>
      by_cases current : ring.uiCurIndex = readIndex
      · rw [nextIFrameLoop, if_neg (not_not_intro current), ← current,
          window_self, List.find?_nil]
        simp
      · have apart : readIndex ≠ ring.uiCurIndex := Ne.symm current
        have step := gap_next_first inside curInside apart
        rw [nextIFrameLoop, if_pos current, if_neg (Nat.not_le_of_lt inside),
          window_cons inside curInside apart, List.find?_cons]
        by_cases accepted : acceptsIFrame ring readIndex
        · simp [accepted]
        · rw [if_neg accepted, ringBufGetNextIndex,
            ih (next_lt inside) (by omega)]
          simp only [accepted, decide_false]
          cases found : (window MAX_INDEX (next MAX_INDEX readIndex)
              ring.uiCurIndex).find? fun slot => acceptsIFrame ring slot with
          | none =>
              simp only [if_neg apart]
              split_ifs with last
              · rw [last]
              · rfl
          | some slot =>
              have member := List.mem_of_find?_eq_some found
              have notFirst : slot ≠ readIndex := by
                rintro rfl
                exact first_not_mem_window_next inside curInside apart member
              simp only [if_neg notFirst]
              split_ifs with first
              · rw [first]
              · rfl

end Forward

section Backward

variable {ring : RingBuf}

theorem ringBufGetPreIndex_zero : ringBufGetPreIndex 0 = 2 ^ 32 - 1 := by
  decide

theorem ringBufGetPreIndex_succ {count : Nat} (inside : count < MAX_INDEX) :
    ringBufGetPreIndex (count + 1) = if count = 0 then MAX_INDEX else count := by
  have small : MAX_INDEX < 2 ^ 32 := by decide
  have stepBack : uintSub (count + 1) 1 = count := by
    rw [uintSub, show count + 1 + 2 ^ 32 - 1 = count + 2 ^ 32 by omega,
      Nat.add_mod_right]
    exact Nat.mod_eq_of_lt (by omega)
  rw [ringBufGetPreIndex, stepBack]

/-- Outside the table the backward search fails. -/
theorem preOneIFrameLoop_outside {rounds readIndex startReadIndex : Nat}
    (apart : ring.uiCurIndex ≠ ring.uiOldestIndex)
    (outside : MAX_INDEX ≤ readIndex) :
    preOneIFrameLoop ring (rounds + 1) readIndex startReadIndex =
      .error .outOfBounds := by
  rw [preOneIFrameLoop, if_pos apart, if_pos outside]

/-- What `RING_BUF_GetPreOneIFrame` answers, given the slot it finds. -/
def preOneAnswer (ring : RingBuf) (start startReadIndex : Nat) :
    Option Nat → Except Fault SearchAnswer
  | none => .error .outOfBounds
  | some slot =>
      if (ring.index slot).len ≠ 0 then
        .ok ⟨(ring.index slot).len, ringBufGetPreIndex slot, some slot⟩
      else .ok ⟨0, if slot = start then startReadIndex else slot, none⟩

theorem slotsDown_succ (count : Nat) :
    slotsDown (count + 1) = (count + 1) :: slotsDown count :=
  rfl

theorem mem_slotsDown_le {slot count : Nat} (member : slot ∈ slotsDown count) :
    1 ≤ slot ∧ slot ≤ count := by
  induction count with
  | zero => cases member
  | succ count ih =>
      rcases List.mem_cons.mp member with rfl | later
      · omega
      · have := ih later
        omega

theorem preOneIFrameLoop_eq_down {count rounds startReadIndex : Nat}
    (apart : ring.uiCurIndex ≠ ring.uiOldestIndex)
    (inside : count + 1 < MAX_INDEX) (time : count + 1 < rounds) :
    preOneIFrameLoop ring rounds (count + 1) startReadIndex =
      preOneAnswer ring (count + 1) startReadIndex
        ((slotsDown (count + 1)).find? fun slot =>
          acceptsIFrame ring slot) := by
  induction count generalizing rounds startReadIndex with
  | zero =>
      obtain ⟨rounds, rfl⟩ : ∃ k, rounds = k + 2 := ⟨rounds - 2, by omega⟩
      rw [preOneIFrameLoop, if_pos apart, if_neg (Nat.not_le_of_lt inside),
        ringBufGetPreIndex_succ (by omega), if_pos rfl,
        preOneIFrameLoop_outside apart (Nat.le_refl _)]
      by_cases accepted : acceptsIFrame ring 1
      · simp [slotsDown, accepted, preOneAnswer,
          ringBufGetPreIndex_succ (by decide : 0 < MAX_INDEX)]
      · simp [slotsDown, accepted, preOneAnswer]
  | succ count ih =>
      obtain ⟨rounds, rfl⟩ : ∃ k, rounds = k + 1 := ⟨rounds - 1, by omega⟩
      have stepBack : ringBufGetPreIndex (count + 1 + 1) = count + 1 := by
        rw [ringBufGetPreIndex_succ (by omega),
          if_neg (Nat.succ_ne_zero count)]
      rw [preOneIFrameLoop, if_pos apart, if_neg (Nat.not_le_of_lt inside),
        stepBack, ih (by omega) (by omega), slotsDown_succ (count + 1),
        List.find?_cons]
      by_cases accepted : acceptsIFrame ring (count + 1 + 1)
      · simp [accepted, preOneAnswer, stepBack]
      · rw [if_neg accepted]
        simp only [accepted, decide_false]
        cases found : (slotsDown (count + 1)).find? fun slot =>
            acceptsIFrame ring slot with
        | none => rfl
        | some slot =>
            have below := (mem_slotsDown_le (List.mem_of_find?_eq_some found)).2
            have notFirst : slot ≠ count + 1 + 1 := by omega
            simp only [preOneAnswer, if_neg notFirst]
            split_ifs with nonempty first
            · rfl
            · rw [first]
            · rfl

/-- The backward search is decided by the slots it reads before it leaves the
table. -/
theorem preOneIFrameLoop_eq {start startReadIndex : Nat}
    (apart : ring.uiCurIndex ≠ ring.uiOldestIndex)
    (inside : start < MAX_INDEX) :
    preOneIFrameLoop ring searchRounds start startReadIndex =
      preOneAnswer ring start startReadIndex
        ((slotsBack start).find? fun slot => acceptsIFrame ring slot) := by
  cases start with
  | zero =>
      rw [searchRounds, MAX_INDEX, preOneIFrameLoop, if_pos apart,
        if_neg (by decide), ringBufGetPreIndex_zero,
        preOneIFrameLoop_outside apart (by decide)]
      by_cases accepted : acceptsIFrame ring 0
      · simp [slotsBack, accepted, preOneAnswer, ringBufGetPreIndex_zero]
      · simp [slotsBack, accepted, preOneAnswer]
  | succ count =>
      rw [preOneIFrameLoop_eq_down apart inside (by
        rw [searchRounds]
        omega), slotsBack, if_neg (Nat.succ_ne_zero count)]

end Backward

section Soundness

variable {ring : RingBuf}

theorem exists_ok_iff {answer : SearchAnswer} :
    (∃ given, (.ok answer : Except Fault SearchAnswer) = .ok given ∧
      AnswerSound ring given) ↔ AnswerSound ring answer := by
  constructor
  · rintro ⟨given, same, sound⟩
    exact Except.ok.inj same ▸ sound
  · intro sound
    exact ⟨answer, rfl, sound⟩

theorem not_exists_error {fault : Fault} :
    ¬ ∃ given, (.error fault : Except Fault SearchAnswer) = .ok given ∧
      AnswerSound ring given := by
  rintro ⟨given, same, _⟩
  cases same

/-- An answer that gives no frame only has to leave `*StartReadIndex` in the
table. -/
theorem answerSound_of_nLen {answer : SearchAnswer} (none : answer.nLen ≤ 0) :
    AnswerSound ring answer ↔ answer.startReadIndex < MAX_INDEX := by
  constructor
  · exact fun sound => sound.1
  · exact fun inside => ⟨inside, fun positive => by omega⟩

theorem answerSound_given {slot startReadIndex : Nat} :
    AnswerSound ring ⟨(ring.index slot).len, startReadIndex, some slot⟩ ↔
      startReadIndex < MAX_INDEX ∧
        (0 < (ring.index slot).len → HoldsLiveIFrame ring slot) := by
  simp [AnswerSound]

/-- A search for the next I frame is sound exactly if the first accepted slot
serves it. -/
theorem nextIFrameLoop_sound_iff {take : Nat → Nat → SearchAnswer}
    {takes : Nat → Prop} {start startReadIndex : Nat}
    (curInside : ring.uiCurIndex < MAX_INDEX)
    (given : ∀ slot read, takes slot → take slot read =
      ⟨(ring.index slot).len, ringBufGetNextIndex slot, some slot⟩)
    (passed : ∀ slot read, ¬ takes slot →
      (take slot read).nLen ≤ 0 ∧ (take slot read).startReadIndex = read) :
    (∃ answer, nextIFrameLoop ring take searchRounds start startReadIndex =
        .ok answer ∧ AnswerSound ring answer) ↔
      NextIFrameServed ring takes start startReadIndex := by
  rw [NextIFrameServed]
  by_cases inside : start < MAX_INDEX
  swap
  · refine iff_of_false ?_ fun served => inside served.1
    rw [searchRounds, nextIFrameLoop, if_pos (by omega),
      if_pos (Nat.le_of_not_lt inside)]
    exact not_exists_error
  have near := gap_lt inside curInside
  rw [nextIFrameLoop_eq inside curInside (by
    rw [searchRounds]
    omega), exists_ok_iff]
  simp only [inside, true_and]
  cases found : (window MAX_INDEX start ring.uiCurIndex).find?
      fun slot => acceptsIFrame ring slot with
  | none =>
      dsimp only
      rw [answerSound_of_nLen (show (-1 : Int) ≤ 0 by decide)]
      by_cases atEnd : start = ring.uiCurIndex
      · simp [atEnd]
      · simp [atEnd, curInside]
  | some slot =>
      have member := List.mem_of_find?_eq_some found
      have accepted : acceptsIFrame ring slot := by
        simpa using List.find?_some found
      have slotInside := mem_window_lt inside member
      dsimp only
      by_cases takesSlot : takes slot
      · rw [given _ _ takesSlot, answerSound_given]
        simp [takesSlot, ringBufGetNextIndex, next_lt slotInside,
          HoldsLiveIFrame, accepted.1]
      · obtain ⟨nothing, kept⟩ := passed slot
          (if slot = start then startReadIndex else slot) takesSlot
        rw [answerSound_of_nLen nothing, kept]
        by_cases first : slot = start
        · subst first
          simp [takesSlot]
        · simp [takesSlot, first, slotInside]

/-- `RING_BUF_GetPreOneIFrame` is sound exactly if it is served. -/
theorem preOneIFrameLoop_sound_iff {start startReadIndex : Nat}
    (inside : start < MAX_INDEX) :
    (∃ answer, preOneIFrameLoop ring searchRounds start startReadIndex =
        .ok answer ∧ AnswerSound ring answer) ↔
      PreOneIFrameServed ring start startReadIndex := by
  rw [PreOneIFrameServed]
  split_ifs with apart
  · rw [searchRounds, preOneIFrameLoop, if_neg (not_not_intro apart),
      exists_ok_iff, answerSound_of_nLen (show (-1 : Int) ≤ 0 by decide)]
  rw [preOneIFrameLoop_eq apart inside]
  cases found : (slotsBack start).find? fun slot =>
      acceptsIFrame ring slot with
  | none => exact iff_of_false not_exists_error id
  | some slot =>
      have accepted : acceptsIFrame ring slot := by
        simpa using List.find?_some found
      have slotInside : slot < MAX_INDEX := by
        have member := List.mem_of_find?_eq_some found
        rw [slotsBack] at member
        split at member
        · simp only [List.mem_singleton] at member
          omega
        · have := (mem_slotsDown_le member).2
          omega
      have back : ringBufGetPreIndex slot < MAX_INDEX ↔ 2 ≤ slot := by
        cases slot with
        | zero => exact iff_of_false (by decide) (by omega)
        | succ count =>
            rw [ringBufGetPreIndex_succ (by omega)]
            split_ifs with first
            · omega
            · omega
      simp only [preOneAnswer]
      split_ifs with nonempty first
      · rw [exists_ok_iff, answerSound_given, back]
        have positive := Nat.pos_of_ne_zero nonempty
        simp [positive, HoldsLiveIFrame, accepted.1]
      · rw [exists_ok_iff, answerSound_of_nLen (Int.le_refl 0)]
        simp [first]
      · rw [exists_ok_iff, answerSound_of_nLen (Int.le_refl 0)]
        simp [first, slotInside]

/-- `RING_BUF_GetPreIFrame` with a frame in hand, taken before the time
limit. -/
theorem settle_taken_iff {limitTime : UInt64} {slots : List Nat}
    {taken startReadIndex : Nat} (slotsInside : ∀ slot ∈ slots, slot < MAX_INDEX)
    (startInside : startReadIndex < MAX_INDEX)
    (nonempty : (ring.index taken).len ≠ 0)
    (before : (ring.index taken).pts < limitTime) :
    (∃ answer, settle ring limitTime (ring.index taken).pts
        ⟨(ring.index taken).len, startReadIndex, some taken⟩ slots =
          .ok answer ∧ AnswerSound ring answer) ↔
      match (slots.filter fun slot => acceptsPreIFrame ring slot).dropWhile
        (staysEarly ring limitTime) with
      | [] => HoldsLiveIFrame ring
          (((slots.filter fun slot =>
            acceptsPreIFrame ring slot).getLast?).getD taken)
      | slot :: _ => (ring.index slot).len ≠ 0 ∧ HoldsLiveIFrame ring slot := by
  induction slots generalizing taken startReadIndex with
  | nil =>
      have positive := Nat.pos_of_ne_zero nonempty
      rw [settle, exists_ok_iff, answerSound_given]
      simp [startInside, positive]
  | cons slot slots ih =>
      have slotInside := slotsInside slot (by simp)
      have rest := fun other member => slotsInside other
        (List.mem_cons_of_mem slot member)
      have nextInside : ringBufGetNextIndex slot < MAX_INDEX :=
        next_lt slotInside
      rw [settle]
      by_cases accepted : acceptsPreIFrame ring slot
      swap
      · rw [if_neg accepted, ih rest nextInside nonempty before]
        simp [accepted]
      rw [if_pos accepted]
      by_cases filled : (ring.index slot).len ≠ 0
      swap
      · have notEarly : staysEarly ring limitTime slot = false := by
          simp [staysEarly, not_not.mp filled]
        rw [if_neg filled, if_pos before]
        refine iff_of_false not_exists_error ?_
        simp [accepted, notEarly, not_not.mp filled]
      rw [if_pos filled]
      by_cases early : limitTime > (ring.index slot).pts
      · have isEarly : staysEarly ring limitTime slot = true := by
          simp [staysEarly, filled, early]
        rw [if_pos early, ih rest nextInside filled early]
        simp [accepted, isEarly, List.getLast?_cons]
      · have notEarly : staysEarly ring limitTime slot = false := by
          simp [staysEarly, early]
        have positive := Nat.pos_of_ne_zero filled
        rw [if_neg early, exists_ok_iff, answerSound_given]
        simp [accepted, notEarly, nextInside, positive,
          filled]

/-- `RING_BUF_GetPreIFrame` before it has taken a frame. -/
theorem settle_sound_iff {limitTime timeStamp : UInt64} {slots : List Nat}
    {startReadIndex : Nat} (slotsInside : ∀ slot ∈ slots, slot < MAX_INDEX) :
    (∃ answer, settle ring limitTime timeStamp ⟨-1, startReadIndex, none⟩
        slots = .ok answer ∧ AnswerSound ring answer) ↔
      match (slots.filter fun slot => acceptsPreIFrame ring slot).dropWhile
        (staysEarly ring limitTime) with
      | [] =>
          (∀ slot, (slots.filter fun slot =>
              acceptsPreIFrame ring slot).getLast? = some slot →
            HoldsLiveIFrame ring slot) ∧
          (slots = [] → startReadIndex < MAX_INDEX)
      | slot :: _ =>
          if (ring.index slot).len ≠ 0 then HoldsLiveIFrame ring slot
          else
            (slots.filter fun slot => acceptsPreIFrame ring slot).takeWhile
                (staysEarly ring limitTime) = [] ∧
              limitTime ≤ timeStamp ∧
              (slots.head? = some slot → startReadIndex < MAX_INDEX) := by
  induction slots generalizing startReadIndex with
  | nil =>
      rw [settle, exists_ok_iff,
        answerSound_of_nLen (show (-1 : Int) ≤ 0 by decide)]
      simp
  | cons slot slots ih =>
      have slotInside := slotsInside slot (by simp)
      have rest := fun other member => slotsInside other
        (List.mem_cons_of_mem slot member)
      have nextInside : ringBufGetNextIndex slot < MAX_INDEX :=
        next_lt slotInside
      rw [settle]
      by_cases accepted : acceptsPreIFrame ring slot
      swap
      · -- the slot is passed, and no later one is the first
        rw [if_neg accepted, ih rest]
        simp only [List.filter_cons, accepted, decide_false,
          Bool.false_eq_true, if_false, nextInside, implies_true, and_true,
          reduceCtorEq, false_imp_iff]
        split
        · rfl
        · rename_i found _ drops
          have foundAccepted : acceptsPreIFrame ring found := by
            have member : found ∈ (slots.filter fun slot =>
                acceptsPreIFrame ring slot).dropWhile
                  (staysEarly ring limitTime) := by
              rw [drops]
              simp
            have := (List.dropWhile_sublist _).subset member
            simpa using (List.mem_filter.mp this).2
          have apart : slot ≠ found := by
            rintro rfl
            exact accepted foundAccepted
          simp [apart]
      rw [if_pos accepted]
      by_cases filled : (ring.index slot).len ≠ 0
      swap
      · have notEarly : staysEarly ring limitTime slot = false := by
          simp [staysEarly, not_not.mp filled]
        rw [if_neg filled]
        by_cases before : limitTime > timeStamp
        · rw [if_pos before]
          refine iff_of_false not_exists_error ?_
          simp [accepted, notEarly, not_not.mp filled, before]
        · rw [if_neg before, exists_ok_iff,
            answerSound_of_nLen (Int.le_refl 0)]
          simp [accepted, notEarly, not_not.mp filled, UInt64.not_lt.mp before]
      rw [if_pos filled]
      by_cases early : limitTime > (ring.index slot).pts
      · have isEarly : staysEarly ring limitTime slot = true := by
          simp [staysEarly, filled, early]
        rw [if_pos early, settle_taken_iff rest nextInside filled early]
        simp only [List.filter_cons, accepted, decide_true, if_true,
          List.dropWhile_cons, isEarly, List.getLast?_cons,
          List.takeWhile_cons]
        split
        · simp
        · split_ifs with nonempty
          · simp [nonempty]
          · simp [nonempty]
      · have notEarly : staysEarly ring limitTime slot = false := by
          simp [staysEarly, early]
        have positive := Nat.pos_of_ne_zero filled
        rw [if_neg early, exists_ok_iff, answerSound_given]
        simp [accepted, notEarly, nextInside, positive, filled]

/-- The loop of `RING_BUF_GetPreIFrame` is sound exactly if it is served. -/
theorem preIFrameLoop_sound_iff {limitTime timeStamp : UInt64}
    {start startReadIndex : Nat} (curInside : ring.uiCurIndex < MAX_INDEX) :
    (∃ answer, preIFrameLoop ring limitTime searchRounds start timeStamp
        ⟨-1, startReadIndex, none⟩ = .ok answer ∧ AnswerSound ring answer) ↔
      PreIFrameServed ring limitTime timeStamp start startReadIndex := by
  rw [PreIFrameServed]
  by_cases inside : start < MAX_INDEX
  swap
  · refine iff_of_false ?_ fun served => inside served.1
    rw [searchRounds, preIFrameLoop, if_pos (by omega),
      if_pos (Nat.le_of_not_lt inside)]
    exact not_exists_error
  have near := gap_lt inside curInside
  rw [preIFrameLoop_eq_settle inside curInside (by
      rw [searchRounds]
      omega),
    settle_sound_iff fun slot member => mem_window_lt inside member]
  simp only [inside, true_and]
  by_cases atEnd : start = ring.uiCurIndex
  · rw [← atEnd, window_self]
    simp
  · rw [window_cons inside curInside atEnd]
    simp only [reduceCtorEq, false_imp_iff, atEnd, List.head?_cons,
      Option.some.injEq, eq_comm]

/-- A search is sound exactly if the channel serves it. -/
theorem searchSound_iff_of_table {nChannel : Fin MAX_CHANNEL_NUM}
    (table : TableBounded nChannel ring) (hasDataBuf : Bool)
    (startReadIndex : Nat) (call : SearchCall) :
    SearchSound ring hasDataBuf startReadIndex call ↔
      SearchServed ring hasDataBuf startReadIndex call := by
  have refuses : (∃ answer,
      (.ok ⟨-1, startReadIndex, none⟩ : Except Fault SearchAnswer) =
        .ok answer ∧ AnswerSound ring answer) ↔
      startReadIndex < MAX_INDEX := by
    rw [exists_ok_iff, answerSound_of_nLen (show (-1 : Int) ≤ 0 by decide)]
  unfold SearchSound SearchServed
  by_cases refused : hasDataBuf = false ∨ ring.nIsInit = false
  · rw [if_pos refused]
    cases call with
    | preIFrame PreSec frmRate limitTime timeStamp =>
        rw [search, ringBufGetPreIFrame, if_pos (by tauto), refuses]
    | preOneIFrame PreFlag =>
        rw [search, ringBufGetPreOneIFrame, if_pos refused, refuses]
    | nextIFrameAllRecord nBufLen lastReadIndex =>
        rw [search, ringBufGetNextIFrameAllRecord, if_pos refused, refuses]
    | nextIFrame preFrmNum =>
        rw [search, ringBufGetNextIFrame, if_pos refused, refuses]
  rw [if_neg refused]
  cases call with
  | preIFrame PreSec frmRate limitTime timeStamp =>
      rw [search, ringBufGetPreIFrame]
      by_cases notFull : ring.nIsFull = false
      · rw [if_pos (.inr (.inr notFull)), refuses]
        simp only [notFull, if_true]
      · rw [if_neg (by tauto)]
        simp only [notFull]
        exact preIFrameLoop_sound_iff table.cur
  | preOneIFrame PreFlag =>
      rw [search, ringBufGetPreOneIFrame, if_neg refused]
      apply preOneIFrameLoop_sound_iff
      split_ifs
      · exact table.oldest
      · exact table.cur
  | nextIFrameAllRecord nBufLen lastReadIndex =>
      rw [search, ringBufGetNextIFrameAllRecord, if_neg refused]
      refine nextIFrameLoop_sound_iff table.cur ?_ ?_
      · intro slot read takes
        exact if_pos takes
      · intro slot read passes
        rw [takeAllRecord, if_neg passes]
        exact ⟨show (-1 : Int) ≤ 0 by decide, rfl⟩
  | nextIFrame preFrmNum =>
      rw [search, ringBufGetNextIFrame, if_neg refused]
      refine nextIFrameLoop_sound_iff table.cur ?_ ?_
      · intro slot read takes
        exact if_pos takes
      · intro slot read passes
        rw [takeNonempty, if_neg passes]
        exact ⟨Int.le_refl 0, rfl⟩

/-- In every state that a channel reaches, a search is sound exactly if the
channel serves it. -/
theorem searchSound_iff_searchServed (nChannel : Fin MAX_CHANNEL_NUM)
    (calls : List ChannelCall) (ring : RingBuf)
    (reached : run (channelStep nChannel) ringBufReleased calls = some ring)
    (hasDataBuf : Bool) (startReadIndex : Nat) (call : SearchCall) :
    SearchSound ring hasDataBuf startReadIndex call ↔
      SearchServed ring hasDataBuf startReadIndex call := by
  have states := statesMeet_of_stepsMeet
    (fun _ _ _ table _ steps => channelStep_table table steps)
    (tableBounded_released nChannel)
    (stepsMeet_true (channelStep nChannel) ringBufReleased calls)
  exact searchSound_iff_of_table (states.last reached) hasDataBuf
    startReadIndex call

/-- An I frame of five bytes. -/
def iFrameFill : FillCall :=
  ⟨RINGBUF_FRAME_TYPE_VIDEO_I, 0, 0, 5, fun k => if k = 3 then 1 else 0, 0⟩

/-- Three I frames in a new sub channel. -/
def threeIFrames : List ChannelCall :=
  [.init (some fun _ => 0), .fillBuf iFrameFill, .fillBuf iFrameFill,
    .fillBuf iFrameFill]

theorem searchSound_behind_three :
    ∃ ring, run (channelStep subChannel) ringBufReleased threeIFrames =
        some ring ∧ SearchSound ring true 0 (.preOneIFrame 0) := by
  refine ⟨_, rfl, (searchSound_iff_searchServed subChannel threeIFrames _ rfl
    true 0 (.preOneIFrame 0)).mpr ?_⟩
  unfold SearchServed
  rw [if_neg (by decide)]
  change PreOneIFrameServed _ 3 0
  rw [PreOneIFrameServed, if_neg (by decide)]
  rw [show (slotsBack 3).find? _ = some 2 by decide +kernel]
  decide +kernel

/-- Behind a single I frame `RING_BUF_GetPreOneIFrame` reads slot 1 and then
slot 1000. -/
theorem not_forall_searchSound :
    ¬ ∀ (nChannel : Fin MAX_CHANNEL_NUM) (calls : List ChannelCall)
      (ring : RingBuf),
      run (channelStep nChannel) ringBufReleased calls = some ring →
      ∀ (startReadIndex : Nat) (call : SearchCall),
        startReadIndex < MAX_INDEX →
          SearchSound ring true startReadIndex call := by
  intro claimed
  obtain ⟨answer, returns, _⟩ := claimed subChannel
    [.init (some fun _ => 0), .fillBuf iFrameFill] _ rfl 0 (.preOneIFrame 0)
    (by decide)
  have leaves : ∀ ring : RingBuf, ring.nIsInit = true →
      ring.uiCurIndex = 1 → ring.uiOldestIndex = 0 →
      ¬ acceptsIFrame ring 1 →
        search ring true 0 (.preOneIFrame 0) = .error .outOfBounds := by
    intro ring init cur oldest passed
    rw [search, ringBufGetPreOneIFrame, if_neg (by simp [init])]
    simp only [ne_eq, not_true_eq_false, if_false, cur]
    rw [preOneIFrameLoop_eq (by omega) (by decide)]
    simp [slotsBack, slotsDown, passed, preOneAnswer]
  rw [leaves _ rfl (by decide +kernel) (by decide +kernel)
    (by decide +kernel)] at returns
  cases returns

end Soundness

end RingBufChannel

end MbedtlsKcp
