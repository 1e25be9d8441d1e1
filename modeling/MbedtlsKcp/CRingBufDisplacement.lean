import MbedtlsKcp.CRingBufHoleTable
import MbedtlsKcp.CRingBufOldestIndex

/-!
# Readers that are moved out of the way

A reset and a request move readers one after the other.  Whatever slots they are
moved to, the frames they held are holes afterwards, nobody else is touched and
the frames of the ring stay as they are.
-/

namespace MbedtlsKcp

namespace CRingBuf

open FallibleSteps CyclicWindows

namespace RingBufInfo

variable {info after : RingBufInfo} {now i : Nat}

/-- Everybody points into the frame table. -/
structure Indexed (info : RingBufInfo) : Prop where
  productor : info.productorIndex < MAX_FRAME_NUM
  consumers : ∀ i, (info.consumers i).index < MAX_FRAME_NUM

/-- The ring after the consumers of `moved` were displaced. -/
structure Displaced (info : RingBufInfo) (now : Nat) (moved : List Nat)
    (after : RingBufInfo) : Prop where
  rest : after =
    { info with consumers := after.consumers, holes := after.holes }
  holes : after.holes.Perm
    (((moved.filter fun i => info.holdsFrame i).map (info.holeOf now)) ++
      info.holes)
  others : ∀ i, i ∉ moved → after.consumers i = info.consumers i
  names : ∀ i, (after.consumers i).name = (info.consumers i).name
  released : ∀ i ∈ moved, (after.consumers i).state ≠ .USER_HOLDING_FRAME
  invariant : after.HoleInvariant
  indexed : after.Indexed

/-- A displaced consumer and a hole table that has its hole, if any. -/
theorem Displaced.one {slot offset : Nat} {waitIFrame : Bool}
    {holes : List BlackHole} (indexed : info.Indexed)
    (inside : slot < MAX_FRAME_NUM)
    (perm : holes.Perm (([i].filter fun j => info.holdsFrame j).map
      (info.holeOf now) ++ info.holes))
    (kept : ({ info with holes := holes }.updateConsumer i fun user =>
      user.displaced slot offset waitIFrame).HoleInvariant) :
    info.Displaced now [i] ({ info with holes := holes }.updateConsumer i
      fun user => user.displaced slot offset waitIFrame) := by
  have elsewhere : ∀ j, j ≠ i →
      ({ info with holes := holes }.updateConsumer i fun user =>
        user.displaced slot offset waitIFrame).consumers j =
          info.consumers j :=
    fun j different => updateConsumer_of_ne different
  refine ⟨rfl, perm, ?_, ?_, ?_, kept, indexed.productor, ?_⟩
  · intro j other
    exact elsewhere j (by simpa using other)
  · intro j
    by_cases here : j = i
    · rw [here, updateConsumer_self]
      rfl
    · rw [elsewhere j here]
  · intro j member
    obtain rfl := List.mem_singleton.mp member
    rw [updateConsumer_self, RingBufUser.displaced]
    dsimp only
    split
    · exact UserState.noConfusion
    · rename_i free
      exact free
  · intro j
    by_cases here : j = i
    · rw [here, updateConsumer_self]
      exact inside
    · rw [elsewhere j here]
      exact indexed.consumers j

/-- One displacement. -/
theorem displaced_displace {slot offset : Nat} {waitIFrame : Bool}
    (clock : now ≠ 0) (valid : info.validConsumer i)
    (invariant : info.HoleInvariant) (indexed : info.Indexed)
    (inside : slot < MAX_FRAME_NUM)
    (displaces : info.displace now i slot offset waitIFrame = .ok after) :
    info.Displaced now [i] after := by
  by_cases holds : (info.consumers i).state = .USER_HOLDING_FRAME
  · have isHolder : info.holdsFrame i := ⟨valid, holds⟩
    have short : info.holes.length < MAX_CONSUMER_NUM := by
      rw [displace, if_pos holds] at displaces
      obtain ⟨middle, inserts, _⟩ := bind_eq_ok_iff.mp displaces
      exact (insertBlackHole_ok inserts).1
    obtain ⟨holes, same, perm, kept⟩ :=
      displace_held slot offset waitIFrame clock isHolder invariant short
    obtain rfl := Except.ok.inj (same.symm.trans displaces)
    refine .one indexed inside ?_ kept
    rw [List.filter_cons_of_pos (by simpa using isHolder)]
    exact perm
  · obtain ⟨same, kept⟩ :=
      displace_unheld slot offset waitIFrame invariant holds
    obtain rfl := Except.ok.inj (same.symm.trans displaces)
    refine .one indexed inside ?_ kept
    rw [List.filter_cons_of_neg (by simpa using fun both => holds both.2)]
    exact List.Perm.refl _

theorem Displaced.nil (invariant : info.HoleInvariant)
    (indexed : info.Indexed) : info.Displaced now [] info where
  rest := rfl
  holes := List.Perm.refl _
  others _ _ := rfl
  names _ := rfl
  released _ member := nomatch member
  invariant := invariant
  indexed := indexed

/-- The hole of a consumer only depends on its slot and the frame table. -/
theorem holeOf_congr (same : after.consumers i = info.consumers i)
    (frames : after.frameIdx = info.frameIdx)
    (size : after.bufSize = info.bufSize) :
    after.holeOf now i = info.holeOf now i := by
  simp only [holeOf, advanceOffset, same, frames, size]

theorem holdsFrame_congr (same : after.consumers i = info.consumers i) :
    after.holdsFrame i ↔ info.holdsFrame i := by
  rw [holdsFrame, validConsumer, same, holdsFrame, validConsumer]

/-- Displacing one more consumer. -/
theorem Displaced.cons {middle : RingBufInfo} {moved : List Nat}
    (first : info.Displaced now [i] middle)
    (later : middle.Displaced now moved after) (new : i ∉ moved) :
    info.Displaced now (i :: moved) after := by
  have frames : middle.frameIdx = info.frameIdx := by rw [first.rest]
  have size : middle.bufSize = info.bufSize := by rw [first.rest]
  have untouched : ∀ j ∈ moved, middle.consumers j = info.consumers j := by
    intro j member
    apply first.others
    rw [List.mem_singleton]
    rintro rfl
    exact new member
  have filtered : (moved.filter fun j => middle.holdsFrame j) =
      moved.filter fun j => info.holdsFrame j := by
    apply List.filter_congr
    intro j member
    rw [decide_eq_decide]
    exact holdsFrame_congr (untouched j member)
  have mapped : ((moved.filter fun j => info.holdsFrame j).map
      (middle.holeOf now)) =
        (moved.filter fun j => info.holdsFrame j).map (info.holeOf now) := by
    apply List.map_congr_left
    intro j member
    exact holeOf_congr (untouched j (List.mem_filter.mp member).1) frames size
  constructor
  · rw [later.rest, first.rest]
  · have perm := later.holes
    rw [filtered, mapped] at perm
    refine perm.trans ((first.holes.append_left _).trans ?_)
    rw [← List.append_assoc, List.filter_cons, List.filter_cons,
      List.filter_nil]
    apply List.Perm.append_right
    split
    · exact List.perm_append_comm
    · rw [List.map_nil, List.append_nil]
  · intro j other
    rw [List.mem_cons, not_or] at other
    rw [later.others j other.2, first.others j (by simpa using other.1)]
  · intro j
    rw [later.names j, first.names j]
  · intro j member
    rcases List.mem_cons.mp member with rfl | member
    · rw [later.others j new]
      exact first.released j (List.mem_singleton_self j)
    · exact later.released j member
  · exact later.invariant
  · exact later.indexed

/-- A loop that displaces one consumer in each round. -/
theorem displaced_foldlM {State : Type} (ring : State → RingBufInfo)
    {round : State → Nat → Except Fault State} (clock : now ≠ 0)
    (displaces : ∀ before i last, round before i = .ok last →
      ∃ slot offset waitIFrame, slot < MAX_FRAME_NUM ∧
        (ring before).displace now i slot offset waitIFrame =
          .ok (ring last))
    {moved : List Nat} {first last : State}
    (valid : ∀ i ∈ moved, (ring first).validConsumer i)
    (distinct : moved.Nodup) (invariant : (ring first).HoleInvariant)
    (indexed : (ring first).Indexed)
    (loop : moved.foldlM round first = .ok last) :
    (ring first).Displaced now moved (ring last) := by
  induction moved generalizing first with
  | nil =>
      obtain rfl := pure_eq_ok_iff.mp loop
      exact .nil invariant indexed
  | cons i moved ih =>
      rw [List.foldlM_cons] at loop
      obtain ⟨middle, rounds, rest⟩ := bind_eq_ok_iff.mp loop
      obtain ⟨new, others⟩ := List.nodup_cons.mp distinct
      obtain ⟨slot, offset, waitIFrame, inside, displaced⟩ :=
        displaces first i middle rounds
      have one := displaced_displace clock (valid i List.mem_cons_self)
        invariant indexed inside displaced
      refine one.cons (ih ?_ others one.invariant one.indexed rest) new
      intro j member
      have before := valid j (List.mem_cons_of_mem i member)
      exact ⟨before.1, one.names j ▸ before.2⟩

theorem nextIframe_lt (info : RingBufInfo) (i : Nat) :
    (info.nextIframe i).1 < MAX_FRAME_NUM := by
  have start : advanceIndex (info.consumers i).index 1 < MAX_FRAME_NUM :=
    Nat.mod_lt _ (by decide)
  have last : stepbackIndex info.productorIndex 1 < MAX_FRAME_NUM :=
    stepbackIndex_lt _ _
  unfold nextIframe
  dsimp only
  split
  · rename_i slot found
    split
    · exact last
    · exact mem_window_lt start (List.mem_of_find?_eq_some found)
  · exact last

/-- `MoveAllBlockers` of different consumers. -/
theorem displaced_moveAllBlockers {blockers : List Nat} (clock : now ≠ 0)
    (valid : ∀ i ∈ blockers, info.validConsumer i) (distinct : blockers.Nodup)
    (invariant : info.HoleInvariant) (indexed : info.Indexed)
    (moves : info.moveAllBlockers now blockers = .ok after) :
    info.Displaced now blockers after := by
  obtain ⟨⟨last, found⟩, loop, rest⟩ := bind_eq_ok_iff.mp moves
  obtain rfl := pure_eq_ok_iff.mp rest
  have rounds : ∀ (before : RingBufInfo × Bool) i (last : RingBufInfo × Bool),
      moveBlocker now before i = .ok last →
        ∃ slot offset waitIFrame, slot < MAX_FRAME_NUM ∧
          before.1.displace now i slot offset waitIFrame = .ok last.1 := by
    rintro ⟨before, found⟩ i ⟨last, found'⟩ moves
    obtain ⟨waitIFrame, displaces⟩ := moveBlocker_ok moves
    exact ⟨_, _, waitIFrame, nextIframe_lt before i, displaces⟩
  exact displaced_foldlM Prod.fst clock rounds valid distinct
    invariant indexed loop

theorem nodup_validConsumers (info : RingBufInfo) :
    info.validConsumers.Nodup :=
  List.nodup_range.filter _

/-- A reset displaces all consumers. -/
theorem displaced_resetAllUserNoLock (clock : now ≠ 0)
    (invariant : info.HoleInvariant) (indexed : info.Indexed)
    (resets : info.resetAllUserNoLock now = .ok after) :
    ∃ middle, info.Displaced now info.validConsumers middle ∧
      after = { middle with
        productor := { middle.productor with offset := 0, index := 0 }
        dataWriten := false
        contiBytesWriten := 0 } := by
  obtain ⟨middle, loop, rest⟩ := bind_eq_ok_iff.mp resets
  obtain rfl := pure_eq_ok_iff.mp rest
  refine ⟨middle, ?_, rfl⟩
  have rounds : ∀ (before : RingBufInfo) i (last : RingBufInfo),
      resetConsumer now before i = .ok last →
        ∃ slot offset waitIFrame, slot < MAX_FRAME_NUM ∧
          before.displace now i slot offset waitIFrame = .ok last := by
    intro before i last steps
    rw [resetConsumer_eq] at steps
    exact ⟨0, 0, true, by decide, steps⟩
  exact displaced_foldlM id clock rounds
    (fun i member => mem_validConsumers.mp member)
    (nodup_validConsumers info) invariant indexed loop

end RingBufInfo

end CRingBuf

end MbedtlsKcp
