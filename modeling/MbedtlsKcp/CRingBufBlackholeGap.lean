import MbedtlsKcp.CRingBufBlackholeJump

/-!
# The gap that `BlackholeJump` finds

A hole that the write offset is inside of has a rest behind that offset.  It is
sorted last, so the search passes the gaps in front of the other holes before
it looks at this rest.  The answer is wrong exactly when one of these gaps seems
to take the bytes from a position in the rest.
-/

namespace MbedtlsKcp

namespace CRingBuf

open CyclicSpans CyclicWindows FallibleSteps

/-- An offset that the hole has. -/
def BlackHole.Covers (hole : BlackHole) (bufSize offset : Nat) : Prop :=
  gap bufSize hole.startOffset offset <
    gap bufSize hole.startOffset hole.endOffset

instance (hole : BlackHole) (bufSize offset : Nat) :
    Decidable (hole.Covers bufSize offset) :=
  Nat.decLt _ _

namespace RingBufInfo

variable (info : RingBufInfo)

/-- No hole has any of the `count` bytes from an offset on. -/
def FreeFrom (offset count : Nat) : Prop :=
  ∀ hole ∈ info.holes, ∀ i < count,
    ¬ hole.Covers info.bufSize ((offset + i) % info.bufSize)

/-- From a position in the rest of a hole behind the write offset the bytes
reach no hole, that rest disregarded, and behind them comes a hole that is not
joined to the one the offset is inside of. -/
def MissesRest (origin count : Nat) : Prop :=
  0 < count ∧ ∃ first,
    (∃ hole ∈ info.holes,
      first + info.bufSize < (hole.span info.bufSize origin).stop) ∧
    (∀ hole ∈ info.holes,
      (hole.span info.bufSize origin).Avoids first count) ∧
    ∃ hole ∈ info.holes,
      first + count ≤ (hole.span info.bufSize origin).start ∧
      ∃ free < info.bufSize, (hole.span info.bufSize origin).stop ≤ free ∧
        ∀ other ∈ info.holes,
          ¬ (other.span info.bufSize origin).Contains free

end RingBufInfo

section Offsets

variable {bufSize origin : Nat} {hole : BlackHole}

/-- The bytes of a hole by their distance, before and behind the origin. -/
theorem BlackHole.Placed.covers_iff (placed : hole.Placed bufSize)
    (bounded : origin < bufSize) {distance : Nat}
    (near : distance < bufSize) :
    hole.Covers bufSize ((origin + distance) % bufSize) ↔
      (hole.span bufSize origin).Contains distance ∨
        distance + bufSize < (hole.span bufSize origin).stop := by
  obtain ⟨start, stop, proper⟩ := placed
  rw [mod_of_lt_double (by omega)]
  unfold BlackHole.Covers BlackHole.span arc Span.Contains gap
  dsimp only
  split_ifs <;> omega

/-- What leaves a window free avoids it, and its rest ends in front of it. -/
theorem BlackHole.Placed.avoids_of_free (placed : hole.Placed bufSize)
    (bounded : origin < bufSize) {first count : Nat} (near : first < bufSize)
    (positive : 0 < count)
    (free : ∀ i < count,
      ¬ hole.Covers bufSize ((origin + (first + i)) % bufSize)) :
    (hole.span bufSize origin).Avoids first count ∧
      (hole.span bufSize origin).stop ≤ first + bufSize := by
  have proper := placed.span_proper origin
  have startNear : (hole.span bufSize origin).start < bufSize :=
    gap_lt bounded placed.start
  constructor
  · by_contra meets
    unfold Span.Avoids at meets
    have shared := free (max first (hole.span bufSize origin).start - first)
      (by omega)
    rw [Nat.add_sub_of_le (Nat.le_max_left _ _),
      placed.covers_iff bounded (by omega)] at shared
    unfold Span.Contains at shared
    omega
  · have here := free 0 positive
    rw [Nat.add_zero, placed.covers_iff bounded near] at here
    omega

/-- A window in front of a free one is free if it is behind the rest of the
hole. -/
theorem BlackHole.Placed.free_of_avoids (placed : hole.Placed bufSize)
    (bounded : origin < bufSize) {first window count : Nat}
    (near : window < bufSize) (before : first ≤ window)
    (free : ∀ i < count,
      ¬ hole.Covers bufSize ((origin + (window + i)) % bufSize))
    (avoids : (hole.span bufSize origin).Avoids first count)
    (rest : (hole.span bufSize origin).stop ≤ first + bufSize) :
    ∀ i < count,
      ¬ hole.Covers bufSize ((origin + (first + i)) % bufSize) := by
  intro i inside
  by_cases reaches : window ≤ first + i
  · have same : first + i = window + (first + i - window) := by omega
    rw [same]
    exact free _ (by omega)
  · rw [placed.covers_iff bounded (by omega)]
    unfold Span.Avoids at avoids
    unfold Span.Contains
    omega

/-- In front of a hole that goes beyond the origin the test of `BlackholeJump`
asks whether its rest is passed. -/
theorem clearsHole_crossing_iff {first count : Nat} (bounded : origin < bufSize)
    (placed : hole.Placed bufSize)
    (crosses : bufSize < (hole.span bufSize origin).stop)
    (positive : 0 < count)
    (fits : first + count ≤ (hole.span bufSize origin).start) :
    RingBufInfo.clearsHole ((origin + first) % bufSize)
        (((origin + first) % bufSize + count) % bufSize) hole ↔
      (hole.span bufSize origin).stop < first + bufSize := by
  obtain ⟨start, stop, proper⟩ := placed
  have near := gap_lt bounded start
  have length := gap_lt start stop
  unfold BlackHole.span arc at crosses fits ⊢
  dsimp only at crosses fits ⊢
  unfold RingBufInfo.clearsHole
  obtain ⟨x, isX⟩ : ∃ x, x = (origin + first) % bufSize := ⟨_, rfl⟩
  obtain ⟨y, isY⟩ : ∃ y, y = (x + count) % bufSize := ⟨_, rfl⟩
  have xBounded : x < bufSize := isX ▸ Nat.mod_lt _ (by omega)
  rw [← isX, ← isY]
  rw [mod_of_lt_double (by omega)] at isX isY
  unfold gap at *
  split_ifs at * <;> omega

end Offsets

namespace RingBufInfo

variable {info : RingBufInfo} {origin free writeLength alignment : Nat}

/-- The jumping loop where the last merged hole goes beyond the origin: it
passes the rest of that hole unless another hole stops it before. -/
theorem jumpHoles_crossing {front : List BlackHole} {last : BlackHole}
    {first : Nat} (bounded : origin < info.bufSize)
    (freeBounded : free < info.bufSize)
    (seen : ∀ whole ∈ front ++ [last], Seen info.bufSize origin free whole)
    (crosses : info.bufSize < (last.span info.bufSize origin).stop)
    (ahead : Ahead ((front ++ [last]).map fun whole =>
      whole.span info.bufSize origin) first)
    (avoided : ∀ whole ∈ front ++ [last],
      (whole.span info.bufSize origin).Avoids free (writeLength + alignment))
    (positive : 0 < writeLength + alignment) (start : first ≤ free) :
    info.jumpHoles writeLength alignment (front ++ [last])
        ((origin + first) % info.bufSize) =
      (origin +
        if ∃ whole ∈ front, firstFit (writeLength + alignment)
            (front.map fun whole => whole.span info.bufSize origin) first +
              (writeLength + alignment) ≤
            (whole.span info.bufSize origin).start then
          firstFit (writeLength + alignment)
            (front.map fun whole => whole.span info.bufSize origin) first
        else
          max (firstFit (writeLength + alignment)
              (front.map fun whole => whole.span info.bufSize origin) first)
            ((last.span info.bufSize origin).stop - info.bufSize)) %
        info.bufSize := by
  have lastSeen := seen last (by simp)
  have lastStart : (last.span info.bufSize origin).start < info.bufSize :=
    gap_lt bounded lastSeen.placed.start
  have lastAvoids := avoided last (by simp)
  have lastLeaves := lastSeen.leaves
  unfold Span.Avoids at lastAvoids
  unfold Span.Leaves at lastLeaves
  induction front generalizing first with
  | nil =>
      rw [if_neg (by simp), List.map_nil, firstFit, List.nil_append, jumpHoles,
        advanceOffset2, Nat.add_assoc _ writeLength]
      simp only [clearsHole_crossing_iff bounded lastSeen.placed crosses positive
        (by omega : first + (writeLength + alignment) ≤
          (last.span info.bufSize origin).start)]
      split
      · rw [Nat.max_eq_left (by omega)]
      · rw [jumpHoles, lastSeen.placed.endOffset_eq bounded,
          Nat.max_eq_right (by omega)]
        have around : origin + (last.span info.bufSize origin).stop =
            origin + ((last.span info.bufSize origin).stop - info.bufSize) +
              info.bufSize := by
          omega
        rw [around, Nat.add_mod_right]
  | cons hole front ih =>
      have placed := (seen hole List.mem_cons_self).placed
      have proper := placed.span_proper origin
      have before : first ≤ (hole.span info.bufSize origin).start :=
        ahead.behind _ List.mem_cons_self
      have inside : (hole.span info.bufSize origin).stop <
          (last.span info.bufSize origin).start :=
        (List.pairwise_cons.mp ahead.apart).1 _
          (List.mem_map_of_mem (by simp))
      have apart := avoided hole List.mem_cons_self
      unfold Span.Avoids at apart
      rw [List.cons_append, jumpHoles, advanceOffset2,
        Nat.add_assoc _ writeLength, List.map_cons, firstFit]
      simp only [clearsHole_iff bounded placed (by omega) before positive
        (by omega)]
      by_cases fits : first + (writeLength + alignment) ≤
          (hole.span info.bufSize origin).start
      · rw [if_pos ⟨fits, by omega⟩, if_pos fits,
          if_pos ⟨hole, List.mem_cons_self, fits⟩]
      · rw [if_neg (fun both => fits both.1), if_neg fits,
          placed.endOffset_eq bounded]
        have tail : Ahead ((front ++ [last]).map fun whole =>
            whole.span info.bufSize origin)
            (hole.span info.bufSize origin).stop :=
          ahead.tail
        have rest := ih (fun whole member => seen whole (.tail _ member))
          tail (fun whole member => avoided whole (.tail _ member))
          (by omega)
        rw [rest]
        rw [List.map_append] at tail
        have later : (hole.span info.bufSize origin).stop ≤
            firstFit (writeLength + alignment)
              (front.map fun whole => whole.span info.bufSize origin)
              (hole.span info.bufSize origin).stop :=
          le_firstFit tail.left
        have passed : (∃ whole ∈ hole :: front,
            firstFit (writeLength + alignment)
              (front.map fun whole => whole.span info.bufSize origin)
              (hole.span info.bufSize origin).stop +
                (writeLength + alignment) ≤
              (whole.span info.bufSize origin).start) ↔
            ∃ whole ∈ front, firstFit (writeLength + alignment)
              (front.map fun whole => whole.span info.bufSize origin)
              (hole.span info.bufSize origin).stop +
                (writeLength + alignment) ≤
              (whole.span info.bufSize origin).start := by
          constructor
          · rintro ⟨whole, member, fitsHere⟩
            rcases List.mem_cons.mp member with rfl | old
            · omega
            · exact ⟨whole, old, fitsHere⟩
          · rintro ⟨whole, member, fitsHere⟩
            exact ⟨whole, .tail _ member, fitsHere⟩
        simp only [passed]

theorem freeFrom_mod_iff {first count : Nat} :
    info.FreeFrom ((origin + first) % info.bufSize) count ↔
      ∀ hole ∈ info.holes, ∀ i < count, ¬ hole.Covers info.bufSize
        ((origin + (first + i)) % info.bufSize) := by
  unfold FreeFrom
  simp only [Nat.mod_add_mod, Nat.add_assoc]

/-- Merged holes of which the last one goes beyond the origin. -/
structure Crossing (info : RingBufInfo) (origin free : Nat)
    (front : List BlackHole) (last : BlackHole) : Prop where
  holds : MergedHoles info origin free (front ++ [last])
  crosses : info.bufSize < (last.span info.bufSize origin).stop
  apart : ∀ whole ∈ front, (whole.span info.bufSize origin).stop <
    (last.span info.bufSize origin).start
  front : Ahead (front.map fun whole => whole.span info.bufSize origin) 0

theorem MergedHoles.exists_crossing {merged : List BlackHole}
    (holds : MergedHoles info origin free merged)
    (bounded : origin < info.bufSize)
    (crosses : ∃ hole ∈ info.holes,
      info.bufSize < (hole.span info.bufSize origin).stop) :
    ∃ front last, merged = front ++ [last] ∧
      Crossing info origin free front last := by
  obtain ⟨hole, isHole, crosses⟩ := crosses
  obtain ⟨last, isLast, start, stop⟩ := holds.covers hole isHole
  obtain ⟨front, back, rfl⟩ := List.append_of_mem isLast
  have apart := List.pairwise_map.mp holds.ahead.apart
  obtain ⟨-, behind, before⟩ := List.pairwise_append.mp apart
  have noBack : back = [] := by
    apply List.eq_nil_iff_forall_not_mem.mpr
    intro other member
    have later := (List.pairwise_cons.mp behind).1 other member
    have near : (other.span info.bufSize origin).start < info.bufSize :=
      gap_lt bounded (holds.seen other (by simp [member])).placed.start
    omega
  subst noBack
  have ahead := holds.ahead
  rw [List.map_append] at ahead
  exact ⟨front, last, rfl, holds, by omega,
    fun whole member => before whole member last (by simp), ahead.left⟩

section Crossings

variable {front : List BlackHole} {last : BlackHole} {first count : Nat}

/-- A hole is part of a merged one in front, or of the last. -/
theorem Crossing.covers (crossing : Crossing info origin free front last)
    {hole : BlackHole} (member : hole ∈ info.holes) :
    (∃ whole ∈ front, (whole.span info.bufSize origin).start ≤
          (hole.span info.bufSize origin).start ∧
        (hole.span info.bufSize origin).stop ≤
          (whole.span info.bufSize origin).stop) ∨
      (last.span info.bufSize origin).start ≤
          (hole.span info.bufSize origin).start ∧
        (hole.span info.bufSize origin).stop ≤
          (last.span info.bufSize origin).stop := by
  obtain ⟨whole, isWhole, within⟩ := crossing.holds.covers hole member
  rcases List.mem_append.mp isWhole with inFront | isLast
  · exact .inl ⟨whole, inFront, within⟩
  · obtain rfl := List.mem_singleton.mp isLast
    exact .inr within

/-- The end of a merged hole in front is in no hole. -/
theorem Crossing.not_contains_stop
    (crossing : Crossing info origin free front last) {whole : BlackHole}
    (member : whole ∈ front) :
    ∀ other ∈ info.holes, ¬ (other.span info.bufSize origin).Contains
      (whole.span info.bufSize origin).stop := by
  intro other isOther contains
  unfold Span.Contains at contains
  have proper := crossing.holds.proper (List.mem_append_left _ member)
  rcases crossing.covers isOther with ⟨group, isGroup, start, stop⟩ | within
  · apply crossing.front.not_contains_stop (List.mem_map_of_mem member)
      (List.mem_map_of_mem isGroup)
    unfold Span.Contains
    omega
  · have before := crossing.apart whole member
    omega

/-- Where a gap in front of another hole seems to take the bytes. -/
theorem Crossing.missesRest (crossing : Crossing info origin free front last)
    (bounded : origin < info.bufSize)
    (placed : ∀ hole ∈ info.holes, hole.Placed info.bufSize)
    (positive : 0 < count)
    (avoids : ∀ hole ∈ info.holes,
      (hole.span info.bufSize origin).Avoids first count)
    (short : first + info.bufSize < (last.span info.bufSize origin).stop)
    {whole : BlackHole} (member : whole ∈ front)
    (fits : first + count ≤ (whole.span info.bufSize origin).start) :
    info.MissesRest origin count := by
  obtain ⟨hole, isHole, stop⟩ := crossing.holds.exists_stop
    (List.mem_append_right front (List.mem_singleton_self last))
  have proper := crossing.holds.proper (List.mem_append_left _ member)
  obtain ⟨next, isNext, start, beyond⟩ := crossing.holds.parts whole
    (List.mem_append_left _ member) (whole.span info.bufSize origin).start
    ⟨Nat.le_refl _, proper⟩
  have gapBehind := crossing.not_contains_stop member
  have nextAvoids := avoids next isNext
  have nextStop := gapBehind next isNext
  have nextProper := (placed next isNext).span_proper origin
  have inFront := crossing.apart whole member
  have near : (last.span info.bufSize origin).start < info.bufSize :=
    gap_lt bounded (crossing.holds.seen last (by simp)).placed.start
  unfold Span.Avoids at nextAvoids
  unfold Span.Contains at nextStop
  exact ⟨positive, first, ⟨hole, isHole, by omega⟩, avoids, next, isNext,
    by omega, (whole.span info.bufSize origin).stop, by omega, by omega,
    gapBehind⟩

/-- A missed rest stops the search too early. -/
theorem Crossing.exists_fit (crossing : Crossing info origin free front last)
    (placed : ∀ hole ∈ info.holes, hole.Placed info.bufSize)
    (misses : info.MissesRest origin count) :
    (∃ whole ∈ front, firstFit count
        (front.map fun whole => whole.span info.bufSize origin) 0 + count ≤
          (whole.span info.bufSize origin).start) ∧
      ∃ hole ∈ info.holes, firstFit count
        (front.map fun whole => whole.span info.bufSize origin) 0 +
          info.bufSize < (hole.span info.bufSize origin).stop := by
  obtain ⟨positive, start, ⟨hole, isHole, rest⟩, avoids, next, isNext, fits,
    outside, near, stop, inGap⟩ := misses
  have before : firstFit count
      (front.map fun whole => whole.span info.bufSize origin) 0 ≤ start := by
    apply firstFit_le (Nat.zero_le start)
    intro span member
    obtain ⟨whole, isWhole, rfl⟩ := List.mem_map.mp member
    exact crossing.holds.avoids positive avoids
      (List.mem_append_left _ isWhole)
  have nextProper := (placed next isNext).span_proper origin
  refine ⟨?_, hole, isHole, by omega⟩
  rcases crossing.covers isNext with ⟨whole, isWhole, within⟩ | within
  · have apart := crossing.holds.avoids positive avoids
      (List.mem_append_left _ isWhole)
    unfold Span.Avoids at apart
    exact ⟨whole, isWhole, by omega⟩
  · have crosses := crossing.crosses
    obtain ⟨other, isOther, contains⟩ := crossing.holds.parts last (by simp)
      outside ⟨by omega, by omega⟩
    exact absurd contains (inGap other isOther)

/-- The bytes from the answer on are free unless a rest is missed. -/
theorem Crossing.freeFrom_iff
    (crossing : Crossing info origin free front last)
    (bounded : origin < info.bufSize) (freeBounded : free < info.bufSize)
    (placed : ∀ hole ∈ info.holes, hole.Placed info.bufSize)
    (positive : 0 < writeLength + alignment)
    (window : info.FreeFrom ((origin + free) % info.bufSize)
      (writeLength + alignment)) :
    info.FreeFrom (info.jumpHoles writeLength alignment (front ++ [last]) origin)
        (writeLength + alignment) ↔
      ¬ info.MissesRest origin (writeLength + alignment) := by
  rw [freeFrom_mod_iff] at window
  have avoided : ∀ hole ∈ info.holes,
      (hole.span info.bufSize origin).Avoids free (writeLength + alignment) :=
    fun hole member => ((placed hole member).avoids_of_free bounded freeBounded
      positive (window hole member)).1
  have wholeAvoids : ∀ whole ∈ front ++ [last],
      (whole.span info.bufSize origin).Avoids free (writeLength + alignment) :=
    fun whole member => crossing.holds.avoids positive avoided member
  have jump := jumpHoles_crossing bounded freeBounded crossing.holds.seen
    crossing.crosses crossing.holds.ahead wholeAvoids positive
    (Nat.zero_le free)
  rw [Nat.add_zero, Nat.mod_eq_of_lt bounded] at jump
  have before : firstFit (writeLength + alignment)
      (front.map fun whole => whole.span info.bufSize origin) 0 ≤ free := by
    apply firstFit_le (Nat.zero_le free)
    intro span member
    obtain ⟨whole, isWhole, rfl⟩ := List.mem_map.mp member
    exact wholeAvoids whole (List.mem_append_left _ isWhole)
  have frontAvoids : ∀ whole ∈ front,
      (whole.span info.bufSize origin).Avoids
        (firstFit (writeLength + alignment)
          (front.map fun whole => whole.span info.bufSize origin) 0)
        (writeLength + alignment) :=
    fun whole member =>
      avoids_firstFit crossing.front _ (List.mem_map_of_mem member)
  have stops : info.MissesRest origin (writeLength + alignment) → _ :=
    crossing.exists_fit placed
  rw [jump, freeFrom_mod_iff]
  generalize firstFit (writeLength + alignment)
    (front.map fun whole => whole.span info.bufSize origin) 0 = fit at *
  have lastLeaves := (crossing.holds.seen last (by simp)).leaves
  have lastAvoids := wholeAvoids last (by simp)
  have crosses := crossing.crosses
  have near : (last.span info.bufSize origin).start < info.bufSize :=
    gap_lt bounded (crossing.holds.seen last (by simp)).placed.start
  unfold Span.Leaves at lastLeaves
  unfold Span.Avoids at lastAvoids
  have fitAvoids : fit + (writeLength + alignment) ≤
      (last.span info.bufSize origin).start → ∀ hole ∈ info.holes,
        (hole.span info.bufSize origin).Avoids fit
          (writeLength + alignment) := by
    intro inFront hole member
    rcases crossing.covers member with ⟨whole, isWhole, within⟩ | within
    · have apart := frontAvoids whole isWhole
      unfold Span.Avoids at apart ⊢
      omega
    · exact .inr (by omega)
  constructor
  · -- a missed rest has the first byte of the answer
    intro allFree misses
    obtain ⟨accepts, hole, isHole, rest⟩ := stops misses
    rw [if_pos accepts] at allFree
    have here := allFree hole isHole 0 positive
    rw [Nat.add_zero, (placed hole isHole).covers_iff bounded (by omega)] at here
    exact here (.inr rest)
  · intro spared hole member
    have fitIn := fitAvoids (by omega)
    have stop : (hole.span info.bufSize origin).stop ≤
        (last.span info.bufSize origin).stop := by
      rcases crossing.covers member with ⟨whole, isWhole, within⟩ | within
      · have := crossing.apart whole isWhole
        omega
      · exact within.2
    by_cases accepts : ∃ whole ∈ front, fit + (writeLength + alignment) ≤
        (whole.span info.bufSize origin).start
    · rw [if_pos accepts]
      obtain ⟨whole, isWhole, fits⟩ := accepts
      have passed : (last.span info.bufSize origin).stop ≤
          fit + info.bufSize := by
        by_contra short
        exact spared (crossing.missesRest bounded placed positive fitIn
          (by omega) isWhole fits)
      exact (placed hole member).free_of_avoids bounded freeBounded before
        (window hole member) (fitIn hole member) (by omega)
    · rw [if_neg accepts]
      have avoids : (hole.span info.bufSize origin).Avoids
          (max fit ((last.span info.bufSize origin).stop - info.bufSize))
          (writeLength + alignment) := by
        rcases crossing.covers member with ⟨whole, isWhole, within⟩ | within
        · have apart := frontAvoids whole isWhole
          have noFit : ¬ fit + (writeLength + alignment) ≤
              (whole.span info.bufSize origin).start :=
            fun fits => accepts ⟨whole, isWhole, fits⟩
          unfold Span.Avoids at apart ⊢
          omega
        · exact .inr (by omega)
      exact (placed hole member).free_of_avoids bounded freeBounded (by omega)
        (window hole member) avoids (by omega)

end Crossings

/-- Where no hole goes beyond the origin the answer is always right. -/
theorem MergedHoles.freeFrom {merged : List BlackHole}
    (holds : MergedHoles info origin free merged)
    (bounded : origin < info.bufSize) (freeBounded : free < info.bufSize)
    (placed : ∀ hole ∈ info.holes, hole.Placed info.bufSize)
    (inside : ∀ hole ∈ info.holes,
      (hole.span info.bufSize origin).stop ≤ info.bufSize)
    (positive : 0 < writeLength + alignment)
    (short : writeLength + alignment < info.bufSize)
    (window : info.FreeFrom ((origin + free) % info.bufSize)
      (writeLength + alignment)) :
    info.FreeFrom (info.jumpHoles writeLength alignment merged origin)
      (writeLength + alignment) := by
  rw [freeFrom_mod_iff] at window
  have avoided : ∀ hole ∈ info.holes,
      (hole.span info.bufSize origin).Avoids free (writeLength + alignment) :=
    fun hole member => ((placed hole member).avoids_of_free bounded freeBounded
      positive (window hole member)).1
  have wholeInside : ∀ whole ∈ merged,
      (whole.span info.bufSize origin).stop ≤ info.bufSize := by
    intro whole member
    obtain ⟨hole, isHole, stop⟩ := holds.exists_stop member
    exact stop.trans (inside hole isHole)
  have jump := jumpHoles_eq bounded
    (fun whole member => (holds.seen whole member).placed) wholeInside
    holds.ahead positive short
  rw [Nat.add_zero, Nat.mod_eq_of_lt bounded] at jump
  have before : firstFit (writeLength + alignment)
      (merged.map fun whole => whole.span info.bufSize origin) 0 ≤ free := by
    apply firstFit_le (Nat.zero_le free)
    intro span member
    obtain ⟨whole, isWhole, rfl⟩ := List.mem_map.mp member
    exact holds.avoids positive avoided isWhole
  rw [jump, freeFrom_mod_iff]
  intro hole member
  exact (placed hole member).free_of_avoids bounded freeBounded before
    (window hole member) (holds.avoids_firstFit _ hole member)
    ((inside hole member).trans (Nat.le_add_left _ _))

/-- A window that some hole leaves free is shorter than the buffer. -/
theorem FreeFrom.short {offset count : Nat} {hole : BlackHole}
    (window : info.FreeFrom offset count) (bounded : offset < info.bufSize)
    (member : hole ∈ info.holes) (placed : hole.Placed info.bufSize) :
    count < info.bufSize := by
  by_contra long
  have near := gap_lt bounded placed.start
  have covered := window hole member (gap info.bufSize offset hole.startOffset)
    (by omega)
  rw [add_gap_mod bounded placed.start] at covered
  apply covered
  rw [BlackHole.Covers, gap_self, Nat.pos_iff_ne_zero, Ne,
    gap_eq_zero_iff placed.start]
  exact placed.proper

/-- `BlackholeJump` returns, and for every sorted table with a gap the bytes
from its answer on are free exactly when no rest of a hole is missed. -/
theorem blackholeJump_freeFrom_iff (info : RingBufInfo)
    (writeOffset writeLength alignment : Nat)
    (bounded : writeOffset < info.bufSize)
    (sorted : info.holes.Pairwise BlackHole.Before)
    (placed : ∀ hole ∈ info.holes, hole.Placed info.bufSize)
    (someGap : ∃ offset < info.bufSize,
      info.FreeFrom offset (writeLength + alignment)) :
    (∃ jumped, info.blackholeJump writeOffset writeLength alignment =
        .ok jumped ∧ info.FreeFrom jumped (writeLength + alignment)) ↔
      ¬ info.MissesRest writeOffset (writeLength + alignment) := by
  obtain ⟨jumped, jumps⟩ : ∃ jumped,
      info.blackholeJump writeOffset writeLength alignment = .ok jumped := by
    unfold blackholeJump
    split
    · exact ⟨_, rfl⟩
    · obtain ⟨merged, merges⟩ := blackHoleSortMerge_returns writeOffset sorted
      exact ⟨_, by rw [merges]; rfl⟩
  have same : (∃ jumped, info.blackholeJump writeOffset writeLength alignment =
        .ok jumped ∧ info.FreeFrom jumped (writeLength + alignment)) ↔
      info.FreeFrom jumped (writeLength + alignment) := by
    constructor
    · rintro ⟨other, alsoJumps, isFree⟩
      rw [jumps] at alsoJumps
      cases alsoJumps
      exact isFree
    · exact fun isFree => ⟨jumped, jumps, isFree⟩
  rw [same]
  rcases Nat.eq_zero_or_pos (writeLength + alignment) with empty | positive
  · rw [empty]
    exact iff_of_true (fun _ _ i none => absurd none (Nat.not_lt_zero i))
      fun misses => Nat.lt_irrefl 0 misses.1
  obtain ⟨offset, offsetBounded, window⟩ := someGap
  have near := gap_lt bounded offsetBounded
  rw [← add_gap_mod bounded offsetBounded] at window
  generalize gap info.bufSize writeOffset offset = free at near window
  have leaves : ∀ hole ∈ info.holes, Seen info.bufSize writeOffset free hole := by
    intro hole member
    have here := (placed hole member).avoids_of_free bounded near positive
      (freeFrom_mod_iff.mp window hole member)
    refine ⟨placed hole member, ?_⟩
    unfold Span.Avoids at here
    unfold Span.Leaves
    omega
  obtain ⟨merged, holds, rfl⟩ :=
    exists_mergedHoles near bounded sorted leaves jumps
  by_cases crosses : ∃ hole ∈ info.holes,
      info.bufSize < (hole.span info.bufSize writeOffset).stop
  · obtain ⟨front, last, rfl, crossing⟩ := holds.exists_crossing bounded crosses
    exact crossing.freeFrom_iff bounded near placed positive window
  · have inside : ∀ hole ∈ info.holes,
        (hole.span info.bufSize writeOffset).stop ≤ info.bufSize := by
      intro hole member
      by_contra beyond
      exact crosses ⟨hole, member, by omega⟩
    refine iff_of_true ?_ ?_
    · by_cases noHole : info.holes = []
      · intro hole member
        rw [noHole] at member
        cases member
      · obtain ⟨hole, member⟩ := List.exists_mem_of_ne_nil _ noHole
        exact holds.freeFrom bounded near placed inside positive
          (window.short (Nat.mod_lt _ (by omega)) member (placed hole member))
          window
    · rintro ⟨-, first, ⟨hole, member, rest⟩, -⟩
      have := inside hole member
      omega

/-- A hole at the ends of the buffer and one in front of the free bytes. -/
def sampleHoles : RingBufInfo :=
  { freshInfo 100 with
    holes := [⟨20, 30, 1, [65]⟩, ⟨90, 10, 1, [66]⟩] }

theorem sampleHoles_sorted : sampleHoles.holes.Pairwise BlackHole.Before := by
  simp [sampleHoles, BlackHole.Before]

theorem sampleHoles_placed :
    ∀ hole ∈ sampleHoles.holes, hole.Placed sampleHoles.bufSize := by
  intro hole member
  rcases List.mem_cons.mp member with rfl | member
  · exact ⟨by decide, by decide, by decide⟩
  · obtain rfl := List.mem_singleton.mp member
    exact ⟨by decide, by decide, by decide⟩

theorem sampleHoles_freeFrom : sampleHoles.FreeFrom 40 15 := by
  unfold FreeFrom
  decide

/-- Behind the second hole, from where no rest is missed. -/
theorem sampleHoles_jump_outside :
    (∃ jumped, sampleHoles.blackholeJump 12 15 0 = .ok jumped ∧
        sampleHoles.FreeFrom jumped 15) ↔
      ¬ sampleHoles.MissesRest 12 15 :=
  blackholeJump_freeFrom_iff sampleHoles 12 15 0 (by decide) sampleHoles_sorted
    sampleHoles_placed ⟨40, by decide, sampleHoles_freeFrom⟩

/-- Inside a hole at offset 0 the answer is 0 again. -/
theorem jump_stays_in_hole :
    ¬ ∀ (info : RingBufInfo) (writeOffset writeLength alignment : Nat),
      writeOffset < info.bufSize →
      info.holes.Pairwise BlackHole.Before →
      (∀ hole ∈ info.holes, hole.Placed info.bufSize) →
      (info.holes.map fun hole =>
          gap info.bufSize hole.startOffset hole.endOffset).sum +
        (writeLength + alignment) < info.bufSize →
      (∃ offset < info.bufSize,
        info.FreeFrom offset (writeLength + alignment)) →
      ∃ jumped, info.blackholeJump writeOffset writeLength alignment =
          .ok jumped ∧ info.FreeFrom jumped (writeLength + alignment) := by
  intro always
  obtain ⟨jumped, jumps, isFree⟩ := always sampleHoles 0 15 0 (by decide)
    sampleHoles_sorted sampleHoles_placed (by decide)
    ⟨40, by decide, sampleHoles_freeFrom⟩
  have stays : sampleHoles.blackholeJump 0 15 0 = .ok 0 := rfl
  rw [stays] at jumps
  cases jumps
  have here := isFree ⟨90, 10, 1, [66]⟩ (by simp [sampleHoles]) 0 (by decide)
  exact here (by decide)

end RingBufInfo

end CRingBuf

end MbedtlsKcp
