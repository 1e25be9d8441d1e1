import MbedtlsKcp.CRingBufState
import MbedtlsKcp.FallibleSteps
import Mathlib.Data.List.Basic

/-!
# Black holes

A black hole is the byte range of a frame that a blocked reader still holds.
The hole table is kept sorted by offset; the writer merges it and jumps over
it.
-/

namespace MbedtlsKcp

namespace CRingBuf

/-- `DeleteBlackHoleByIdx`. -/
def deleteBlackHoleByIdx (holes : List BlackHole) (holeIdx : Nat) :
    Except Fault (List BlackHole) :=
  if holeIdx < holes.length then
    .ok (holes.eraseIdx holeIdx)
  else
    .error .deleteBlackHoleByIdx

/-- The loop from the last hole down to the first that deletes the holes
selected by `doomed`; `i` holes are still to be looked at. -/
def deleteBlackHoles (doomed : BlackHole → Bool) :
    Nat → List BlackHole → Except Fault (List BlackHole)
  | 0, holes => .ok holes
  | i + 1, holes =>
      match holes[i]? with
      | some hole =>
          if doomed hole then
            deleteBlackHoleByIdx holes i >>= deleteBlackHoles doomed i
          else
            deleteBlackHoles doomed i holes
      | none => deleteBlackHoles doomed i holes

/-- Where a hole goes: before the first hole without a creation time or with
larger offsets; `none` if a hole of the same blocker comes before that. -/
def findInsertIdx (blockerName : UserName) (startOffset endOffset : Nat) :
    List BlackHole → Option Nat
  | [] => some 0
  | hole :: holes =>
      if hole.createTime = 0 ∨ startOffset < hole.startOffset ∨
          hole.startOffset = startOffset ∧ endOffset < hole.endOffset then
        some 0
      else if hole.blockerName = blockerName then
        none
      else
        (findInsertIdx blockerName startOffset endOffset holes).map (· + 1)

namespace RingBufInfo

variable (info : RingBufInfo)

/-- `DeleteBlackHoleOwnedBy`. -/
def deleteBlackHoleOwnedBy (blockerName : UserName) :
    Except Fault RingBufInfo := do
  let holes ← deleteBlackHoles (fun hole => hole.blockerName = blockerName)
    info.holes.length info.holes
  return { info with holes := holes }

/-- A hole that has lived longer than `BLACKHOLE_MAX_LIFE_SEC`. -/
def aged (now : Nat) (hole : BlackHole) : Bool :=
  hole.createTime ≠ 0 ∧ BLACKHOLE_MAX_LIFE_SEC < now - hole.createTime

/-- `DeleteAgedBlackHole`. -/
def deleteAgedBlackHole (now : Nat) : Except Fault RingBufInfo := do
  let holes ← deleteBlackHoles (aged now) info.holes.length info.holes
  return { info with holes := holes }

/-- `InsertBlackHole`. -/
def insertBlackHole (now : Nat) (blockerName : UserName)
    (startOffset endOffset : Nat) : Except Fault RingBufInfo :=
  if info.holes.length < MAX_CONSUMER_NUM then
    match findInsertIdx blockerName startOffset endOffset info.holes with
    | none => .ok info
    | some insertIdx =>
        .ok { info with
          holes := info.holes.insertIdx insertIdx
            ⟨startOffset, endOffset, now, blockerName⟩ }
  else
    .error .insertBlackHole

/-- The name of a merged hole, cut to its 64-byte field. -/
def mergedName (first second : UserName) : UserName :=
  (first ++ 0x7C :: second).take 63

/-- One round of the merging loop.  The merged holes are kept last first, so
the head is `lastSMhole`; `ordered` says whether the loop asserts the order. -/
def mergeHole (ordered : Bool) (merged : List BlackHole) (hole : BlackHole) :
    Except Fault (List BlackHole) :=
  match merged with
  | [] => .ok [hole]
  | last :: others =>
      if ordered ∧ hole.startOffset < last.startOffset then
        .error .blackHoleSortMerge
      else
        let lastSMholeLen := info.bufferLen last.startOffset last.endOffset
        let holeDistance := info.bufferLen last.startOffset hole.startOffset
        if holeDistance ≤ lastSMholeLen then
          let newLength := info.bufferLen last.startOffset hole.endOffset
          .ok ({ last with
            endOffset :=
              if lastSMholeLen ≤ newLength then
                info.advanceOffset last.startOffset newLength
              else last.endOffset
            blockerName := mergedName last.blockerName hole.blockerName } ::
              others)
        else
          .ok (hole :: last :: others)

/-- `BlackHoleSortMerge`: the holes from the first at or after `writeOffset`
on, with touching neighbours merged. -/
def blackHoleSortMerge (writeOffset : Nat) :
    Except Fault (List BlackHole) := do
  let nearestHole :=
    info.holes.findIdx fun hole => writeOffset ≤ hole.startOffset
  let (first, second) :=
    if nearestHole = 0 ∨ nearestHole = info.holes.length then
      (info.holes, [])
    else
      (info.holes.drop nearestHole, info.holes.take nearestHole)
  let merged ← first.foldlM (info.mergeHole true) []
  let merged ← second.foldlM (info.mergeHole false) merged
  if merged.length ≤ info.holes.length then
    return merged.reverse
  else
    throw .blackHoleSortMerge

/-- The test of `BlackholeJump` that lets a write from `holeJumpOffset` to
`writeEnd` stay in front of a hole. -/
def clearsHole (holeJumpOffset writeEnd : Nat) (hole : BlackHole) : Prop :=
  if holeJumpOffset < writeEnd then
    if hole.startOffset < hole.endOffset then
      (hole.endOffset < holeJumpOffset ∧ hole.endOffset < writeEnd) ∨
        (holeJumpOffset < hole.startOffset ∧ writeEnd ≤ hole.startOffset)
    else
      holeJumpOffset < hole.startOffset ∧ hole.endOffset < holeJumpOffset ∧
        writeEnd ≤ hole.startOffset ∧ hole.endOffset < writeEnd
  else
    hole.startOffset < hole.endOffset ∧ hole.endOffset < holeJumpOffset ∧
      writeEnd ≤ hole.startOffset

instance (holeJumpOffset writeEnd : Nat) (hole : BlackHole) :
    Decidable (clearsHole holeJumpOffset writeEnd hole) :=
  inferInstanceAs (Decidable (if holeJumpOffset < writeEnd then
    if hole.startOffset < hole.endOffset then _ else _ else _))

/-- The jumping loop over the merged holes. -/
def jumpHoles (writeLength alignment : Nat) :
    List BlackHole → Nat → Nat
  | [], holeJumpOffset => holeJumpOffset
  | hole :: holes, holeJumpOffset =>
      if clearsHole holeJumpOffset
          (info.advanceOffset2 holeJumpOffset writeLength alignment) hole then
        holeJumpOffset
      else
        jumpHoles writeLength alignment holes hole.endOffset

/-- `BlackholeJump`. -/
def blackholeJump (writeOffset writeLength alignment : Nat) :
    Except Fault Nat :=
  if info.holes.length = 0 then
    .ok writeOffset
  else do
    let sortedHoles ← info.blackHoleSortMerge writeOffset
    return info.jumpHoles writeLength alignment sortedHoles writeOffset

end RingBufInfo

/-- The deleting loop keeps exactly the other holes, and its assertion
holds. -/
theorem deleteBlackHoles_eq (doomed : BlackHole → Bool)
    (holes : List BlackHole) :
    deleteBlackHoles doomed holes.length holes =
      .ok (holes.filter fun hole => ¬ doomed hole) := by
  have partly : ∀ i ≤ holes.length, ∀ kept : List BlackHole,
      deleteBlackHoles doomed i (holes.take i ++ kept) =
        .ok ((holes.take i).filter (fun hole => ¬ doomed hole) ++ kept) := by
    intro i
    induction i with
    | zero => intro _ kept; rfl
    | succ i ih =>
        intro inside kept
        have last : holes.take (i + 1) = holes.take i ++ [holes[i]] :=
          List.take_succ_eq_append_getElem inside
        have front : (holes.take i).length = i := by
          rw [List.length_take]
          omega
        have found : (holes.take i ++ [holes[i]] ++ kept)[i]? =
            some holes[i] := by
          rw [List.append_assoc,
            List.getElem?_append_right (Nat.le_of_eq front), front,
            Nat.sub_self]
          rfl
        rw [deleteBlackHoles, last, found]
        simp only
        split
        · rename_i isDoomed
          have inTable : i < (holes.take i ++ [holes[i]] ++ kept).length := by
            simp only [List.length_append, front, List.length_singleton]
            omega
          have erased : (holes.take i ++ [holes[i]] ++ kept).eraseIdx i =
              holes.take i ++ kept := by
            rw [List.append_assoc, List.eraseIdx_append_of_length_le
              (Nat.le_of_eq front),
              front, Nat.sub_self]
            rfl
          rw [deleteBlackHoleByIdx, if_pos inTable, erased]
          change deleteBlackHoles doomed i (holes.take i ++ kept) = _
          rw [ih (by omega) kept, List.filter_append]
          simp [isDoomed]
        · rename_i spared
          rw [List.append_assoc, ih (by omega), List.filter_append]
          simp [spared]
  have whole := partly holes.length (Nat.le_refl _) []
  simpa using whole

namespace RingBufInfo

variable (info : RingBufInfo)

theorem deleteBlackHoleOwnedBy_eq (blockerName : UserName) :
    info.deleteBlackHoleOwnedBy blockerName =
      .ok { info with
        holes := info.holes.filter fun hole =>
          hole.blockerName ≠ blockerName } := by
  rw [deleteBlackHoleOwnedBy, deleteBlackHoles_eq]
  simp [bind, Except.bind, pure, Except.pure]

/-- The ring after the aged holes are gone. -/
def withoutAged (now : Nat) : RingBufInfo :=
  { info with holes := info.holes.filter fun hole => ¬ aged now hole }

theorem deleteAgedBlackHole_eq (now : Nat) :
    info.deleteAgedBlackHole now = .ok (info.withoutAged now) := by
  rw [deleteAgedBlackHole, deleteBlackHoles_eq]
  rfl

/-- An insertion that returns only changes the hole table. -/
theorem insertBlackHole_ok {info after : RingBufInfo} {now : Nat}
    {blockerName : UserName} {startOffset endOffset : Nat}
    (inserts : info.insertBlackHole now blockerName startOffset endOffset =
      .ok after) :
    info.holes.length < MAX_CONSUMER_NUM ∧
      (findInsertIdx blockerName startOffset endOffset info.holes = none ∧
          after = info ∨
        ∃ insertIdx,
          findInsertIdx blockerName startOffset endOffset info.holes =
            some insertIdx ∧
          after = { info with
            holes := info.holes.insertIdx insertIdx
              ⟨startOffset, endOffset, now, blockerName⟩ }) := by
  unfold insertBlackHole at inserts
  split at inserts
  · rename_i room
    refine ⟨room, ?_⟩
    split at inserts
    · rename_i exists_
      exact .inl ⟨exists_, (Except.ok.inj inserts).symm⟩
    · rename_i insertIdx found
      exact .inr ⟨insertIdx, found, (Except.ok.inj inserts).symm⟩
  · cases inserts

theorem consumers_insertBlackHole {info after : RingBufInfo} {now : Nat}
    {blockerName : UserName} {startOffset endOffset : Nat}
    (inserts : info.insertBlackHole now blockerName startOffset endOffset =
      .ok after) : after.consumers = info.consumers := by
  rcases (insertBlackHole_ok inserts).2 with ⟨_, rfl⟩ | ⟨_, _, rfl⟩
  · rfl
  · rfl

theorem keepsUsers_insertBlackHole {info after : RingBufInfo} {now : Nat}
    {blockerName : UserName} {startOffset endOffset : Nat}
    (inserts : info.insertBlackHole now blockerName startOffset endOffset =
      .ok after) : KeepsUsers info after := by
  rcases (insertBlackHole_ok inserts).2 with ⟨_, rfl⟩ | ⟨_, _, rfl⟩
  · exact .refl _
  · exact keepsUsers_holes _ _

end RingBufInfo

end CRingBuf

end MbedtlsKcp
