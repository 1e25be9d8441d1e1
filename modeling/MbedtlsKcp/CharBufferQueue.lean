import MbedtlsKcp.CharBuffer
import Mathlib.Data.List.Infix

/-!
# The character buffer is a byte queue

Every call returns and does to the bytes held what the queue does, whatever
`realloc` answers.  A write that does not fit and cannot expand the buffer
still returns 0.
-/

namespace MbedtlsKcp

namespace CharBuffers

open ByteBuffers TransitionRuns

/-- The two sizes and the memory agree. -/
structure CharBuffer.Holds (buf : CharBuffer) : Prop where
  init : buf.init = true
  curSize : 0 ≤ buf.curSize
  maxSize : buf.curSize ≤ buf.maxSize
  int : buf.maxSize < 2 ^ 31
  memory : buf.buffer.length = buf.maxSize.toNat

theorem holds_charBufferInit {maxSize : Int} (nonneg : 0 ≤ maxSize)
    (int : maxSize < 2 ^ 31) : (charBufferInit maxSize).Holds where
  init := rfl
  curSize := Int.le_refl 0
  maxSize := nonneg
  int := int
  memory := List.length_replicate

theorem sizeT_eq_some {size : Int} (nonneg : 0 ≤ size) :
    sizeT size = some size.toNat :=
  if_pos nonneg

theorem intAdd_eq {first second : Int} (nonneg : 0 ≤ first + second)
    (int : first + second < 2 ^ 31) : intAdd first second = first + second := by
  rw [intAdd, Int.bmod_eq_of_le] <;> omega

/-- An `int` that overflowed is negative. -/
theorem intAdd_neg {first second : Int} (int : 2 ^ 31 ≤ first + second)
    (firstInt : first < 2 ^ 31) (secondInt : second < 2 ^ 31) :
    intAdd first second < 0 := by
  rw [intAdd, Int.bmod_def]
  split <;> omega

namespace CharBuffer

variable {buf : CharBuffer}

theorem Holds.length_content (holds : buf.Holds) :
    buf.content.length = buf.curSize.toNat := by
  have room := holds.maxSize
  rw [content, List.length_take, holds.memory]
  omega

/-- After the expansion there is room for what will be written. -/
theorem Holds.expand (holds : buf.Holds) {size : Int} (nonneg : 0 ≤ size)
    (int : size < 2 ^ 31) (granted : Option (Nat → UInt8)) :
    ∃ after, buf.expand size granted =
        (after, accepted (buf.maxSize - buf.curSize) buf.curSize size granted) ∧
      after.Holds ∧ after.curSize = buf.curSize ∧
      after.content = buf.content ∧
      buf.curSize +
        accepted (buf.maxSize - buf.curSize) buf.curSize size granted ≤
          after.maxSize := by
  obtain ⟨init, curSize, maxSize, bounded, memory⟩ := holds
  unfold CharBuffer.expand accepted
  by_cases fits : size ≤ buf.maxSize - buf.curSize
  · rw [if_neg (by omega), if_pos (.inl fits)]
    exact ⟨buf, rfl, ⟨init, curSize, maxSize, bounded, memory⟩, rfl, rfl,
      by omega⟩
  · rw [if_pos (by omega)]
    have stays : ∃ after, (buf, buf.maxSize - buf.curSize) =
          (after, buf.maxSize - buf.curSize) ∧
        after.Holds ∧ after.curSize = buf.curSize ∧
        after.content = buf.content ∧
        buf.curSize + (buf.maxSize - buf.curSize) ≤ after.maxSize :=
      ⟨buf, rfl, ⟨init, curSize, maxSize, bounded, memory⟩, rfl, rfl, by omega⟩
    cases granted with
    | none =>
        rw [if_neg (by simpa using fits)]
        exact stays
    | some fresh =>
        by_cases small : buf.curSize + size < 2 ^ 31
        · rw [if_pos (.inr ⟨rfl, small⟩)]
          simp only [intAdd_eq (by omega : 0 ≤ buf.curSize + size) small]
          have grows : CharBuffers.realloc buf.buffer (buf.curSize + size)
              (some fresh) = some (buf.buffer ++
                (List.range ((buf.curSize + size).toNat -
                  buf.buffer.length)).map fresh) := by
            simp only [CharBuffers.realloc,
              sizeT_eq_some (by omega : 0 ≤ buf.curSize + size),
              Option.bind_eq_bind, Option.bind_some]
            rw [List.take_of_length_le (by omega)]
          rw [grows]
          have more : buf.curSize ≤ buf.curSize + size := by omega
          have inside : buf.curSize.toNat ≤ buf.buffer.length := by omega
          refine ⟨_, rfl, ⟨init, curSize, more, small, ?_⟩, rfl,
            List.take_append_of_le_length inside, Int.le_refl _⟩
          · simp only [List.length_append, List.length_map, List.length_range]
            omega
        · rw [if_neg fun either => either.elim fits fun both => small both.2]
          have huge : sizeT (intAdd buf.curSize size) = none :=
            if_neg (by
              have negative := intAdd_neg (by omega : 2 ^ 31 ≤ buf.curSize + size)
                (by omega) int
              omega)
          simp only [CharBuffers.realloc, huge, Option.bind_eq_bind,
            Option.bind_some, Option.bind_none]
          exact stays

theorem accepted_nonneg {room size : Int} (nonneg : 0 ≤ size)
    (roomy : 0 ≤ room) (held : Int) (granted : Option (Nat → UInt8)) :
    0 ≤ accepted room held size granted := by
  unfold accepted
  split <;> assumption

theorem accepted_le {room size : Int} (held : Int)
    (granted : Option (Nat → UInt8)) :
    accepted room held size granted ≤ size := by
  unfold accepted
  split <;> omega

theorem Holds.write (holds : buf.Holds) {bytes : List UInt8} {size : Int}
    (sized : Sized (some bytes) size) (granted : Option (Nat → UInt8)) :
    ∃ after, buf.charBufferWrite (some bytes) size granted = some (after, 0) ∧
      after.Holds ∧ after.content = buf.content ++ bytes.take
        (accepted (buf.maxSize - buf.curSize) buf.curSize size granted).toNat := by
  obtain ⟨nonneg, int, enough⟩ := sized
  have length := enough bytes rfl
  obtain ⟨grown, expands, grownHolds, sameSize, sameContent, room⟩ :=
    holds.expand nonneg int granted
  have maxSize := holds.maxSize
  have someRoom : 0 ≤ buf.maxSize - buf.curSize := by omega
  have least := accepted_nonneg nonneg someRoom buf.curSize granted
  have most : accepted (buf.maxSize - buf.curSize) buf.curSize size granted ≤
      size :=
    accepted_le buf.curSize granted
  generalize accepted (buf.maxSize - buf.curSize) buf.curSize size granted =
    count at *
  obtain ⟨init, curSize, grownMax, grownInt, memory⟩ := grownHolds
  have source : readFrom bytes 0 count.toNat = some (bytes.take count.toNat) :=
    readFrom_eq_some (by omega)
  have sourceLength : (bytes.take count.toNat).length = count.toNat := by
    rw [List.length_take]
    omega
  have fits : grown.curSize.toNat + (bytes.take count.toNat).length ≤
      grown.buffer.length := by
    omega
  have sum : intAdd grown.curSize count = grown.curSize + count :=
    intAdd_eq (by omega) (by omega)
  refine ⟨{ grown with
      buffer := overwrite grown.buffer grown.curSize.toNat
        (bytes.take count.toNat)
      curSize := grown.curSize + count }, ?_, ⟨init, ?_, ?_, grownInt, ?_⟩, ?_⟩
  · simp only [charBufferWrite, holds.init, expands, sizeT_eq_some least,
      sizeT_eq_some curSize, source, copyInto_eq_some fits, sum,
      Option.bind_eq_bind, Option.bind_some, Bool.true_eq_false, if_false]
  · exact Int.add_nonneg curSize least
  · exact (by omega : grown.curSize + count ≤ grown.maxSize)
  · rw [length_overwrite fits, memory]
  · have ends : (grown.curSize + count).toNat =
        grown.curSize.toNat + (bytes.take count.toNat).length := by
      omega
    rw [← sameContent, content, content, ends,
      take_overwrite _ (by omega : grown.curSize.toNat ≤ grown.buffer.length)]

/-- The bytes from `position` on stay. -/
theorem Holds.shift (holds : buf.Holds) {position : Int}
    (nonneg : 0 ≤ position) (inside : position ≤ buf.curSize) :
    ∃ after, buf.shift position = some after ∧ after.Holds ∧
      after.content = buf.content.drop position.toNat := by
  obtain ⟨init, curSize, maxSize, int, memory⟩ := holds
  have stays : 0 ≤ buf.curSize - position := by omega
  have rest : readFrom buf.buffer position.toNat (buf.curSize - position).toNat =
      some (slice buf.buffer position.toNat
        (buf.curSize - position).toNat) :=
    readFrom_eq_some (by omega)
  have restLength : (slice buf.buffer position.toNat
      (buf.curSize - position).toNat).length =
        (buf.curSize - position).toNat :=
    length_slice (by omega)
  have fits : 0 + (slice buf.buffer position.toNat
      (buf.curSize - position).toNat).length ≤ buf.buffer.length := by
    omega
  refine ⟨{ buf with
      buffer := overwrite buf.buffer 0 (slice buf.buffer position.toNat
        (buf.curSize - position).toNat)
      curSize := buf.curSize - position }, ?_, ⟨init, stays, ?_, int, ?_⟩, ?_⟩
  · simp only [CharBuffer.shift, sizeT_eq_some nonneg, sizeT_eq_some stays, rest,
      copyInto_eq_some fits, Option.bind_eq_bind, Option.bind_some]
  · exact (by omega : buf.curSize - position ≤ buf.maxSize)
  · rw [length_overwrite fits, memory]
  · have moved := take_overwrite (slice buf.buffer position.toNat
      (buf.curSize - position).toNat) (Nat.zero_le buf.buffer.length)
    rw [Nat.zero_add, restLength, List.take_zero, List.nil_append] at moved
    show List.take (buf.curSize - position).toNat _ = _
    rw [moved, content, List.drop_take, slice]
    congr 1
    omega

theorem Holds.read (holds : buf.Holds) {buffer : Option (List UInt8)}
    {size : Int} (sized : Sized buffer size) :
    ∃ after, buf.charBufferRead buffer size =
        some (after, buffer.map (fun bytes =>
          overwrite bytes 0 (buf.content.take size.toNat)),
          min (buf.content.length : Int) size) ∧
      after.Holds ∧ after.content = buf.content.drop size.toNat := by
  obtain ⟨nonneg, int, enough⟩ := sized
  have length := holds.length_content
  have curSize := holds.curSize
  have maxSize := holds.maxSize
  have memory := holds.memory
  have readSize : (if buf.curSize < size then buf.curSize else size) =
      min (buf.content.length : Int) size := by
    split <;> omega
  generalize isCount : min (buf.content.length : Int) size = count at readSize ⊢
  have least : 0 ≤ count := by omega
  have taken : buf.content.take size.toNat = slice buf.buffer 0 count.toNat := by
    rw [content, List.take_take, slice, List.drop_zero]
    congr 1
    omega
  have dropped : buf.content.drop size.toNat =
      buf.content.drop count.toNat := by
    rcases le_total (buf.content.length : Int) size with short | long
    · rw [List.drop_of_length_le (by omega), List.drop_of_length_le (by omega)]
    · congr 1
      omega
  obtain ⟨after, shifts, kept, rest⟩ :=
    holds.shift least (by omega : count ≤ buf.curSize)
  refine ⟨after, ?_, kept, rest.trans dropped.symm⟩
  have source : readFrom buf.buffer 0 count.toNat =
      some (slice buf.buffer 0 count.toNat) :=
    readFrom_eq_some (by omega)
  have sourceLength : (slice buf.buffer 0 count.toNat).length = count.toNat :=
    length_slice (by omega)
  cases buffer with
  | none =>
      simp only [charBufferRead, holds.init, readSize, shifts,
        Option.bind_eq_bind, Option.bind_some, Bool.true_eq_false, if_false,
        Option.map_none]
  | some bytes =>
      have room := enough bytes rfl
      have fits : 0 + (slice buf.buffer 0 count.toNat).length ≤
          bytes.length := by
        omega
      simp only [charBufferRead, holds.init, readSize, shifts,
        sizeT_eq_some least, source, copyInto_eq_some fits,
        Option.bind_eq_bind, Option.bind_some, Bool.true_eq_false, if_false,
        Option.map_some, taken]

theorem Holds.clear (holds : buf.Holds) :
    ∃ after, buf.charBufferClear = some (after, 0) ∧ after.Holds ∧
      after.content = [] := by
  obtain ⟨init, curSize, maxSize, int, memory⟩ := holds
  have nonneg : 0 ≤ buf.maxSize := by omega
  have fits : 0 + (List.replicate buf.maxSize.toNat (0 : UInt8)).length ≤
      buf.buffer.length := by
    rw [List.length_replicate]
    omega
  refine ⟨{ buf with
      buffer := overwrite buf.buffer 0 (List.replicate buf.maxSize.toNat 0)
      curSize := 0 }, ?_, ⟨init, Int.le_refl 0, nonneg, int, ?_⟩, ?_⟩
  · simp only [charBufferClear, init, sizeT_eq_some nonneg,
      copyInto_eq_some fits, Option.bind_eq_bind, Option.bind_some,
      Bool.true_eq_false, if_false]
  · rw [length_overwrite fits, memory]
  · rfl

/-- The loop finds the first place where the target stands. -/
theorem Holds.foundPos (holds : buf.Holds) {target : List UInt8}
    (fits : target.length ≤ buf.curSize.toNat) :
    (∃ position front rest, buf.foundPos target = some position ∧
        front.length = position ∧ FirstAt target buf.content front rest) ∨
      (buf.foundPos target = none ∧ ¬ target <:+: buf.content) := by
  have length := holds.length_content
  have stands : ∀ position, position + target.length ≤ buf.content.length →
      (slice buf.buffer position target.length = target ↔
        ∃ front rest, buf.content = front ++ target ++ rest ∧
          front.length = position) := by
    intro position inside
    rw [← slice_eq_iff (by omega), content, slice_take (by omega)]
  have bound : ∀ front rest, buf.content = front ++ target ++ rest →
      front.length + target.length ≤ buf.content.length := by
    intro front rest splits
    rw [splits, List.length_append, List.length_append]
    omega
  unfold CharBuffer.foundPos
  cases search : (List.range (buf.curSize.toNat - target.length + 1)).find?
      fun i => slice buf.buffer i target.length = target with
  | some position =>
      obtain ⟨found, inRange, first⟩ := List.find?_range_eq_some.mp search
      rw [List.mem_range] at inRange
      obtain ⟨front, rest, splits, isFront⟩ :=
        (stands position (by omega)).mp (of_decide_eq_true found)
      refine .inl ⟨position, front, rest, rfl, isFront, splits, ?_⟩
      intro other behind alsoSplits
      by_contra earlier
      have missed := first other.length (by omega)
      have stood := (stands other.length (bound other behind alsoSplits)).mpr
        ⟨other, behind, alsoSplits, rfl⟩
      rw [decide_eq_true stood] at missed
      cases missed
  | none =>
      have missed := List.find?_range_eq_none.mp search
      refine .inr ⟨rfl, ?_⟩
      rintro ⟨front, rest, splits⟩
      have inside := bound front rest splits.symm
      have stood := (stands front.length inside).mpr
        ⟨front, rest, splits.symm, rfl⟩
      have here := missed front.length (by omega)
      rw [decide_eq_true stood] at here
      cases here

theorem Holds.seek (holds : buf.Holds) {bytes : List UInt8} {size : Int}
    (sized : Sized (some bytes) size) :
    (∃ after front, buf.charBufferSeek (some bytes) size = some (after, 0) ∧
      0 < size ∧ after.Holds ∧
      FirstAt (bytes.take size.toNat) buf.content front after.content) ∨
    (buf.charBufferSeek (some bytes) size = some (buf, -1) ∧
      (0 < size → ¬ bytes.take size.toNat <:+: buf.content)) := by
  obtain ⟨nonneg, int, enough⟩ := sized
  have room := enough bytes rfl
  have curSize := holds.curSize
  have targetLength : (bytes.take size.toNat).length = size.toNat := by
    rw [List.length_take]
    omega
  simp only [charBufferSeek, holds.init, Bool.true_eq_false, if_false]
  by_cases short : size ≤ 0 ∨ buf.curSize < size
  · rw [if_pos short]
    refine .inr ⟨rfl, ?_⟩
    intro positive within
    have most := within.length_le
    rw [holds.length_content] at most
    omega
  · rw [if_neg short]
    have target : readFrom bytes 0 size.toNat = some (bytes.take size.toNat) :=
      readFrom_eq_some (by omega)
    simp only [target, Option.bind_eq_bind, Option.bind_some]
    have shorter : (bytes.take size.toNat).length ≤ buf.curSize.toNat := by
      omega
    rcases holds.foundPos shorter with
      ⟨position, front, rest, found, isFront, firstAt⟩ | ⟨missed, absent⟩
    · have whole := congrArg List.length firstAt.splits
      rw [holds.length_content, List.length_append, List.length_append,
        targetLength, isFront] at whole
      obtain ⟨after, shifts, kept, stays⟩ := holds.shift
        (by omega : (0 : Int) ≤ position + size) (by omega)
      refine .inl ⟨after, front, ?_, by omega, kept, ?_⟩
      · rw [found]
        simp only [shifts, Option.bind_some]
      · have ends : (position + size).toNat =
            (front ++ bytes.take size.toNat).length := by
          rw [List.length_append, targetLength, isFront]
          omega
        rw [stays, ends, firstAt.splits, List.drop_left, ← firstAt.splits]
        exact firstAt
    · rw [missed]
      exact .inr ⟨rfl, fun _ => absent⟩

/-- Every call returns, keeps the sizes and does what the queue does. -/
theorem Holds.call (holds : buf.Holds) {call : Call} (valid : call.Valid) :
    ∃ after answer, buf.call call = some (after, answer) ∧ after.Holds ∧
      Follows (buf.maxSize - buf.curSize) buf.content call answer
        after.content := by
  have length : (buf.content.length : Int) = buf.curSize := by
    have curSize := holds.curSize
    rw [holds.length_content]
    omega
  cases call with
  | write buffer size granted =>
      cases buffer with
      | none => exact ⟨buf, ⟨-1, none⟩, rfl, holds, rfl, rfl⟩
      | some bytes =>
          obtain ⟨after, writes, kept, appended⟩ := holds.write valid granted
          refine ⟨after, ⟨0, none⟩, ?_, kept, rfl, ?_⟩
          · rw [CharBuffer.call, writes]
            rfl
          · rw [length]
            exact appended
  | read buffer size =>
      obtain ⟨after, reads, kept, rest⟩ := holds.read valid
      refine ⟨after, ⟨min (buf.content.length : Int) size,
        buffer.map fun bytes =>
          overwrite bytes 0 (buf.content.take size.toNat)⟩, ?_, kept,
        rfl, rfl, rest⟩
      rw [CharBuffer.call, reads]
      rfl
  | clear =>
      obtain ⟨after, clears, kept, empty⟩ := holds.clear
      refine ⟨after, ⟨0, none⟩, ?_, kept, rfl, empty⟩
      rw [CharBuffer.call, clears]
      rfl
  | seek target size =>
      cases target with
      | none =>
          refine ⟨buf, ⟨-1, none⟩, ?_, holds, rfl, rfl⟩
          simp only [CharBuffer.call, charBufferSeek, holds.init,
            Bool.true_eq_false, if_false]
          rfl
      | some bytes =>
          rcases holds.seek valid with
            ⟨after, front, seeks, positive, kept, first⟩ | ⟨seeks, absent⟩
          · refine ⟨after, ⟨0, none⟩, ?_, kept,
              .inl ⟨positive, rfl, front, first⟩⟩
            rw [CharBuffer.call, seeks]
            rfl
          · refine ⟨buf, ⟨-1, none⟩, ?_, holds, .inr ⟨absent, rfl, rfl⟩⟩
            rw [CharBuffer.call, seeks]
            rfl

end CharBuffer

/-- The bytes a call appends. -/
def CharBuffer.appended (buf : CharBuffer) : Call → List UInt8
  | .write (some bytes) size granted =>
      bytes.take
        (accepted (buf.maxSize - buf.curSize) buf.curSize size granted).toNat
  | .write none _ _ => []
  | .read _ _ => []
  | .clear => []
  | .seek _ _ => []

/-- A buffer and all bytes that were written to it. -/
structure Traced where
  buf : CharBuffer
  written : List UInt8

def Traced.step (traced : Traced) (call : Call) : Option Traced :=
  (traced.buf.call call).map fun (buf, _) =>
    ⟨buf, traced.written ++ traced.buf.appended call⟩

/-- What a call leaves is the end of what there was and what it appends. -/
theorem Follows.suffix {buf : CharBuffer} (holds : buf.Holds) {call : Call}
    {answer : Answer} {after : List UInt8}
    (follows : Follows (buf.maxSize - buf.curSize) buf.content call answer
      after) : after <:+ buf.content ++ buf.appended call := by
  have length : (buf.content.length : Int) = buf.curSize := by
    have curSize := holds.curSize
    rw [holds.length_content]
    omega
  cases call with
  | write buffer size granted =>
      cases buffer with
      | none =>
          rw [follows.2, CharBuffer.appended, List.append_nil]
      | some bytes =>
          rw [follows.2, CharBuffer.appended, length]
  | read buffer size =>
      rw [follows.2.2, CharBuffer.appended, List.append_nil]
      exact List.drop_suffix _ _
  | clear =>
      rw [follows.2]
      exact List.nil_suffix
  | seek target size =>
      rw [CharBuffer.appended, List.append_nil]
      cases target with
      | none =>
          rw [follows.2]
      | some bytes =>
          rcases follows with ⟨_, _, front, first⟩ | ⟨_, _, same⟩
          · rw [first.splits]
            exact List.suffix_append _ _
          · rw [same]

/-- In every run of calls with sizes that are not negative. -/
theorem charBuffer_refines_queue (maxSize : Int) (nonneg : 0 ≤ maxSize)
    (int : maxSize < 2 ^ 31) (traced : Traced)
    (reached : Reachable (fun traced => traced = ⟨charBufferInit maxSize, []⟩)
      Traced.step (fun _ call => call.Valid) traced) :
    0 ≤ traced.buf.curSize ∧ traced.buf.curSize ≤ traced.buf.maxSize ∧
      traced.buf.content <:+ traced.written ∧
      ∀ call : Call, call.Valid → ∃ after answer,
        traced.buf.call call = some (after, answer) ∧
          Follows (traced.buf.maxSize - traced.buf.curSize)
            traced.buf.content call answer after.content := by
  have invariant : traced.buf.Holds ∧
      traced.buf.content <:+ traced.written := by
    apply reached.invariant fun traced =>
      traced.buf.Holds ∧ traced.buf.content <:+ traced.written
    · rintro _ rfl
      exact ⟨holds_charBufferInit nonneg int, List.suffix_refl _⟩
    · rintro before call after ⟨holds, ends⟩ valid steps
      obtain ⟨buf, answer, returns, kept, follows⟩ := holds.call valid
      rw [Traced.step, returns] at steps
      cases steps
      refine ⟨kept, (follows.suffix holds).trans ?_⟩
      obtain ⟨consumed, whole⟩ := ends
      exact ⟨consumed, by rw [← List.append_assoc, whole]⟩
  obtain ⟨holds, ends⟩ := invariant
  refine ⟨holds.curSize, holds.maxSize, ends, ?_⟩
  intro call valid
  obtain ⟨after, answer, returns, -, follows⟩ := holds.call valid
  exact ⟨after, answer, returns, follows⟩

def sampleWrite (granted : Option (Nat → UInt8)) : Call :=
  .write (some [1, 2, 3]) 3 granted

theorem valid_sampleWrite (granted : Option (Nat → UInt8)) :
    (sampleWrite granted).Valid := by
  refine ⟨by decide, by decide, ?_⟩
  rintro _ ⟨⟩
  decide

/-- Three bytes are written to a buffer of two. -/
theorem queue_after_sampleWrite :
    ∃ traced : Traced, Traced.step ⟨charBufferInit 2, []⟩
        (sampleWrite (some fun _ => 7)) = some traced ∧
      traced.buf.curSize ≤ traced.buf.maxSize ∧
      traced.buf.content <:+ traced.written := by
  obtain ⟨traced, steps⟩ : ∃ traced, Traced.step ⟨charBufferInit 2, []⟩
      (sampleWrite (some fun _ => 7)) = some traced :=
    ⟨_, rfl⟩
  have refines := charBuffer_refines_queue 2 (by decide) (by decide) traced
    (.next (.start rfl) (valid_sampleWrite _) steps)
  exact ⟨traced, steps, refines.2.1, refines.2.2.1⟩

/-- A write returns 0 although only the first of its bytes fits. -/
theorem failed_realloc_loses_bytes :
    ¬ ∀ traced : Traced,
      Reachable (fun traced => traced = ⟨charBufferInit 1, []⟩) Traced.step
          (fun _ call => call.Valid) traced →
        ∀ (bytes : List UInt8) (granted : Option (Nat → UInt8))
          (after : CharBuffer), Sized (some bytes) bytes.length →
          traced.buf.charBufferWrite (some bytes) bytes.length granted =
            some (after, 0) →
          after.content = traced.buf.content ++ bytes := by
  intro always
  have lost := always _ (.start rfl) [1, 2, 3] none ⟨true, 1, 1, [1]⟩
    (valid_sampleWrite none) rfl
  exact absurd lost (by decide)

end CharBuffers

end MbedtlsKcp
