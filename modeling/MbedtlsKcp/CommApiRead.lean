import Mathlib.Algebra.Order.Ring.Nat
import Mathlib.Data.Nat.Find

/-!
# Reading a whole size

`COMM_API_read` calls `read` until the requested size is through, at most a
hundred times.  It moves its position in the buffer by the last result alone,
and takes a failing call for one byte less.  The bytes arrive in order exactly
when one call, or two directly after one another, bring them all.
-/

namespace MbedtlsKcp

namespace CommApi

def intMax : Int := 2 ^ 31 - 1

/-- The value of an expression of type `int` that is not below its range. -/
def int (value : Int) : Option Int :=
  if value ≤ intMax then some value else none

/-- The sum of the first results. -/
def sumOf (result : Nat → Int) : Nat → Int
  | 0 => 0
  | calls + 1 => sumOf result calls + result calls

/-- A requested size and what `read` returns: -1, or a number of bytes that is
at most the one it has been asked for. -/
structure ReadCalls where
  size : Int
  positive : 0 < size
  small : size ≤ intMax
  result : Nat → Int
  low : ∀ call, -1 ≤ result call
  high : ∀ call, result call ≤ size - sumOf result call

/-- The variables of `COMM_API_read`, how far the file has been read, and the
memory by the distance from `buf`. -/
structure ReadState where
  nRead : Int
  readIindex : Int
  tmpsize : Int
  readCount : Nat
  position : Nat
  memory : Int → UInt8

/-- Bytes of the file at an address. -/
def copied (file : Nat → UInt8) (position : Nat) (address count : Int)
    (memory : Int → UInt8) (place : Int) : UInt8 :=
  if address ≤ place ∧ place < address + count then
    file (position + (place - address).toNat)
  else memory place

/-- One round of the loop; `none` is an overflow of `tmpsize`. -/
def readRound (calls : ReadCalls) (file : Nat → UInt8) (state : ReadState) :
    Option ReadState := do
  let nRead := calls.result state.readCount
  let tmpsize ← int (state.tmpsize - nRead)
  return {
    nRead
    readIindex := state.readIindex + nRead
    tmpsize
    readCount := state.readCount + 1
    position := state.position + nRead.toNat
    memory := copied file state.position state.nRead nRead state.memory }

/-- The loop, with the calls of `read` that are left to it. -/
def readLoop (calls : ReadCalls) (file : Nat → UInt8) :
    Nat → ReadState → Option ReadState
  | 0, state => some state
  | left + 1, state => do
      let state ← readRound calls file state
      if state.readIindex ≠ calls.size then readLoop calls file left state
      else return state

/-- `COMM_API_read`, with the state it leaves. -/
def commApiRead (calls : ReadCalls) (file : Nat → UInt8)
    (memory : Int → UInt8) : Option (Int × ReadState) := do
  let state ← readLoop calls file 100 ⟨0, 0, calls.size, 0, 0, memory⟩
  return (if state.readIindex ≠ calls.size then -1 else state.readIindex, state)

/-- For every file and buffer: when `COMM_API_read` returns the size, the
buffer holds the next bytes of the file and nothing else has been written, and
when fewer bytes have been read it returns -1. -/
def ReadsNext (calls : ReadCalls) : Prop :=
  ∀ file memory, ∃ ret after,
    commApiRead calls file memory = some (ret, after) ∧
    (ret = calls.size →
      ∀ place, after.memory place =
        if 0 ≤ place ∧ place < calls.size then file place.toNat
        else memory place) ∧
    ((after.position : Int) < calls.size → ret = -1)

/-- The bytes come with one result, or with two directly after one another,
and before that `read` returns 0. -/
def Prompt (calls : ReadCalls) : Prop :=
  ∃ first, (∀ call < first, calls.result call = 0) ∧
    (calls.result first = calls.size ∨
      0 < calls.result first ∧
        calls.result first + calls.result (first + 1) = calls.size)

/-- Either the results of a hundred calls never add up to the size, or they
are prompt; and failing calls take what is left out of the range of `int`
before that. -/
structure InStep (calls : ReadCalls) : Prop where
  inRange : ∀ call ≤ 100,
    (∀ earlier < call, sumOf calls.result earlier ≠ calls.size) →
      calls.size - sumOf calls.result call ≤ intMax
  prompt : ∀ call ≤ 100, sumOf calls.result call = calls.size → Prompt calls

/-! ## The rounds -/

variable {calls : ReadCalls} {file : Nat → UInt8} {memory : Int → UInt8}

/-- The number of bytes that the first calls have brought. -/
def gained (result : Nat → Int) : Nat → Nat
  | 0 => 0
  | calls + 1 => gained result calls + (result calls).toNat

/-- The result before a call, where the next bytes go. -/
def previous (result : Nat → Int) : Nat → Int
  | 0 => 0
  | calls + 1 => result calls

/-- The memory after the first calls. -/
def memoryAfter (calls : ReadCalls) (file : Nat → UInt8)
    (memory : Int → UInt8) : Nat → Int → UInt8
  | 0 => memory
  | call + 1 => copied file (gained calls.result call)
      (previous calls.result call) (calls.result call)
      (memoryAfter calls file memory call)

/-- The state after the first calls. -/
def stateAfter (calls : ReadCalls) (file : Nat → UInt8)
    (memory : Int → UInt8) (call : Nat) : ReadState where
  nRead := previous calls.result call
  readIindex := sumOf calls.result call
  tmpsize := calls.size - sumOf calls.result call
  readCount := call
  position := gained calls.result call
  memory := memoryAfter calls file memory call

theorem readRound_eq (call : Nat) :
    readRound calls file (stateAfter calls file memory call) =
      if calls.size - sumOf calls.result (call + 1) ≤ intMax then
        some (stateAfter calls file memory (call + 1))
      else none := by
  have left : calls.size - sumOf calls.result call - calls.result call =
      calls.size - sumOf calls.result (call + 1) := by
    rw [sumOf]
    omega
  simp only [readRound, stateAfter, int, left]
  split
  · rfl
  · rfl

/-- The loop ends after this number of calls. -/
structure Ends (calls : ReadCalls) (last : Nat) : Prop where
  within : last ≤ 100
  before : ∀ earlier < last, sumOf calls.result earlier ≠ calls.size
  ends : sumOf calls.result last = calls.size ∨ last = 100

theorem exists_ends (calls : ReadCalls) : ∃ last, Ends calls last := by
  classical
  have some : ∃ last, sumOf calls.result last = calls.size ∨ last = 100 :=
    ⟨100, .inr rfl⟩
  refine ⟨Nat.find some, Nat.find_min' some (.inr rfl), fun earlier before => ?_,
    Nat.find_spec some⟩
  exact fun same => Nat.find_min some before (.inl same)

theorem Ends.pos {last : Nat} (ends : Ends calls last) : 0 < last := by
  have positive := calls.positive
  obtain whole | full := ends.ends
  · cases last with
    | zero =>
        rw [sumOf] at whole
        omega
    | succ last => exact Nat.succ_pos last
  · omega

/-- The loop from any of its rounds on. -/
theorem readLoop_eq {last : Nat} (ends : Ends calls last) {call left : Nat}
    (rounds : call + left = 100) (early : call < last) :
    readLoop calls file left (stateAfter calls file memory call) =
      if ∀ later ≤ last, call < later →
          calls.size - sumOf calls.result later ≤ intMax then
        some (stateAfter calls file memory last)
      else none := by
  induction left generalizing call with
  | zero =>
      have within := ends.within
      omega
  | succ left ih =>
      rw [readLoop, readRound_eq]
      by_cases inRange :
          calls.size - sumOf calls.result (call + 1) ≤ intMax
      · rw [if_pos inRange]
        simp only [Option.bind_eq_bind, Option.bind_some]
        by_cases next : call + 1 < last
        · have apart := ends.before (call + 1) next
          have index : (stateAfter calls file memory (call + 1)).readIindex ≠
              calls.size := apart
          rw [if_pos index, ih (by omega) next]
          have same : (∀ later ≤ last, call < later →
              calls.size - sumOf calls.result later ≤ intMax) ↔
                ∀ later ≤ last, call + 1 < later →
                  calls.size - sumOf calls.result later ≤ intMax := by
            constructor
            · intro all later within after
              exact all later within (by omega)
            · intro all later within after
              obtain here | there := Nat.lt_or_ge (call + 1) later
              · exact all later within here
              · obtain rfl : later = call + 1 := by omega
                exact inRange
          simp only [same]
        · obtain rfl : last = call + 1 := by omega
          have all : ∀ later ≤ call + 1, call < later →
              calls.size - sumOf calls.result later ≤ intMax := by
            intro later within after
            obtain rfl : later = call + 1 := by omega
            exact inRange
          rw [if_pos all]
          obtain whole | full := ends.ends
          · have index : ¬ (stateAfter calls file memory (call + 1)).readIindex ≠
                calls.size := not_not.2 whole
            rw [if_neg index]
            rfl
          · obtain rfl : left = 0 := by omega
            split
            · rfl
            · rfl
      · rw [if_neg inRange, if_neg fun all => inRange (all _ early (by omega))]
        rfl

/-- What `COMM_API_read` returns. -/
theorem commApiRead_eq {last : Nat} (ends : Ends calls last) :
    commApiRead calls file memory =
      if ∀ call ≤ last, calls.size - sumOf calls.result call ≤ intMax then
        some (if sumOf calls.result last = calls.size then calls.size else -1,
          stateAfter calls file memory last)
      else none := by
  have start : (⟨0, 0, calls.size, 0, 0, memory⟩ : ReadState) =
      stateAfter calls file memory 0 := by
    simp [stateAfter, sumOf, previous, gained, memoryAfter]
  have same : (∀ later ≤ last, 0 < later →
      calls.size - sumOf calls.result later ≤ intMax) ↔
        ∀ call ≤ last, calls.size - sumOf calls.result call ≤ intMax := by
    constructor
    · intro all call within
      cases call with
      | zero =>
          have small := calls.small
          rw [sumOf]
          omega
      | succ call => exact all _ within (Nat.succ_pos call)
    · exact fun all later within _ => all later within
  rw [commApiRead, start, readLoop_eq ends rfl ends.pos]
  simp only [same]
  split
  · simp only [Option.bind_eq_bind, Option.bind_some]
    by_cases whole : sumOf calls.result last = calls.size
    · have index : ¬ (stateAfter calls file memory last).readIindex ≠
          calls.size := not_not.2 whole
      rw [if_neg index, if_pos whole]
      exact congrArg (fun ret => some (ret, _)) whole
    · have index : (stateAfter calls file memory last).readIindex ≠
          calls.size := whole
      rw [if_pos index, if_neg whole]
      rfl
  · rfl

/-! ## What has come -/

theorem sumOf_le_gained (result : Nat → Int) (call : Nat) :
    sumOf result call ≤ gained result call := by
  induction call with
  | zero => exact le_rfl
  | succ call ih =>
      rw [sumOf, gained]
      omega

theorem sumOf_le_size (calls : ReadCalls) (call : Nat) : sumOf calls.result call ≤ calls.size := by
  cases call with
  | zero => exact calls.positive.le
  | succ call =>
      have high := calls.high call
      rw [sumOf]
      omega

/-- Nothing lost and nothing gained: every result has been 0. -/
theorem zero_of_gained {result : Nat → Int} {calls : Nat}
    (none : gained result calls = 0) (even : sumOf result calls = 0) :
    ∀ call < calls, result call = 0 := by
  induction calls with
  | zero => exact fun call before => absurd before (Nat.not_lt_zero call)
  | succ last ih =>
      have below := sumOf_le_gained result last
      rw [gained] at none
      rw [sumOf] at even
      intro call before
      obtain earlier | same := Nat.lt_succ_iff_lt_or_eq.1 before
      · exact ih (by omega) (by omega) call earlier
      · subst same
        omega

section Zero

/-! As long as `read` returns 0 nothing changes. -/

variable {first : Nat} (zero : ∀ call < first, calls.result call = 0)

include zero

theorem sumOf_of_zero : sumOf calls.result first = 0 := by
  induction first with
  | zero => rfl
  | succ first ih =>
      rw [sumOf, ih fun call before => zero call (Nat.lt_succ_of_lt before),
        zero first (Nat.lt_succ_self first), add_zero]

theorem gained_of_zero : gained calls.result first = 0 := by
  induction first with
  | zero => rfl
  | succ first ih =>
      rw [gained, ih fun call before => zero call (Nat.lt_succ_of_lt before),
        zero first (Nat.lt_succ_self first), Int.toNat_zero]

theorem previous_of_zero : previous calls.result first = 0 := by
  cases first with
  | zero => rfl
  | succ first => exact zero first (Nat.lt_succ_self first)

theorem memoryAfter_of_zero : memoryAfter calls file memory first = memory := by
  induction first with
  | zero => rfl
  | succ first ih =>
      have same := ih fun call before => zero call (Nat.lt_succ_of_lt before)
      funext place
      have empty : ¬ (previous calls.result first ≤ place ∧
          place < previous calls.result first + 0) := by
        omega
      rw [memoryAfter, same, zero first (Nat.lt_succ_self first), copied,
        if_neg empty]

end Zero

/-! ## When the bytes are in order -/

/-- The bytes of the file are in the buffer, and nothing else has changed. -/
def Delivered (calls : ReadCalls) (last : Nat) : Prop :=
  ∀ (file : Nat → UInt8) (memory : Int → UInt8) (place : Int),
    memoryAfter calls file memory last place =
      if 0 ≤ place ∧ place < calls.size then file place.toNat else memory place

/-- The last call's bytes stay within the buffer. -/
theorem last_within {last : Nat} (some : 0 < calls.result last)
    (delivered : Delivered calls (last + 1)) :
    0 ≤ previous calls.result last ∧
      previous calls.result last + calls.result last ≤ calls.size := by
  -- a file of ones over a memory of zeros
  have written := delivered (fun _ => 1) (fun _ => 0)
  have low := written (previous calls.result last)
  have high := written
    (previous calls.result last + calls.result last - 1)
  rw [memoryAfter, copied, if_pos (by omega)] at low high
  constructor
  · by_contra below
    rw [if_neg fun within => below within.1] at low
    exact absurd low (by decide)
  · by_contra above
    rw [if_neg fun within => above (by omega)] at high
    exact absurd high (by decide)

/-- The last call's bytes are those that belong where they go. -/
theorem last_in_order {last : Nat} (some : 0 < calls.result last)
    (delivered : Delivered calls (last + 1)) :
    gained calls.result last = (previous calls.result last).toNat := by
  obtain ⟨low, high⟩ := last_within some delivered
  -- a file that has a one at that place only
  have written := delivered
    (fun byte => if byte = (previous calls.result last).toNat then 1 else 0)
    (fun _ => 0) (previous calls.result last)
  have inside : 0 ≤ previous calls.result last ∧
      previous calls.result last < calls.size := by
    omega
  rw [if_pos inside, if_pos rfl, memoryAfter, copied, if_pos (by omega)] at written
  by_contra apart
  have other : ¬ gained calls.result last +
      (previous calls.result last - previous calls.result last).toNat =
        (previous calls.result last).toNat := by
    omega
  rw [if_neg other] at written
  exact absurd written (by decide)

theorem prompt_of_delivered {last : Nat}
    (early : sumOf calls.result last ≠ calls.size)
    (whole : sumOf calls.result (last + 1) = calls.size)
    (delivered : Delivered calls (last + 1)) : Prompt calls := by
  have below := sumOf_le_size calls last
  have total : sumOf calls.result last + calls.result last = calls.size := whole
  have some : 0 < calls.result last := by omega
  obtain ⟨low, high⟩ := last_within some delivered
  have order := last_in_order some delivered
  cases last with
  | zero =>
      refine ⟨0, fun call before => absurd before (Nat.not_lt_zero call), .inl ?_⟩
      rw [sumOf] at total
      omega
  | succ first =>
      rw [previous] at low high order
      rw [gained] at order
      rw [sumOf] at total
      have under := sumOf_le_gained calls.result first
      have zero : ∀ call < first, calls.result call = 0 :=
        zero_of_gained (by omega) (by omega)
      by_cases nothing : calls.result first = 0
      · refine ⟨first + 1, fun call before => ?_, .inl (by omega)⟩
        obtain earlier | rfl := Nat.lt_succ_iff_lt_or_eq.1 before
        · exact zero call earlier
        · exact nothing
      · exact ⟨first, zero, .inr ⟨by omega, by omega⟩⟩

theorem delivered_of_prompt {last : Nat} (prompt : Prompt calls)
    (early : ∀ earlier < last, sumOf calls.result earlier ≠ calls.size)
    (whole : sumOf calls.result last = calls.size) : Delivered calls last := by
  have positive := calls.positive
  obtain ⟨first, zero, brought⟩ := prompt
  have none : sumOf calls.result first = 0 := sumOf_of_zero zero
  have once : sumOf calls.result (first + 1) = calls.result first := by
    rw [sumOf, none, zero_add]
  have twice : sumOf calls.result (first + 2) =
      calls.result first + calls.result (first + 1) := by
    rw [sumOf, once]
  have later : first < last := by
    by_contra before
    have nothing : sumOf calls.result last = 0 :=
      sumOf_of_zero fun call earlier => zero call (by omega)
    omega
  have start (file memory) : memoryAfter calls file memory (first + 1) =
      copied file 0 0 (calls.result first) memory := by
    rw [memoryAfter, gained_of_zero zero, previous_of_zero zero,
      memoryAfter_of_zero zero]
  intro file memory place
  by_cases full : calls.result first = calls.size
  · obtain rfl : last = first + 1 := by
      by_contra other
      exact early (first + 1) (by omega) (once.trans full)
    rw [start, copied, full]
    simp only [zero_add, sub_zero]
  · obtain here | ⟨some, rest⟩ := brought
    · exact absurd here full
    · have bound := sumOf_le_size calls (first + 1)
      obtain rfl : last = first + 2 := by
        by_contra other
        obtain before | after := Nat.lt_or_ge last (first + 2)
        · obtain rfl : last = first + 1 := by omega
          exact full (once.symm.trans whole)
        · exact early (first + 2) (by omega) (twice.trans rest)
      have next : gained calls.result (first + 1) =
          (calls.result first).toNat := by
        rw [gained, gained_of_zero zero, zero_add]
      rw [memoryAfter, start, next, previous, copied, copied]
      by_cases second : calls.result first ≤ place ∧
          place < calls.result first + calls.result (first + 1)
      · rw [if_pos second, if_pos (by omega)]
        congr 1
        omega
      · rw [if_neg second]
        by_cases front : 0 ≤ place ∧ place < 0 + calls.result first
        · rw [if_pos front, if_pos (by omega)]
          congr 1
          omega
        · rw [if_neg front, if_neg (by omega)]

/-- Nothing is lost on the way to the bytes that are due: `COMM_API_read`
reads them exactly when its calls are in step. -/
theorem readsNext_iff_inStep (calls : ReadCalls) :
    ReadsNext calls ↔ InStep calls := by
  have positive := calls.positive
  obtain ⟨last, ends⟩ := exists_ends calls
  have within := ends.within
  -- a call that brings the last byte, or that is reached, is not after the last
  have reached {call : Nat} (early : ∀ earlier < call,
      sumOf calls.result earlier ≠ calls.size) (bound : call ≤ 100) :
      call ≤ last := by
    by_contra after
    obtain whole | full := ends.ends
    · exact early last (by omega) whole
    · omega
  constructor
  · intro reads
    have ranged : ∀ call ≤ last,
        calls.size - sumOf calls.result call ≤ intMax := by
      by_contra overflow
      obtain ⟨ret, after, returned, -⟩ := reads (fun _ => 0) fun _ => 0
      rw [commApiRead_eq ends, if_neg overflow] at returned
      exact absurd returned (by simp)
    refine ⟨fun call bound early => ranged call (reached early bound), ?_⟩
    intro call bound total
    have whole : sumOf calls.result last = calls.size := by
      obtain whole | full := ends.ends
      · exact whole
      · have notBefore := ends.before call
        obtain rfl : call = last := by
          by_contra other
          exact notBefore (by omega) total
        exact total
    have delivered : Delivered calls last := by
      intro file memory place
      obtain ⟨ret, after, returned, exactly, -⟩ := reads file memory
      rw [commApiRead_eq ends, if_pos ranged, if_pos whole] at returned
      obtain ⟨rfl, rfl⟩ := Prod.mk.inj (Option.some.inj returned)
      exact exactly rfl place
    obtain ⟨before, rfl⟩ := Nat.exists_eq_succ_of_ne_zero ends.pos.ne'
    exact prompt_of_delivered (ends.before before (Nat.lt_succ_self before))
      whole delivered
  · intro inStep file memory
    have ranged : ∀ call ≤ last,
        calls.size - sumOf calls.result call ≤ intMax := fun call bound =>
      inStep.inRange call (by omega) fun earlier before =>
        ends.before earlier (by omega)
    refine ⟨_, _, (commApiRead_eq ends).trans (if_pos ranged), ?_, ?_⟩
    · intro returned
      have whole : sumOf calls.result last = calls.size := by
        by_contra short
        rw [if_neg short] at returned
        omega
      exact delivered_of_prompt (inStep.prompt last within whole) ends.before
        whole file memory
    · intro fewer
      have below := sumOf_le_gained calls.result last
      have short : sumOf calls.result last ≠ calls.size := by
        have position : ((gained calls.result last : Nat) : Int) < calls.size :=
          fewer
        omega
      rw [if_neg short]

/-- Three bytes, one at a time. -/
def oneByOne : ReadCalls where
  size := 3
  positive := by decide
  small := by decide
  result call := if call < 3 then 1 else 0
  low call := by
    split <;> decide
  high call := by
    have sums : ∀ call, sumOf (fun call => if call < 3 then 1 else 0) call =
        min call 3 := by
      intro call
      induction call with
      | zero => rfl
      | succ call ih =>
          rw [sumOf, ih]
          split <;> omega
    rw [sums]
    split <;> omega

/-- The third byte overwrites the second. -/
theorem not_forall_readsNext : ¬ ∀ calls, ReadsNext calls := by
  intro all
  obtain ⟨ret, after, returned, delivered, -⟩ :=
    all oneByOne (fun byte => UInt8.ofNat (byte + 1)) fun _ => 0
  have read : (commApiRead oneByOne (fun byte => UInt8.ofNat (byte + 1))
      fun _ => 0).map (fun result => (result.1, result.2.memory 2)) =
        some (3, 0) := by
    decide +kernel
  rw [returned, Option.map_some] at read
  obtain ⟨whole, third⟩ := Prod.mk.inj (Option.some.inj read)
  have due : after.memory 2 = 3 := delivered whole 2
  rw [due] at third
  exact absurd third (by decide)

end CommApi

end MbedtlsKcp
