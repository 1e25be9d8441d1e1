import MbedtlsKcp.RingCopies
import MbedtlsKcp.TransitionRuns

/-!
# The asynchronous log output

`elog_async.c` puts the logs of the lower levels into a ring and gives notice
to a thread, which takes them out in pieces and writes them.  Putting and
taking happen under the output lock, writing does not.
-/

namespace MbedtlsKcp

namespace ElogAsync

open ByteBuffers RingCopies TransitionRuns

/-- The ring; the length of `logBuf` is `OUTPUT_BUF_SIZE`. -/
structure LogRing where
  logBuf : List UInt8
  writeIndex : Nat
  readIndex : Nat
  bufIsFull : Bool
  bufIsEmpty : Bool
deriving DecidableEq

/-- `OUTPUT_LVL`, which is `ELOG_LVL_DEBUG`. -/
def outputLvl : Nat := 4

def elogAsyncGetBufUsed (ring : LogRing) : Nat :=
  if ring.writeIndex > ring.readIndex then
    ring.writeIndex - ring.readIndex
  else if !ring.bufIsFull && !ring.bufIsEmpty then
    ring.logBuf.length - (ring.readIndex - ring.writeIndex)
  else if ring.bufIsFull then ring.logBuf.length
  else 0

def asyncGetBufSpace (ring : LogRing) : Nat :=
  ring.logBuf.length - elogAsyncGetBufUsed ring

/-- `async_put_log`; no result for a copy outside a buffer. -/
def asyncPutLog (ring : LogRing) (log : List UInt8) : Option (Nat × LogRing) :=
  let space := asyncGetBufSpace ring
  if space = 0 then some (0, ring)
  else
    let size := if space ≤ log.length then space else log.length
    let full := if space ≤ log.length then true else ring.bufIsFull
    if ring.writeIndex + size < ring.logBuf.length then
      (readFrom log 0 size).bind fun piece =>
        (copyInto ring.logBuf ring.writeIndex piece).map fun logBuf =>
          (size, { ring with
            logBuf
            writeIndex := ring.writeIndex + size
            bufIsFull := full
            bufIsEmpty := false })
    else
      let front := ring.logBuf.length - ring.writeIndex
      (readFrom log 0 front).bind fun piece =>
        (copyInto ring.logBuf ring.writeIndex piece).bind fun logBuf =>
          (readFrom log front (size - front)).bind fun rest =>
            (copyInto logBuf 0 rest).map fun logBuf =>
              (size, { ring with
                logBuf
                writeIndex := ring.writeIndex + size - ring.logBuf.length
                bufIsFull := full
                bufIsEmpty := false })

/-- `elog_async_get_log`; the bytes it puts into `log` are the result. -/
def elogAsyncGetLog (ring : LogRing) (size : Nat) :
    Option (List UInt8 × LogRing) :=
  let used := elogAsyncGetBufUsed ring
  if used = 0 ∨ size = 0 then some ([], ring)
  else
    let count := if used ≤ size then used else size
    let empty := if used ≤ size then true else ring.bufIsEmpty
    if ring.readIndex + count < ring.logBuf.length then
      (readFrom ring.logBuf ring.readIndex count).map fun log =>
        (log, { ring with
          readIndex := ring.readIndex + count
          bufIsFull := false
          bufIsEmpty := empty })
    else
      let front := ring.logBuf.length - ring.readIndex
      (readFrom ring.logBuf ring.readIndex front).bind fun piece =>
        (readFrom ring.logBuf 0 (count - front)).map fun rest =>
          (piece ++ rest, { ring with
            readIndex := ring.readIndex + count - ring.logBuf.length
            bufIsFull := false
            bufIsEmpty := empty })

section Ring

/-- The ring holds `contents`. -/
structure Holds (ring : LogRing) (contents : List UInt8) : Prop where
  inside : ring.readIndex < ring.logBuf.length
  short : contents.length ≤ ring.logBuf.length
  write : ring.writeIndex =
    (ring.readIndex + contents.length) % ring.logBuf.length
  full : ring.bufIsFull = decide (contents.length = ring.logBuf.length)
  empty : ring.bufIsEmpty = decide (contents.length = 0)
  contents : queued ring.logBuf ring.readIndex contents.length = contents

variable {ring : LogRing} {contents log : List UInt8} {size : Nat}

theorem Holds.used (holds : Holds ring contents) :
    elogAsyncGetBufUsed ring = contents.length := by
  have inside := holds.inside
  have short := holds.short
  have write := holds.write
  unfold elogAsyncGetBufUsed
  rw [holds.full, holds.empty]
  by_cases wraps : ring.readIndex + contents.length < ring.logBuf.length
  · rw [Nat.mod_eq_of_lt wraps] at write
    grind
  · have around := Nat.mod_eq_sub_mod (Nat.le_of_not_lt wraps)
    rw [around, Nat.mod_eq_of_lt (by omega)] at write
    grind

theorem Holds.space (holds : Holds ring contents) :
    asyncGetBufSpace ring = ring.logBuf.length - contents.length := by
  rw [asyncGetBufSpace, holds.used]

theorem Holds.write_lt (holds : Holds ring contents) :
    ring.writeIndex < ring.logBuf.length := by
  rw [holds.write]
  exact Nat.mod_lt _ (Nat.zero_lt_of_lt holds.inside)

theorem readFrom_zero {count : Nat} (fits : count ≤ log.length) :
    readFrom log 0 count = some (log.take count) := by
  simp [readFrom, fits, slice]

/-- The two copies of `async_put_log` store a start of the log. -/
theorem asyncPutLog_eq (inside : ring.writeIndex < ring.logBuf.length)
    (space : asyncGetBufSpace ring ≠ 0) :
    asyncPutLog ring log =
      some (min (asyncGetBufSpace ring) log.length,
        { ring with
          logBuf := scatter ring.logBuf ring.writeIndex
            (log.take (min (asyncGetBufSpace ring) log.length))
          writeIndex := (ring.writeIndex +
            min (asyncGetBufSpace ring) log.length) % ring.logBuf.length
          bufIsFull := decide (asyncGetBufSpace ring ≤ log.length) ||
            ring.bufIsFull
          bufIsEmpty := false }) := by
  have least : (if asyncGetBufSpace ring ≤ log.length then
      asyncGetBufSpace ring else log.length) =
      min (asyncGetBufSpace ring) log.length :=
    Nat.min_def.symm
  have full : (if asyncGetBufSpace ring ≤ log.length then true
      else ring.bufIsFull) =
      (decide (asyncGetBufSpace ring ≤ log.length) || ring.bufIsFull) := by
    split <;> simp [*]
  have room : asyncGetBufSpace ring ≤ ring.logBuf.length := Nat.sub_le _ _
  have part : min (asyncGetBufSpace ring) log.length ≤ log.length :=
    Nat.min_le_right _ _
  have fits : min (asyncGetBufSpace ring) log.length ≤ ring.logBuf.length :=
    Nat.le_trans (Nat.min_le_left _ _) room
  simp only [asyncPutLog, space, if_false, least, full]
  generalize min (asyncGetBufSpace ring) log.length = size at part fits ⊢
  have taken : (log.take size).length = size := by simp [part]
  unfold scatter
  rw [taken]
  split
  · case isTrue short =>
      rw [readFrom_zero part, Option.bind_some, copyInto, taken,
        if_pos (Nat.le_of_lt short), Nat.mod_eq_of_lt short]
      rfl
  · case isFalse long =>
      have start : ring.logBuf.length - ring.writeIndex ≤ size := by omega
      have front : ((log.take size).take
          (ring.logBuf.length - ring.writeIndex)).length =
          ring.logBuf.length - ring.writeIndex := by
        rw [List.length_take, taken, Nat.min_eq_left start]
      have rest : ((log.take size).drop
          (ring.logBuf.length - ring.writeIndex)).length ≤
          ring.logBuf.length := by
        rw [List.length_drop, taken]
        omega
      have stored : ring.writeIndex + ((log.take size).take
          (ring.logBuf.length - ring.writeIndex)).length ≤
          ring.logBuf.length := by
        omega
      have piece : readFrom log 0 (ring.logBuf.length - ring.writeIndex) =
          some ((log.take size).take
            (ring.logBuf.length - ring.writeIndex)) := by
        rw [readFrom_zero (by omega), List.take_take, Nat.min_eq_left start]
      have others : readFrom log (ring.logBuf.length - ring.writeIndex)
          (size - (ring.logBuf.length - ring.writeIndex)) =
          some ((log.take size).drop
            (ring.logBuf.length - ring.writeIndex)) := by
        rw [readFrom, if_pos (by omega), slice, List.drop_take]
      have around : (ring.writeIndex + size) % ring.logBuf.length =
          ring.writeIndex + size - ring.logBuf.length := by
        rw [Nat.mod_eq_sub_mod (Nat.le_of_not_lt long)]
        exact Nat.mod_eq_of_lt (by omega)
      rw [piece, others, around, Option.bind_some, copyInto, if_pos stored,
        Option.bind_some, Option.bind_some, copyInto, length_overwrite stored,
        if_pos (by omega)]
      rfl

/-- A log joins the contents as far as it fits. -/
theorem Holds.put (holds : Holds ring contents) (nonempty : log ≠ []) :
    ∃ after, asyncPutLog ring log =
        some (min (ring.logBuf.length - contents.length) log.length, after) ∧
      after.logBuf.length = ring.logBuf.length ∧
      Holds after
        (contents ++ log.take (ring.logBuf.length - contents.length)) := by
  have length : 0 < log.length := List.length_pos_iff.mpr nonempty
  by_cases room : ring.logBuf.length - contents.length = 0
  · refine ⟨ring, ?_, rfl, ?_⟩
    · simp [asyncPutLog, holds.space, room]
    · simpa [room] using holds
  · have space := holds.space
    have short := holds.short
    have inside := holds.write_lt
    rw [← space] at room ⊢
    have fits : min (asyncGetBufSpace ring) log.length ≤
        ring.logBuf.length - contents.length := by
      rw [← space]
      exact Nat.min_le_left _ _
    have same : log.take (asyncGetBufSpace ring) =
        log.take (min (asyncGetBufSpace ring) log.length) := by
      rw [← List.take_eq_take_min]
    have taken : (log.take
        (min (asyncGetBufSpace ring) log.length)).length =
        min (asyncGetBufSpace ring) log.length := by
      simp
    refine ⟨_, asyncPutLog_eq inside room, ?_, ?_⟩
    · exact length_scatter inside (by omega)
    · rw [same]
      constructor
      · dsimp only
        rw [length_scatter inside (by omega)]
        exact holds.inside
      · dsimp only
        rw [length_scatter inside (by omega), List.length_append, taken]
        omega
      · dsimp only
        rw [length_scatter inside (by omega), List.length_append, taken,
          holds.write, Nat.mod_add_mod, Nat.add_assoc]
      · dsimp only
        rw [length_scatter inside (by omega), List.length_append, taken,
          holds.full, space]
        grind
      · dsimp only
        rw [List.length_append, taken]
        grind
      · dsimp only
        rw [List.length_append, holds.write,
          queued_scatter holds.inside (by omega), holds.contents]

/-- An empty log would make an empty ring count as full of what it held. -/
theorem Holds.put_nil (holds : Holds ring []) :
    ∃ after, asyncPutLog ring [] = some (0, after) ∧
      elogAsyncGetBufUsed after = ring.logBuf.length := by
  have inside := holds.inside
  have space := holds.space
  have write := holds.write
  rw [List.length_nil, Nat.sub_zero] at space
  rw [List.length_nil, Nat.add_zero, Nat.mod_eq_of_lt inside] at write
  have room : asyncGetBufSpace ring ≠ 0 := by omega
  have put := @asyncPutLog_eq ring [] holds.write_lt room
  rw [List.length_nil, Nat.min_zero] at put
  refine ⟨_, put, ?_⟩
  have partly : ring.bufIsFull = false := by
    simpa using holds.full.trans (decide_eq_false (by simp; omega))
  simp [elogAsyncGetBufUsed, write, Nat.mod_eq_of_lt inside, partly, room,
    length_scatter inside]

/-- The two copies of `elog_async_get_log` read the front of the contents. -/
theorem elogAsyncGetLog_eq (inside : ring.readIndex < ring.logBuf.length)
    (used : elogAsyncGetBufUsed ring ≤ ring.logBuf.length)
    (pending : elogAsyncGetBufUsed ring ≠ 0) (asked : size ≠ 0) :
    elogAsyncGetLog ring size =
      some (queued ring.logBuf ring.readIndex
          (min (elogAsyncGetBufUsed ring) size),
        { ring with
          readIndex := (ring.readIndex +
            min (elogAsyncGetBufUsed ring) size) % ring.logBuf.length
          bufIsFull := false
          bufIsEmpty := decide (elogAsyncGetBufUsed ring ≤ size) ||
            ring.bufIsEmpty }) := by
  have least : (if elogAsyncGetBufUsed ring ≤ size then
      elogAsyncGetBufUsed ring else size) =
      min (elogAsyncGetBufUsed ring) size :=
    Nat.min_def.symm
  have empty : (if elogAsyncGetBufUsed ring ≤ size then true
      else ring.bufIsEmpty) =
      (decide (elogAsyncGetBufUsed ring ≤ size) || ring.bufIsEmpty) := by
    split <;> simp [*]
  have fits : min (elogAsyncGetBufUsed ring) size ≤ ring.logBuf.length :=
    Nat.le_trans (Nat.min_le_left _ _) used
  simp only [elogAsyncGetLog, pending, asked, or_self, if_false, least, empty]
  generalize min (elogAsyncGetBufUsed ring) size = count at fits ⊢
  rw [← gather_eq inside fits]
  unfold gather
  split
  · case isTrue short =>
      rw [readFrom, if_pos (Nat.le_of_lt short), Nat.mod_eq_of_lt short]
      rfl
  · case isFalse long =>
      have around : (ring.readIndex + count) % ring.logBuf.length =
          ring.readIndex + count - ring.logBuf.length := by
        rw [Nat.mod_eq_sub_mod (Nat.le_of_not_lt long)]
        exact Nat.mod_eq_of_lt (by omega)
      rw [readFrom, if_pos (by omega), readFrom, if_pos (by omega), around]
      rfl

/-- The front of the contents is taken out. -/
theorem Holds.get (holds : Holds ring contents) (asked : size ≠ 0) :
    ∃ after, elogAsyncGetLog ring size = some (contents.take size, after) ∧
      after.logBuf.length = ring.logBuf.length ∧
      Holds after (contents.drop size) := by
  have used := holds.used
  have short := holds.short
  have inside := holds.inside
  by_cases none : contents = []
  · subst none
    refine ⟨ring, ?_, rfl, ?_⟩
    · simp [elogAsyncGetLog, used]
    · simpa using holds
  · have pending : elogAsyncGetBufUsed ring ≠ 0 := by
      rw [used]
      exact fun zero => none (List.eq_nil_of_length_eq_zero zero)
    have part : min contents.length size ≤ contents.length :=
      Nat.min_le_left _ _
    have taken : queued ring.logBuf ring.readIndex
        (min contents.length size) = contents.take size := by
      have shorter := congrArg (List.take size) holds.contents
      rw [queued, List.take_take, Nat.min_comm] at shorter
      exact shorter
    have left : contents.drop (min contents.length size) =
        contents.drop size := by
      by_cases whole : contents.length ≤ size
      · rw [Nat.min_eq_left whole, List.drop_length,
          List.drop_eq_nil_of_le whole]
      · rw [Nat.min_eq_right (Nat.le_of_not_le whole)]
    have length : (contents.drop size).length =
        contents.length - min contents.length size := by
      rw [List.length_drop]
      omega
    have got := elogAsyncGetLog_eq inside (used ▸ short) pending asked
    rw [used, taken] at got
    rw [used] at pending
    refine ⟨_, got, rfl, ?_⟩
    constructor
    · exact Nat.mod_lt _ (Nat.zero_lt_of_lt inside)
    · dsimp only
      omega
    · dsimp only
      rw [holds.write, length, Nat.mod_add_mod]
      congr 1
      omega
    · dsimp only
      rw [length]
      grind
    · dsimp only
      rw [length, holds.empty]
      grind
    · dsimp only
      rw [length, queued_drop part short, holds.contents]
      exact left

end Ring

section System

/-- Where the output thread is. -/
inductive Stage
  | checking
  | waiting
  | polling
  | writing (log : List UInt8)
  | ended
deriving DecidableEq

/-- What `elog_port_output` is called with, by a caller of `elog_async_output`
or by the output thread. -/
inductive Piece
  | direct (log : List UInt8)
  | drained (log : List UInt8)
deriving DecidableEq

/-- The module after `elog_async_init`.  `notices` is the value of
`output_notice`; `accepted` is what the ring has taken of the logs. -/
structure Logger where
  ring : LogRing
  isEnabled : Bool
  threadRunning : Bool
  notices : Nat
  stage : Stage
  written : List Piece
  accepted : List UInt8
deriving DecidableEq

inductive Label
  | output (level : Nat) (log : List UInt8)
  | enabled (enabled : Bool)
  | deinit
  | thread
deriving DecidableEq

def elogAsyncOutput (logger : Logger) (level : Nat) (log : List UInt8) :
    Option Logger :=
  if logger.isEnabled && decide (level ≥ outputLvl) then
    (asyncPutLog logger.ring log).map fun (putSize, ring) =>
      { logger with
        ring
        notices := if putSize > 0 then logger.notices + 1 else logger.notices
        accepted := logger.accepted ++ log.take putSize }
  else some { logger with written := logger.written ++ [.direct log] }

/-- One step of `async_output`, which polls up to `pollSize` bytes; none when
it has to wait or has returned. -/
def asyncOutput (pollSize : Nat) (logger : Logger) : Option Logger :=
  match logger.stage with
  | .checking =>
      some { logger with
        stage := if logger.threadRunning then .waiting else .ended }
  | .waiting =>
      if logger.notices = 0 then none
      else some { logger with
        notices := logger.notices - 1
        stage := .polling }
  | .polling =>
      (elogAsyncGetLog logger.ring pollSize).map fun (log, ring) =>
        { logger with
          ring
          stage := if log.length > 0 then .writing log else .checking }
  | .writing log =>
      some { logger with
        written := logger.written ++ [.drained log]
        stage := .polling }
  | .ended => none

/-- `deinit` is `elog_async_deinit` up to where it joins the thread. -/
def step (pollSize : Nat) (logger : Logger) : Label → Option Logger
  | .output level log => elogAsyncOutput logger level log
  | .enabled enabled => some { logger with isEnabled := enabled }
  | .deinit =>
      if logger.threadRunning then
        some { logger with
          threadRunning := false
          notices := logger.notices + 1 }
      else some logger
  | .thread => asyncOutput pollSize logger

def elogAsyncInit (size : Nat) : Logger where
  ring :=
    { logBuf := List.replicate size 0
      writeIndex := 0
      readIndex := 0
      bufIsFull := false
      bufIsEmpty := true }
  isEnabled := false
  threadRunning := true
  notices := 0
  stage := .checking
  written := []
  accepted := []

/-- A log always ends with a newline sign. -/
def Label.Valid : Label → Prop
  | .output level log => level ≥ outputLvl → log ≠ []
  | _ => True

/-- The logger after any steps of its callers and its thread. -/
abbrev Reached (size pollSize : Nat) : Logger → Prop :=
  Reachable (fun logger => logger = elogAsyncInit size) (step pollSize)
    fun _ label => label.Valid

/-- What the thread has written. -/
def drained (pieces : List Piece) : List UInt8 :=
  pieces.flatMap fun piece =>
    match piece with
    | .direct _ => []
    | .drained log => log

/-- What the thread has taken out and not written. -/
def Stage.taken : Stage → List UInt8
  | .writing log => log
  | _ => []

/-- The thread will look at the ring again without a further notice. -/
def Stage.Looks : Stage → Prop
  | .polling => True
  | .writing _ => True
  | _ => False

/-- The contents of the ring are on their way: in order, and the thread looks
at them or has notice of them. -/
structure Delivers (size : Nat) (logger : Logger) (contents : List UInt8) :
    Prop where
  holds : Holds logger.ring contents
  size : logger.ring.logBuf.length = size
  order : drained logger.written ++ logger.stage.taken ++ contents =
    logger.accepted
  noticed : contents ≠ [] → 0 < logger.notices ∨ logger.stage.Looks
  alive : logger.threadRunning = true → logger.stage ≠ .ended

variable {size pollSize : Nat} {logger after : Logger}
variable {contents log : List UInt8}

theorem Delivers.init (positive : 0 < size) :
    Delivers size (elogAsyncInit size) [] := by
  constructor
  · constructor <;> simp [elogAsyncInit, positive, queued]
    omega
  · simp [elogAsyncInit]
  · rfl
  · simp
  · simp [elogAsyncInit]

/-- A log for the ring, as far as it fits. -/
theorem Delivers.put (delivers : Delivers size logger contents) {level : Nat}
    (enabled : logger.isEnabled = true) (deep : level ≥ outputLvl)
    (nonempty : log ≠ []) :
    ∃ ring, elogAsyncOutput logger level log = some
        { logger with
          ring
          notices :=
            if min (size - contents.length) log.length > 0 then
              logger.notices + 1
            else logger.notices
          accepted := logger.accepted ++ log.take (size - contents.length) } ∧
      ring.logBuf.length = size ∧
      Holds ring (contents ++ log.take (size - contents.length)) := by
  obtain ⟨ring, put, same, holds⟩ := delivers.holds.put nonempty
  rw [delivers.size] at put same holds
  refine ⟨ring, ?_, same, holds⟩
  simp [elogAsyncOutput, enabled, deep, put, ← List.take_eq_take_min]

theorem Delivers.output (delivers : Delivers size logger contents) {level : Nat}
    (valid : level ≥ outputLvl → log ≠ [])
    (steps : elogAsyncOutput logger level log = some after) :
    ∃ next, Delivers size after next := by
  by_cases async : logger.isEnabled = true ∧ level ≥ outputLvl
  · obtain ⟨ring, put, same, holds⟩ :=
      delivers.put async.1 async.2 (valid async.2)
    obtain rfl := Option.some.inj (put.symm.trans steps)
    refine ⟨_, holds, same, ?_, ?_, delivers.alive⟩
    · rw [← List.append_assoc, delivers.order]
    · intro some
      by_cases full : size - contents.length = 0
      · rw [full, List.take_zero, List.append_nil] at some
        simpa [full] using delivers.noticed some
      · have length := List.length_pos_iff.mpr (valid async.2)
        left
        dsimp only
        rw [if_pos (by omega)]
        omega
  · have direct : after =
        { logger with written := logger.written ++ [.direct log] } := by
      simpa [elogAsyncOutput, async] using steps.symm
    subst direct
    refine ⟨contents, delivers.holds, delivers.size, ?_, delivers.noticed,
      delivers.alive⟩
    simpa [drained] using delivers.order

def Stage.rank : Stage → Nat
  | .waiting => 0
  | .checking => 1
  | .polling => 2
  | .writing _ => 3
  | .ended => 0

/-- What the thread still has to do. -/
def remaining (logger : Logger) (contents : List UInt8) : Nat :=
  4 * logger.notices + 3 * contents.length + logger.stage.rank

/-- A step of the thread. -/
theorem Delivers.thread (delivers : Delivers size logger contents)
    (polls : 0 < pollSize) (steps : asyncOutput pollSize logger = some after) :
    ∃ next, Delivers size after next ∧ after.accepted = logger.accepted ∧
      after.threadRunning = logger.threadRunning ∧
      remaining after next < remaining logger contents := by
  have order := delivers.order
  have noticed := delivers.noticed
  unfold asyncOutput at steps
  split at steps
  · case h_1 checking =>
      obtain rfl := Option.some.inj steps
      rw [checking] at order noticed
      refine ⟨contents, ⟨delivers.holds, delivers.size, ?_, ?_, ?_⟩, rfl, rfl,
        ?_⟩
      · rw [← order]
        dsimp only
        split <;> rfl
      · intro some
        exact .inl ((noticed some).resolve_right id)
      · intro runs
        simp only at runs
        simp [runs]
      · simp only [remaining, checking]
        cases logger.threadRunning <;> simp [Stage.rank]
  · case h_2 waiting =>
      split at steps
      · cases steps
      · obtain rfl := Option.some.inj steps
        rw [waiting] at order
        refine ⟨contents, ⟨delivers.holds, delivers.size, order, ?_, ?_⟩, rfl,
          rfl, ?_⟩
        · exact fun _ => .inr trivial
        · simp
        · simp only [remaining, waiting, Stage.rank]
          omega
  · case h_3 polling =>
      obtain ⟨ring, got, same, holds⟩ :=
        delivers.holds.get (Nat.ne_of_gt polls)
      rw [got] at steps
      obtain rfl := Option.some.inj steps
      rw [polling] at order
      refine ⟨_, ⟨holds, same.trans delivers.size, ?_, ?_, ?_⟩, rfl, rfl, ?_⟩
      · rw [← order]
        dsimp only
        by_cases none : contents.take pollSize = []
        · have all := List.take_append_drop pollSize contents
          rw [none, List.nil_append] at all
          simp [none, Stage.taken, all]
        · have some : (contents.take pollSize).length > 0 :=
            List.length_pos_iff.mpr none
          rw [if_pos some]
          simp [Stage.taken]
      · intro some
        right
        have long : contents.take pollSize ≠ [] := by
          intro none
          rcases List.take_eq_nil_iff.mp none with zero | none
          · omega
          · simp [none] at some
        dsimp only
        rw [if_pos (List.length_pos_iff.mpr long)]
        trivial
      · dsimp only
        split <;> simp
      · simp only [remaining, polling, List.length_drop]
        by_cases some : (contents.take pollSize).length > 0
        · rw [if_pos some]
          rw [List.length_take] at some
          simp only [Stage.rank]
          omega
        · rw [if_neg some]
          simp only [Stage.rank]
          omega
  · case h_4 log writing =>
      obtain rfl := Option.some.inj steps
      rw [writing] at order
      refine ⟨contents, ⟨delivers.holds, delivers.size, ?_, ?_, ?_⟩, rfl, rfl,
        ?_⟩
      · rw [← order]
        simp [drained, Stage.taken]
      · exact fun _ => .inr trivial
      · simp
      · simp only [remaining, writing, Stage.rank]
        omega
  · cases steps

theorem Reached.delivers (positive : 0 < size) (polls : 0 < pollSize)
    (reached : Reached size pollSize logger) :
    ∃ contents, Delivers size logger contents := by
  induction reached with
  | start starts =>
      obtain rfl := starts
      exact ⟨[], .init positive⟩
  | @next before after label _ valid steps ih =>
      obtain ⟨contents, delivers⟩ := ih
      cases label with
      | output level log => exact delivers.output valid steps
      | enabled enabled =>
          obtain rfl := Option.some.inj steps
          exact ⟨contents, delivers.holds, delivers.size, delivers.order,
            delivers.noticed, delivers.alive⟩
      | deinit =>
          simp only [step] at steps
          split at steps
          · obtain rfl := Option.some.inj steps
            exact ⟨contents, delivers.holds, delivers.size, delivers.order,
              fun _ => .inl (Nat.succ_pos before.notices), by simp⟩
          · obtain rfl := Option.some.inj steps
            exact ⟨contents, delivers⟩
      | thread =>
          obtain ⟨next, delivered, -⟩ := delivers.thread polls steps
          exact ⟨next, delivered⟩

/-- Without a notice a waiting thread has written everything. -/
theorem Delivers.written (delivers : Delivers size logger contents)
    (waiting : logger.stage = .waiting) (quiet : logger.notices = 0) :
    drained logger.written = logger.accepted := by
  have none : contents = [] := by
    by_contra some
    rcases delivers.noticed some with notice | looks
    · omega
    · rw [waiting] at looks
      exact looks
  have order := delivers.order
  rw [waiting, none] at order
  simpa [Stage.taken] using order

theorem Delivers.exists_step (delivers : Delivers size logger contents)
    (polls : 0 < pollSize) (runs : logger.threadRunning = true) :
    (logger.stage = .waiting ∧ logger.notices = 0) ∨
      (asyncOutput pollSize logger).isSome := by
  cases stage : logger.stage with
  | checking => exact .inr (by simp [asyncOutput, stage])
  | waiting =>
      by_cases quiet : logger.notices = 0
      · exact .inl ⟨rfl, quiet⟩
      · exact .inr (by simp [asyncOutput, stage, quiet])
  | polling =>
      obtain ⟨ring, got, -⟩ := delivers.holds.get (Nat.ne_of_gt polls)
      exact .inr (by simp [asyncOutput, stage, got])
  | writing log => exact .inr (by simp [asyncOutput, stage])
  | ended => exact absurd stage (delivers.alive runs)

/-- On its own the thread comes to wait without a notice. -/
theorem Delivers.exists_run (delivers : Delivers size logger contents)
    (polls : 0 < pollSize) (runs : logger.threadRunning = true) :
    ∃ count last, run (step pollSize) logger (List.replicate count .thread) =
        some last ∧
      last.stage = .waiting ∧ last.notices = 0 ∧
        last.accepted = logger.accepted ∧
          drained last.written = logger.accepted := by
  induction work : remaining logger contents using Nat.strong_induction_on
    generalizing logger contents with
  | h work ih =>
      rcases delivers.exists_step polls runs with ⟨waiting, quiet⟩ | moves
      · exact ⟨0, logger, rfl, waiting, quiet, rfl,
          delivers.written waiting quiet⟩
      · obtain ⟨after, steps⟩ := Option.isSome_iff_exists.mp moves
        obtain ⟨next, delivered, same, running, fewer⟩ :=
          delivers.thread polls steps
        obtain ⟨count, last, rest, waiting, quiet, kept, written⟩ :=
          ih _ (work ▸ fewer) delivered (running.trans runs) rfl
        refine ⟨count + 1, last, ?_, waiting, quiet, kept.trans same,
          written.trans same⟩
        rw [List.replicate_succ, run_cons, step, steps]
        exact rest

/-- However the callers and the thread take turns: what the thread has written
and taken and what the ring holds is what the ring has accepted, in its order,
and when the thread waits without a notice it has written all of it. -/
theorem Reached.written_in_order (positive : 0 < size) (polls : 0 < pollSize)
    (reached : Reached size pollSize logger) :
    drained logger.written ++ logger.stage.taken ++
        queued logger.ring.logBuf logger.ring.readIndex
          (elogAsyncGetBufUsed logger.ring) = logger.accepted ∧
      (logger.stage = .waiting → logger.notices = 0 →
        drained logger.written = logger.accepted) := by
  obtain ⟨contents, delivers⟩ := reached.delivers positive polls
  constructor
  · rw [delivers.holds.used, delivers.holds.contents]
    exact delivers.order
  · exact delivers.written

/-- A log that meets free space is accepted as far as it fits, and the thread
alone then gets everything written that was accepted, unless it was stopped. -/
theorem Reached.exists_written (positive : 0 < size) (polls : 0 < pollSize)
    (reached : Reached size pollSize logger)
    (runs : logger.threadRunning = true) (enabled : logger.isEnabled = true)
    {level : Nat} (deep : level ≥ outputLvl) (nonempty : log ≠ []) :
    ∃ count last, run (step pollSize) logger
        (.output level log :: List.replicate count .thread) = some last ∧
      drained last.written = logger.accepted ++
        log.take (asyncGetBufSpace logger.ring) := by
  obtain ⟨contents, delivers⟩ := reached.delivers positive polls
  obtain ⟨ring, put, -⟩ := delivers.put enabled deep nonempty
  obtain ⟨next, delivered⟩ := delivers.output (fun _ => nonempty) put
  obtain ⟨count, last, rest, -, -, -, written⟩ :=
    delivered.exists_run polls runs
  refine ⟨count, last, ?_, ?_⟩
  · rw [run_cons, step, put]
    exact rest
  · rw [written, delivers.holds.space, delivers.size]

/-- Two logs for a ring of eight bytes and one that is written at once; the
second comes while the thread writes a part of the first and is cut. -/
def twoLogs : List Label :=
  [.enabled true, .output 4 [1, 2, 3, 4, 5, 10], .thread, .thread, .thread,
    .output 5 [6, 7, 8, 9, 6, 7, 8, 10], .output 1 [0, 10]]

theorem reached_twoLogs {last : Logger}
    (runs : run (step 4) (elogAsyncInit 8) twoLogs = some last) :
    Reached 8 4 last := by
  have starts : Reached 8 4 (elogAsyncInit 8) := .start rfl
  have valid : ∀ label ∈ twoLogs, ∀ logger : Logger, label.Valid := by
    simp [twoLogs, Label.Valid]
  exact starts.append_run (stepsMeet_of_forall valid _) runs

theorem written_in_order_twoLogs : ∃ logger : Logger,
    logger.written = [.direct [0, 10]] ∧ logger.stage = .writing [1, 2, 3, 4] ∧
      drained logger.written ++ logger.stage.taken ++
        queued logger.ring.logBuf logger.ring.readIndex
          (elogAsyncGetBufUsed logger.ring) =
        [1, 2, 3, 4, 5, 10, 6, 7, 8, 9, 6, 7] := by
  have cut : ((run (step 4) (elogAsyncInit 8) twoLogs).any fun logger =>
      logger.written = [.direct [0, 10]] ∧
        logger.stage = .writing [1, 2, 3, 4] ∧
          logger.accepted = [1, 2, 3, 4, 5, 10, 6, 7, 8, 9, 6, 7]) = true := by
    decide +kernel
  obtain ⟨logger, runs, checked⟩ := (Option.any_eq_true _ _).1 cut
  obtain ⟨direct, taken, accepted⟩ := of_decide_eq_true checked
  have order :=
    (reached_twoLogs runs).written_in_order (by decide) (by decide)
  exact ⟨logger, direct, taken, order.1.trans accepted⟩

theorem exists_written_twoLogs : ∃ (logger : Logger) (count : Nat)
    (last : Logger),
    run (step 4) logger
        (.output 4 [11, 10] :: List.replicate count .thread) = some last ∧
      drained last.written = logger.accepted ++
        [11, 10].take (asyncGetBufSpace logger.ring) := by
  have cut : ((run (step 4) (elogAsyncInit 8) twoLogs).any fun logger =>
      logger.threadRunning ∧ logger.isEnabled) = true := by
    decide +kernel
  obtain ⟨logger, runs, checked⟩ := (Option.any_eq_true _ _).1 cut
  obtain ⟨running, enabled⟩ := of_decide_eq_true checked
  exact ⟨logger, (reached_twoLogs runs).exists_written (by decide) (by decide)
    running enabled (Nat.le_refl 4) (by decide)⟩

end System

end ElogAsync

end MbedtlsKcp
