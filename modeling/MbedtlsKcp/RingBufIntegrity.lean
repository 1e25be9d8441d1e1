import MbedtlsKcp.FallibleSteps
import MbedtlsKcp.RingBufChannel
import MbedtlsKcp.TransitionRuns

/-!
# The live window of a media channel is intact

The byte ring is filled in laps.  The frames of the current lap lie behind the
write position one after the other, and what is left of the previous lap lies
ahead of it, at least `uiLeftLen` bytes away.  Making room keeps this picture
as long as the eviction loops find enough bytes before they reach
`uiCurIndex`; they do not check that they stop there.
-/

namespace MbedtlsKcp

namespace RingBufChannel

open CyclicWindows FallibleSteps TransitionRuns

/-- Slot `i` describes the frame of the call that filled it, and the byte ring
still holds that frame. -/
structure Stored (channel : Channel) (i : Nat) (call : FillCall) : Prop where
  filled : channel.filledBy i = some call
  inside : (channel.ring.index i).offset + (channel.ring.index i).len ≤
    channel.ring.uiMaxLen
  len : (channel.ring.index i).len = call.uiDataLen
  bytes : ∀ k < call.uiDataLen,
    channel.ring.pRingBuf ((channel.ring.index i).offset + k) = call.pData k
  frameType : (channel.ring.index i).frameType = call.frameType
  pts : (channel.ring.index i).pts = call.pts
  wTime : (channel.ring.index i).wTime = call.wTime
  frameIndex : (channel.ring.index i).frameIndex = call.frameIndex

/-- Every slot of the live window still describes an intact frame. -/
def WindowIntact (channel : Channel) : Prop :=
  ∀ i ∈ liveWindow channel.ring, ∃ call, Stored channel i call

/-- The bytes of the frames in some slots. -/
def lengthSum (index : Nat → Index) (slots : List Nat) : Nat :=
  (slots.map fun i => (index i).len).sum

@[simp]
theorem lengthSum_nil (index : Nat → Index) : lengthSum index [] = 0 :=
  rfl

@[simp]
theorem lengthSum_cons (index : Nat → Index) (i : Nat) (slots : List Nat) :
    lengthSum index (i :: slots) = (index i).len + lengthSum index slots := by
  simp [lengthSum]

/-- The eviction loop finds enough bytes before it reaches `uiCurIndex`: a fill
that starts again at the beginning in the frames from `uiHeadIndex` on, any
other fill of a full ring in `uiLeftLen` and the live window, unless a frame of
the window lies at the beginning of the buffer. -/
def EvictionSuffices (nChannel : Fin MAX_CHANNEL_NUM) (channel : Channel)
    (call : FillCall) : Prop :=
  if channelLen nChannel - channel.ring.uiCurPos < call.uiDataLen then
    call.uiDataLen ≤ lengthSum channel.ring.index
      (window MAX_INDEX channel.ring.uiHeadIndex channel.ring.uiCurIndex)
  else
    channel.ring.nIsFull = true →
      call.uiDataLen ≤ channel.ring.uiLeftLen +
        lengthSum channel.ring.index (liveWindow channel.ring) ∨
      ∃ i ∈ liveWindow channel.ring, (channel.ring.index i).offset = 0

instance (nChannel : Fin MAX_CHANNEL_NUM) (channel : Channel)
    (call : FillCall) : Decidable (EvictionSuffices nChannel channel call) :=
  inferInstanceAs (Decidable (ite _ _ _))

section Eviction

variable {index : Nat → Index} {uiDataLen capacity : Nat}

theorem evictedLength_mod {uiLeftLen i : Nat}
    (short : ∀ i, (index i).len ≤ capacity) (bounded : capacity < 2 ^ 31)
    (wanted : uiDataLen ≤ capacity) (runs : uiLeftLen < uiDataLen) :
    (uiLeftLen + (index i).len) % 2 ^ 32 = uiLeftLen + (index i).len := by
  have := short i
  apply Nat.mod_eq_of_lt
  omega

/-- The eviction of a wrapping fill removes a prefix of the frames from the
head index on, and its result is their total length. -/
theorem evictFromHead_eq {uiLeftLen first last rounds : Nat}
    (short : ∀ i, (index i).len ≤ capacity) (bounded : capacity < 2 ^ 31)
    (wanted : uiDataLen ≤ capacity) (firstBounded : first < MAX_INDEX)
    (lastBounded : last < MAX_INDEX)
    (time : gap MAX_INDEX first last < rounds)
    (enough : uiDataLen ≤
      uiLeftLen + lengthSum index (window MAX_INDEX first last)) :
    ∃ oldest evicted, oldest < MAX_INDEX ∧
      window MAX_INDEX first last = evicted ++ window MAX_INDEX oldest last ∧
      evictFromHead index uiDataLen rounds uiLeftLen first =
        .ok (uiLeftLen + lengthSum index evicted, oldest) ∧
      uiDataLen ≤ uiLeftLen + lengthSum index evicted := by
  induction rounds generalizing uiLeftLen first with
  | zero => omega
  | succ rounds ih =>
      by_cases runs : uiLeftLen < uiDataLen
      · have different : first ≠ last := by
          rintro rfl
          simp only [window_self, lengthSum_nil] at enough
          omega
        have split := window_cons firstBounded lastBounded different
        have steps := gap_next_first firstBounded lastBounded different
        rw [split, lengthSum_cons] at enough
        obtain ⟨oldest, evicted, oldestBounded, splits, result, freed⟩ :=
          ih (next_lt firstBounded) (by omega)
            (show _ ≤ (uiLeftLen + (index first).len) + _ by omega)
        refine ⟨oldest, first :: evicted, oldestBounded, ?_, ?_, ?_⟩
        · rw [split, splits, List.cons_append]
        · rw [evictFromHead, if_pos runs,
            evictedLength_mod short bounded wanted runs, ringBufGetNextIndex,
            result, lengthSum_cons, Nat.add_assoc]
        · rw [lengthSum_cons]
          omega
      · refine ⟨first, [], firstBounded, rfl, ?_, ?_⟩
        · rw [evictFromHead, if_neg runs]
          rfl
        · rw [lengthSum_nil]
          omega

/-- The eviction of any other fill removes a prefix of the live window, up to
the frame at the beginning of the buffer at most. -/
theorem evictOldest_eq {uiLeftLen toEnd first last rounds : Nat}
    (short : ∀ i, (index i).len ≤ capacity) (bounded : capacity < 2 ^ 31)
    (wanted : uiDataLen ≤ capacity) (firstBounded : first < MAX_INDEX)
    (lastBounded : last < MAX_INDEX)
    (time : gap MAX_INDEX first last < rounds)
    (enough : uiDataLen ≤
        uiLeftLen + lengthSum index (window MAX_INDEX first last) ∨
      ∃ i ∈ window MAX_INDEX first last, (index i).offset = 0) :
    ∃ oldest evicted left, oldest < MAX_INDEX ∧
      window MAX_INDEX first last = evicted ++ window MAX_INDEX oldest last ∧
      evictOldest index uiDataLen toEnd rounds uiLeftLen first =
        .ok (left, oldest) ∧
      (left = uiLeftLen + lengthSum index evicted ∧ uiDataLen ≤ left ∨
        left = toEnd ∧ ∃ i rest, (index i).offset = 0 ∧
          window MAX_INDEX oldest last = i :: rest) := by
  induction rounds generalizing uiLeftLen first with
  | zero => omega
  | succ rounds ih =>
      by_cases runs : uiLeftLen < uiDataLen
      · have different : first ≠ last := by
          rintro rfl
          rcases enough with bytes | ⟨i, member, _⟩
          · simp only [window_self, lengthSum_nil] at bytes
            omega
          · simp at member
        have split := window_cons firstBounded lastBounded different
        have steps := gap_next_first firstBounded lastBounded different
        by_cases atHead : (index first).offset = 0
        · refine ⟨first, [], toEnd, firstBounded, rfl, ?_,
            .inr ⟨rfl, first, _, atHead, split⟩⟩
          rw [evictOldest, if_pos runs, if_pos atHead]
        · rw [split, lengthSum_cons] at enough
          have enoughLeft : uiDataLen ≤ uiLeftLen + (index first).len +
                lengthSum index
                  (window MAX_INDEX (next MAX_INDEX first) last) ∨
              ∃ i ∈ window MAX_INDEX (next MAX_INDEX first) last,
                (index i).offset = 0 := by
            rcases enough with bytes | ⟨i, member, zero⟩
            · left
              omega
            · rcases List.mem_cons.mp member with rfl | member
              · exact absurd zero atHead
              · exact .inr ⟨i, member, zero⟩
          obtain ⟨oldest, evicted, left, oldestBounded, splits, result,
            outcome⟩ := ih (next_lt firstBounded) (by omega) enoughLeft
          refine ⟨oldest, first :: evicted, left, oldestBounded, ?_, ?_, ?_⟩
          · rw [split, splits, List.cons_append]
          · rw [evictOldest, if_pos runs, if_neg atHead,
              evictedLength_mod short bounded wanted runs, ringBufGetNextIndex,
              result]
          · rcases outcome with ⟨freed, fits⟩ | found
            · left
              exact ⟨by rw [freed, lengthSum_cons, Nat.add_assoc], fits⟩
            · exact .inr found
      · refine ⟨first, [], uiLeftLen, firstBounded, rfl, ?_,
          .inl ⟨rfl, by omega⟩⟩
        rw [evictOldest, if_neg runs]

end Eviction

/-- The frames in `slots` lie one after the other from `start` on. -/
def Laid (index : Nat → Index) : Nat → List Nat → Prop
  | _, [] => True
  | start, i :: slots =>
      (index i).offset = start ∧ Laid index (start + (index i).len) slots

section Laid

variable {index : Nat → Index} {start : Nat} {slots front : List Nat}

theorem laid_append : Laid index start (front ++ slots) ↔
    Laid index start front ∧
      Laid index (start + lengthSum index front) slots := by
  induction front generalizing start with
  | nil => simp [Laid]
  | cons i front ih =>
      rw [List.cons_append, Laid, Laid, ih, lengthSum_cons, and_assoc,
        Nat.add_assoc]

theorem lengthSum_append : lengthSum index (front ++ slots) =
    lengthSum index front + lengthSum index slots := by
  simp [lengthSum]

/-- Frames that are laid out lie between the start and the end. -/
theorem Laid.bounds (laid : Laid index start slots) {i : Nat}
    (member : i ∈ slots) : start ≤ (index i).offset ∧
      (index i).offset + (index i).len ≤ start + lengthSum index slots := by
  induction slots generalizing start with
  | nil => simp at member
  | cons j slots ih =>
      obtain ⟨first, rest⟩ := laid
      rw [lengthSum_cons]
      rcases List.mem_cons.mp member with rfl | later
      · omega
      · have := ih rest later
        omega

theorem Laid.congr {other : Nat → Index} (laid : Laid index start slots)
    (same : ∀ i ∈ slots, other i = index i) : Laid other start slots := by
  induction slots generalizing start with
  | nil => trivial
  | cons i slots ih =>
      rw [Laid, same i (by simp)]
      exact ⟨laid.1, ih laid.2 fun j member => same j (by simp [member])⟩

theorem lengthSum_congr {other : Nat → Index}
    (same : ∀ i ∈ slots, other i = index i) :
    lengthSum other slots = lengthSum index slots := by
  rw [lengthSum, lengthSum, List.map_congr_left fun i member => by
    rw [same i member]]

end Laid

/-- The picture of the laps, with `left` free bytes counted ahead of the write
position: the live window is the rest of the previous lap followed by frames
behind the write position. -/
structure Laps (nChannel : Fin MAX_CHANNEL_NUM) (channel : Channel)
    (left : Nat) : Prop where
  init : channel.ring.nIsInit = true
  maxLen : channel.ring.uiMaxLen = channelLen nChannel
  curPos : channel.ring.uiCurPos ≤ channelLen nChannel
  headBounded : channel.ring.uiHeadIndex < MAX_INDEX
  curBounded : channel.ring.uiCurIndex < MAX_INDEX
  oldestBounded : channel.ring.uiOldestIndex < MAX_INDEX
  short : ∀ i, (channel.ring.index i).len ≤ channelLen nChannel
  lap : ∃ start, Laid channel.ring.index start
      (window MAX_INDEX channel.ring.uiHeadIndex channel.ring.uiCurIndex) ∧
    start + lengthSum channel.ring.index
      (window MAX_INDEX channel.ring.uiHeadIndex channel.ring.uiCurIndex) =
        channel.ring.uiCurPos
  lapIntact : ∀ i ∈ window MAX_INDEX channel.ring.uiHeadIndex
    channel.ring.uiCurIndex, ∃ call, Stored channel i call
  parts : ∃ ahead behind start, liveWindow channel.ring = ahead ++ behind ∧
    Laid channel.ring.index start ahead ∧
    (ahead ≠ [] → channel.ring.nIsFull = true ∧
      channel.ring.uiCurPos + left ≤ start) ∧
    ∀ i ∈ behind, (channel.ring.index i).offset +
      (channel.ring.index i).len ≤ channel.ring.uiCurPos
  intact : WindowIntact channel

section Fill

variable {nChannel : Fin MAX_CHANNEL_NUM} {channel : Channel}

theorem channelLen_lt (nChannel : Fin MAX_CHANNEL_NUM) :
    channelLen nChannel < 2 ^ 31 := by
  unfold channelLen MAX_MAIN_RINGBUF_LEN MAX_SUB_RINGBUF_LEN
  split_ifs <;> omega

theorem laps_init (nChannel : Fin MAX_CHANNEL_NUM)
    (malloced : Nat → UInt8) :
    Laps nChannel (channelInit nChannel malloced)
      (channelInit nChannel malloced).ring.uiLeftLen where
  init := rfl
  maxLen := rfl
  curPos := Nat.zero_le _
  headBounded := show 0 < MAX_INDEX by decide
  curBounded := show 0 < MAX_INDEX by decide
  oldestBounded := show 0 < MAX_INDEX by decide
  short := fun _ => Nat.zero_le _
  lap := ⟨0, trivial, rfl⟩
  lapIntact := by simp [channelInit, ringBufInit]
  parts := ⟨[], [], 0, by simp [liveWindow, channelInit, ringBufInit],
    trivial, by simp, by simp⟩
  intact := by simp [WindowIntact, liveWindow, channelInit, ringBufInit]

/-- A walk over the table takes fewer rounds than the loops are given. -/
theorem gap_lt_evictionRounds {first last uiDataLen : Nat}
    (firstBounded : first < MAX_INDEX) (lastBounded : last < MAX_INDEX) :
    gap MAX_INDEX first last < evictionRounds uiDataLen := by
  have near := gap_lt firstBounded lastBounded
  rw [evictionRounds, Nat.mul_succ]
  omega

/-- Starting again at the beginning turns the current lap into the rest of the
previous one. -/
theorem coverData_laps_restart {left uiDataLen : Nat}
    (laps : Laps nChannel channel left)
    (wanted : uiDataLen ≤ channelLen nChannel)
    (restarts : channelLen nChannel - channel.ring.uiCurPos < uiDataLen)
    (enough : uiDataLen ≤ lengthSum channel.ring.index
      (window MAX_INDEX channel.ring.uiHeadIndex channel.ring.uiCurIndex)) :
    ∃ ring freed, coverData nChannel { channel.ring with nIsFull := true }
        uiDataLen = .ok (ring, freed) ∧
      ring.uiCurIndex = channel.ring.uiCurIndex ∧
      Laps nChannel { channel with ring := ring } freed ∧
      ring.uiCurPos + uiDataLen ≤ channelLen nChannel ∧
      uiDataLen ≤ freed := by
  obtain ⟨oldest, evicted, oldestBounded, splits, result, fits⟩ :=
    evictFromHead_eq laps.short (channelLen_lt nChannel) wanted
      laps.headBounded laps.curBounded
      (gap_lt_evictionRounds laps.headBounded laps.curBounded)
      (by rwa [Nat.zero_add])
  rw [Nat.zero_add] at result fits
  obtain ⟨start, laid, _⟩ := laps.lap
  rw [splits, laid_append] at laid
  refine ⟨{ channel.ring with
      nIsFull := true
      uiCurPos := 0
      uiOldestIndex := oldest
      uiHeadIndex := channel.ring.uiCurIndex },
    lengthSum channel.ring.index evicted, ?_, rfl, ?_, ?_, fits⟩
  · unfold coverData
    rw [if_pos restarts, result]
    rfl
  · have inLap : ∀ i ∈ window MAX_INDEX oldest channel.ring.uiCurIndex,
        ∃ call, Stored channel i call := by
      intro i member
      apply laps.lapIntact
      rw [splits]
      exact List.mem_append_right _ member
    have kept : ∀ i ∈ window MAX_INDEX oldest channel.ring.uiCurIndex,
        ∃ call, Stored { channel with ring := { channel.ring with
          nIsFull := true
          uiCurPos := 0
          uiOldestIndex := oldest
          uiHeadIndex := channel.ring.uiCurIndex } } i call := by
      intro i member
      obtain ⟨call, stored⟩ := inLap i member
      exact ⟨call, { stored with }⟩
    exact
      { init := laps.init
        maxLen := laps.maxLen
        curPos := Nat.zero_le _
        headBounded := laps.curBounded
        curBounded := laps.curBounded
        oldestBounded := oldestBounded
        short := laps.short
        lap := ⟨0, by simp [Laid], by simp⟩
        lapIntact := by simp
        parts := ⟨_, [], _, (List.append_nil _).symm, laid.2,
          fun _ => ⟨rfl, by simp⟩, by simp⟩
        intact := kept }
  · simpa using wanted

/-- Going on behind the last frame of a full ring only shortens the live
window. -/
theorem coverData_laps_continue {uiDataLen : Nat}
    (laps : Laps nChannel channel channel.ring.uiLeftLen)
    (written : 0 < channel.ring.uiCurPos)
    (wanted : uiDataLen ≤ channelLen nChannel)
    (continues : ¬ channelLen nChannel - channel.ring.uiCurPos < uiDataLen)
    (enough : uiDataLen ≤ channel.ring.uiLeftLen +
        lengthSum channel.ring.index (liveWindow channel.ring) ∨
      ∃ i ∈ liveWindow channel.ring, (channel.ring.index i).offset = 0) :
    ∃ ring freed, coverData nChannel channel.ring uiDataLen =
        .ok (ring, freed) ∧
      ring.uiCurIndex = channel.ring.uiCurIndex ∧
      Laps nChannel { channel with ring := ring } freed ∧
      ring.uiCurPos + uiDataLen ≤ channelLen nChannel ∧
      uiDataLen ≤ freed := by
  obtain ⟨oldest, evicted, freed, oldestBounded, splits, result, outcome⟩ :=
    evictOldest_eq laps.short (channelLen_lt nChannel) wanted
      laps.oldestBounded laps.curBounded
      (gap_lt_evictionRounds laps.oldestBounded laps.curBounded)
      enough
  refine ⟨{ channel.ring with uiOldestIndex := oldest }, freed, ?_, rfl, ?_,
    ?_, ?_⟩
  · unfold coverData
    rw [if_neg continues, result]
    rfl
  · have parts : ∃ ahead behind start,
        window MAX_INDEX oldest channel.ring.uiCurIndex = ahead ++ behind ∧
        Laid channel.ring.index start ahead ∧
        (ahead ≠ [] → channel.ring.nIsFull = true ∧
          channel.ring.uiCurPos + freed ≤ start) ∧
        ∀ i ∈ behind, (channel.ring.index i).offset +
          (channel.ring.index i).len ≤ channel.ring.uiCurPos := by
      obtain ⟨ahead, behind, start, whole, laid, away, ended⟩ := laps.parts
      rw [liveWindow, splits, List.append_eq_append_iff] at whole
      rcases whole with ⟨rest, rfl, remains⟩ | ⟨gone, rfl, rfl⟩
      · -- some frames of the previous lap are left
        rw [laid_append] at laid
        refine ⟨rest, behind, _, remains, laid.2, ?_, ended⟩
        intro nonempty
        obtain ⟨full, apart⟩ := away (by simp [nonempty])
        refine ⟨full, ?_⟩
        rcases outcome with ⟨isFreed, _⟩ | ⟨_, i, others, zero, starts⟩
        · omega
        · obtain ⟨j, rest, rfl⟩ := List.exists_cons_of_ne_nil nonempty
          rw [remains, List.cons_append, List.cons.injEq] at starts
          have position := laid.2.1
          rw [starts.1, zero] at position
          omega
      · refine ⟨[], _, 0, rfl, trivial, by simp, ?_⟩
        intro i member
        exact ended i (List.mem_append_right _ member)
    have kept : ∀ i ∈ window MAX_INDEX oldest channel.ring.uiCurIndex,
        ∃ call, Stored { channel with ring :=
          { channel.ring with uiOldestIndex := oldest } } i call := by
      intro i member
      obtain ⟨call, stored⟩ := laps.intact i (by
        rw [liveWindow, splits]
        exact List.mem_append_right _ member)
      exact ⟨call, { stored with }⟩
    have lapKept : ∀ i ∈ window MAX_INDEX channel.ring.uiHeadIndex
        channel.ring.uiCurIndex, ∃ call, Stored { channel with ring :=
          { channel.ring with uiOldestIndex := oldest } } i call := by
      intro i member
      obtain ⟨call, stored⟩ := laps.lapIntact i member
      exact ⟨call, { stored with }⟩
    exact { laps with
      oldestBounded := oldestBounded
      lapIntact := lapKept
      parts := parts
      intact := kept }
  · exact (Nat.le_sub_iff_add_le' laps.curPos).mp (Nat.not_lt.mp continues)
  · rcases outcome with ⟨_, fits⟩ | ⟨isToEnd, _⟩
    · exact fits
    · rw [isToEnd, laps.maxLen]
      exact Nat.not_lt.mp continues

/-- Making room keeps the picture and leaves room for the frame. -/
theorem makeRoom_laps {call : FillCall}
    (laps : Laps nChannel channel channel.ring.uiLeftLen)
    (written : channel.ring.nIsFull = true → 0 < channel.ring.uiCurPos)
    (wanted : call.uiDataLen ≤ channelLen nChannel)
    (evicts : EvictionSuffices nChannel channel call) :
    ∃ ring freed, makeRoom nChannel channel.ring call.uiDataLen =
        .ok (ring, freed) ∧
      ring.uiCurIndex = channel.ring.uiCurIndex ∧
      Laps nChannel { channel with ring := ring } freed ∧
      ring.uiCurPos + call.uiDataLen ≤ channelLen nChannel ∧
      call.uiDataLen ≤ freed := by
  have room := laps.curPos
  unfold EvictionSuffices at evicts
  by_cases restarts :
      channelLen nChannel - channel.ring.uiCurPos < call.uiDataLen
  · rw [if_pos restarts] at evicts
    have covers : makeRoom nChannel channel.ring call.uiDataLen =
        coverData nChannel { channel.ring with nIsFull := true }
          call.uiDataLen := by
      unfold makeRoom
      cases full : channel.ring.nIsFull with
      | true => rw [if_pos rfl, ← full]
      | false => rw [if_neg (by decide), if_pos restarts]
    rw [covers]
    exact coverData_laps_restart laps wanted restarts evicts
  · rw [if_neg restarts] at evicts
    cases full : channel.ring.nIsFull with
    | true =>
        have covers : makeRoom nChannel channel.ring call.uiDataLen =
            coverData nChannel channel.ring call.uiDataLen := by
          unfold makeRoom
          rw [if_pos full]
        rw [covers]
        exact coverData_laps_continue laps (written full) wanted restarts
          (evicts full)
    | false =>
        refine ⟨channel.ring, _, ?_, rfl, ?_, by omega, Nat.not_lt.mp restarts⟩
        · unfold makeRoom
          rw [if_neg (by simp [full]), if_neg restarts]
        · obtain ⟨ahead, behind, start, whole, _, away, ended⟩ := laps.parts
          have noneAhead : ahead = [] := by
            by_contra nonempty
            rw [(away nonempty).1] at full
            cases full
          subst noneAhead
          exact { laps with
            parts := ⟨[], behind, 0, whole, trivial, by simp, ended⟩ }

/-- The channel after the frame of `call` is stored. -/
def storeChannel (channel : Channel) (call : FillCall) (freed : Nat) :
    Channel where
  ring := storeFrame channel.ring call freed
  filledBy := Function.update channel.filledBy channel.ring.uiCurIndex
    (some call)

theorem memcpy_of_apart {buffer source : Nat → UInt8}
    {position count i : Nat} (apart : i < position ∨ position + count ≤ i) :
    memcpy buffer position count source i = buffer i := by
  unfold memcpy
  rw [if_neg (by omega)]

/-- Storing a frame elsewhere keeps a stored frame. -/
theorem Stored.storeChannel {channel : Channel} {call other : FillCall}
    {freed i : Nat} (stored : Stored channel i other)
    (different : i ≠ channel.ring.uiCurIndex)
    (apart : (channel.ring.index i).offset + (channel.ring.index i).len ≤
        channel.ring.uiCurPos ∨
      channel.ring.uiCurPos + call.uiDataLen ≤
        (channel.ring.index i).offset) :
    Stored (storeChannel channel call freed) i other := by
  have slot : (RingBufChannel.storeChannel channel call freed).ring.index i =
      channel.ring.index i :=
    Function.update_of_ne different _ _
  constructor
  · exact (Function.update_of_ne different _ _).trans stored.filled
  · rw [slot]
    exact stored.inside
  · rw [slot]
    exact stored.len
  · intro k inside
    rw [slot, ← stored.bytes k inside]
    apply memcpy_of_apart
    have := stored.len
    omega
  · rw [slot]
    exact stored.frameType
  · rw [slot]
    exact stored.pts
  · rw [slot]
    exact stored.wTime
  · rw [slot]
    exact stored.frameIndex

/-- The slot that was just filled is intact. -/
theorem stored_storeChannel {channel : Channel} {call : FillCall}
    {freed : Nat} (fits : channel.ring.uiCurPos + call.uiDataLen ≤
      channel.ring.uiMaxLen) :
    Stored (storeChannel channel call freed) channel.ring.uiCurIndex call := by
  have slot : (storeChannel channel call freed).ring.index
      channel.ring.uiCurIndex =
        { frameType := call.frameType
          frameIndex := call.frameIndex
          len := call.uiDataLen
          offset := channel.ring.uiCurPos
          pts := call.pts
          wTime := call.wTime } :=
    Function.update_self ..
  constructor
  · exact Function.update_self ..
  · rw [slot]
    exact fits
  · rw [slot]
  · intro k inside
    rw [slot]
    change memcpy _ _ _ _ (channel.ring.uiCurPos + k) = _
    unfold memcpy
    rw [if_pos (by omega), Nat.add_sub_cancel_left]
  · rw [slot]
  · rw [slot]
  · rw [slot]
  · rw [slot]

/-- Storing a frame for which there is room keeps the picture. -/
theorem storeChannel_laps {call : FillCall} {freed : Nat}
    (laps : Laps nChannel channel freed)
    (fits : channel.ring.uiCurPos + call.uiDataLen ≤ channelLen nChannel)
    (free : call.uiDataLen ≤ freed) :
    Laps nChannel (storeChannel channel call freed)
      (freed - call.uiDataLen) := by
  obtain ⟨start, laid, ends⟩ := laps.lap
  obtain ⟨ahead, behind, aheadStart, whole, aheadLaid, away, ended⟩ :=
    laps.parts
  have stays : ∀ i ≠ channel.ring.uiCurIndex,
      (storeChannel channel call freed).ring.index i =
        channel.ring.index i :=
    fun i different => Function.update_of_ne different _ _
  have filled : (storeChannel channel call freed).ring.index
      channel.ring.uiCurIndex = _ := Function.update_self ..
  have stored : Stored (storeChannel channel call freed)
      channel.ring.uiCurIndex call :=
    stored_storeChannel (by rwa [laps.maxLen])
  have headMisses : ∀ i ∈ window MAX_INDEX channel.ring.uiHeadIndex
      channel.ring.uiCurIndex, i ≠ channel.ring.uiCurIndex := by
    rintro i member rfl
    exact last_not_mem_window laps.headBounded member
  have oldestMisses : ∀ i ∈ liveWindow channel.ring,
      i ≠ channel.ring.uiCurIndex := by
    rintro i member rfl
    exact last_not_mem_window laps.oldestBounded member
  have lapIntact : ∀ i ∈ window MAX_INDEX channel.ring.uiHeadIndex
      channel.ring.uiCurIndex,
        ∃ call', Stored (storeChannel channel call freed) i call' := by
    intro i member
    obtain ⟨call', kept⟩ := laps.lapIntact i member
    have bounds := laid.bounds member
    exact ⟨call', kept.storeChannel (headMisses i member)
      (.inl (by omega))⟩
  have windowIntact : ∀ i ∈ liveWindow channel.ring,
      ∃ call', Stored (storeChannel channel call freed) i call' := by
    intro i member
    obtain ⟨call', kept⟩ := laps.intact i member
    refine ⟨call', kept.storeChannel (oldestMisses i member) ?_⟩
    rw [whole, List.mem_append] at member
    rcases member with before | after
    · have bounds := aheadLaid.bounds before
      have apart := (away (List.ne_nil_of_mem before)).2
      right
      omega
    · exact .inl (ended i after)
  have headNext := window_next_last laps.headBounded laps.curBounded
  have oldestNext := window_next_last laps.oldestBounded laps.curBounded
  constructor
  · exact laps.init
  · exact laps.maxLen
  · exact fits
  · exact laps.headBounded
  · exact next_lt laps.curBounded
  · exact laps.oldestBounded
  · intro i
    by_cases same : i = channel.ring.uiCurIndex
    · rw [same, filled]
      simp only
      omega
    · rw [stays i same]
      exact laps.short i
  · change ∃ start, Laid _ start (window MAX_INDEX channel.ring.uiHeadIndex
        (next MAX_INDEX channel.ring.uiCurIndex)) ∧
      start + lengthSum _ (window MAX_INDEX channel.ring.uiHeadIndex
        (next MAX_INDEX channel.ring.uiCurIndex)) =
          channel.ring.uiCurPos + call.uiDataLen
    rw [headNext]
    split_ifs with collapses
    · exact ⟨channel.ring.uiCurPos + call.uiDataLen, trivial, rfl⟩
    · have same : ∀ i ∈ window MAX_INDEX channel.ring.uiHeadIndex
          channel.ring.uiCurIndex,
            (storeChannel channel call freed).ring.index i =
              channel.ring.index i :=
        fun i member => stays i (headMisses i member)
      refine ⟨start, laid_append.mpr ⟨laid.congr same, ?_⟩, ?_⟩
      · rw [lengthSum_congr same, ends, Laid, filled]
        exact ⟨rfl, trivial⟩
      · rw [lengthSum_append, lengthSum_congr same, lengthSum_cons,
          lengthSum_nil, filled]
        simp only
        omega
  · intro i member
    change i ∈ window MAX_INDEX channel.ring.uiHeadIndex
      (next MAX_INDEX channel.ring.uiCurIndex) at member
    rw [headNext] at member
    split_ifs at member
    · simp at member
    · rcases List.mem_append.mp member with inLap | isNew
      · exact lapIntact i inLap
      · obtain rfl := List.mem_singleton.mp isNew
        exact ⟨call, stored⟩
  · change ∃ ahead behind start, window MAX_INDEX channel.ring.uiOldestIndex
      (next MAX_INDEX channel.ring.uiCurIndex) = ahead ++ behind ∧ _
    rw [oldestNext]
    split_ifs with collapses
    · exact ⟨[], [], 0, rfl, trivial, by simp, by simp⟩
    · rw [liveWindow] at whole
      refine ⟨ahead, behind ++ [channel.ring.uiCurIndex], aheadStart, ?_, ?_,
        ?_, ?_⟩
      · rw [whole, List.append_assoc]
      · exact aheadLaid.congr fun i member => stays i
          (oldestMisses i (by
            rw [liveWindow, whole]
            exact List.mem_append_left _ member))
      · intro nonempty
        obtain ⟨full, apart⟩ := away nonempty
        refine ⟨full, ?_⟩
        change channel.ring.uiCurPos + call.uiDataLen +
          (freed - call.uiDataLen) ≤ aheadStart
        omega
      · intro i member
        change _ ≤ channel.ring.uiCurPos + call.uiDataLen
        rcases List.mem_append.mp member with old | isNew
        · rw [stays i (oldestMisses i (by
            rw [liveWindow, whole]
            exact List.mem_append_right _ old))]
          have := ended i old
          omega
        · obtain rfl := List.mem_singleton.mp isNew
          simp only [filled, Nat.le_refl]
  · intro i member
    change i ∈ window MAX_INDEX channel.ring.uiOldestIndex
      (next MAX_INDEX channel.ring.uiCurIndex) at member
    rw [oldestNext] at member
    split_ifs at member
    · simp at member
    · rcases List.mem_append.mp member with live | isNew
      · exact windowIntact i live
      · obtain rfl := List.mem_singleton.mp isNew
        exact ⟨call, stored⟩

/-- What holds between calls. -/
structure ChannelInv (nChannel : Fin MAX_CHANNEL_NUM) (channel : Channel) :
    Prop where
  laps : Laps nChannel channel channel.ring.uiLeftLen
  written : channel.ring.nIsFull = true → 0 < channel.ring.uiCurPos

theorem channelInv_init (nChannel : Fin MAX_CHANNEL_NUM)
    (malloced : Nat → UInt8) :
    ChannelInv nChannel (channelInit nChannel malloced) where
  laps := laps_init nChannel malloced
  written := by simp [channelInit, ringBufInit]

/-- Nothing is moved to make room for an empty frame. -/
theorem makeRoom_zero {before ring : RingBuf} {freed : Nat}
    (makes : makeRoom nChannel before 0 = .ok (ring, freed)) :
    ring.uiCurPos = before.uiCurPos ∧ ring.nIsFull = before.nIsFull := by
  unfold makeRoom at makes
  by_cases full : before.nIsFull
  · rw [if_pos full, coverData, if_neg (Nat.not_lt_zero _)] at makes
    obtain ⟨⟨left, oldest⟩, _, rest⟩ := bind_eq_ok_iff.mp makes
    obtain ⟨rfl, _⟩ := Prod.mk.inj (pure_eq_ok_iff.mp rest)
    exact ⟨rfl, rfl⟩
  · rw [if_neg full, if_neg (Nat.not_lt_zero _)] at makes
    obtain ⟨rfl, _⟩ := Prod.mk.inj (Except.ok.inj makes)
    exact ⟨rfl, rfl⟩

theorem fillStep_inv {call : FillCall} (inv : ChannelInv nChannel channel)
    (wanted : call.uiDataLen ≤ channelLen nChannel)
    (evicts : EvictionSuffices nChannel channel call) :
    ∃ after, fillStep nChannel channel call = some after ∧
      ChannelInv nChannel after := by
  obtain ⟨ring, freed, makes, sameSlot, laps, fits, free⟩ :=
    makeRoom_laps inv.laps inv.written wanted evicts
  refine ⟨storeChannel { channel with ring := ring } call freed, ?_,
    storeChannel_laps laps fits free, ?_⟩
  · have returns : ringBufFillBuf nChannel channel.ring call =
        .ok (storeFrame ring call freed, 0) := by
      unfold ringBufFillBuf
      rw [if_pos inv.laps.init, makes]
      simp only [bind, Except.bind]
      rw [if_pos fits]
      rfl
    rw [fillStep, returns]
    simp only [storeChannel, sameSlot, if_pos]
  · intro full
    change 0 < ring.uiCurPos + call.uiDataLen
    by_cases empty : call.uiDataLen = 0
    · rw [empty] at makes ⊢
      obtain ⟨position, flag⟩ := makeRoom_zero makes
      rw [position]
      exact inv.written (flag.symm.trans full)
    · omega

/-- While every eviction finds enough bytes in front of `uiCurIndex`, every
sequence of fills returns and leaves the live window of the channel intact. -/
theorem windowIntact_of_evictionSuffices (nChannel : Fin MAX_CHANNEL_NUM)
    (malloced : Nat → UInt8) (calls : List FillCall)
    (valid : ∀ call ∈ calls,
      0 < call.uiDataLen ∧ call.uiDataLen ≤ channelLen nChannel)
    (evicts : StepsMeet (fillStep nChannel) (EvictionSuffices nChannel)
      (channelInit nChannel malloced) calls) :
    ∃ channel, run (fillStep nChannel) (channelInit nChannel malloced) calls =
        some channel ∧ WindowIntact channel := by
  have progress : ∀ channel, ∀ call ∈ calls, ChannelInv nChannel channel →
      EvictionSuffices nChannel channel call →
        ∃ after, fillStep nChannel channel call = some after ∧
          ChannelInv nChannel after := by
    intro channel call member inv evictsNow
    exact fillStep_inv inv (valid call member).2 evictsNow
  obtain ⟨last, runs, inv⟩ := exists_run_of_stepsMeet progress
    (channelInv_init nChannel malloced) evicts
  exact ⟨last, runs, inv.laps.intact⟩

/-- The first channel of the small capacity. -/
def subChannel : Fin MAX_CHANNEL_NUM :=
  ⟨1, by decide⟩

/-- A call that stores `uiDataLen` bytes of one value. -/
def plainFill (uiDataLen : Nat) (value : UInt8) : FillCall :=
  ⟨2, 0, 0, uiDataLen, fun _ => value, 0⟩

/-- Two frames that fit the buffer of a sub channel together. -/
theorem windowIntact_of_two_fills :
    ∃ channel, run (fillStep subChannel) (channelInit subChannel fun _ => 0)
        [plainFill 1000 1, plainFill 2000 2] = some channel ∧
      WindowIntact channel := by
  apply windowIntact_of_evictionSuffices
  · intro call member
    simp only [List.mem_cons, List.not_mem_nil, or_false] at member
    rcases member with rfl | rfl <;> decide
  · have fits : ∀ channel uiDataLen value,
        channel.ring.uiCurPos + uiDataLen ≤ channelLen subChannel →
        channel.ring.nIsFull = false →
        EvictionSuffices subChannel channel (plainFill uiDataLen value) := by
      intro channel uiDataLen value room notFull
      unfold EvictionSuffices
      have fits : ¬ channelLen subChannel - channel.ring.uiCurPos <
          (plainFill uiDataLen value).uiDataLen := by
        simp only [plainFill]
        omega
      rw [if_neg fits, notFull]
      intro full
      cases full
    refine ⟨fits _ _ _ (by decide) rfl, ?_⟩
    intro next steps
    obtain rfl := Option.some.inj steps
    exact ⟨fits _ _ _ (by decide +kernel) (by decide +kernel),
      fun _ _ => trivial⟩

/-- After frames of 150, 140 and 150 KiB in a sub channel the second frame is
still in the live window, but its first byte belongs to the third. -/
theorem not_forall_windowIntact :
    ¬ ∀ (nChannel : Fin MAX_CHANNEL_NUM) (malloced : Nat → UInt8)
      (calls : List FillCall),
      (∀ call ∈ calls,
        0 < call.uiDataLen ∧ call.uiDataLen ≤ channelLen nChannel) →
      ∀ channel, run (fillStep nChannel) (channelInit nChannel malloced)
        calls = some channel → WindowIntact channel := by
  intro claim
  let calls : List FillCall :=
    [plainFill 153600 1, plainFill 143360 2, plainFill 153600 3]
  have overwritten : (run (fillStep subChannel)
      (channelInit subChannel fun _ => 0) calls).any
      (fun channel => decide (1 ∈ liveWindow channel.ring ∧
        (channel.ring.index 1).offset = 0 ∧ channel.ring.pRingBuf 0 = 3 ∧
        (channel.filledBy 1).map (fun call => (call.uiDataLen, call.pData 0)) =
          some (143360, 2))) = true := by
    decide +kernel
  rw [Option.any_eq_true] at overwritten
  obtain ⟨channel, runs, facts⟩ := overwritten
  obtain ⟨live, offset, byte, filler⟩ := of_decide_eq_true facts
  have valid : ∀ call ∈ calls,
      0 < call.uiDataLen ∧ call.uiDataLen ≤ channelLen subChannel := by
    intro call member
    simp only [calls, List.mem_cons, List.not_mem_nil, or_false] at member
    rcases member with rfl | rfl | rfl <;> decide
  obtain ⟨call, stored⟩ := claim subChannel _ calls valid channel runs 1 live
  rw [stored.filled, Option.map_some, Option.some.injEq, Prod.mk.injEq]
    at filler
  have kept := stored.bytes 0 (by omega)
  rw [offset, Nat.add_zero, byte, filler.2] at kept
  exact absurd kept (by decide)

end Fill

end RingBufChannel

end MbedtlsKcp
