import MbedtlsKcp.CommonIkcpSegments
import MbedtlsKcp.SelectiveRepeat

/-!
# The send side as the sender of a selective repeat

The send buffer holds the numbers the sender waits for, and what
`ikcp_send` has accepted is what has been numbered followed by the queue.
Numbering, acknowledgements and timers are steps of the abstract sender, or
none at all.
-/

namespace MbedtlsKcp

namespace CommonIkcp

open ByteBuffers SerialNumbers PacketBuffers SelectiveRepeat Ikcp

/-- A segment of the send buffer: it carries what has its number. -/
structure Outbound (conv : IUINT32) (log : List Piece) (seg : Seg) : Prop where
  conv : seg.conv = conv
  cmd : seg.cmd = ikcpCmdPush
  frg : seg.frg < 256
  len : seg.data.length ≤ intMax
  stands : log[number seg]? = some seg.piece

/-- The send side is in the state `s`; `accepted` is what its user has handed
over. -/
structure Sending (conv : IUINT32) (s : State Piece) (accepted : List UInt8)
    (snd : SendSide) : Prop where
  mss : 0 < snd.mss ∧ snd.mss ≤ intMax
  next : snd.sndNxt.toNat = s.log.length
  sorted : (snd.sndBuf.map number).Pairwise (· < ·)
  buffered : ∀ seg ∈ snd.sndBuf, Outbound conv s.log seg
  waiting : ∀ index, index ∈ s.waiting ↔ index ∈ snd.sndBuf.map number
  queued : ∀ seg ∈ snd.sndQueue, seg.frg < 256 ∧ seg.data.length ≤ intMax
  accounted : accepted =
    s.log.flatMap Prod.snd ++ snd.sndQueue.flatMap Seg.data

theorem Outbound.of_core {conv : IUINT32} {log : List Piece}
    {first second : Seg} (same : core first = core second)
    (outbound : Outbound conv log first) : Outbound conv log second := by
  simp only [core, Seg.mk.injEq] at same
  obtain ⟨sameConv, cmd, frg, -, -, sn, -, -, -, -, -, data⟩ := same
  obtain ⟨hasConv, hasCmd, hasFrg, hasLen, stands⟩ := outbound
  rw [number, Seg.piece, sn, frg, data] at stands
  exact ⟨sameConv ▸ hasConv, cmd ▸ hasCmd, frg ▸ hasFrg, data ▸ hasLen, stands⟩

variable {conv : IUINT32} {s : State Piece} {accepted : List UInt8}
variable {snd after : SendSide}

/-- Only timers, windows and counters of the send side have changed. -/
structure KeepsData (before after : SendSide) : Prop where
  mss : after.mss = before.mss
  next : after.sndNxt = before.sndNxt
  buffer : after.sndBuf.map core = before.sndBuf.map core
  queue : after.sndQueue = before.sndQueue

theorem KeepsData.trans {last : SendSide} (first : KeepsData snd after)
    (second : KeepsData after last) : KeepsData snd last :=
  ⟨second.mss.trans first.mss, second.next.trans first.next,
    second.buffer.trans first.buffer, second.queue.trans first.queue⟩

theorem Sending.keep (sending : Sending conv s accepted snd)
    (keeps : KeepsData snd after) : Sending conv s accepted after where
  mss := keeps.mss ▸ sending.mss
  next := keeps.next ▸ sending.next
  sorted := map_number_of_core keeps.buffer ▸ sending.sorted
  buffered := by
    intro seg member
    have inside : core seg ∈ snd.sndBuf.map core :=
      keeps.buffer ▸ List.mem_map_of_mem member
    obtain ⟨other, otherMember, same⟩ := List.mem_map.mp inside
    exact (sending.buffered other otherMember).of_core same
  waiting := map_number_of_core keeps.buffer ▸ sending.waiting
  queued := keeps.queue ▸ sending.queued
  accounted := keeps.queue ▸ sending.accounted

theorem keepsData_shrinkBuf (snd : SendSide) :
    KeepsData snd (ikcpShrinkBuf snd) := by
  rw [ikcpShrinkBuf]
  split <;> exact ⟨rfl, rfl, rfl, rfl⟩

/-- Only timers, the congestion window and counters of bytes have changed. -/
structure KeepsWindow (before after : SendSide) : Prop
    extends KeepsData before after where
  una : after.sndUna = before.sndUna
  buffered : after.nsndBuf = before.nsndBuf
  queued : after.nsndQue = before.nsndQue
  remote : after.rmtWnd = before.rmtWnd

theorem KeepsWindow.refl (snd : SendSide) : KeepsWindow snd snd :=
  ⟨⟨rfl, rfl, rfl, rfl⟩, rfl, rfl, rfl, rfl⟩

theorem KeepsWindow.trans {last : SendSide} (first : KeepsWindow snd after)
    (second : KeepsWindow after last) : KeepsWindow snd last :=
  ⟨first.toKeepsData.trans second.toKeepsData, second.una.trans first.una,
    second.buffered.trans first.buffered, second.queued.trans first.queued,
    second.remote.trans first.remote⟩

theorem KeepsWindow.ite {choice : Prop} [Decidable choice]
    {first second : SendSide} (one : KeepsWindow snd first)
    (other : KeepsWindow snd second) :
    KeepsWindow snd (if choice then first else second) := by
  split
  · exact one
  · exact other

/-- The congestion window and what goes with it may take any value. -/
theorem KeepsWindow.resize (keeps : KeepsWindow snd after)
    (cwnd incr ssthresh : IUINT32) :
    KeepsWindow snd { after with cwnd, incr, ssthresh } :=
  { keeps with }

theorem keepsWindow_updateAck (snd : SendSide) (rtt : Int) :
    KeepsWindow snd (ikcpUpdateAck snd rtt) := by
  rw [ikcpUpdateAck]
  by_cases first : snd.rxSrtt = 0
  · simp only [first, if_true]
    exact { KeepsWindow.refl snd with }
  · simp only [first, if_false]
    exact { KeepsWindow.refl snd with }

theorem keepsWindow_parseFastack (snd : SendSide) (sn : IUINT32) :
    KeepsWindow snd (ikcpParseFastack snd sn) := by
  rw [ikcpParseFastack]
  split
  · exact .refl snd
  · exact { KeepsWindow.refl snd with
      buffer := core_countFastack sn snd.sndBuf }

theorem keepsWindow_growCwnd (snd : SendSide) (prevUna : IUINT32) :
    KeepsWindow snd (growCwnd snd prevUna) := by
  have grown : ∀ next : SendSide, KeepsWindow snd next →
      KeepsWindow snd (if next.rmtWnd < next.cwnd then
        { next with
          cwnd := next.rmtWnd
          incr := next.rmtWnd * BitVec.ofNat 32 snd.mss }
        else next) :=
    fun next keeps => .ite (keeps.resize _ _ _) keeps
  rw [growCwnd]
  apply KeepsWindow.ite _ (.refl snd)
  apply grown
  exact .ite ((KeepsWindow.refl snd).resize _ _ _)
    ((KeepsWindow.refl snd).resize _ _ _)

theorem keepsWindow_shrinkCwnd (snd : SendSide) (resent cwnd : IUINT32)
    (change lost : Bool) :
    KeepsWindow snd (shrinkCwnd snd resent cwnd change lost) := by
  have atLeastOne : ∀ next : SendSide, KeepsWindow snd next →
      KeepsWindow snd (if next.cwnd < 1 then
        { next with cwnd := 1, incr := BitVec.ofNat 32 snd.mss }
        else next) :=
    fun next keeps => .ite (keeps.resize _ _ _) keeps
  have halved : ∀ next : SendSide, KeepsWindow snd next →
      KeepsWindow snd (if lost then
        { next with
          ssthresh := imax (cwnd / 2) ikcpThreshMin
          cwnd := 1
          incr := BitVec.ofNat 32 snd.mss }
        else next) :=
    fun next keeps => .ite (keeps.resize _ _ _) keeps
  rw [shrinkCwnd]
  apply atLeastOne
  apply halved
  exact .ite ((KeepsWindow.refl snd).resize _ _ _) (.refl snd)

/-! ## Handing data over -/

theorem flatMap_fragment (mss count : Nat) (buffer : List UInt8) :
    (fragment mss count buffer).flatMap Seg.data =
      buffer.take (count * mss) := by
  induction count generalizing buffer with
  | zero => simp [fragment]
  | succ count ih =>
      rw [fragment, List.flatMap_cons, ih, Nat.succ_mul,
        Nat.add_comm (count * mss), List.take_add]

theorem mem_fragment {mss count : Nat} {buffer : List UInt8} {seg : Seg}
    (member : seg ∈ fragment mss count buffer) :
    seg.frg < count ∧ seg.data.length ≤ mss := by
  induction count generalizing buffer with
  | zero => simp [fragment] at member
  | succ count ih =>
      rw [fragment] at member
      rcases List.mem_cons.mp member with rfl | member
      · exact ⟨Nat.lt_succ_self count, by simp⟩
      · obtain ⟨below, short⟩ := ih member
        exact ⟨by omega, short⟩

theorem flatMap_unnumbered (stream : Bool) (segs : List Seg) :
    (unnumbered stream segs).flatMap Seg.data = segs.flatMap Seg.data := by
  cases stream
  · rfl
  · simp [unnumbered, List.flatMap_map]

theorem mem_unnumbered {stream : Bool} {segs : List Seg} {seg : Seg}
    (member : seg ∈ unnumbered stream segs) :
    ∃ other ∈ segs, seg.frg ≤ other.frg ∧ seg.data = other.data := by
  cases stream
  · exact ⟨seg, member, Nat.le_refl _, rfl⟩
  · obtain ⟨other, inside, rfl⟩ := List.mem_map.mp member
    exact ⟨other, inside, Nat.zero_le _, rfl⟩

/-- Filling up the last queued segment moves the beginning of the buffer to
the queue. -/
theorem Sending.appendToLast (sending : Sending conv s accepted snd)
    (buffer : List UInt8) :
    ∃ taken ≤ buffer.length,
      (Ikcp.appendToLast snd buffer).2 = buffer.drop taken ∧
        (Ikcp.appendToLast snd buffer).1.mss = snd.mss ∧
        (Ikcp.appendToLast snd buffer).1.stream = snd.stream ∧
        Sending conv s (accepted ++ buffer.take taken)
          (Ikcp.appendToLast snd buffer).1 := by
  have nothing : ∃ taken ≤ buffer.length,
      buffer = buffer.drop taken ∧ snd.mss = snd.mss ∧
        snd.stream = snd.stream ∧
        Sending conv s (accepted ++ buffer.take taken) snd :=
    ⟨0, Nat.zero_le _, rfl, rfl, rfl, by simpa using sending⟩
  rw [Ikcp.appendToLast]
  cases last : snd.sndQueue.getLast? with
  | none => exact nothing
  | some old =>
      dsimp only
      split
      case isFalse => exact nothing
      case isTrue short =>
        obtain ⟨earlier, queue⟩ := List.getLast?_eq_some_iff.mp last
        generalize extend : min buffer.length (snd.mss - old.data.length) =
          count
        refine ⟨count, by omega, rfl, rfl, rfl, ?_⟩
        have front : snd.sndQueue.dropLast = earlier := by
          rw [queue, List.dropLast_concat]
        have limit := sending.mss.2
        have bound := sending.queued
        rw [queue] at bound
        exact { sending with
          queued := by
            intro seg member
            rw [front] at member
            rcases List.mem_append.mp member with inside | added
            · exact bound seg (List.mem_append_left _ inside)
            · obtain rfl := List.mem_singleton.mp added
              refine ⟨Nat.zero_lt_succ _, ?_⟩
              simp only [List.length_append, List.length_take]
              omega
          accounted := by
            rw [sending.accounted, front, queue]
            simp }

theorem Sending.queueFragments (sending : Sending conv s accepted snd)
    (buffer : List UInt8) {count : Nat} (few : count < 256)
    (enough : buffer.length ≤ count * snd.mss) :
    Sending conv s (accepted ++ buffer)
      { snd with
        sndQueue := snd.sndQueue ++
          unnumbered snd.stream (fragment snd.mss count buffer)
        nsndQue := snd.nsndQue + count } :=
  { sending with
    queued := by
      intro seg member
      rcases List.mem_append.mp member with earlier | added
      · exact sending.queued seg earlier
      · obtain ⟨other, inside, frg, data⟩ := mem_unnumbered added
        obtain ⟨below, short⟩ := mem_fragment inside
        have limit := sending.mss.2
        rw [data]
        exact ⟨by omega, by omega⟩
    accounted := by
      rw [sending.accounted, List.flatMap_append, flatMap_unnumbered,
        flatMap_fragment, List.take_of_length_le enough, List.append_assoc] }

/-- `ikcp_send` accepts as many bytes as it says. -/
theorem Sending.send (sending : Sending conv s accepted snd)
    (buffer : List UInt8) :
    Sending conv s (accepted ++ buffer.take (ikcpSend snd buffer).1.toNat)
      (ikcpSend snd buffer).2 := by
  rw [ikcpSend]
  generalize start : (if snd.stream then Ikcp.appendToLast snd buffer
    else (snd, buffer)) = x
  obtain ⟨taken, inside, left, mss, stream, appended, none⟩ :
      ∃ taken ≤ buffer.length, x.2 = buffer.drop taken ∧
        x.1.mss = snd.mss ∧ x.1.stream = snd.stream ∧
        Sending conv s (accepted ++ buffer.take taken) x.1 ∧
        (snd.stream = false → taken = 0) := by
    subst start
    by_cases stream : snd.stream = true
    · obtain ⟨taken, inside, left, mss, same, appended⟩ :=
        sending.appendToLast buffer
      rw [if_pos stream]
      exact ⟨taken, inside, left, mss, same, appended,
        fun message => by simp [stream] at message⟩
    · rw [if_neg stream]
      exact ⟨0, Nat.zero_le _, rfl, rfl, rfl, by simpa using sending,
        fun _ => rfl⟩
  have length : x.2.length = buffer.length - taken := by
    rw [left, List.length_drop]
  have sent : buffer.length - x.2.length = taken := by omega
  have positive := sending.mss.1
  have some := pieceCount_pos x.1.mss x.2.length (by omega)
  have enough := length_le_pieceCount x.1.mss x.2.length (by omega)
  simp only [sent]
  rw [← pieceCount]
  generalize pieceCount x.1.mss x.2.length = count at some enough
  rw [if_neg (by omega : count ≠ 0)]
  by_cases filled : x.1.stream = true ∧ x.2.length = 0
  · rw [← stream, if_pos filled]
    simpa using appended
  rw [← stream, if_neg filled]
  by_cases few : ikcpWndRcv ≤ count
  · rw [if_pos few]
    by_cases partly : x.1.stream = true ∧ 0 < taken
    · simpa [partly] using appended
    · have nothing : taken = 0 := by
        by_cases isStream : x.1.stream = true
        · simp only [isStream, true_and] at partly
          omega
        · exact none (by simpa [← stream] using isStream)
      rw [if_neg partly]
      simpa [nothing] using appended
  · rw [if_neg few]
    have added := appended.queueFragments x.2
      (Nat.lt_trans (Nat.lt_of_not_le few) (by decide)) enough
    have whole : ((taken : Int) + x.2.length).toNat = buffer.length := by
      omega
    rw [whole, List.take_length]
    rw [List.append_assoc, left, List.take_append_drop, ← left] at added
    exact added

/-! ## Numbering -/

theorem Sending.number_below (sending : Sending conv s accepted snd)
    {index : Nat} (member : index ∈ snd.sndBuf.map number) :
    index < s.log.length := by
  obtain ⟨seg, inside, rfl⟩ := List.mem_map.mp member
  exact (List.getElem?_eq_some_iff.mp (sending.buffered seg inside).stands).1

/-- The first of the queue gets the next number. -/
theorem Sending.moveToSndBuf (sending : Sending conv s accepted snd)
    {wnd : Nat} {una : IUINT32} {moved : Seg}
    (small : s.log.length + 1 < 2 ^ 32)
    (moves : Ikcp.moveToSndBuf conv wnd una snd = some (after, moved)) :
    Sending conv
      { s with
        log := s.log ++ [moved.piece]
        waiting := insert s.log.length s.waiting }
      accepted after := by
  have mss := sending.mss
  have next := sending.next
  have sorted := sending.sorted
  have buffered := sending.buffered
  have waiting := sending.waiting
  have queued := sending.queued
  have accounted := sending.accounted
  have below : ∀ index : Nat, index ∈ snd.sndBuf.map number →
      index < s.log.length := fun _ member => sending.number_below member
  rw [Ikcp.moveToSndBuf] at moves
  cases queue : snd.sndQueue with
  | nil => simp [queue] at moves
  | cons newseg rest =>
      simp only [queue, Option.some.injEq, Prod.mk.injEq] at moves
      obtain ⟨rfl, rfl⟩ := moves
      rw [queue] at queued accounted
      obtain ⟨first, others⟩ := List.forall_mem_cons.mp queued
      constructor
      case mss => exact mss
      case next =>
        simp only [List.length_append, List.length_singleton]
        rw [BitVec.toNat_add, next]
        exact Nat.mod_eq_of_lt small
      case sorted =>
        rw [List.map_append, List.pairwise_append]
        refine ⟨sorted, by simp, ?_⟩
        intro index member last isLast
        simp only [List.map_cons, List.map_nil, List.mem_singleton] at isLast
        subst isLast
        simpa [number, next] using below index member
      case buffered =>
        intro seg member
        rcases List.mem_append.mp member with earlier | last
        · have stands := buffered seg earlier
          exact { stands with
            stands := getElem?_append_item stands.stands }
        · obtain rfl := List.mem_singleton.mp last
          exact
            { conv := rfl
              cmd := rfl
              frg := first.1
              len := first.2
              stands := by simp [number, next, Seg.piece] }
      case waiting =>
        intro index
        simp only [Set.mem_insert_iff, waiting, List.map_append,
          List.mem_append, List.map_cons, List.map_nil, List.mem_singleton,
          number, next]
        exact or_comm
      case queued => exact others
      case accounted =>
        rw [accounted]
        simp [Seg.piece]

theorem length_moveToSndBuf {wnd : Nat} {una : IUINT32} {moved : Seg}
    (moves : Ikcp.moveToSndBuf conv wnd una snd = some (after, moved)) :
    after.sndBuf.length = snd.sndBuf.length + 1 := by
  rw [Ikcp.moveToSndBuf] at moves
  split at moves
  · simp at moves
  · simp only [Option.some.injEq, Prod.mk.injEq] at moves
    obtain ⟨rfl, -⟩ := moves
    simp

theorem length_le_moveQueued (conv : IUINT32) (wnd : Nat)
    (una cwnd : IUINT32) (queued : Nat) (snd : SendSide) :
    snd.sndBuf.length ≤
      (CommonIkcp.moveQueued conv wnd una cwnd queued snd).sndBuf.length := by
  induction queued generalizing snd with
  | zero => exact Nat.le_refl _
  | succ queued ih =>
      rw [CommonIkcp.moveQueued]
      split
      · split
        case h_1 next moved moves =>
          have longer := length_moveToSndBuf moves
          have := ih next
          omega
        case h_2 => exact Nat.le_refl _
      · exact Nat.le_refl _

/-- Segments are numbered in the order of the queue. -/
theorem Sending.moveQueued (sending : Sending conv s accepted snd)
    (wnd : Nat) (una cwnd : IUINT32) (queued : Nat) {count : Nat}
    (length :
      (CommonIkcp.moveQueued conv wnd una cwnd queued snd).sndBuf.length =
        snd.sndBuf.length + count)
    (small : s.log.length + count < 2 ^ 31) :
    ∃ t, SenderOnly s t ∧ t.log.length = s.log.length + count ∧
      Sending conv t accepted
        (CommonIkcp.moveQueued conv wnd una cwnd queued snd) := by
  induction queued generalizing s snd count with
  | zero =>
      obtain rfl : count = 0 := by simpa [CommonIkcp.moveQueued] using length
      exact ⟨s, .refl s, rfl, sending⟩
  | succ queued ih =>
      rw [CommonIkcp.moveQueued] at length ⊢
      split at length
      case isTrue inside =>
        rw [if_pos inside]
        cases moves : Ikcp.moveToSndBuf conv wnd una snd with
        | none =>
            simp only [moves] at length ⊢
            obtain rfl : count = 0 := by simpa using length
            exact ⟨s, .refl s, rfl, sending⟩
        | some pair =>
            obtain ⟨next, moved⟩ := pair
            simp only [moves] at length ⊢
            have longer := length_moveToSndBuf moves
            have more := length_le_moveQueued conv wnd una cwnd queued next
            obtain ⟨rest, rfl⟩ : ∃ rest, count = rest + 1 :=
              ⟨count - 1, by omega⟩
            have numbered := sending.moveToSndBuf (by omega) moves
            obtain ⟨t, steps, log, kept⟩ := @ih _ _ numbered rest
              (by omega) (by
                simp only [List.length_append, List.length_singleton]
                omega)
            simp only [List.length_append, List.length_singleton] at log
            exact ⟨t, (senderOnly_number s moved.piece).trans steps,
              by omega, kept⟩
      case isFalse outside =>
        rw [if_neg outside]
        obtain rfl : count = 0 := by simpa using length
        exact ⟨s, .refl s, rfl, sending⟩

/-- Everything in the send buffer may be on its way. -/
theorem Sending.transmitted (sending : Sending conv s accepted snd) :
    ∃ t, SenderOnly s t ∧ t.log = s.log ∧ Sending conv t accepted snd ∧
      ∀ seg ∈ snd.sndBuf, (number seg, seg.piece) ∈ t.sent := by
  obtain ⟨sent, steps, -, all⟩ := exists_transmitted s
    (snd.sndBuf.map fun seg => (number seg, seg.piece)) (by
      intro entry member
      obtain ⟨seg, inside, rfl⟩ := List.mem_map.mp member
      exact ⟨(sending.waiting _).mpr (List.mem_map_of_mem inside),
        (sending.buffered seg inside).stands⟩)
  refine ⟨{ s with sent }, steps, rfl, { sending with }, ?_⟩
  intro seg inside
  exact all _ (List.mem_map_of_mem inside)

/-! ## Acknowledgements -/

theorem dropWhile_eq_filter {limit : Nat} {segs : List Seg}
    {gone : Seg → Bool} (sorted : (segs.map number).Pairwise (· < ·))
    (compares : ∀ seg ∈ segs, gone seg = decide (number seg < limit)) :
    segs.dropWhile gone = segs.filter fun seg => limit ≤ number seg := by
  induction segs with
  | nil => rfl
  | cons seg rest ih =>
      rw [List.map_cons, List.pairwise_cons] at sorted
      obtain ⟨first, others⟩ := List.forall_mem_cons.mp compares
      by_cases below : number seg < limit
      · rw [List.dropWhile_cons_of_pos (by simpa [first] using below),
          List.filter_cons_of_neg (by simpa using below), ih sorted.2 others]
      · rw [List.dropWhile_cons_of_neg (by simpa [first] using below)]
        symm
        apply List.filter_eq_self.mpr
        intro other member
        rcases List.mem_cons.mp member with rfl | member
        · simpa using below
        · have := sorted.1 _ (List.mem_map_of_mem member)
          simp only [decide_eq_true_eq]
          omega

/-- The segments that are kept stay sorted, genuine and waited for. -/
theorem Sending.filter (sending : Sending conv s accepted snd)
    (keeps : Nat → Prop) [DecidablePred keeps] (nsndBuf : Nat) :
    Sending conv
      { s with waiting := {index ∈ s.waiting | keeps index} } accepted
      { snd with
        sndBuf := snd.sndBuf.filter fun seg => keeps (number seg)
        nsndBuf } :=
  { sending with
    sorted := by
      apply List.Pairwise.sublist _ sending.sorted
      exact List.filter_sublist.map number
    buffered := fun seg member =>
      sending.buffered seg (List.mem_filter.mp member).1
    waiting := by
      intro index
      simp only [Set.mem_ofPred_eq, sending.waiting, List.mem_map,
        List.mem_filter, decide_eq_true_eq]
      constructor
      · rintro ⟨⟨seg, inside, rfl⟩, kept⟩
        exact ⟨seg, ⟨inside, kept⟩, rfl⟩
      · rintro ⟨seg, ⟨inside, kept⟩, rfl⟩
        exact ⟨⟨seg, inside, rfl⟩, kept⟩ }

theorem Sending.small (sending : Sending conv s accepted snd)
    (small : s.log.length < 2 ^ 31) {seg : Seg} (inside : seg ∈ snd.sndBuf) :
    seg.sn.toNat < 2 ^ 31 :=
  Nat.lt_trans (sending.number_below (List.mem_map_of_mem inside)) small

/-- `ikcp_parse_una` forgets what is below the announced number. -/
theorem Sending.parseUna (sending : Sending conv s accepted snd)
    (sound : Sound s) (small : s.log.length < 2 ^ 31) {una : IUINT32}
    (announced : una.toNat ∈ s.limits) :
    ∃ t, SenderOnly s t ∧ t.log = s.log ∧
      Sending conv t accepted (ikcpParseUna snd una) := by
  have unaSmall : una.toNat < 2 ^ 31 := by
    have inOrder := sound.announced _ announced
    have := sound.ordered.length_le
    omega
  have drops : (snd.sndBuf.dropWhile fun seg => 0 < itimediff una seg.sn) =
      snd.sndBuf.filter fun seg => una.toNat ≤ number seg := by
    apply dropWhile_eq_filter sending.sorted
    intro seg inside
    rw [itimediff_small unaSmall (sending.small small inside), number,
      decide_eq_decide]
    omega
  refine ⟨_, senderOnly_forgetBelow s announced, rfl, ?_⟩
  rw [ikcpParseUna, drops]
  exact sending.filter _ _

theorem removeAcked_eq_filter {sn : IUINT32} {segs : List Seg}
    (sorted : (segs.map number).Pairwise (· < ·))
    (small : sn.toNat < 2 ^ 31) (smallBuffer : ∀ seg ∈ segs,
      seg.sn.toNat < 2 ^ 31) :
    (removeAcked sn segs).1 =
      segs.filter fun seg => number seg ≠ sn.toNat := by
  induction segs with
  | nil => rfl
  | cons seg rest ih =>
      rw [List.map_cons, List.pairwise_cons] at sorted
      obtain ⟨firstSmall, othersSmall⟩ := List.forall_mem_cons.mp smallBuffer
      have later : ∀ other ∈ rest, number seg < number other :=
        fun other member => sorted.1 _ (List.mem_map_of_mem member)
      rw [removeAcked]
      by_cases same : sn = seg.sn
      · rw [if_pos same, List.filter_cons_of_neg (by simp [number, same])]
        symm
        apply List.filter_eq_self.mpr
        intro other member
        have above := later other member
        rw [number, ← same] at above
        exact decide_eq_true (by omega)
      · rw [if_neg same, itimediff_small small firstSmall]
        have apart : seg.sn.toNat ≠ sn.toNat := fun equal =>
          same (BitVec.eq_of_toNat_eq equal).symm
        by_cases before : (sn.toNat : Int) - seg.sn.toNat < 0
        · rw [if_pos before]
          symm
          apply List.filter_eq_self.mpr
          intro other member
          apply decide_eq_true
          rcases List.mem_cons.mp member with rfl | member
          · exact apart
          · have above := later other member
            rw [number] at above
            omega
        · have kept : decide (number seg ≠ sn.toNat) = true :=
            decide_eq_true apart
          rw [if_neg before, List.filter_cons, if_pos kept,
            ← ih sorted.2 othersSmall]

/-- `ikcp_parse_ack` forgets the acknowledged number, or does nothing. -/
theorem Sending.parseAck (sending : Sending conv s accepted snd)
    (sound : Sound s) (small : s.log.length < 2 ^ 31) {sn : IUINT32}
    (acknowledged : sn.toNat ∈ s.acks) :
    ∃ t, SenderOnly s t ∧ t.log = s.log ∧
      Sending conv t accepted (ikcpParseAck snd sn) := by
  rw [ikcpParseAck]
  split
  · exact ⟨s, .refl s, rfl, sending⟩
  case isFalse inside =>
    have snSmall : sn.toNat < 2 ^ 31 := by
      have inLog := sound.ordered.length_le
      rcases sound.acked _ acknowledged with below | ⟨item, early⟩
      · omega
      · obtain ⟨below, -⟩ :=
          List.getElem?_eq_some_iff.mp (sound.collected _ early)
        exact Nat.lt_trans below small
    refine ⟨_, senderOnly_forget s acknowledged, rfl, ?_⟩
    have removed := removeAcked_eq_filter sending.sorted snSmall
      fun seg => sending.small small
    dsimp only
    rw [removed]
    exact sending.filter _ _

/-- What one round of `ikcp_input` does to the send side: it forgets what is
acknowledged. -/
theorem Sending.inputSegment {kcp : Ikcp.IkcpCb}
    (sending : Sending conv s accepted kcp.snd) (sound : Sound s)
    (small : s.log.length < 2 ^ 31) (maxack : Option IUINT32)
    {header : Header} (data : List UInt8)
    (announced : header.una.toNat ∈ s.limits)
    (acknowledged : header.cmd = ikcpCmdAck → header.sn.toNat ∈ s.acks) :
    ∃ t, SenderOnly s t ∧ t.log = s.log ∧
      Sending conv t accepted
        (Ikcp.inputSegment kcp maxack header data).1.snd := by
  have window : Sending conv s accepted
      { kcp.snd with rmtWnd := BitVec.ofNat 32 header.wnd } :=
    sending.keep ⟨rfl, rfl, rfl, rfl⟩
  obtain ⟨t, steps, log, below⟩ := window.parseUna sound small announced
  have shrunk := below.keep (keepsData_shrinkBuf _)
  by_cases isAck : header.cmd = ikcpCmdAck
  · have soundT := sound.steps steps.steps
    have acks : header.sn.toNat ∈ t.acks := by
      rw [steps.acks]
      exact acknowledged isAck
    simp only [Ikcp.inputSegment, isAck, if_true]
    split
    case isTrue =>
      obtain ⟨u, more, same, kept⟩ :=
        (shrunk.keep (keepsWindow_updateAck _ _).toKeepsData).parseAck soundT
          (log ▸ small) acks
      exact ⟨u, steps.trans more, same.trans log,
        kept.keep (keepsData_shrinkBuf _)⟩
    case isFalse =>
      obtain ⟨u, more, same, kept⟩ :=
        shrunk.parseAck soundT (log ▸ small) acks
      exact ⟨u, steps.trans more, same.trans log,
        kept.keep (keepsData_shrinkBuf _)⟩
  · refine ⟨t, steps, log, ?_⟩
    simp only [Ikcp.inputSegment, isAck, if_false]
    split
    · exact shrunk
    · split <;> exact shrunk

end CommonIkcp

end MbedtlsKcp
