import MbedtlsKcp.CommonIkcpSegments
import MbedtlsKcp.SelectiveRepeat

/-!
# The receive side as the receiver of a selective repeat

What has been read and the receive queue are the items collected in order,
the receive buffer holds those ahead of a missing one, and the numbers of the
acknowledgement list are those of items that have been received.
-/

namespace MbedtlsKcp

namespace CommonIkcp

open SerialNumbers SelectiveRepeat Ikcp

/-- A segment of the receive buffer as an item with its number. -/
def entry (seg : Seg) : Nat × Piece :=
  (number seg, seg.piece)

/-- The receive side is in the state `s`; `handed` is what its user has
read. -/
structure Collecting (s : State Piece) (handed : List UInt8)
    (rcv : ReceiveSide) : Prop where
  queued : ∃ read, s.received = read ++ rcv.rcvQueue.map Seg.piece ∧
    handed = read.flatMap Prod.snd
  next : rcv.rcvNxt.toNat = s.received.length
  sorted : (rcv.rcvBuf.map number).Pairwise (· < ·)
  early : ∀ item, item ∈ s.early ↔ item ∈ rcv.rcvBuf.map entry

/-- The acknowledgement list only has what has been acknowledged. -/
def Acked (s : State Piece) (acklist : List (IUINT32 × IUINT32)) : Prop :=
  ∀ ack ∈ acklist, ack.1.toNat ∈ s.acks

variable {s : State Piece} {handed : List UInt8} {rcv after : ReceiveSide}

theorem Collecting.small (collecting : Collecting s handed rcv)
    (sound : Sound s) (small : s.log.length < 2 ^ 31) {seg : Seg}
    (inside : seg ∈ rcv.rcvBuf) : seg.sn.toNat < 2 ^ 31 := by
  have early := (collecting.early (entry seg)).mpr
    (List.mem_map_of_mem inside)
  obtain ⟨below, -⟩ :=
    List.getElem?_eq_some_iff.mp (sound.collected _ early)
  exact Nat.lt_trans below small

theorem Collecting.nextSmall (collecting : Collecting s handed rcv)
    (sound : Sound s) (small : s.log.length < 2 ^ 31) :
    rcv.rcvNxt.toNat < 2 ^ 31 := by
  have := sound.ordered.length_le
  rw [collecting.next]
  omega

/-- The receiver has what stands in the receive buffer. -/
theorem Collecting.has (collecting : Collecting s handed rcv) {seg : Seg}
    (inside : seg ∈ rcv.rcvBuf) : s.Has (number seg) :=
  .inr ⟨seg.piece, (collecting.early (entry seg)).mpr
    (List.mem_map_of_mem inside)⟩

/-! ## In order -/

/-- The next segment leaves the receive buffer for the queue. -/
theorem Collecting.moveOne {seg : Seg} {rest : List Seg}
    (collecting : Collecting s handed rcv)
    (small : s.received.length + 1 < 2 ^ 32)
    (buffer : rcv.rcvBuf = seg :: rest) (ready : seg.sn = rcv.rcvNxt)
    (nrcvBuf nrcvQue : Nat) :
    ∃ t, ReceiverOnly s t ∧ t.acks = s.acks ∧
      Collecting t handed
        { rcv with
          rcvBuf := rest, nrcvBuf, nrcvQue
          rcvQueue := rcv.rcvQueue ++ [seg]
          rcvNxt := rcv.rcvNxt + 1 } := by
  have here : number seg = s.received.length := by
    rw [number, ready, collecting.next]
  have early := collecting.early
  have sorted := collecting.sorted
  rw [buffer] at early sorted
  rw [List.map_cons, List.pairwise_cons] at sorted
  have first : (s.received.length, seg.piece) ∈ s.early := by
    rw [early, ← here]
    exact List.mem_cons_self
  refine ⟨_, receiverOnly_order s first, rfl, ?_⟩
  obtain ⟨read, received, isHanded⟩ := collecting.queued
  constructor
  case queued =>
    refine ⟨read, ?_, isHanded⟩
    rw [received]
    simp
  case next =>
    simp only [List.length_append, List.length_singleton]
    rw [BitVec.toNat_add, collecting.next]
    exact Nat.mod_eq_of_lt small
  case sorted => exact sorted.2
  case early =>
    rintro ⟨index, piece⟩
    simp only [Set.mem_ofPred_eq, early, List.map_cons, List.mem_cons]
    constructor
    · rintro ⟨same | member, apart⟩
      · exact absurd ((congrArg Prod.fst same).trans here) apart
      · exact member
    · intro member
      refine ⟨.inr member, ?_⟩
      obtain ⟨other, inside, same⟩ := List.mem_map.mp member
      have later := sorted.1 _ (List.mem_map_of_mem inside)
      have same : number other = index := congrArg Prod.fst same
      omega

/-- Available segments move to the queue. -/
theorem Collecting.moveAvailable (collecting : Collecting s handed rcv)
    (sound : Sound s) (small : s.log.length < 2 ^ 31) :
    ∃ t, ReceiverOnly s t ∧ t.acks = s.acks ∧
      Collecting t handed (Ikcp.moveAvailable rcv.rcvBuf rcv) := by
  generalize buffer : rcv.rcvBuf = segs
  induction segs generalizing s rcv with
  | nil => exact ⟨s, .refl s, rfl, collecting⟩
  | cons seg rest ih =>
      rw [Ikcp.moveAvailable]
      split
      case isTrue ready =>
        have short := sound.ordered.length_le
        obtain ⟨t, steps, acks, moved⟩ := collecting.moveOne
          (by omega) buffer ready.1 (rcv.nrcvBuf - 1) (rcv.nrcvQue + 1)
        obtain ⟨u, more, same, kept⟩ := ih moved (sound.steps steps.steps)
          (steps.log ▸ small) rfl
        exact ⟨u, steps.trans more, same.trans acks, kept⟩
      case isFalse => exact ⟨s, .refl s, rfl, collecting⟩

/-! ## Out of order -/

/-- Inserting from the tail leaves a buffer without the number sorted, with
the segment in its place. -/
theorem insertFromTail_sorted {seg : Seg} {segs inserted : List Seg}
    (sorted : (segs.map number).Pairwise (· > ·))
    (small : seg.sn.toNat < 2 ^ 31)
    (smallBuffer : ∀ other ∈ segs, other.sn.toNat < 2 ^ 31)
    (inserts : insertFromTail Seg.sn seg segs = some inserted) :
    (inserted.map number).Pairwise (· > ·) ∧
      ∀ other, other ∈ inserted ↔ other = seg ∨ other ∈ segs := by
  induction segs generalizing inserted with
  | nil =>
      obtain rfl := Option.some.inj inserts
      simp
  | cons last earlier ih =>
      rw [List.map_cons, List.pairwise_cons] at sorted
      obtain ⟨lastSmall, earlierSmall⟩ := List.forall_mem_cons.mp smallBuffer
      have differs : serialDiff seg.sn last.sn =
          (seg.sn.toNat : Int) - last.sn.toNat :=
        itimediff_small small lastSmall
      rw [insertFromTail, differs] at inserts
      by_cases same : last.sn = seg.sn
      · simp [same] at inserts
      have apart : last.sn.toNat ≠ seg.sn.toNat := fun equal =>
        same (BitVec.eq_of_toNat_eq equal)
      rw [if_neg same] at inserts
      by_cases later : 0 < (seg.sn.toNat : Int) - last.sn.toNat
      · rw [if_pos later] at inserts
        obtain rfl := Option.some.inj inserts
        have above : number last < number seg := by
          simp only [number]
          omega
        refine ⟨?_, by simp⟩
        simp only [List.map_cons, List.pairwise_cons, List.mem_cons]
        refine ⟨?_, sorted⟩
        rintro index (rfl | member)
        · exact above
        · exact Nat.lt_trans (sorted.1 index member) above
      · rw [if_neg later, Option.map_eq_some_iff] at inserts
        obtain ⟨middle, inserts, rfl⟩ := inserts
        obtain ⟨middleSorted, members⟩ := ih sorted.2 earlierSmall inserts
        constructor
        · rw [List.map_cons, List.pairwise_cons]
          refine ⟨?_, middleSorted⟩
          intro index member
          obtain ⟨other, inside, rfl⟩ := List.mem_map.mp member
          rcases (members other).mp inside with rfl | inside
          · simp only [number]
            omega
          · exact sorted.1 _ (List.mem_map_of_mem inside)
        · intro other
          rw [List.mem_cons, members, List.mem_cons]
          tauto

/-- A number is turned away only when it is there already. -/
theorem exists_of_insertFromTail_none {seg : Seg} {segs : List Seg}
    (stops : insertFromTail Seg.sn seg segs = none) :
    ∃ other ∈ segs, other.sn = seg.sn := by
  induction segs with
  | nil => simp [insertFromTail] at stops
  | cons last earlier ih =>
      rw [insertFromTail] at stops
      split at stops
      case isTrue same => exact ⟨last, List.mem_cons_self, same⟩
      case isFalse =>
        split at stops
        · simp at stops
        · rw [Option.map_eq_none_iff] at stops
          obtain ⟨other, inside, same⟩ := ih stops
          exact ⟨other, List.mem_cons_of_mem _ inside, same⟩

/-- A segment at or above the next number takes its place in the receive
buffer, where the receiver then has it. -/
theorem Collecting.insert (collecting : Collecting s handed rcv)
    (sound : Sound s) (small : s.log.length < 2 ^ 31) {seg : Seg}
    (arrives : entry seg ∈ s.sent) (ahead : s.received.length ≤ number seg) :
    ∃ t, ReceiverOnly s t ∧ t.acks = s.acks ∧ t.Has (number seg) ∧
      Collecting t handed
        (match insertFromTail Seg.sn seg rcv.rcvBuf.reverse with
          | some inserted =>
              { rcv with
                rcvBuf := inserted.reverse, nrcvBuf := rcv.nrcvBuf + 1 }
          | none => rcv) := by
  cases inserts : insertFromTail Seg.sn seg rcv.rcvBuf.reverse with
  | none =>
      obtain ⟨other, inside, same⟩ := exists_of_insertFromTail_none inserts
      have has := collecting.has (List.mem_reverse.mp inside)
      rw [number, same] at has
      exact ⟨s, .refl s, rfl, has, collecting⟩
  | some inserted =>
      have segSmall : seg.sn.toNat < 2 ^ 31 := by
        obtain ⟨below, -⟩ :=
          List.getElem?_eq_some_iff.mp (sound.genuine _ arrives)
        exact Nat.lt_trans below small
      obtain ⟨sorted, members⟩ := insertFromTail_sorted
        (by simpa [List.pairwise_reverse] using collecting.sorted) segSmall
        (fun other inside =>
          collecting.small sound small (List.mem_reverse.mp inside)) inserts
      refine ⟨_, receiverOnly_collect s arrives ahead, rfl,
        .inr ⟨seg.piece, Set.mem_insert _ _⟩, ?_⟩
      constructor
      case queued => exact collecting.queued
      case next => exact collecting.next
      case sorted => simpa [List.pairwise_reverse] using sorted
      case early =>
        intro item
        simp only [Set.mem_insert_iff, collecting.early, List.mem_map,
          List.mem_reverse, members]
        constructor
        · rintro (rfl | ⟨other, inside, rfl⟩)
          · exact ⟨seg, .inl rfl, rfl⟩
          · exact ⟨other, .inr inside, rfl⟩
        · rintro ⟨other, rfl | inside, rfl⟩
          · exact .inl rfl
          · exact .inr ⟨other, inside, rfl⟩

/-! ## What arrives -/

theorem acklist_moveAvailable (segs : List Seg) (rcv : ReceiveSide) :
    (Ikcp.moveAvailable segs rcv).acklist = rcv.acklist := by
  induction segs generalizing rcv with
  | nil => rfl
  | cons seg rest ih =>
      rw [Ikcp.moveAvailable]
      split
      · rw [ih]
      · rfl

theorem acklist_parseData (rcv : ReceiveSide) (seg : Seg) :
    (ikcpParseData rcv seg).acklist = rcv.acklist := by
  rw [ikcpParseData]
  split
  · rfl
  · cases insertFromTail Seg.sn seg rcv.rcvBuf.reverse with
    | none => exact acklist_moveAvailable _ _
    | some inserted => exact acklist_moveAvailable _ _

theorem Collecting.parseData (collecting : Collecting s handed rcv)
    (sound : Sound s) (small : s.log.length < 2 ^ 31) {seg : Seg}
    (arrives : entry seg ∈ s.sent)
    (inWindow : itimediff seg.sn (rcv.rcvNxt + BitVec.ofNat 32 rcv.rcvWnd) < 0)
    (ahead : 0 ≤ itimediff seg.sn rcv.rcvNxt) :
    ∃ t, ReceiverOnly s t ∧ t.acks = s.acks ∧ t.Has (number seg) ∧
      Collecting t handed (ikcpParseData rcv seg) := by
  have notBelow : s.received.length ≤ number seg := by
    obtain ⟨below, -⟩ :=
      List.getElem?_eq_some_iff.mp (sound.genuine _ arrives)
    rw [itimediff_small (Nat.lt_trans below small)
      (collecting.nextSmall sound small), collecting.next] at ahead
    simp only [number]
    omega
  obtain ⟨t, steps, acks, has, inserted⟩ :=
    collecting.insert sound small arrives notBelow
  obtain ⟨u, more, same, moved⟩ := inserted.moveAvailable
    (sound.steps steps.steps) (steps.log ▸ small)
  rw [ikcpParseData, if_neg (by omega)]
  refine ⟨u, steps.trans more, same.trans acks,
    Steps.has more.steps has, ?_⟩
  exact moved

theorem Acked.grow {t : State Piece} {acklist : List (IUINT32 × IUINT32)}
    (acked : Acked s acklist) (more : s.acks ⊆ t.acks) : Acked t acklist :=
  fun ack member => more (acked ack member)

/-- A data segment that the network brings: it is acknowledged once the
receiver has it. -/
theorem Collecting.push (collecting : Collecting s handed rcv)
    (acked : Acked s rcv.acklist) (sound : Sound s)
    (small : s.log.length < 2 ^ 31) {seg : Seg}
    (arrives : entry seg ∈ s.sent) :
    ∃ t, ReceiverOnly s t ∧ Collecting t handed (receivePush rcv seg) ∧
      Acked t (receivePush rcv seg).acklist := by
  have acknowledge : ∀ t, ReceiverOnly s t → t.acks = s.acks →
      t.Has (number seg) → ∀ after : ReceiveSide, Collecting t handed after →
      after.acklist = rcv.acklist ++ [(seg.sn, seg.ts)] →
      ∃ u, ReceiverOnly s u ∧ Collecting u handed after ∧
        Acked u after.acklist := by
    intro t steps acks has after kept acklist
    refine ⟨_, steps.trans (receiverOnly_acknowledge t has),
      { kept with }, ?_⟩
    intro ack member
    rw [acklist] at member
    rcases List.mem_append.mp member with earlier | last
    · exact .inr (acks ▸ acked ack earlier)
    · obtain rfl := List.mem_singleton.mp last
      exact .inl rfl
  have listed : Collecting s handed
      { rcv with acklist := rcv.acklist ++ [(seg.sn, seg.ts)] } :=
    { collecting with }
  rw [receivePush]
  split
  case isTrue inWindow =>
    dsimp only
    split
    case isTrue ahead =>
      obtain ⟨t, steps, acks, has, kept⟩ :=
        listed.parseData sound small arrives inWindow ahead
      exact acknowledge t steps acks has _ kept (acklist_parseData _ seg)
    case isFalse behind =>
      apply acknowledge s (.refl s) rfl _ _ listed rfl
      left
      obtain ⟨below, -⟩ :=
        List.getElem?_eq_some_iff.mp (sound.genuine _ arrives)
      rw [itimediff_small (Nat.lt_trans below small)
        (collecting.nextSmall sound small), collecting.next] at behind
      simp only [number]
      omega
  case isFalse => exact ⟨s, .refl s, collecting, acked⟩

/-- What one round of `ikcp_input` does to the receive side. -/
theorem Collecting.inputSegment {kcp : Ikcp.IkcpCb}
    (collecting : Collecting s handed kcp.rcv)
    (acked : Acked s kcp.rcv.acklist) (sound : Sound s)
    (small : s.log.length < 2 ^ 31) (maxack : Option IUINT32) {seg : Seg}
    (after : List UInt8)
    (arrives : seg.cmd = ikcpCmdPush → entry seg ∈ s.sent) :
    ∃ t, ReceiverOnly s t ∧
      Collecting t handed (Ikcp.inputSegment kcp maxack seg.header
        (seg.data ++ after)).1.rcv ∧
      Acked t (Ikcp.inputSegment kcp maxack seg.header
        (seg.data ++ after)).1.rcv.acklist := by
  rw [inputSegment_rcv, acceptSegment]
  split
  case isTrue push =>
    exact @Collecting.push _ _ _ collecting acked sound small seg.wire
      (arrives push)
  case isFalse => exact ⟨s, .refl s, collecting, acked⟩

/-! ## Reading -/

/-- The merge loop takes segments from the front of the queue. -/
theorem mergeFragments_split (queue : List Seg) :
    ∃ taken, queue = taken ++ (mergeFragments queue).2.1 ∧
      (mergeFragments queue).1 = taken.flatMap Seg.data := by
  induction queue with
  | nil => exact ⟨[], rfl, rfl⟩
  | cons seg rest ih =>
      rw [mergeFragments]
      split
      · exact ⟨[seg], rfl, by simp⟩
      · obtain ⟨taken, split, merged⟩ := ih
        refine ⟨seg :: taken, ?_, ?_⟩
        · rw [List.cons_append, ← split]
        · rw [List.flatMap_cons, ← merged]

theorem Collecting.take (collecting : Collecting s handed rcv)
    {taken rest : List Seg} (queue : rcv.rcvQueue = taken ++ rest)
    (nrcvQue : Nat) :
    Collecting s (handed ++ taken.flatMap Seg.data)
      { rcv with rcvQueue := rest, nrcvQue } := by
  obtain ⟨read, received, isHanded⟩ := collecting.queued
  exact { collecting with
    queued := by
      refine ⟨read ++ taken.map Seg.piece, ?_, ?_⟩
      · rw [received, queue]
        simp
      · rw [isHanded, List.flatMap_append, List.flatMap_map]
        rfl }

/-- A call of `ikcp_recv` fails and changes nothing, or takes the first
message, unless it only peeks, and moves what is available. -/
theorem ikcpRecv_cases (kcp : Ikcp.IkcpCb) (len : Int) :
    (Ikcp.ikcpRecv kcp len).2.1 = [] ∧
        (Ikcp.ikcpRecv kcp len).2.2.rcv = kcp.rcv ∨
      ∃ taken rest nrcvQue, kcp.rcv.rcvQueue = taken ++ rest ∧
        (Ikcp.ikcpRecv kcp len).2.1 = taken.flatMap Seg.data ∧
        (Ikcp.ikcpRecv kcp len).2.2.rcv =
          Ikcp.moveAvailable kcp.rcv.rcvBuf (if len < 0 then kcp.rcv else
            { kcp.rcv with rcvQueue := rest, nrcvQue }) := by
  rw [Ikcp.ikcpRecv]
  by_cases empty : kcp.rcv.rcvQueue = []
  · rw [if_pos empty]
    exact .inl ⟨rfl, rfl⟩
  by_cases missing : ikcpPeeksize kcp.rcv < 0
  · rw [if_neg empty, if_pos missing]
    exact .inl ⟨rfl, rfl⟩
  by_cases short : len.natAbs < ikcpPeeksize kcp.rcv
  · rw [if_neg empty, if_neg missing, if_pos short]
    exact .inl ⟨rfl, rfl⟩
  · rw [if_neg empty, if_neg missing, if_neg short]
    obtain ⟨taken, queue, merged⟩ := mergeFragments_split kcp.rcv.rcvQueue
    refine .inr ⟨taken, _,
      kcp.rcv.nrcvQue - (mergeFragments kcp.rcv.rcvQueue).2.2, queue, merged,
      ?_⟩
    by_cases peeks : len < 0
    · simp only [peeks, if_true]
    · simp only [peeks, if_false]

theorem ikcpRecv_frame (kcp : Ikcp.IkcpCb) (len : Int) :
    (Ikcp.ikcpRecv kcp len).2.2.conv = kcp.conv ∧
      (Ikcp.ikcpRecv kcp len).2.2.snd = kcp.snd := by
  rw [Ikcp.ikcpRecv]
  by_cases empty : kcp.rcv.rcvQueue = []
  · rw [if_pos empty]
    exact ⟨rfl, rfl⟩
  by_cases missing : ikcpPeeksize kcp.rcv < 0
  · rw [if_neg empty, if_pos missing]
    exact ⟨rfl, rfl⟩
  by_cases short : len.natAbs < ikcpPeeksize kcp.rcv
  · rw [if_neg empty, if_neg missing, if_pos short]
    exact ⟨rfl, rfl⟩
  · rw [if_neg empty, if_neg missing, if_neg short]
    exact ⟨rfl, rfl⟩

/-- `ikcp_recv` hands out the next items in order. -/
theorem Collecting.recv {kcp : IkcpCb}
    (collecting : Collecting s handed kcp.rcv)
    (acked : Acked s kcp.rcv.acklist) (sound : Sound s)
    (small : s.log.length < 2 ^ 31) (len : Int) :
    ∃ t, ReceiverOnly s t ∧
      Collecting t
        (if len < 0 then handed else handed ++ (ikcpRecv kcp len).2.1)
        (ikcpRecv kcp len).2.2.rcv ∧
      Acked t (ikcpRecv kcp len).2.2.rcv.acklist := by
  simp only [ikcpRecv]
  rcases ikcpRecv_cases kcp.toIkcpCb len with
    ⟨stored, rcv⟩ | ⟨taken, rest, nrcvQue, queue, stored, rcv⟩
  · rw [stored, rcv, List.append_nil, ite_self]
    exact ⟨s, .refl s, collecting, acked⟩
  · rw [stored, rcv, acklist_moveAvailable]
    by_cases peeks : len < 0
    · simp only [peeks, if_true]
      obtain ⟨t, steps, acks, kept⟩ := collecting.moveAvailable sound small
      exact ⟨t, steps, kept, acked.grow acks.superset⟩
    · simp only [peeks, if_false]
      obtain ⟨t, steps, acks, kept⟩ :=
        (collecting.take queue nrcvQue).moveAvailable sound small
      exact ⟨t, steps, kept, acked.grow acks.superset⟩

end CommonIkcp

end MbedtlsKcp
