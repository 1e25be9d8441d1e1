import MbedtlsKcp.CommonIkcpWindow

/-!
# When to update next

`ikcp_check` tells a user when `ikcp_update` has something to do again.  Until
then an update does not flush and no segment is due; the time it tells is never
further away than the flush interval, which stays between 10 and 5000
milliseconds.
-/

namespace MbedtlsKcp

namespace CommonIkcp

open SerialNumbers TransitionRuns Ikcp

/-- The loop of `ikcp_check` over the send buffer: the time to the next timeout,
at most `soonest`, or `none` when a segment is due. -/
def nextTimeout (current : IUINT32) : List Seg → Int → Option Int
  | [], soonest => some soonest
  | seg :: rest, soonest =>
      let diff := itimediff seg.resendts current
      if diff ≤ 0 then none
      else nextTimeout current rest (if diff < soonest then diff else soonest)

/-- `ikcp_check`. -/
def ikcpCheck (kcp : IkcpCb) (current : IUINT32) : IUINT32 :=
  if kcp.updated = false then current
  else
    let slap := itimediff current kcp.tsFlush
    let tsFlush := if 10000 ≤ slap ∨ slap < -10000 then current
      else kcp.tsFlush
    if 0 ≤ itimediff current tsFlush then current
    else
      let tmFlush := itimediff tsFlush current
      match nextTimeout current kcp.snd.sndBuf intMax with
      | none => current
      | some tmPacket =>
          let minimal := BitVec.ofInt 32
            (if tmPacket < tmFlush then tmPacket else tmFlush)
          current + if kcp.snd.interval ≤ minimal then kcp.snd.interval
            else minimal

/-- An update at this time flushes. -/
def Flushes (kcp : IkcpCb) (time : IUINT32) : Prop :=
  (schedule kcp time).1 = true

/-- Some segment is to be sent again at this time. -/
def TimesOut (kcp : IkcpCb) (time : IUINT32) : Prop :=
  ∃ seg ∈ kcp.snd.sndBuf, itimediff seg.resendts time ≤ 0

variable {kcp next : IkcpCb} {current : IUINT32}

/-! ## The loop -/

theorem nextTimeout_eq_none_iff (segs : List Seg) (soonest : Int) :
    nextTimeout current segs soonest = none ↔
      ∃ seg ∈ segs, itimediff seg.resendts current ≤ 0 := by
  induction segs generalizing soonest with
  | nil => simp [nextTimeout]
  | cons seg rest ih =>
      rw [nextTimeout]
      by_cases isDue : itimediff seg.resendts current ≤ 0
      · simp [isDue]
      · rw [if_neg isDue, ih]
        simp [isDue]

/-- The loop finds the least distance. -/
theorem nextTimeout_spec {segs : List Seg} {soonest found : Int}
    (finds : nextTimeout current segs soonest = some found) :
    found ≤ soonest ∧
      (∀ seg ∈ segs, found ≤ itimediff seg.resendts current) ∧
      (found = soonest ∨
        ∃ seg ∈ segs, itimediff seg.resendts current = found) := by
  induction segs generalizing soonest with
  | nil =>
      obtain rfl := Option.some.inj finds
      simp
  | cons seg rest ih =>
      rw [nextTimeout] at finds
      split at finds
      · cases finds
      · obtain ⟨below, least, attained⟩ := ih finds
        rw [List.forall_mem_cons]
        split at below
        case isTrue sooner =>
          rw [if_pos sooner] at attained
          refine ⟨by omega, ⟨below, least⟩, .inr ?_⟩
          rcases attained with same | ⟨other, inside, same⟩
          · exact ⟨seg, List.mem_cons_self, same.symm⟩
          · exact ⟨other, List.mem_cons_of_mem seg inside, same⟩
        case isFalse later =>
          rw [if_neg later] at attained
          refine ⟨below, ⟨by omega, least⟩, ?_⟩
          rcases attained with same | ⟨other, inside, same⟩
          · exact .inl same
          · exact .inr ⟨other, List.mem_cons_of_mem seg inside, same⟩

/-! ## Time that passes -/

/-- A moment ahead is closer by the time that has passed. -/
theorem itimediff_add {time : IUINT32} {elapsed : Nat}
    (early : (elapsed : Int) ≤ itimediff time current) :
    itimediff time (current + BitVec.ofNat 32 elapsed) =
      itimediff time current - elapsed := by
  have bound := BitVec.toInt_lt (x := time - current)
  have split : time - (current + BitVec.ofNat 32 elapsed) =
      time - current - BitVec.ofNat 32 elapsed := by
    bv_omega
  rw [itimediff, serialDiff] at early ⊢
  rw [itimediff, serialDiff, split, BitVec.toInt_sub, BitVec.toInt_ofNat',
    Int.sub_bmod_bmod]
  apply Int.bmod_eq_of_le
  · omega
  · omega

/-- The other way round a difference has the other sign. -/
theorem itimediff_comm {time : IUINT32}
    (near : -10000 ≤ itimediff time current) :
    itimediff current time = -itimediff time current := by
  have bound := BitVec.toInt_lt (x := time - current)
  have turned : current - time = -(time - current) := by
    bv_omega
  rw [itimediff, serialDiff] at near ⊢
  rw [itimediff, serialDiff, turned, BitVec.toInt_neg]
  apply Int.bmod_eq_of_le
  · omega
  · omega

/-- When an update flushes. -/
theorem flushes_iff (kcp : IkcpCb) (time : IUINT32) :
    Flushes kcp time ↔ kcp.updated = false ∨
      0 ≤ itimediff time kcp.tsFlush ∨
        itimediff time kcp.tsFlush < -10000 := by
  have same : itimediff time time = 0 := by
    simp [itimediff, serialDiff]
  rw [Flushes, schedule]
  cases updated : kcp.updated with
  | false => simp [same]
  | true =>
      simp only [if_true]
      by_cases late : 10000 ≤ itimediff time kcp.tsFlush ∨
          itimediff time kcp.tsFlush < -10000
      · rw [if_pos (.inl late)]
        simp only [true_iff]
        omega
      · simp only [late, if_false, false_or]
        by_cases reached : 0 ≤ itimediff time kcp.tsFlush
        · simp [reached]
        · simp only [reached, if_false]
          simp
          omega

/-! ## What is told -/

/-- The time told is `wait` ahead. -/
structure Waits (kcp : IkcpCb) (current : IUINT32) (wait : Nat) : Prop where
  told : ikcpCheck kcp current = current + BitVec.ofNat 32 wait
  updated : kcp.updated = true
  interval : wait ≤ kcp.snd.interval.toNat
  near : itimediff kcp.tsFlush current ≤ 10000
  turned : itimediff current kcp.tsFlush = -itimediff kcp.tsFlush current
  flush : (wait : Int) ≤ itimediff kcp.tsFlush current
  least : ∀ seg ∈ kcp.snd.sndBuf, (wait : Int) ≤ itimediff seg.resendts current
  reason : wait = kcp.snd.interval.toNat ∨
    itimediff kcp.tsFlush current = wait ∨
      ∃ seg ∈ kcp.snd.sndBuf, itimediff seg.resendts current = wait

/-- The shortest of the times that `ikcp_check` compares. -/
theorem exists_wait {interval : IUINT32} {tmPacket tmFlush : Int}
    (packet : 0 < tmPacket) (flush : 0 < tmFlush) (near : tmFlush ≤ 10000) :
    ∃ wait : Nat,
      (if interval ≤ BitVec.ofInt 32
          (if tmPacket < tmFlush then tmPacket else tmFlush) then interval
        else BitVec.ofInt 32
          (if tmPacket < tmFlush then tmPacket else tmFlush)) =
        BitVec.ofNat 32 wait ∧
      wait ≤ interval.toNat ∧ (wait : Int) ≤ tmPacket ∧
      (wait : Int) ≤ tmFlush ∧
      (wait = interval.toNat ∨ tmFlush = wait ∨
        tmPacket = wait ∧ tmPacket < tmFlush) := by
  obtain ⟨least, isLeast, below, under, reason⟩ : ∃ least : Nat,
      (if tmPacket < tmFlush then tmPacket else tmFlush) = (least : Int) ∧
        (least : Int) ≤ tmPacket ∧ (least : Int) ≤ tmFlush ∧
        (tmFlush = least ∨ tmPacket = least ∧ tmPacket < tmFlush) := by
    refine ⟨(if tmPacket < tmFlush then tmPacket else tmFlush).toNat, ?_⟩
    split
    · omega
    · omega
  have small : least < 2 ^ 32 := by omega
  rw [isLeast, BitVec.ofInt_natCast]
  by_cases shorter : interval ≤ BitVec.ofNat 32 least
  · rw [if_pos shorter]
    rw [BitVec.le_def, BitVec.toNat_ofNat, Nat.mod_eq_of_lt small] at shorter
    exact ⟨interval.toNat, by rw [BitVec.ofNat_toNat, BitVec.setWidth_eq], Nat.le_refl _,
      by omega, by omega, .inl rfl⟩
  · rw [if_neg shorter]
    rw [BitVec.le_def, BitVec.toNat_ofNat, Nat.mod_eq_of_lt small] at shorter
    exact ⟨least, rfl, by omega, below, under, .inr reason⟩

/-- Either it is time already, or there is something to wait for. -/
theorem ikcpCheck_cases (kcp : IkcpCb) (current : IUINT32) :
    ikcpCheck kcp current = current ∧
        (Flushes kcp current ∨ TimesOut kcp current) ∨
      ∃ wait, Waits kcp current wait := by
  have flushes := flushes_iff kcp current
  by_cases fresh : kcp.updated = false
  · rw [ikcpCheck, if_pos fresh]
    exact .inl ⟨rfl, .inl (flushes.mpr (.inl fresh))⟩
  have awake : kcp.updated = true := eq_true_of_ne_false fresh
  by_cases late : 10000 ≤ itimediff current kcp.tsFlush ∨
      itimediff current kcp.tsFlush < -10000
  · have same : itimediff current current = 0 := by
      simp [itimediff, serialDiff]
    simp only [ikcpCheck, awake, Bool.true_eq_false, late, same, if_true, if_false, le_refl,
      true_and]
    exact .inl (.inl (flushes.mpr (.inr (by omega))))
  by_cases reached : 0 ≤ itimediff current kcp.tsFlush
  · simp only [ikcpCheck, awake, Bool.true_eq_false, late, reached, if_true, if_false, true_and]
    exact .inl (.inl (flushes.mpr (.inr (.inl reached))))
  cases found : nextTimeout current kcp.snd.sndBuf intMax with
  | none =>
      simp only [ikcpCheck, awake, Bool.true_eq_false, late, reached, found, if_false, true_and]
      exact .inl (.inr ((nextTimeout_eq_none_iff _ _).mp found))
  | some tmPacket =>
      right
      obtain ⟨most, least, attained⟩ := nextTimeout_spec found
      have turned := @itimediff_comm kcp.tsFlush current (by omega)
      have packet : 0 < tmPacket := by
        rcases attained with rfl | ⟨seg, inside, same⟩
        · decide
        · by_contra isDue
          have timesOut : itimediff seg.resendts current ≤ 0 := by omega
          have stops := (nextTimeout_eq_none_iff kcp.snd.sndBuf intMax).mpr
            ⟨seg, inside, timesOut⟩
          rw [found] at stops
          cases stops
      obtain ⟨wait, told, interval, below, under, reason⟩ :=
        @exists_wait kcp.snd.interval tmPacket
          (itimediff kcp.tsFlush current) packet (by omega) (by omega)
      refine ⟨wait, ?_⟩
      constructor
      case told =>
        simp only [ikcpCheck, awake, Bool.true_eq_false, late, reached, found, if_false]
        rw [told]
      case updated => exact awake
      case interval => exact interval
      case near => omega
      case turned => omega
      case flush => exact under
      case least =>
        intro seg inside
        have := least seg inside
        omega
      case reason =>
        rcases reason with same | same | ⟨same, sooner⟩
        · exact .inl same
        · exact .inr (.inl same)
        · right
          right
          rcases attained with far | ⟨seg, inside, isPacket⟩
          · rw [intMax] at far
            omega
          · exact ⟨seg, inside, isPacket.trans same⟩

/-! ## Ranges -/

/-- The flush interval and the timeouts of the send side. -/
structure TimeoutsInRange (snd : SendSide) : Prop where
  interval : 10 ≤ snd.interval.toNat ∧ snd.interval.toNat ≤ 5000
  minrto : 30 ≤ snd.rxMinrto.toNat ∧ snd.rxMinrto.toNat ≤ 60000
  rto : 30 ≤ snd.rxRto ∧ snd.rxRto ≤ 60000

variable {snd after : SendSide}

/-- The flush interval and the timeouts have not changed. -/
structure KeepsTimers (before after : SendSide) : Prop where
  interval : after.interval = before.interval
  minrto : after.rxMinrto = before.rxMinrto
  rto : after.rxRto = before.rxRto

theorem KeepsTimers.refl (snd : SendSide) : KeepsTimers snd snd :=
  ⟨rfl, rfl, rfl⟩

theorem KeepsTimers.trans {last : SendSide} (first : KeepsTimers snd after)
    (second : KeepsTimers after last) : KeepsTimers snd last :=
  ⟨second.interval.trans first.interval, second.minrto.trans first.minrto,
    second.rto.trans first.rto⟩

theorem TimeoutsInRange.keep (inRange : TimeoutsInRange snd)
    (keeps : KeepsTimers snd after) : TimeoutsInRange after where
  interval := keeps.interval ▸ inRange.interval
  minrto := keeps.minrto ▸ inRange.minrto
  rto := keeps.rto ▸ inRange.rto

theorem keepsTimers_shrinkBuf (snd : SendSide) :
    KeepsTimers snd (ikcpShrinkBuf snd) := by
  rw [ikcpShrinkBuf]
  split <;> exact ⟨rfl, rfl, rfl⟩

theorem keepsTimers_parseAck (snd : SendSide) (sn : IUINT32) :
    KeepsTimers snd (ikcpParseAck snd sn) := by
  rw [ikcpParseAck]
  split <;> exact ⟨rfl, rfl, rfl⟩

theorem keepsTimers_parseFastack (snd : SendSide) (sn : IUINT32) :
    KeepsTimers snd (ikcpParseFastack snd sn) := by
  rw [ikcpParseFastack]
  split <;> exact ⟨rfl, rfl, rfl⟩

theorem keepsTimers_growCwnd (snd : SendSide) (prevUna : IUINT32) :
    KeepsTimers snd (growCwnd snd prevUna) := by
  rw [growCwnd]
  dsimp only
  split_ifs <;> exact ⟨rfl, rfl, rfl⟩

theorem keepsTimers_shrinkCwnd (snd : SendSide) (resent cwnd : IUINT32)
    (change lost : Bool) :
    KeepsTimers snd (shrinkCwnd snd resent cwnd change lost) := by
  rw [shrinkCwnd]
  dsimp only
  split_ifs <;> exact ⟨rfl, rfl, rfl⟩

theorem keepsTimers_moveQueued (conv una cwnd : IUINT32) (wnd queued : Nat)
    (snd : SendSide) :
    KeepsTimers snd (moveQueued conv wnd una cwnd queued snd) := by
  induction queued generalizing snd with
  | zero => exact .refl snd
  | succ queued ih =>
      rw [moveQueued]
      split
      · split
        case h_1 next moved moves =>
          have one : KeepsTimers snd next := by
            rw [Ikcp.moveToSndBuf] at moves
            split at moves
            · cases moves
            · simp only [Option.some.injEq, Prod.mk.injEq] at moves
              obtain ⟨rfl, -⟩ := moves
              exact ⟨rfl, rfl, rfl⟩
          exact one.trans (ih next)
        case h_2 => exact .refl snd
      · exact .refl snd

theorem keepsTimers_appendToLast (snd : SendSide) (buffer : List UInt8) :
    KeepsTimers snd (Ikcp.appendToLast snd buffer).1 := by
  rw [Ikcp.appendToLast]
  split
  · exact .refl snd
  · split <;> exact ⟨rfl, rfl, rfl⟩

theorem keepsTimers_send (snd : SendSide) (buffer : List UInt8) :
    KeepsTimers snd (ikcpSend snd buffer).2 := by
  have started : KeepsTimers snd (if snd.stream then
      Ikcp.appendToLast snd buffer else (snd, buffer)).1 := by
    split
    · exact keepsTimers_appendToLast snd buffer
    · exact .refl snd
  rw [ikcpSend]
  generalize (if snd.stream then Ikcp.appendToLast snd buffer
    else (snd, buffer)) = x at started
  dsimp only
  generalize (if x.2.length ≤ x.1.mss then 1
    else (x.2.length + x.1.mss - 1) / x.1.mss) = count
  by_cases filled : snd.stream = true ∧ x.2.length = 0
  · rw [if_pos filled]
    exact started
  · rw [if_neg filled]
    by_cases many : ikcpWndRcv ≤ count
    · rw [if_pos many]
      exact started
    · rw [if_neg many]
      exact { started with }

/-- `_ibound_` keeps what it bounds between its bounds. -/
theorem ibound_range {lower middle upper : IUINT32}
    (ordered : lower.toNat ≤ upper.toNat) :
    lower.toNat ≤ (ibound lower middle upper).toNat ∧
      (ibound lower middle upper).toNat ≤ upper.toNat := by
  have above : lower.toNat ≤ (imax lower middle).toNat := by
    rw [imax]
    split
    · exact Nat.le_refl _
    case isFalse below =>
      rw [BitVec.le_def] at below
      omega
  rw [ibound, imin]
  split
  case isTrue within => exact ⟨above, within⟩
  case isFalse => exact ⟨ordered, Nat.le_refl _⟩

theorem TimeoutsInRange.updateAck (inRange : TimeoutsInRange snd) (rtt : Int) :
    TimeoutsInRange (ikcpUpdateAck snd rtt) := by
  have bounded : ∀ rto : IUINT32,
      30 ≤ (ibound snd.rxMinrto rto ikcpRtoMax).toInt ∧
        (ibound snd.rxMinrto rto ikcpRtoMax).toInt ≤ 60000 := by
    intro rto
    obtain ⟨low, high⟩ := inRange.minrto
    have maximum : ikcpRtoMax.toNat = 60000 := rfl
    obtain ⟨least, most⟩ := @ibound_range snd.rxMinrto rto ikcpRtoMax
      (by omega)
    rw [maximum] at most
    have positive : 2 * (ibound snd.rxMinrto rto ikcpRtoMax).toNat < 2 ^ 32 := by
      omega
    rw [BitVec.toInt_eq_toNat_of_lt positive]
    omega
  rw [ikcpUpdateAck]
  by_cases first : snd.rxSrtt = 0
  · simp only [first, if_true]
    exact ⟨inRange.interval, inRange.minrto, bounded _⟩
  · simp only [first, if_false]
    exact ⟨inRange.interval, inRange.minrto, bounded _⟩

theorem TimeoutsInRange.inputSegment {kcp : Ikcp.IkcpCb}
    (inRange : TimeoutsInRange kcp.snd) (maxack : Option IUINT32)
    (header : Header) (data : List UInt8) :
    TimeoutsInRange (Ikcp.inputSegment kcp maxack header data).1.snd := by
  have told : KeepsTimers kcp.snd (ikcpShrinkBuf (ikcpParseUna
      { kcp.snd with rmtWnd := BitVec.ofNat 32 header.wnd } header.una)) := by
    apply KeepsTimers.trans _ (keepsTimers_shrinkBuf _)
    exact ⟨rfl, rfl, rfl⟩
  have below := inRange.keep told
  by_cases isAck : header.cmd = ikcpCmdAck
  · simp only [Ikcp.inputSegment, isAck, if_true]
    have acked : ∀ snd, TimeoutsInRange snd →
        TimeoutsInRange (ikcpShrinkBuf (ikcpParseAck snd header.sn)) :=
      fun snd inRange => (inRange.keep (keepsTimers_parseAck snd _)).keep
        (keepsTimers_shrinkBuf _)
    split
    · exact acked _ (below.updateAck _)
    · exact acked _ below
  · simp only [Ikcp.inputSegment, isAck, if_false]
    split
    · exact below
    · split <;> exact below

/-- `ikcp_interval` and `ikcp_nodelay` bring an interval into range. -/
theorem interval_inRange (interval : Int) :
    10 ≤ (BitVec.ofInt 32 (if 5000 < interval then 5000
        else if interval < 10 then 10 else interval)).toNat ∧
      (BitVec.ofInt 32 (if 5000 < interval then 5000
        else if interval < 10 then 10 else interval)).toNat ≤ 5000 := by
  rw [BitVec.toNat_ofInt]
  split_ifs
  · decide
  · decide
  · omega

theorem TimeoutsInRange.nodelay {kcp : Ikcp.IkcpCb}
    (inRange : TimeoutsInRange kcp.snd) (mode interval resend nc : Int) :
    TimeoutsInRange
      (Ikcp.ikcpNodelay kcp mode interval resend nc).snd := by
  have paced : ∀ snd : SendSide, TimeoutsInRange snd →
      TimeoutsInRange (if 0 ≤ interval then
        { snd with
          interval := BitVec.ofInt 32 (if 5000 < interval then 5000
            else if interval < 10 then 10 else interval) }
        else snd) := by
    intro snd inRange
    split
    · exact { inRange with interval := interval_inRange interval }
    · exact inRange
  have limited : TimeoutsInRange (if 0 ≤ mode then
      { kcp.snd with
        nodelay := BitVec.ofInt 32 mode
        rxMinrto := if mode ≠ 0 then ikcpRtoNdl else ikcpRtoMin }
      else kcp.snd) := by
    split
    · refine { inRange with minrto := ?_ }
      dsimp only
      split
      · exact show 30 ≤ ikcpRtoNdl.toNat ∧ ikcpRtoNdl.toNat ≤ 60000 by decide
      · exact show 30 ≤ ikcpRtoMin.toNat ∧ ikcpRtoMin.toNat ≤ 60000 by decide
    · exact inRange
  have both := paced _ limited
  rw [Ikcp.ikcpNodelay]
  dsimp only
  generalize (if 0 ≤ interval then _ else _ : SendSide) = snd at both ⊢
  split_ifs <;> exact { both with }

/-- The next wait for the window of the other end: half as long again. -/
theorem nextWait_inRange {wait : IUINT32} (most : wait.toNat ≤ 120000) :
    7000 ≤ (imin (imax wait ikcpProbeInit + imax wait ikcpProbeInit / 2)
        ikcpProbeLimit).toNat ∧
      (imin (imax wait ikcpProbeInit + imax wait ikcpProbeInit / 2)
        ikcpProbeLimit).toNat ≤ 120000 := by
  have first : ikcpProbeInit.toNat = 7000 := rfl
  have last : ikcpProbeLimit.toNat = 120000 := rfl
  have least : 7000 ≤ (imax wait ikcpProbeInit).toNat ∧
      (imax wait ikcpProbeInit).toNat ≤ 120000 := by
    rw [imax]
    split
    case isTrue above =>
      rw [BitVec.le_def] at above
      omega
    case isFalse => omega
  generalize imax wait ikcpProbeInit = longest at least
  have sum : (longest + longest / 2).toNat =
      longest.toNat + longest.toNat / 2 := by
    rw [BitVec.toNat_add, BitVec.toNat_udiv]
    have two : (2 : IUINT32).toNat = 2 := rfl
    rw [two]
    apply Nat.mod_eq_of_lt
    omega
  rw [imin]
  split
  case isTrue below =>
    rw [BitVec.le_def] at below
    omega
  case isFalse => omega

/-- `probe_wait` is zero or in range. -/
def ProbeInRange (wait : IUINT32) : Prop :=
  wait = 0 ∨ 7000 ≤ wait.toNat ∧ wait.toNat ≤ 120000

theorem ProbeInRange.probeWindow (inRange : ProbeInRange kcp.probeWait) :
    ProbeInRange (probeWindow kcp).probeWait := by
  have most : kcp.probeWait.toNat ≤ 120000 := by
    rcases inRange with none | ⟨-, most⟩
    · rw [none]
      decide
    · exact most
  rw [CommonIkcp.probeWindow]
  dsimp only
  split_ifs
  · exact .inr (show 7000 ≤ ikcpProbeInit.toNat ∧
      ikcpProbeInit.toNat ≤ 120000 by decide)
  · exact .inr (nextWait_inRange most)
  · exact inRange
  · exact .inl rfl

/-! ## Whole runs -/

/-- The timer values that the functions keep in range. -/
structure TimersInRange (kcp : IkcpCb) : Prop where
  timeouts : TimeoutsInRange kcp.snd
  probe : ProbeInRange kcp.probeWait

theorem TimersInRange.flush (inRange : TimersInRange kcp)
    {sent : List (List UInt8)}
    (flushes : ikcpFlush kcp = some (sent, next)) : TimersInRange next := by
  rcases ikcpFlush_cases flushes with ⟨-, -, rfl⟩ | ⟨-, -, rfl⟩
  · exact inRange
  · obtain ⟨-, snd, -⟩ := flushCommands_frame kcp
    have asked : ProbeInRange (flushCommands kcp).2.probeWait :=
      ProbeInRange.probeWindow inRange.probe
    generalize (flushCommands kcp).1 = out
    generalize (flushCommands kcp).2 = probed at snd asked
    have moved : KeepsTimers kcp.snd
        (restartPeriod { probed with snd := afterMoving probed }).snd := by
      obtain ⟨-, same, -⟩ :=
        restartPeriod_frame { probed with snd := afterMoving probed }
      rw [same, ← snd]
      exact keepsTimers_moveQueued _ _ _ _ _ _
    constructor
    case timeouts =>
      apply inRange.timeouts.keep
      apply KeepsTimers.trans _ (keepsTimers_shrinkCwnd _ _ _ _ _)
      exact { moved with }
    case probe =>
      have same : (restartPeriod
          { probed with snd := afterMoving probed }).probeWait =
          probed.probeWait := by
        rw [restartPeriod]
        split <;> rfl
      have kept : (flushBehind probed out).2.probeWait =
          probed.probeWait := same
      rw [kept]
      exact asked

theorem TimersInRange.update (inRange : TimersInRange kcp)
    {sent : List (List UInt8)}
    (updates : ikcpUpdate kcp current = some (sent, next)) :
    TimersInRange next := by
  have scheduled : TimersInRange (schedule kcp current).2 := by
    rw [schedule]
    dsimp only
    split_ifs <;> exact ⟨{ inRange.timeouts with }, inRange.probe⟩
  rw [ikcpUpdate, Option.map_eq_some_iff] at updates
  obtain ⟨⟨packets, flushed⟩, flushes, returns⟩ := updates
  obtain ⟨rfl, rfl⟩ := Prod.mk.inj returns
  have kept : TimersInRange flushed := by
    split at flushes
    · exact scheduled.flush flushes
    · exact (Prod.mk.inj (Option.some.inj flushes)).2 ▸ scheduled
  rw [measureTraffic]
  split_ifs <;> exact ⟨kept.timeouts, kept.probe⟩

theorem TimersInRange.input (inRange : TimersInRange kcp)
    (data : List UInt8) : TimersInRange (ikcpInput kcp data).2 := by
  have looped : TimersInRange (inputLoop kcp none data).2.1 := by
    apply inputLoop_invariant _ inRange
    intro kcp maxack header data rxBytesTotal inRange _
    exact ⟨inRange.timeouts.inputSegment maxack header data, inRange.probe⟩
  rw [ikcpInput]
  split
  · exact inRange
  · dsimp only
    split
    · exact looped
    · refine ⟨looped.timeouts.keep ?_, looped.probe⟩
      apply KeepsTimers.trans _ (keepsTimers_growCwnd _ _)
      split
      · exact keepsTimers_parseFastack _ _
      · exact .refl _

theorem TimersInRange.call (inRange : TimersInRange kcp) {label : Call}
    (returns : call kcp label = some next) : TimersInRange next := by
  obtain ⟨timeouts, probe⟩ := inRange
  cases label with
  | send buffer =>
      obtain rfl := Option.some.inj returns
      exact ⟨timeouts.keep (keepsTimers_send _ buffer), probe⟩
  | input data =>
      obtain rfl := Option.some.inj returns
      exact TimersInRange.input ⟨timeouts, probe⟩ data
  | recv len =>
      obtain rfl := Option.some.inj returns
      obtain ⟨-, same⟩ := ikcpRecv_frame kcp.toIkcpCb len
      exact ⟨same ▸ timeouts, probe⟩
  | update current =>
      obtain ⟨⟨sent, kcp⟩, updates, rfl⟩ := Option.map_eq_some_iff.mp returns
      exact TimersInRange.update ⟨timeouts, probe⟩ updates
  | flush =>
      obtain ⟨⟨sent, kcp⟩, flushes, rfl⟩ := Option.map_eq_some_iff.mp returns
      exact TimersInRange.flush ⟨timeouts, probe⟩ flushes
  | setmtu mtu =>
      obtain rfl := Option.some.inj returns
      rw [ikcpSetmtu]
      split
      · exact ⟨timeouts, probe⟩
      · exact ⟨{ timeouts with }, probe⟩
  | interval time =>
      obtain rfl := Option.some.inj returns
      exact ⟨{ timeouts with interval := interval_inRange time }, probe⟩
  | nodelay mode time resend nc =>
      obtain rfl := Option.some.inj returns
      exact ⟨timeouts.nodelay mode time resend nc, probe⟩
  | wndsize sndwnd rcvwnd =>
      obtain rfl := Option.some.inj returns
      refine ⟨timeouts.keep ?_, probe⟩
      rw [ikcpWndsize, Ikcp.ikcpWndsize]
      dsimp only
      split_ifs <;> exact ⟨rfl, rfl, rfl⟩
  | setLossPeriod periodMs =>
      obtain rfl := Option.some.inj returns
      exact ⟨timeouts, probe⟩

theorem timersInRange_fresh (fresh : Fresh kcp) : TimersInRange kcp := by
  obtain ⟨conv, stream, fastlimit, deadLink, rfl⟩ := fresh
  constructor
  case timeouts =>
    constructor
    case interval =>
      exact show 10 ≤ (100 : IUINT32).toNat ∧
        (100 : IUINT32).toNat ≤ 5000 by decide
    case minrto =>
      exact show 30 ≤ ikcpRtoMin.toNat ∧ ikcpRtoMin.toNat ≤ 60000 by decide
    case rto => exact show 30 ≤ ikcpRtoDef ∧ ikcpRtoDef ≤ 60000 by decide
  case probe => exact .inl rfl

theorem InUse.timersInRange (inUse : InUse kcp) : TimersInRange kcp :=
  inUse.invariant TimersInRange (fun _ => timersInRange_fresh)
    (fun _ _ _ inRange _ returns => inRange.call returns)

/-- An update that does not flush passes nothing to the output. -/
theorem ikcpUpdate_quiet {time : IUINT32} (quiet : ¬ Flushes kcp time) :
    ∃ after, ikcpUpdate kcp time = some ([], after) := by
  rw [Flushes] at quiet
  rw [ikcpUpdate]
  dsimp only
  rw [if_neg quiet]
  exact ⟨_, rfl⟩

/-- What `ikcp_check` tells is at most 5000 milliseconds ahead.  Before it no
update passes anything to the output and no segment is due; when it has come,
an update flushes, a segment is due, or the flush interval is over. -/
theorem ikcpCheck_exact (inUse : InUse kcp) (current : IUINT32) :
    (ikcpCheck kcp current - current).toNat ≤ 5000 ∧
      (∀ elapsed < (ikcpCheck kcp current - current).toNat,
        (∃ after, ikcpUpdate kcp (current + BitVec.ofNat 32 elapsed) =
            some ([], after)) ∧
          ¬ TimesOut kcp (current + BitVec.ofNat 32 elapsed)) ∧
      (Flushes kcp (ikcpCheck kcp current) ∨
        TimesOut kcp (ikcpCheck kcp current) ∨
        ikcpCheck kcp current = current + kcp.snd.interval) := by
  have pace := inUse.timersInRange.timeouts.interval
  rcases ikcpCheck_cases kcp current with ⟨now, reason⟩ | ⟨wait, waits⟩
  · rw [now, BitVec.sub_self]
    refine ⟨Nat.zero_le _, ?_, ?_⟩
    · intro elapsed none
      exact absurd none (Nat.not_lt_zero _)
    · rcases reason with flushes | timesOut
      · exact .inl flushes
      · exact .inr (.inl timesOut)
  · have interval := waits.interval
    have ahead : (ikcpCheck kcp current - current).toNat = wait := by
      rw [waits.told, BitVec.add_comm, BitVec.add_sub_cancel,
        BitVec.toNat_ofNat]
      apply Nat.mod_eq_of_lt
      omega
    rw [ahead]
    refine ⟨by omega, ?_, ?_⟩
    · intro elapsed early
      have flush := waits.flush
      have near := waits.near
      have left := @itimediff_add current kcp.tsFlush elapsed (by omega)
      have turned := @itimediff_comm _ kcp.tsFlush
        (by rw [left]; omega)
      constructor
      · apply ikcpUpdate_quiet
        rw [flushes_iff, turned, left]
        simp only [waits.updated, Bool.true_eq_false, false_or]
        omega
      · rintro ⟨seg, inside, isDue⟩
        have least := waits.least seg inside
        rw [itimediff_add (by omega)] at isDue
        omega
    · rw [waits.told]
      rcases waits.reason with same | same | ⟨seg, inside, same⟩
      · right
        right
        rw [same, BitVec.ofNat_toNat, BitVec.setWidth_eq]
      · left
        have left := @itimediff_add current kcp.tsFlush wait (by omega)
        rw [same, Int.sub_self] at left
        have turned := @itimediff_comm _ kcp.tsFlush (by rw [left]; omega)
        rw [flushes_iff, turned, left]
        exact .inr (.inl (Int.le_refl 0))
      · right
        left
        refine ⟨seg, inside, ?_⟩
        rw [itimediff_add (by omega), same, Int.sub_self]

/-- After an update at time 0, one at 30 is told to wait until 100. -/
theorem ikcpCheck_paced : ∃ kcp, InUse kcp ∧ ikcpCheck kcp 30 = 100 ∧
    ∀ elapsed < 70, ∃ after,
      ikcpUpdate kcp (30 + BitVec.ofNat 32 elapsed) = some ([], after) := by
  have paced : ((run call (ikcpCreate 0) [.send [1], .update 0]).any fun kcp =>
      ikcpCheck kcp 30 = 100) = true := by
    decide +kernel
  obtain ⟨kcp, runs, checked⟩ := (Option.any_eq_true _ _).1 paced
  have fresh : Fresh (ikcpCreate 0) := ⟨0, false, 5, 20, rfl⟩
  have inUse : InUse kcp := (Reachable.start fresh).append_run
    (stepsMeet_of_forall (by simp [Call.Valid, intMax]) _) runs
  have told := of_decide_eq_true checked
  have quiet := (ikcpCheck_exact inUse 30).2.1
  rw [told] at quiet
  exact ⟨kcp, inUse, told, fun elapsed early => (quiet elapsed early).1⟩

end CommonIkcp

end MbedtlsKcp
