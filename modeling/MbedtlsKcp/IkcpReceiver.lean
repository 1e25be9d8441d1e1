import Mathlib.Data.List.Infix
import MbedtlsKcp.Ikcp

/-!
# What reaches the receive queue

A message is cut into pieces that count down to zero, so that a receiver can
tell where it ends.  The wire format gives back every segment a datagram was
built from, and the receive queue is always the next part of the peer's
numbered segments, in order and without gaps.
-/

namespace MbedtlsKcp

namespace Ikcp

open ByteBuffers SerialNumbers

/-! ## Pieces of a message -/

/-- What a segment carries of its message. -/
def Seg.piece (seg : Seg) : Nat × List UInt8 :=
  (seg.frg, seg.data)

/-- The number of segments `ikcp_send` makes of a message. -/
def pieceCount (mss length : Nat) : Nat :=
  if length ≤ mss then 1 else (length + mss - 1) / mss

/-- The pieces `ikcp_send` queues for a message. -/
def messagePieces (mss : Nat) (message : List UInt8) :
    List (Nat × List UInt8) :=
  (fragment mss (pieceCount mss message.length) message).map Seg.piece

theorem length_fragment (mss count : Nat) (buffer : List UInt8) :
    (fragment mss count buffer).length = count := by
  induction count generalizing buffer with
  | zero => rfl
  | succ count ih => rw [fragment, List.length_cons, ih]

theorem pieceCount_pos (mss length : Nat) (positive : 0 < mss) :
    0 < pieceCount mss length := by
  rw [pieceCount]
  split
  case isTrue => exact Nat.one_pos
  case isFalse long => exact Nat.div_pos (by omega) positive

theorem length_le_pieceCount (mss length : Nat) (positive : 0 < mss) :
    length ≤ pieceCount mss length * mss := by
  rw [pieceCount]
  split
  case isTrue short => omega
  case isFalse =>
    have := Nat.div_add_mod (length + mss - 1) mss
    have := Nat.mod_lt (length + mss - 1) positive
    have := Nat.mul_comm mss ((length + mss - 1) / mss)
    omega

@[simp]
theorem length_messagePieces (mss : Nat) (message : List UInt8) :
    (messagePieces mss message).length = pieceCount mss message.length := by
  rw [messagePieces, List.length_map, length_fragment]

/-- In message mode `ikcp_send` queues the pieces of the message, or nothing
when there would be more than 255. -/
theorem ikcpSend_message {snd : SendSide} (message : List UInt8)
    (positive : 0 < snd.mss) (messages : snd.stream = false) :
    ikcpSend snd message =
      if 255 < pieceCount snd.mss message.length then
        (-2, snd)
      else
        (0, { snd with
                sndQueue := snd.sndQueue ++ fragment snd.mss
                  (pieceCount snd.mss message.length) message
                nsndQue := snd.nsndQue +
                  pieceCount snd.mss message.length }) := by
  have count := pieceCount_pos snd.mss message.length positive
  have some : pieceCount snd.mss message.length ≠ 0 := by omega
  rw [ikcpSend]
  simp only [messages, Bool.false_eq_true, if_false, false_and, unnumbered]
  rw [← pieceCount, if_neg some]

/-- Merging the pieces of a buffer gives the buffer back and takes exactly
those pieces. -/
theorem mergeFragments_of_pieces {mss count : Nat} {buffer : List UInt8}
    {queue : List Seg} {rest : List (Nat × List UInt8)}
    (pieces : queue.map Seg.piece =
      (fragment mss (count + 1) buffer).map Seg.piece ++ rest) :
    mergeFragments queue =
      (buffer.take ((count + 1) * mss), queue.drop (count + 1), count + 1) := by
  induction count generalizing buffer queue with
  | zero =>
      cases queue with
      | nil => simp [fragment] at pieces
      | cons seg queue =>
          simp only [fragment, List.map_cons, List.map_nil, List.cons_append,
            List.cons.injEq, Seg.piece, Prod.mk.injEq] at pieces
          rw [mergeFragments, if_pos pieces.1.1, pieces.1.2]
          simp
  | succ count ih =>
      cases queue with
      | nil => simp [fragment] at pieces
      | cons seg queue =>
          rw [fragment] at pieces
          simp only [List.map_cons, List.cons_append, List.cons.injEq,
            Seg.piece, Prod.mk.injEq] at pieces
          have more : seg.frg ≠ 0 := by
            rw [pieces.1.1]
            exact Nat.succ_ne_zero count
          rw [mergeFragments, if_neg more, ih pieces.2, pieces.1.2]
          simp only [List.drop_succ_cons, Prod.mk.injEq, and_true]
          rw [Nat.succ_mul (count + 1) mss, Nat.add_comm _ mss,
            List.take_add]

theorem fragmentsLen_eq (queue : List Seg) :
    fragmentsLen queue = (mergeFragments queue).1.length := by
  induction queue with
  | nil => rfl
  | cons seg rest ih =>
      rw [fragmentsLen, mergeFragments]
      split
      · rfl
      · rw [List.length_append, ih]

/-! ## The wire format -/

theorem loadLE_of_append {before after : List UInt8}
    {width value position : Nat} (placed : before.length = position) :
    loadLE (before ++ (encodeLE width value ++ after)) position width =
      value % 256 ^ width := by
  subst placed
  rw [loadLE, slice, List.drop_left,
    List.take_left' (length_encodeLE width value), decodeLE_encodeLE]

/-- A segment as the receiver rebuilds it from the wire. -/
def Seg.wire (seg : Seg) : Seg :=
  { conv := seg.conv, cmd := seg.cmd, frg := seg.frg, wnd := seg.wnd
    ts := seg.ts, sn := seg.sn, una := seg.una, data := seg.data }

/-- The fields fit their places on the wire. -/
structure Seg.Fits (seg : Seg) : Prop where
  cmd : seg.cmd < 256
  frg : seg.frg < 256
  wnd : seg.wnd < 65536
  len : seg.data.length < 2 ^ 32

/-- The header of a segment. -/
def Seg.header (seg : Seg) : Header where
  conv := seg.conv
  cmd := seg.cmd
  frg := seg.frg
  wnd := seg.wnd
  ts := seg.ts
  sn := seg.sn
  una := seg.una
  len := seg.data.length

theorem ofNat_toNat_mod (value : IUINT32) :
    BitVec.ofNat 32 (value.toNat % 256 ^ 4) = value := by
  have := value.isLt
  rw [Nat.mod_eq_of_lt (by simpa using this), BitVec.ofNat_toNat,
    BitVec.setWidth_eq]

theorem decodeHeader_encode {seg : Seg} (fits : seg.Fits)
    (after : List UInt8) :
    decodeHeader (ikcpEncodeSeg seg ++ after) = seg.header := by
  have cmd := fits.cmd
  have frg := fits.frg
  have wnd := fits.wnd
  have len := fits.len
  have field : ∀ before after' width value position,
      before.length = position →
      ikcpEncodeSeg seg ++ after = before ++ (encodeLE width value ++ after') →
      loadLE (ikcpEncodeSeg seg ++ after) position width =
        value % 256 ^ width := by
    intro before after' width value position placed same
    rw [same]
    exact loadLE_of_append placed
  let conv := encodeLE 4 seg.conv.toNat
  let command := conv ++ encodeLE 1 seg.cmd
  let number := command ++ encodeLE 1 seg.frg
  let window := number ++ encodeLE 2 seg.wnd
  let stamp := window ++ encodeLE 4 seg.ts.toNat
  let serial := stamp ++ encodeLE 4 seg.sn.toNat
  let oldest := serial ++ encodeLE 4 seg.una.toNat
  have convField := field [] _ 4 seg.conv.toNat 0 rfl
    (by simp only [ikcpEncodeSeg, List.append_assoc]; rfl)
  have cmdField := field conv _ 1 seg.cmd 4 (by simp [conv])
    (by simp only [ikcpEncodeSeg, conv, List.append_assoc]; rfl)
  have frgField := field command _ 1 seg.frg 5 (by simp [command, conv])
    (by simp only [ikcpEncodeSeg, command, conv, List.append_assoc]; rfl)
  have wndField := field number _ 2 seg.wnd 6
    (by simp [number, command, conv])
    (by simp only [ikcpEncodeSeg, number, command, conv, List.append_assoc]
        rfl)
  have tsField := field window _ 4 seg.ts.toNat 8
    (by simp [window, number, command, conv])
    (by simp only [ikcpEncodeSeg, window, number, command, conv,
          List.append_assoc]
        rfl)
  have snField := field stamp _ 4 seg.sn.toNat 12
    (by simp [stamp, window, number, command, conv])
    (by simp only [ikcpEncodeSeg, stamp, window, number, command, conv,
          List.append_assoc]
        rfl)
  have unaField := field serial _ 4 seg.una.toNat 16
    (by simp [serial, stamp, window, number, command, conv])
    (by simp only [ikcpEncodeSeg, serial, stamp, window, number, command,
          conv, List.append_assoc]
        rfl)
  have lenField := field oldest _ 4 seg.data.length 20
    (by simp [oldest, serial, stamp, window, number, command, conv])
    (by simp only [ikcpEncodeSeg, oldest, serial, stamp, window, number,
          command, conv, List.append_assoc]
        rfl)
  rw [decodeHeader, convField, cmdField, frgField, wndField, tsField,
    snField, unaField, lenField, ofNat_toNat_mod, ofNat_toNat_mod,
    ofNat_toNat_mod, ofNat_toNat_mod, Seg.header,
    Nat.mod_eq_of_lt (by omega), Nat.mod_eq_of_lt (by omega),
    Nat.mod_eq_of_lt (by omega), Nat.mod_eq_of_lt (by omega)]

@[simp]
theorem length_ikcpEncodeSeg (seg : Seg) :
    (ikcpEncodeSeg seg).length = ikcpOverhead + seg.data.length := by
  simp only [ikcpEncodeSeg, List.length_append, length_encodeLE, ikcpOverhead]

theorem drop_ikcpEncodeSeg (seg : Seg) (after : List UInt8) :
    (ikcpEncodeSeg seg ++ after).drop ikcpOverhead = seg.data ++ after := by
  rw [ikcpEncodeSeg, List.append_assoc]
  apply List.drop_left'
  simp only [List.length_append, length_encodeLE, ikcpOverhead]

/-- `seg.cmd` is one of the four commands of the protocol. -/
def Seg.Known (seg : Seg) : Prop :=
  seg.cmd = ikcpCmdPush ∨ seg.cmd = ikcpCmdAck ∨ seg.cmd = ikcpCmdWask ∨
    seg.cmd = ikcpCmdWins

/-- What a segment of a datagram does to the receive side. -/
def acceptSegment (rcv : ReceiveSide) (seg : Seg) : ReceiveSide :=
  if seg.cmd = ikcpCmdPush then receivePush rcv seg.wire else rcv

theorem inputSegment_conv (kcp : IkcpCb) (maxack : Option IUINT32)
    (header : Header) (data : List UInt8) :
    (inputSegment kcp maxack header data).1.conv = kcp.conv := by
  simp only [inputSegment]
  split
  · rfl
  · split
    · rfl
    · split
      · rfl
      · rfl

theorem inputSegment_rcv (kcp : IkcpCb) (maxack : Option IUINT32)
    (seg : Seg) (after : List UInt8) :
    (inputSegment kcp maxack seg.header (seg.data ++ after)).1.rcv =
      acceptSegment kcp.rcv seg := by
  have data : (seg.data ++ after).take seg.header.len = seg.data :=
    List.take_left
  have accept : acceptSegment kcp.rcv seg =
      if seg.header.cmd = ikcpCmdPush then receivePush kcp.rcv seg.wire
      else kcp.rcv :=
    rfl
  rw [accept]
  simp only [inputSegment, data]
  by_cases push : seg.header.cmd = ikcpCmdPush
  · have other : ¬ seg.header.cmd = ikcpCmdAck := by
      rw [push]
      decide
    rw [if_neg other, if_pos push, if_pos push]
    rfl
  · simp only [push, if_false]
    split
    · rfl
    · split
      · rfl
      · rfl

/-- Segments the loop of `ikcp_input` accepts. -/
structure Readable (conv : IUINT32) (seg : Seg) : Prop where
  conv : seg.conv = conv
  known : seg.Known
  fits : seg.Fits

/-- The bytes of a datagram built from segments. -/
def datagram (segs : List Seg) : List UInt8 :=
  segs.flatMap ikcpEncodeSeg

theorem datagram_cons (seg : Seg) (segs : List Seg) :
    datagram (seg :: segs) = ikcpEncodeSeg seg ++ datagram segs :=
  List.flatMap_cons

/-- `ikcp_input` reads back exactly the segments a datagram was built from. -/
theorem inputLoop_datagram {segs : List Seg} (kcp : IkcpCb)
    (maxack : Option IUINT32)
    (readable : ∀ seg ∈ segs, Readable kcp.conv seg) :
    (inputLoop kcp maxack (datagram segs)).1 = 0 ∧
      (inputLoop kcp maxack (datagram segs)).2.1.conv = kcp.conv ∧
      (inputLoop kcp maxack (datagram segs)).2.1.rcv =
        segs.foldl acceptSegment kcp.rcv := by
  induction segs generalizing kcp maxack with
  | nil =>
      rw [inputLoop]
      simp [datagram, ikcpOverhead]
  | cons seg segs ih =>
      have first := readable seg List.mem_cons_self
      have long : ¬ (datagram (seg :: segs)).length < ikcpOverhead := by
        rw [datagram_cons, List.length_append, length_ikcpEncodeSeg]
        omega
      have known : ¬ (seg.header.cmd ≠ ikcpCmdPush ∧
          seg.header.cmd ≠ ikcpCmdAck ∧ seg.header.cmd ≠ ikcpCmdWask ∧
            seg.header.cmd ≠ ikcpCmdWins) := by
        have := first.known
        simp only [Seg.Known] at this
        simp only [Seg.header]
        tauto
      have room : ¬ (seg.data ++ datagram segs).length < seg.header.len := by
        rw [List.length_append]
        exact Nat.not_lt.mpr (Nat.le_add_right _ _)
      have rest : (seg.data ++ datagram segs).drop seg.data.length =
          datagram segs :=
        List.drop_left
      rw [inputLoop, dif_neg long]
      simp only [datagram_cons, decodeHeader_encode first.fits,
        drop_ikcpEncodeSeg]
      rw [if_neg (by simpa [Seg.header] using first.conv), if_neg room,
        if_neg known]
      generalize step :
        inputSegment kcp maxack seg.header (seg.data ++ datagram segs) = next
      have conv : next.1.conv = kcp.conv := by
        rw [← step]
        exact inputSegment_conv kcp maxack seg.header _
      have rcv : next.1.rcv = acceptSegment kcp.rcv seg := by
        rw [← step]
        exact inputSegment_rcv kcp maxack seg _
      have others := ih next.1 next.2 fun other member => by
        rw [conv]
        exact readable other (List.mem_cons_of_mem _ member)
      rw [show seg.header.len = seg.data.length from rfl, rest]
      rw [conv, rcv] at others
      exact others

theorem ikcpInput_datagram {segs : List Seg} (kcp : IkcpCb)
    (readable : ∀ seg ∈ segs, Readable kcp.conv seg) :
    (ikcpInput kcp (datagram segs)).2.conv = kcp.conv ∧
      (ikcpInput kcp (datagram segs)).2.rcv =
        segs.foldl acceptSegment kcp.rcv := by
  obtain ⟨code, conv, rcv⟩ := inputLoop_datagram kcp none readable
  rw [ikcpInput]
  by_cases short : (datagram segs).length < 24
  · cases segs with
    | nil => simp [datagram]
    | cons seg segs =>
        rw [datagram_cons, List.length_append, length_ikcpEncodeSeg,
          ikcpOverhead] at short
        omega
  · simp only [if_neg short, code, Int.lt_irrefl, if_false]
    exact ⟨conv, rcv⟩

/-! ## The receive queue -/

/-- `seg` is the segment the peer numbered `index`. -/
def Carries (log : List Seg) (index : Nat) (seg : Seg) : Prop :=
  seg.sn = serial 32 index ∧ (log.map Seg.piece)[index]? = some seg.piece

/-- The receive side after `taken` segments have left the receive queue:
`log` lists the peer's segments in the order it numbered them. -/
structure Receiving (log : List Seg) (taken : Nat) (rcv : ReceiveSide) :
    Prop where
  queued : rcv.rcvQueue.map Seg.piece <+: (log.map Seg.piece).drop taken
  next : rcv.rcvNxt = serial 32 (taken + rcv.rcvQueue.length)
  counted : rcv.nrcvQue = rcv.rcvQueue.length
  window : rcv.rcvWnd = 128
  bounded : rcv.rcvQueue.length ≤ 128
  buffered : Ascending (Carries log) (taken + rcv.rcvQueue.length + 128)
    (taken + rcv.rcvQueue.length) rcv.rcvBuf

theorem Carries.extend {log more : List Seg} {index : Nat} {seg : Seg}
    (carries : Carries log index seg) : Carries (log ++ more) index seg := by
  obtain ⟨number, piece⟩ := carries
  refine ⟨number, ?_⟩
  have inside : index < (log.map Seg.piece).length :=
    (List.getElem?_eq_some_iff.mp piece).1
  rw [List.map_append, List.getElem?_append_left inside, piece]

theorem ascending_weaken {stands weaker : Nat → Seg → Prop} {lower upper : Nat}
    {segs : List Seg} (implied : ∀ index seg, stands index seg →
      weaker index seg) (ascending : Ascending stands upper lower segs) :
    Ascending weaker upper lower segs := by
  induction ascending with
  | nil => exact .nil
  | cons above below holds rest ih =>
      exact .cons above below (implied _ _ holds) ih

theorem Receiving.extend {log : List Seg} {taken : Nat} {rcv : ReceiveSide}
    (receiving : Receiving log taken rcv) (more : List Seg) :
    Receiving (log ++ more) taken rcv where
  queued := by
    rw [List.map_append]
    exact receiving.queued.trans
      (List.IsPrefix.drop (List.prefix_append (log.map Seg.piece) _) taken)
  next := receiving.next
  counted := receiving.counted
  window := receiving.window
  bounded := receiving.bounded
  buffered := ascending_weaken (fun _ _ => Carries.extend) receiving.buffered

/-- A prefix grows by the next element of the list. -/
theorem prefix_snoc {α : Type*} {first whole : List α} {next : α}
    (leads : first <+: whole) (follows : whole[first.length]? = some next) :
    first ++ [next] <+: whole := by
  obtain ⟨rest, rfl⟩ := leads
  cases rest with
  | nil => simp at follows
  | cons head rest =>
      rw [List.getElem?_append_right (Nat.le_refl _), Nat.sub_self,
        List.getElem?_cons_zero] at follows
      obtain rfl := Option.some.inj follows
      exact ⟨rest, by simp⟩

/-- Moving available segments keeps the receive side in order, and only adds
to the end of the queue. -/
theorem Receiving.moveAvailable {log : List Seg} {taken : Nat}
    {rcv : ReceiveSide} (receiving : Receiving log taken rcv) :
    Receiving log taken (Ikcp.moveAvailable rcv.rcvBuf rcv) ∧
      rcv.rcvQueue <+: (Ikcp.moveAvailable rcv.rcvBuf rcv).rcvQueue := by
  generalize buffer : rcv.rcvBuf = segs
  induction segs generalizing rcv with
  | nil => exact ⟨receiving, List.prefix_refl _⟩
  | cons seg rest ih =>
      rw [Ikcp.moveAvailable]
      by_cases ready : seg.sn = rcv.rcvNxt ∧ rcv.nrcvQue < rcv.rcvWnd
      · rw [if_pos ready]
        have buffered := receiving.buffered
        rw [buffer] at buffered
        cases buffered with
        | @cons _ index _ _ above below carries later =>
            have room := ready.2
            rw [receiving.counted, receiving.window] at room
            have near : Near 32 index (taken + rcv.rcvQueue.length) :=
              ⟨by omega, by omega⟩
            have here : index = taken + rcv.rcvQueue.length := by
              apply (serial_eq_iff (by decide) near).mp
              rw [← carries.1, ready.1, receiving.next]
            have piece := carries.2
            rw [here] at piece later
            have moved : Receiving log taken
                { rcv with
                  rcvBuf := rest
                  nrcvBuf := rcv.nrcvBuf - 1
                  rcvQueue := rcv.rcvQueue ++ [seg]
                  nrcvQue := rcv.nrcvQue + 1
                  rcvNxt := rcv.rcvNxt + 1 } :=
              { queued := by
                  rw [List.map_append, List.map_singleton]
                  apply prefix_snoc receiving.queued
                  rw [List.length_map, List.getElem?_drop]
                  exact piece
                next := by
                  rw [receiving.next, serial_add_one, List.length_append,
                    List.length_singleton, Nat.add_assoc]
                counted := by
                  rw [receiving.counted, List.length_append,
                    List.length_singleton]
                window := receiving.window
                bounded := by
                  rw [List.length_append, List.length_singleton]
                  exact room
                buffered := by
                  simp only [List.length_append, List.length_singleton]
                  exact later.mono (by omega) }
            obtain ⟨keeps, grows⟩ := ih moved rfl
            exact ⟨keeps, (List.prefix_append _ _).trans grows⟩
      · rw [if_neg ready]
        exact ⟨receiving, List.prefix_refl _⟩

/-- A segment no further than this from the receive queue is placed by its
serial number. -/
def Close (taken index : Nat) : Prop :=
  index < taken + 2 ^ 30 ∧ taken < index + 2 ^ 30

instance (taken index : Nat) : Decidable (Close taken index) :=
  inferInstanceAs (Decidable (_ ∧ _))

theorem Receiving.parseData {log : List Seg} {taken index : Nat}
    {rcv : ReceiveSide} (receiving : Receiving log taken rcv) {seg : Seg}
    (carries : Carries log index seg) (close : Close taken index) :
    Receiving log taken (ikcpParseData rcv seg) ∧
      rcv.rcvQueue <+: (ikcpParseData rcv seg).rcvQueue := by
  have bounded := receiving.bounded
  obtain ⟨below, above⟩ := close
  rw [ikcpParseData]
  by_cases outside :
      0 ≤ itimediff seg.sn (rcv.rcvNxt + BitVec.ofNat 32 rcv.rcvWnd) ∨
        itimediff seg.sn rcv.rcvNxt < 0
  · rw [if_pos outside]
    exact ⟨receiving, List.prefix_refl _⟩
  · rw [if_neg outside]
    have limit : rcv.rcvNxt + BitVec.ofNat 32 rcv.rcvWnd =
        serial 32 (taken + rcv.rcvQueue.length + 128) := by
      rw [receiving.next, receiving.window]
      exact (BitVec.ofNat_add _ _).symm
    rw [limit, receiving.next, carries.1, itimediff, itimediff,
      serialDiff_serial (by decide) ⟨by omega, by omega⟩,
      serialDiff_serial (by decide) ⟨by omega, by omega⟩] at outside
    cases inserts : insertFromTail Seg.sn seg rcv.rcvBuf.reverse with
    | none => exact receiving.moveAvailable
    | some inserted =>
        have half : (128 : Nat) ≤ 2 ^ (32 - 1) := by decide
        have descending := receiving.buffered.reverse.insertFromTail
          (Nat.succ_pos 31) (Nat.add_le_add_left half _)
          (fun _ _ stands => stands.1) (by omega) (by omega) carries
          inserted inserts
        have stored : Receiving log taken
            { rcv with
              rcvBuf := inserted.reverse, nrcvBuf := rcv.nrcvBuf + 1 } :=
          { receiving with buffered := descending.reverse }
        exact stored.moveAvailable

theorem Receiving.push {log : List Seg} {taken index : Nat}
    {rcv : ReceiveSide} (receiving : Receiving log taken rcv) {seg : Seg}
    (carries : Carries log index seg) (close : Close taken index) :
    Receiving log taken (receivePush rcv seg) ∧
      rcv.rcvQueue <+: (receivePush rcv seg).rcvQueue := by
  have acknowledged : Receiving log taken
      { rcv with acklist := rcv.acklist ++ [(seg.sn, seg.ts)] } :=
    { receiving with }
  rw [receivePush]
  split
  · dsimp only
    split
    · exact acknowledged.parseData carries close
    · exact ⟨acknowledged, List.prefix_refl _⟩
  · exact ⟨receiving, List.prefix_refl _⟩

/-- A data segment carries what the peer numbered, and is not older than the
network keeps datagrams. -/
def Authentic (log : List Seg) (taken : Nat) (seg : Seg) : Prop :=
  seg.cmd = ikcpCmdPush →
    ∃ index, Carries log index seg ∧ Close taken index

theorem Receiving.acceptSegments {log : List Seg} {taken : Nat}
    {rcv : ReceiveSide} (receiving : Receiving log taken rcv)
    {segs : List Seg} (authentic : ∀ seg ∈ segs, Authentic log taken seg) :
    Receiving log taken (segs.foldl acceptSegment rcv) ∧
      rcv.rcvQueue <+: (segs.foldl acceptSegment rcv).rcvQueue := by
  induction segs generalizing rcv with
  | nil => exact ⟨receiving, List.prefix_refl _⟩
  | cons seg segs ih =>
      have accepted : Receiving log taken (acceptSegment rcv seg) ∧
          rcv.rcvQueue <+: (acceptSegment rcv seg).rcvQueue := by
        rw [acceptSegment]
        split
        case isTrue push =>
          obtain ⟨index, carries, close⟩ :=
            authentic seg List.mem_cons_self push
          have onWire : Carries log index seg.wire := carries
          exact receiving.push onWire close
        case isFalse => exact ⟨receiving, List.prefix_refl _⟩
      obtain ⟨keeps, grows⟩ := ih accepted.1 fun other member =>
        authentic other (List.mem_cons_of_mem _ member)
      exact ⟨keeps, accepted.2.trans grows⟩

end Ikcp

end MbedtlsKcp
