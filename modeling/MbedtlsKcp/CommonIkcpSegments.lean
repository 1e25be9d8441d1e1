import MbedtlsKcp.IkcpReceiver
import MbedtlsKcp.IkcpTraffic

/-!
# Segments of the counting control block on the wire

Whatever the control block that counts its traffic hands to its output is a
sequence of encoded segments, and its `ikcp_input` takes such a sequence apart
again.  The loops that only touch the timers of the send buffer leave what a
segment encodes alone.
-/

namespace MbedtlsKcp

namespace CommonIkcp

open ByteBuffers SerialNumbers PacketBuffers Ikcp

/-! ## Small serial numbers -/

theorem itimediff_small {later earlier : IUINT32}
    (laterSmall : later.toNat < 2 ^ 31)
    (earlierSmall : earlier.toNat < 2 ^ 31) :
    itimediff later earlier = (later.toNat : Int) - earlier.toNat := by
  have near : Near 32 later.toNat earlier.toNat := by
    constructor
    · show _ < _ + 2 ^ 31
      omega
    · show _ < _ + 2 ^ 31
      omega
  have difference := serialDiff_serial (by decide) near
  simpa [serial, itimediff] using difference

/-! ## What a segment carries -/

/-- What a number stands for: how many segments of the message follow, and the
data. -/
abbrev Piece := Nat × List UInt8

/-- The number of a segment. -/
def number (seg : Seg) : Nat :=
  seg.sn.toNat

/-- The fields of a numbered segment that no timer changes. -/
def core (seg : Seg) : Seg :=
  { conv := seg.conv, cmd := seg.cmd, frg := seg.frg, sn := seg.sn
    data := seg.data }

@[simp]
theorem number_core (seg : Seg) : number (core seg) = number seg :=
  rfl

@[simp]
theorem piece_core (seg : Seg) : (core seg).piece = seg.piece :=
  rfl

theorem core_countFastack (sn : IUINT32) (segs : List Seg) :
    (countFastack sn segs).map core = segs.map core := by
  induction segs with
  | nil => rfl
  | cons seg rest ih =>
      rw [countFastack]
      split
      · rfl
      · split
        · simp [ih, core]
        · simp [ih]

theorem core_retime (kcp : IkcpCb) (seg : Seg) (why : Due) :
    core (retime kcp seg why) = core seg := by
  cases why <;> rfl

theorem core_flushSegment (kcp : IkcpCb) (wnd : Nat) (seg : Seg)
    (flush : DataFlush) :
    core (flushSegment kcp wnd seg flush).1 = core seg := by
  rw [flushSegment]
  split
  · rfl
  · exact core_retime kcp seg _

theorem core_flushData (kcp : IkcpCb) (wnd : Nat) (segs : List Seg)
    (flush : DataFlush) :
    (flushData kcp wnd segs flush).1.map core = segs.map core := by
  induction segs generalizing flush with
  | nil => rfl
  | cons seg rest ih =>
      rw [flushData]
      simp only [List.map_cons, core_flushSegment, ih]

theorem map_number_of_core {first second : List Seg}
    (same : first.map core = second.map core) :
    first.map number = second.map number := by
  have both := congrArg (List.map number) same
  simpa [Function.comp_def] using both

/-! ## Gathered segments -/

/-- A segment with its window as the two bytes of the wire hold it. -/
def narrowed (seg : Seg) : Seg :=
  { seg with wnd := seg.wnd % 2 ^ 16 }

theorem ikcpEncodeSeg_narrowed (seg : Seg) :
    ikcpEncodeSeg (narrowed seg) = ikcpEncodeSeg seg := by
  have window : encodeLE 2 (seg.wnd % 2 ^ 16) = encodeLE 2 seg.wnd :=
    encodeLE_mod 2 seg.wnd
  simp only [ikcpEncodeSeg, narrowed, window]

/-- The bytes are encoded segments that all satisfy `genuine`. -/
def Encodes (genuine : Seg → Prop) (data : List UInt8) : Prop :=
  ∃ segs, data = datagram segs ∧ ∀ seg ∈ segs, genuine seg

theorem Encodes.mono {genuine weaker : Seg → Prop} {data : List UInt8}
    (implied : ∀ seg, genuine seg → weaker seg)
    (encodes : Encodes genuine data) : Encodes weaker data := by
  obtain ⟨segs, encoded, all⟩ := encodes
  exact ⟨segs, encoded, fun seg member => implied seg (all seg member)⟩

/-- What has been gathered and what has left are encoded segments. -/
structure Gathered (genuine : Seg → Prop) (out : Outgoing 32) : Prop where
  buffer : Encodes genuine out.buffer
  packets : ∀ packet ∈ out.packets, Encodes genuine packet

variable {genuine : Seg → Prop} {out : Outgoing 32}

theorem gathered_start (total : IUINT32) :
    Gathered genuine { total := total } where
  buffer := ⟨[], rfl, by simp⟩
  packets := by simp

theorem Gathered.mono {weaker : Seg → Prop}
    (implied : ∀ seg, genuine seg → weaker seg)
    (gathered : Gathered genuine out) : Gathered weaker out where
  buffer := gathered.buffer.mono implied
  packets := fun packet member => (gathered.packets packet member).mono implied

theorem Gathered.handOn (gathered : Gathered genuine out) :
    Gathered genuine out.handOn where
  buffer := ⟨[], rfl, by simp⟩
  packets := by
    intro packet member
    simp only [Outgoing.handOn] at member
    split at member
    · exact gathered.packets packet member
    · rcases List.mem_append.mp member with earlier | last
      · exact gathered.packets packet earlier
      · obtain rfl := List.mem_singleton.mp last
        exact gathered.buffer

theorem Gathered.count (gathered : Gathered genuine out) :
    Gathered genuine out.count :=
  ⟨gathered.buffer, gathered.packets⟩

theorem Encodes.snoc {data : List UInt8} {seg : Seg}
    (encodes : Encodes genuine data) (isGenuine : genuine seg) :
    Encodes genuine (data ++ ikcpEncodeSeg seg) := by
  obtain ⟨segs, rfl, all⟩ := encodes
  exact ⟨segs ++ [seg], by simp [datagram], by
    intro other member
    rcases List.mem_append.mp member with earlier | last
    · exact all other earlier
    · exact List.mem_singleton.mp last ▸ isGenuine⟩

theorem Gathered.gather (gathered : Gathered genuine out) {seg : Seg}
    (isGenuine : genuine (narrowed seg)) (limits : Limits) (counts : Bool) :
    Gathered genuine (out.gather limits counts (ikcpEncodeSeg seg)) := by
  rw [← ikcpEncodeSeg_narrowed]
  have room : ∀ out : Outgoing 32, Gathered genuine out → ∀ fits,
      Gathered genuine
        { out with
          buffer := out.buffer ++ ikcpEncodeSeg (narrowed seg), fits } :=
    fun out gathered fits =>
      ⟨gathered.buffer.snoc isGenuine, gathered.packets⟩
  rw [Outgoing.gather]
  split
  · apply room
    cases counts
    · exact gathered.handOn
    · exact gathered.count.handOn
  · exact room out gathered _

end CommonIkcp

end MbedtlsKcp
