import Mathlib.Algebra.BigOperators.Group.List.Basic
import Mathlib.Algebra.Order.Ring.Nat

/-!
# Counting what leaves a packet buffer

Items are gathered in a buffer which is handed on as a packet when the next
item would make it longer than a packet may be.  A counter of a fixed width is
told the length of some of the packets.  Without an overflow it differs from
the sum of all lengths by those it has not been told.
-/

namespace MbedtlsKcp

namespace PacketBuffers

/-- The longest packet, the room in the buffer, and the largest number that
the sum of two lengths may be. -/
structure Limits where
  packet : Nat
  room : Nat
  number : Nat

/-- The buffer, the packets that have left it, the counter, and whether no
limit has been passed so far. -/
structure Outgoing (width : Nat) where
  buffer : List UInt8 := []
  packets : List (List UInt8) := []
  total : BitVec width
  fits : Bool := true

variable {width : Nat}

namespace Outgoing

/-- The counter is told the length of the buffer. -/
def count (out : Outgoing width) : Outgoing width :=
  { out with total := out.total + BitVec.ofNat width out.buffer.length }

/-- The buffer leaves as a packet, unless it is empty. -/
def handOn (out : Outgoing width) : Outgoing width :=
  { out with
    buffer := []
    packets := if out.buffer = [] then out.packets
      else out.packets ++ [out.buffer] }

/-- The next item does not fit in the packet. -/
def Full (packet : Nat) (item : List UInt8) (out : Outgoing width) : Prop :=
  packet < out.buffer.length + item.length

instance (packet : Nat) (item : List UInt8) (out : Outgoing width) :
    Decidable (out.Full packet item) :=
  inferInstanceAs (Decidable (_ < _))

/-- An item is put behind those in the buffer, or starts it anew. -/
def gather (limits : Limits) (counts : Bool) (item : List UInt8)
    (out : Outgoing width) : Outgoing width :=
  let sum := out.buffer.length + item.length
  let out := if out.Full limits.packet item then
    (if counts then out.count else out).handOn else out
  let buffer := out.buffer ++ item
  { out with
    buffer
    fits := out.fits && decide (sum ≤ limits.number) &&
      decide (buffer.length ≤ limits.room) }

/-- What is left in the buffer is counted and leaves. -/
def finish (out : Outgoing width) : Outgoing width :=
  if 0 < out.buffer.length then out.count.handOn else out

/-- The length of all packets. -/
def lengths (out : Outgoing width) : Nat :=
  (out.packets.map List.length).sum

/-! ## The counter -/

/-- Of the packets since the counter stood at `start`, it has not been told
`missing` bytes. -/
def Misses (start : BitVec width) (missing : Nat) (out : Outgoing width) :
    Prop :=
  out.total + BitVec.ofNat width missing =
    start + BitVec.ofNat width out.lengths

variable {start : BitVec width} {missing : Nat} {out : Outgoing width}
variable {limits : Limits} {item : List UInt8}

theorem lengths_handOn (out : Outgoing width) :
    out.handOn.lengths = out.lengths + out.buffer.length := by
  by_cases empty : out.buffer = []
  · simp [lengths, handOn, empty]
  · simp [lengths, handOn, empty]

theorem Misses.count_handOn (misses : out.Misses start missing) :
    out.count.handOn.Misses start missing := by
  have sum : out.count.handOn.lengths = out.lengths + out.buffer.length :=
    lengths_handOn out.count
  have told : out.count.handOn.total =
      out.total + BitVec.ofNat width out.buffer.length := rfl
  rw [Misses] at misses
  rw [Misses, sum, told, BitVec.ofNat_add, ← BitVec.add_assoc, ← misses]
  ac_rfl

theorem Misses.handOn (misses : out.Misses start missing) :
    out.handOn.Misses start (missing + out.buffer.length) := by
  have kept : out.handOn.total = out.total := rfl
  rw [Misses] at misses
  rw [Misses, lengths_handOn, kept, BitVec.ofNat_add, BitVec.ofNat_add,
    ← BitVec.add_assoc, ← BitVec.add_assoc, misses]

/-- The counter misses what leaves uncounted. -/
theorem Misses.gather (misses : out.Misses start missing) (counts : Bool) :
    (out.gather limits counts item).Misses start (missing +
      if counts = false ∧ out.Full limits.packet item then out.buffer.length
      else 0) := by
  by_cases full : out.Full limits.packet item
  · cases counts with
    | true =>
        rw [if_neg (by simp), Nat.add_zero, Outgoing.gather]
        simp only [full, if_true]
        exact misses.count_handOn
    | false =>
        rw [if_pos ⟨rfl, full⟩, Outgoing.gather]
        simp only [full, if_true, Bool.false_eq_true, if_false]
        exact misses.handOn
  · rw [if_neg fun both => full both.2, Nat.add_zero, Outgoing.gather]
    simp only [full, if_false]
    exact misses

theorem Misses.gather_counted (misses : out.Misses start missing) :
    (out.gather limits true item).Misses start missing := by
  have gathered : (out.gather limits true item).Misses start _ :=
    misses.gather true
  rwa [if_neg (by simp), Nat.add_zero] at gathered

theorem Misses.finish (misses : out.Misses start missing) :
    out.finish.Misses start missing := by
  rw [Outgoing.finish]
  split
  · exact misses.count_handOn
  · exact misses

/-- The counter is right exactly when it has been told everything. -/
theorem Misses.exact_iff (misses : out.Misses start missing)
    (small : missing < 2 ^ width) :
    out.total = start + BitVec.ofNat width out.lengths ↔ missing = 0 := by
  rw [← show _ = _ from misses]
  constructor
  · intro same
    have none : BitVec.ofNat width missing = BitVec.ofNat width 0 := by
      have difference := congrArg (· - out.total) same
      simpa [BitVec.add_sub_cancel, BitVec.add_comm out.total] using
        difference.symm
    have value := congrArg BitVec.toNat none
    rwa [BitVec.toNat_ofNat, Nat.mod_eq_of_lt small, BitVec.toNat_zero] at value
  · rintro rfl
    simp

/-! ## The limits -/

/-- No limit has been passed, and no packet is too long. -/
structure Within (limits : Limits) (out : Outgoing width) : Prop where
  buffer : out.buffer.length ≤ limits.packet
  packets : ∀ packet ∈ out.packets, packet.length ≤ limits.packet
  fits : out.fits = true

theorem Within.handOn (within : out.Within limits) :
    out.handOn.Within limits where
  buffer := Nat.zero_le _
  packets := by
    intro packet member
    rw [Outgoing.handOn] at member
    by_cases empty : out.buffer = []
    · rw [if_pos empty] at member
      exact within.packets packet member
    · rw [if_neg empty] at member
      rcases List.mem_append.mp member with earlier | last
      · exact within.packets packet earlier
      · obtain rfl := List.mem_singleton.mp last
        exact within.buffer
  fits := within.fits

theorem Within.count (within : out.Within limits) : out.count.Within limits :=
  { within with }

/-- An item that is no longer than a packet passes no limit when the buffer has
room for a packet and two packets can be added up. -/
theorem Within.gather (within : out.Within limits)
    (room : limits.packet ≤ limits.room)
    (number : 2 * limits.packet ≤ limits.number)
    (short : item.length ≤ limits.packet) (counts : Bool) :
    (out.gather limits counts item).Within limits := by
  have length := within.buffer
  have sum : out.buffer.length + item.length ≤ limits.number := by omega
  have inRoom : item.length ≤ limits.room := Nat.le_trans short room
  by_cases full : out.Full limits.packet item
  · have left : (if counts then out.count else out).handOn.Within limits := by
      split
      · exact within.count.handOn
      · exact within.handOn
    rw [Outgoing.gather]
    simp only [full, if_true]
    constructor
    case buffer => exact short
    case packets => exact left.packets
    case fits =>
      have empty : (if counts then out.count else out).handOn.buffer = [] := rfl
      simp [left.fits, empty, sum, inRoom]
  · rw [Outgoing.gather]
    simp only [full, if_false]
    rw [Full, Nat.not_lt] at full
    constructor
    case buffer => rwa [List.length_append]
    case packets => exact within.packets
    case fits =>
      have fitsRoom : out.buffer.length + item.length ≤ limits.room :=
        Nat.le_trans full room
      simp [within.fits, sum, fitsRoom]

theorem Within.finish (within : out.Within limits) :
    out.finish.Within limits := by
  rw [Outgoing.finish]
  split
  · exact within.count.handOn
  · exact within

end Outgoing

/-! ## Items of one length -/

/-- How many of the items are in the buffer when `per` of them fill it. -/
def inBuffer (per : Nat) : Nat → Nat
  | 0 => 0
  | items + 1 => items % per + 1

/-- The items fill whole packets. -/
def FillsPackets (per items : Nat) : Prop :=
  0 < items ∧ per ∣ items

instance (per items : Nat) : Decidable (FillsPackets per items) :=
  inferInstanceAs (Decidable (_ ∧ _))

variable {per : Nat}

theorem inBuffer_le (positive : 0 < per) (items : Nat) :
    inBuffer per items ≤ per := by
  cases items with
  | zero => exact Nat.zero_le per
  | succ items => exact Nat.mod_lt items positive

theorem inBuffer_eq_iff (positive : 0 < per) (items : Nat) :
    inBuffer per items = per ↔ FillsPackets per items := by
  cases items with
  | zero => simp [inBuffer, FillsPackets, positive.ne]
  | succ items =>
      have below := Nat.mod_lt items positive
      have split := Nat.div_add_mod items per
      rw [inBuffer, FillsPackets]
      constructor
      · intro full
        refine ⟨Nat.succ_pos items, items / per + 1, ?_⟩
        rw [Nat.mul_add]
        omega
      · rintro ⟨_, count, whole⟩
        have next : (items + 1) % per = 0 := by
          rw [whole, Nat.mul_mod_right]
        by_contra apart
        have short : (items % per + 1) % per = items % per + 1 :=
          Nat.mod_eq_of_lt (by omega)
        rw [← Nat.mod_add_mod, short] at next
        omega

/-- The next item: one more in the buffer, or the first one. -/
theorem inBuffer_succ (positive : 0 < per) (items : Nat) :
    inBuffer per (items + 1) =
      if FillsPackets per items then 1 else inBuffer per items + 1 := by
  cases items with
  | zero =>
      rw [if_neg fun fills => absurd fills.1 (lt_irrefl 0)]
      rw [inBuffer, inBuffer, Nat.zero_mod]
  | succ items =>
      have full := inBuffer_eq_iff positive (items + 1)
      have below := inBuffer_le positive (items + 1)
      rw [inBuffer] at full below
      rw [inBuffer, inBuffer]
      split
      case isTrue fills =>
        rw [Nat.mod_eq_zero_of_dvd fills.2]
      case isFalse fills =>
        have apart := mt full.1 fills
        rw [← Nat.mod_add_mod, Nat.mod_eq_of_lt (by omega)]

variable {out : Outgoing width} {limits : Limits} {item : List UInt8}
variable {need items : Nat}

/-- The buffer is full when whole packets have been filled. -/
theorem full_iff_fillsPackets (limits : Limits) (positive : 0 < need)
    (small : need ≤ limits.packet) (long : item.length = need)
    (holds : out.buffer.length =
      need * inBuffer (limits.packet / need) items) :
    out.Full limits.packet item ↔ FillsPackets (limits.packet / need) items := by
  have some : 0 < limits.packet / need := Nat.div_pos small positive
  have below := inBuffer_le some items
  rw [← inBuffer_eq_iff some, Outgoing.Full, holds, long, ← Nat.mul_succ]
  constructor
  · intro more
    have reached : limits.packet / need < inBuffer (limits.packet / need) items + 1 :=
      (Nat.div_lt_iff_lt_mul positive).2 (by rwa [Nat.mul_comm] at more)
    omega
  · intro same
    rw [same]
    exact Nat.lt_mul_div_succ limits.packet positive

theorem length_gather (limits : Limits) (positive : 0 < need) (small : need ≤ limits.packet)
    (long : item.length = need)
    (holds : out.buffer.length = need * inBuffer (limits.packet / need) items)
    (counts : Bool) :
    (out.gather limits counts item).buffer.length =
      need * inBuffer (limits.packet / need) (items + 1) := by
  have some : 0 < limits.packet / need := Nat.div_pos small positive
  have full := full_iff_fillsPackets limits positive small long holds
  rw [inBuffer_succ some, Outgoing.gather]
  by_cases fills : FillsPackets (limits.packet / need) items
  · simp only [full.2 fills, fills, if_true]
    have empty : (if counts then out.count else out).handOn.buffer = [] := rfl
    rw [empty, List.nil_append, long, Nat.mul_one]
  · simp only [mt full.1 fills, fills, if_false]
    rw [List.length_append, holds, long, Nat.mul_succ]

end PacketBuffers

end MbedtlsKcp
