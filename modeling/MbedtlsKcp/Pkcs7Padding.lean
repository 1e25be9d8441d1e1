import Mathlib.Algebra.Order.Ring.Nat
import Mathlib.Data.List.Basic

/-!
# PKCS#7 padding

A message is extended to whole blocks by bytes that all hold their own number.
`Padded` is the relation between a message and its padded form for any number
of padding bytes that a byte can hold; `pad` chooses the least positive number
that fills the last block.
-/

namespace MbedtlsKcp

namespace Pkcs7Padding

/-- The number of bytes that complete the last block of a message. -/
def padCount (blockSize length : Nat) : Nat :=
  blockSize - length % blockSize

def pad (blockSize : Nat) (message : List UInt8) : List UInt8 :=
  message ++ List.replicate (padCount blockSize message.length)
    (UInt8.ofNat (padCount blockSize message.length))

/-- `data` is `message` followed by padding bytes. -/
def Padded (message data : List UInt8) : Prop :=
  ∃ count, 0 < count ∧ count < 256 ∧
    data = message ++ List.replicate count (UInt8.ofNat count)

variable {blockSize : Nat} {message data : List UInt8}

theorem padCount_pos (positive : 0 < blockSize) (length : Nat) :
    0 < padCount blockSize length := by
  have := Nat.mod_lt length positive
  unfold padCount
  omega

theorem padCount_le (blockSize length : Nat) :
    padCount blockSize length ≤ blockSize :=
  Nat.sub_le _ _

theorem length_pad (blockSize : Nat) (message : List UInt8) :
    (pad blockSize message).length =
      message.length + padCount blockSize message.length := by
  simp [pad]

theorem padded_pad (positive : 0 < blockSize) (small : blockSize < 256)
    (message : List UInt8) : Padded message (pad blockSize message) :=
  ⟨padCount blockSize message.length, padCount_pos positive _,
    Nat.lt_of_le_of_lt (padCount_le _ _) small, rfl⟩

/-- The last byte of padded data is the number of its padding bytes. -/
theorem Padded.getLast? (padded : Padded message data) :
    data.getLast? = some (UInt8.ofNat (data.length - message.length)) := by
  obtain ⟨count, positive, small, rfl⟩ := padded
  rw [List.getLast?_append, List.getLast?_replicate, if_neg (by omega)]
  simp

/-- Padded data determines its message. -/
theorem Padded.unique {other : List UInt8} (first : Padded message data)
    (second : Padded other data) : message = other := by
  obtain ⟨count, positive, small, isData⟩ := first
  obtain ⟨otherCount, otherPositive, otherSmall, isOther⟩ := second
  have last : (UInt8.ofNat count).toNat = (UInt8.ofNat otherCount).toNat := by
    have ends := congrArg List.getLast? (isData.symm.trans isOther)
    rw [List.getLast?_append, List.getLast?_append, List.getLast?_replicate,
      List.getLast?_replicate, if_neg (by omega), if_neg (by omega)] at ends
    exact congrArg UInt8.toNat (Option.some.inj ends)
  rw [UInt8.toNat_ofNat', UInt8.toNat_ofNat',
    Nat.mod_eq_of_lt small, Nat.mod_eq_of_lt otherSmall] at last
  subst last
  exact List.append_cancel_right (isData.symm.trans isOther)

/-- Data that ends with a byte's own number of it is padded. -/
theorem padded_of_tail {byte : UInt8} (positive : 0 < byte.toNat)
    (fits : byte.toNat ≤ data.length)
    (bytes : ∀ k < byte.toNat, data[data.length - 1 - k]? = some byte) :
    Padded (data.take (data.length - byte.toNat)) data := by
  refine ⟨byte.toNat, positive, byte.toNat_lt, ?_⟩
  have tail : data.drop (data.length - byte.toNat) =
      List.replicate byte.toNat byte := by
    apply List.ext_getElem?
    intro k
    rw [List.getElem?_drop, List.getElem?_replicate]
    split
    case isTrue inside =>
      rw [← bytes (byte.toNat - 1 - k) (by omega)]
      congr 1
      omega
    case isFalse outside => exact List.getElem?_eq_none (by omega)
  rw [UInt8.ofNat_toNat, ← tail, List.take_append_drop]

end Pkcs7Padding

end MbedtlsKcp
