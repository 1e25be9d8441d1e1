import MbedtlsKcp.AesWrapper

/-!
# What the padding check accepts

`aes_padding_pkcs7_set` adds between one byte and a block; the check of
`aes_padding_pkcs7_get` takes any pad byte, and its first loop runs before the
byte is compared with the length of the data.
-/

namespace MbedtlsKcp

namespace AesWrapper

open ByteBuffers Pkcs7Padding

/-- Unpadding stays inside the array, returns the length of the message for
the padded form of a nonempty message, and 0 for everything else. -/
def PaddingExact (data : List UInt8) : Prop :=
  ∃ result : Int, aesPaddingPkcs7Get data = some result ∧
    (∀ n : Nat, 0 < n →
      (result = n ↔ data = aesPaddingPkcs7Set (data.take n))) ∧
    ((∀ n : Nat, 0 < n → data ≠ aesPaddingPkcs7Set (data.take n)) →
      result = 0)

/-- The array has a last byte, and if that is more than a block it is the
length of the array or does not fill as many of its last bytes as it counts. -/
def PadByteOrdinary (data : List UInt8) : Prop :=
  ∃ paddingLen, data[data.length - 1]? = some paddingLen ∧
    (aesBlockSize < paddingLen.toNat →
      paddingLen.toNat = data.length ∨
        ∃ k < paddingLen.toNat, k < data.length ∧
          data[data.length - 1 - k]? ≠ some paddingLen)

section Check

variable {data : List UInt8}

/-- A buffer of padding bytes only does not stop the loop. -/
theorem endsWithPadding_none_of_all {paddingLen : UInt8} {i remaining : Nat}
    (all : ∀ k, i ≤ k → k < data.length →
      data[data.length - 1 - k]? = some paddingLen)
    (long : data.length < i + remaining) (started : i ≤ data.length) :
    endsWithPadding data paddingLen i remaining = none := by
  induction remaining generalizing i with
  | zero => omega
  | succ remaining ih =>
      rw [endsWithPadding]
      by_cases inside : i < data.length
      · rw [if_pos inside, all i (Nat.le_refl i) inside]
        simp only [bind, Option.bind, ne_eq, not_true_eq_false, if_false]
        exact ih (fun k after => all k (by omega)) (by omega) inside
      · rw [if_neg inside]

/-- A message comes back from its padded form. -/
theorem padded_aesPaddingPkcs7Set (message : List UInt8) :
    Padded message (aesPaddingPkcs7Set message) :=
  padded_pad (by decide) (by decide) message

/-- The pad byte of a padded message is at most a block. -/
theorem padByte_le_of_set {message : List UInt8} {paddingLen : UInt8}
    (isSet : data = aesPaddingPkcs7Set message)
    (last : data[data.length - 1]? = some paddingLen) :
    paddingLen.toNat ≤ aesBlockSize := by
  have ends := (padded_aesPaddingPkcs7Set message).getLast?
  rw [← isSet, List.getLast?_eq_getElem?, last, isSet,
    aesPaddingPkcs7Set_eq_pad, length_pad, Nat.add_sub_cancel_left,
    Option.some.injEq] at ends
  have small := padCount_le aesBlockSize message.length
  rw [ends, UInt8.toNat_ofNat']
  exact Nat.le_trans (Nat.mod_le _ _) small

/-- In whole blocks, padding of at most a block is what
`aes_padding_pkcs7_set` adds. -/
theorem eq_set_of_padded {message : List UInt8} {count : Nat}
    (blocks : data.length % aesBlockSize = 0) (positive : 0 < count)
    (small : count ≤ aesBlockSize)
    (isData : data = message ++ List.replicate count (UInt8.ofNat count)) :
    data = aesPaddingPkcs7Set message := by
  have length : data.length = message.length + count := by
    rw [isData, List.length_append, List.length_replicate]
  have counts : padCount aesBlockSize message.length = count := by
    rw [length] at blocks
    unfold padCount
    unfold aesBlockSize at *
    omega
  rw [aesPaddingPkcs7Set_eq_pad, pad, counts]
  exact isData

/-- A padded message is a prefix that the padded form determines. -/
theorem take_of_padded {message : List UInt8} (padded : Padded message data) :
    data.take message.length = message := by
  obtain ⟨count, _, _, rfl⟩ := padded
  exact List.take_left

/-- Unpadding is the length of the message in the image of
`aes_padding_pkcs7_set`. -/
theorem result_of_set {result : Int} {n : Nat}
    (gets : aesPaddingPkcs7Get data = some result)
    (isSet : data = aesPaddingPkcs7Set (data.take n)) : result = n := by
  have padded := padded_aesPaddingPkcs7Set (data.take n)
  rw [← isSet] at padded
  have returned := Option.some.inj
    (gets.symm.trans (aesPaddingPkcs7Get_of_padded padded))
  have below : n < data.length := by
    have lengths := congrArg List.length isSet
    rw [aesPaddingPkcs7Set_eq_pad, length_pad, List.length_take] at lengths
    have := padCount_pos (show 0 < aesBlockSize by decide)
      (min n data.length)
    omega
  rw [returned, List.length_take]
  omega

/-- Exact unpadding has an ordinary pad byte. -/
theorem ordinary_of_paddingExact (isExact : PaddingExact data) :
    PadByteOrdinary data := by
  obtain ⟨result, gets, images, _⟩ := isExact
  have unfolded := gets
  rw [aesPaddingPkcs7Get] at unfolded
  obtain ⟨paddingLen, last, afterLast⟩ :=
    Option.bind_eq_some_iff.mp unfolded
  refine ⟨paddingLen, last, ?_⟩
  intro large
  by_contra! fills
  obtain ⟨notWhole, all⟩ := fills
  by_cases short : paddingLen.toNat ≤ data.length
  · -- the bytes are padding of more than a block behind a message
    have padded : Padded (data.take (data.length - paddingLen.toNat)) data :=
      padded_of_tail (by omega) short fun k inside => all k inside (by omega)
    have returned := Option.some.inj
      (gets.symm.trans (aesPaddingPkcs7Get_of_padded padded))
    rw [List.length_take, Nat.min_eq_left (Nat.sub_le _ _)] at returned
    have isSet := (images (data.length - paddingLen.toNat)
      (by omega)).mp returned
    have := padByte_le_of_set isSet last
    omega
  · -- the loop runs past the first byte
    rw [endsWithPadding_none_of_all (fun k _ inside =>
      all k (by omega) inside) (by omega) (Nat.zero_le _)] at afterLast
    cases afterLast

/-- With an ordinary pad byte the loop stays inside the array. -/
theorem returns_of_ordinary (blocks : data.length % aesBlockSize = 0)
    (ordinary : PadByteOrdinary data) :
    ∃ result, aesPaddingPkcs7Get data = some result := by
  obtain ⟨paddingLen, last, ordinary⟩ := ordinary
  have nonempty : data.length ≠ 0 := by
    intro empty
    rw [List.getElem?_eq_none (by omega)] at last
    cases last
  rw [aesPaddingPkcs7Get, last]
  simp only [bind, Option.bind]
  cases loop : endsWithPadding data paddingLen 0 paddingLen.toNat with
  | some matched =>
      cases matched with
      | false => exact ⟨0, rfl⟩
      | true => exact ⟨_, rfl⟩
  | none =>
      obtain ⟨beyond, all⟩ := endsWithPadding_eq_none loop
      have large : aesBlockSize < paddingLen.toNat := by
        unfold aesBlockSize at *
        omega
      rcases ordinary large with whole | ⟨k, _, inside, differs⟩
      · omega
      · exact absurd (all k (Nat.zero_le k) inside) differs

/-- The bytes behind a padded message are the pad byte. -/
theorem getElem?_of_padding {message : List UInt8} {count : Nat}
    (isData : data = message ++ List.replicate count (UInt8.ofNat count))
    {k : Nat} (inside : k < count) :
    data[data.length - 1 - k]? = some (UInt8.ofNat count) := by
  have length : data.length = message.length + count := by
    rw [isData, List.length_append, List.length_replicate]
  rw [length, isData, List.getElem?_append_right (by omega),
    List.getElem?_replicate, if_pos (by omega)]

/-- With an ordinary pad byte, what is unpadded to a message is its padded
form. -/
theorem exists_image_of_ordinary {result : Int}
    (blocks : data.length % aesBlockSize = 0)
    (ordinary : PadByteOrdinary data)
    (gets : aesPaddingPkcs7Get data = some result) (nonzero : result ≠ 0) :
    ∃ n : Nat, 0 < n ∧ result = n ∧
      data = aesPaddingPkcs7Set (data.take n) := by
  obtain ⟨paddingLen, last, ordinary⟩ := ordinary
  obtain ⟨message, padded, isLength⟩ :=
    padded_of_aesPaddingPkcs7Get gets nonzero
  refine ⟨message.length, by omega, isLength.symm, ?_⟩
  rw [take_of_padded padded]
  obtain ⟨count, positive, small, isData⟩ := padded
  obtain rfl : paddingLen = UInt8.ofNat count :=
    Option.some.inj (last.symm.trans (getElem?_of_padding isData positive))
  have counts : (UInt8.ofNat count).toNat = count := by
    rw [UInt8.toNat_ofNat', Nat.mod_eq_of_lt small]
  rw [counts] at ordinary
  by_cases large : aesBlockSize < count
  · rcases ordinary large with whole | ⟨k, below, _, differs⟩
    · have length := congrArg List.length isData
      rw [List.length_append, List.length_replicate] at length
      omega
    · exact absurd (getElem?_of_padding isData below) differs
  · exact eq_set_of_padded blocks positive (Nat.le_of_not_lt large) isData

/-- Unpadding an array of whole blocks is exact if and only if its pad byte is
ordinary. -/
theorem paddingExact_iff (data : List UInt8)
    (blocks : data.length % aesBlockSize = 0) :
    PaddingExact data ↔ PadByteOrdinary data := by
  constructor
  · exact ordinary_of_paddingExact
  · intro ordinary
    obtain ⟨result, gets⟩ := returns_of_ordinary blocks ordinary
    have isImage := exists_image_of_ordinary blocks ordinary gets
    refine ⟨result, gets, ?_, ?_⟩
    · intro n positive
      constructor
      · intro isResult
        obtain ⟨m, _, same, isSet⟩ := isImage (by omega)
        obtain rfl : m = n := by omega
        exact isSet
      · exact result_of_set gets
    · intro noImage
      by_contra nonzero
      obtain ⟨n, positive, _, isSet⟩ := isImage nonzero
      exact noImage n positive isSet

/-- A message of three bytes in one block. -/
theorem paddingExact_three_bytes :
    PaddingExact (aesPaddingPkcs7Set [1, 2, 3]) :=
  (paddingExact_iff (aesPaddingPkcs7Set [1, 2, 3]) (by decide)).mpr
    ⟨13, by decide, by decide⟩

/-- A block of `0xFF` bytes makes the loop read before it. -/
theorem not_forall_paddingExact :
    ¬ ∀ data : List UInt8, data.length % aesBlockSize = 0 →
      PaddingExact data := by
  intro claimed
  obtain ⟨result, gets, _⟩ :=
    claimed (List.replicate aesBlockSize 255) (by decide)
  have faults : aesPaddingPkcs7Get (List.replicate aesBlockSize 255) =
      none := by
    decide +kernel
  rw [faults] at gets
  cases gets

end Check

end AesWrapper

end MbedtlsKcp
