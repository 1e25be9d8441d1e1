import MbedtlsKcp.ByteBuffers
import MbedtlsKcp.Pkcs7Padding

/-!
# The AES-CBC wrapper

The encrypter and decrypter of `wo_aes.c`.  The cipher itself is the prebuilt
mbedtls library and stays a parameter, `Mbedtls`.  A result of `none` stands
for an access outside a buffer or for a missing return value; byte lists are
the contents of the C buffers from their first byte on.
-/

namespace MbedtlsKcp

namespace AesWrapper

open ByteBuffers

def aesKeySize : Nat := 16

def aesBlockSize : Nat := 16

abbrev AesKey := Vector UInt8 16

/-- The part of `mbedtls/aes.h` that the wrapper calls.  The two directions
of `mbedtls_aes_crypt_cbc` return the iv and the output they leave, `none`
when the call reports an error; the output is as long as the input. -/
structure Mbedtls where
  Context : Type
  aesInit : Context
  aesFree : Context → Context
  setkeyEnc : Context → AesKey → Context
  setkeyDec : Context → AesKey → Context
  cryptCbcEncrypt :
    Context → AesKey → List UInt8 → Option (AesKey × List UInt8)
  cryptCbcDecrypt :
    Context → AesKey → List UInt8 → Option (AesKey × List UInt8)
  length_cryptCbcEncrypt : ∀ {context iv data leftIv out},
    cryptCbcEncrypt context iv data = some (leftIv, out) →
      out.length = data.length
  length_cryptCbcDecrypt : ∀ {context iv data leftIv out},
    cryptCbcDecrypt context iv data = some (leftIv, out) →
      out.length = data.length

/-- CBC decryption undoes CBC encryption of whole blocks under one key and
iv. -/
def Mbedtls.CbcInverts (mbedtls : Mbedtls) : Prop :=
  ∀ (key iv : AesKey) (data : List UInt8), data.length % aesBlockSize = 0 →
    ∃ (cipher : List UInt8) (encryptedIv decryptedIv : AesKey),
      mbedtls.cryptCbcEncrypt (mbedtls.setkeyEnc mbedtls.aesInit key) iv
          data = some (encryptedIv, cipher) ∧
      mbedtls.cryptCbcDecrypt (mbedtls.setkeyDec mbedtls.aesInit key) iv
          cipher = some (decryptedIv, data)

/-- The buffer after it was encrypted in place, the result being ignored. -/
def Mbedtls.encryptInPlace (mbedtls : Mbedtls) (context : mbedtls.Context)
    (iv : AesKey) (data : List UInt8) : List UInt8 :=
  match mbedtls.cryptCbcEncrypt context iv data with
  | some (_, cipher) => cipher
  | none => data

/-- The output buffer after a decryption whose result is ignored. -/
def Mbedtls.decryptInto (mbedtls : Mbedtls) (context : mbedtls.Context)
    (iv : AesKey) (input out : List UInt8) : Option (List UInt8) :=
  match mbedtls.cryptCbcDecrypt context iv input with
  | some (_, plain) => copyInto out 0 plain
  | none => some out

inductive AesOptType
  | encInit
  | encDeinit
  | decInit
  | decDeinit

variable (mbedtls : Mbedtls)

/-- `aes_128_cbc_encrypo_t`. -/
structure Aes128CbcEncrypo where
  isInit : Bool
  aes : mbedtls.Context
  key : AesKey
  iv : AesKey

/-- `aes_128_cbc_decrypo_t`. -/
structure Aes128CbcDecrypo where
  isInit : Bool
  aes : mbedtls.Context
  key : AesKey
  iv : AesKey

variable {mbedtls}

def aesEncrypoOpt (enc : Aes128CbcEncrypo mbedtls) (key iv : AesKey) :
    AesOptType → Int × Aes128CbcEncrypo mbedtls
  | .encInit =>
      if enc.isInit then (0, enc)
      else
        (0, { isInit := true,
              aes := mbedtls.setkeyEnc mbedtls.aesInit key,
              key := key, iv := iv })
  | .encDeinit =>
      if enc.isInit then
        (-1, { enc with isInit := false, aes := mbedtls.aesFree enc.aes })
      else (-1, enc)
  | _ => (if enc.isInit then 0 else -1, enc)

def aesDecrypoOpt (dec : Aes128CbcDecrypo mbedtls) (key iv : AesKey) :
    AesOptType → Int × Aes128CbcDecrypo mbedtls
  | .decInit =>
      if dec.isInit then (0, dec)
      else
        (0, { isInit := true,
              aes := mbedtls.setkeyDec mbedtls.aesInit key,
              key := key, iv := iv })
  | .decDeinit =>
      if dec.isInit then
        (-1, { dec with isInit := false, aes := mbedtls.aesFree dec.aes })
      else (-1, dec)
  | _ => (if dec.isInit then 0 else -1, dec)

def initEncDec (enc : Aes128CbcEncrypo mbedtls)
    (dec : Aes128CbcDecrypo mbedtls) (key iv : AesKey) :
    Aes128CbcEncrypo mbedtls × Aes128CbcDecrypo mbedtls :=
  ((aesEncrypoOpt enc key iv .encInit).2,
    (aesDecrypoOpt dec key iv .decInit).2)

def getAesEncOutLen (inLen : Nat) : Nat :=
  aesBlockSize - inLen % aesBlockSize + inLen

/-- The bytes from `data` up to the length that is returned. -/
def aesPaddingPkcs7Set (data : List UInt8) : List UInt8 :=
  let paddingLen := aesBlockSize - data.length % aesBlockSize
  data ++ List.replicate paddingLen (UInt8.ofNat paddingLen)

/-- The comparison loop from the end of `data`; `none` when it would read
before the buffer. -/
def endsWithPadding (data : List UInt8) (paddingLen : UInt8) :
    Nat → Nat → Option Bool
  | _, 0 => some true
  | i, remaining + 1 =>
      if i < data.length then do
        let byte ← data[data.length - 1 - i]?
        if byte ≠ paddingLen then some false
        else endsWithPadding data paddingLen (i + 1) remaining
      else none

/-- The length without padding, zero when the padding is wrong. -/
def aesPaddingPkcs7Get (data : List UInt8) : Option Int := do
  let paddingLen ← data[data.length - 1]?
  let matched ← endsWithPadding data paddingLen 0 paddingLen.toNat
  if matched then
    let len : Int := data.length - paddingLen.toNat
    let bad : UInt8 :=
      (if data.length < paddingLen.toNat then 1 else 0) |||
        (if paddingLen = 0 then 1 else 0)
    let bad := data.zipIdx.foldl (fun bad (byte, i) =>
      bad ||| (if len ≤ (i : Int) then byte ^^^ paddingLen else 0)) bad
    return if bad = 0 then len else 0
  else
    return 0

/-- `%02X`. -/
def hexDigit (value : UInt8) : UInt8 :=
  if value < 10 then 48 + value else 55 + value

def colon : UInt8 := 58

/-- The log line of `aes_encrypo_data`: `p` is the write position in
`hexBuf`. -/
def hexDump : List UInt8 → List UInt8 → Nat → Option (List UInt8)
  | [], hexBuf, p => copyInto hexBuf p [0]
  | byte :: rest, hexBuf, p => do
      let hexBuf ←
        copyInto hexBuf p [hexDigit (byte / 16), hexDigit (byte % 16), 0]
      if rest ≠ [] then
        let hexBuf ← copyInto hexBuf (p + 2) [colon]
        hexDump rest hexBuf (p + 3)
      else hexDump rest hexBuf (p + 2)

def hexBufSize : Nat := 1024

/-- The encrypter afterwards, the returned length and the bytes of `out` up
to that length. -/
def aesEncrypoData (enc : Aes128CbcEncrypo mbedtls) (input : List UInt8) :
    Option (Aes128CbcEncrypo mbedtls × Int × List UInt8) :=
  if enc.isInit then do
    let iv := enc.iv
    let padded := aesPaddingPkcs7Set input
    let out := mbedtls.encryptInPlace enc.aes iv padded
    let _hexBuf ← hexDump out (List.replicate hexBufSize 0) 0
    return (enc, padded.length, out)
  else
    none

/-- The decrypter afterwards, the returned length and `out`. -/
def aesDecrypoData (dec : Aes128CbcDecrypo mbedtls)
    (input out : List UInt8) :
    Option (Aes128CbcDecrypo mbedtls × Int × List UInt8) :=
  if dec.isInit then do
    let iv := dec.iv
    let out ← mbedtls.decryptInto dec.aes iv input out
    let data ← readFrom out 0 input.length
    let len ← aesPaddingPkcs7Get data
    return (dec, len, out)
  else
    some (dec, -1, out)

theorem length_encryptInPlace (context : mbedtls.Context) (iv : AesKey)
    (data : List UInt8) :
    (mbedtls.encryptInPlace context iv data).length = data.length := by
  unfold Mbedtls.encryptInPlace
  split
  case h_1 crypts => exact mbedtls.length_cryptCbcEncrypt crypts
  case h_2 => rfl

theorem aesPaddingPkcs7Set_eq_pad (data : List UInt8) :
    aesPaddingPkcs7Set data = Pkcs7Padding.pad aesBlockSize data :=
  rfl

/-- The header's formula is the length of the padded input. -/
theorem length_aesPaddingPkcs7Set (data : List UInt8) :
    (aesPaddingPkcs7Set data).length = getAesEncOutLen data.length := by
  rw [aesPaddingPkcs7Set_eq_pad, Pkcs7Padding.length_pad, getAesEncOutLen,
    Nat.add_comm]
  rfl

theorem getAesEncOutLen_mod (inLen : Nat) :
    getAesEncOutLen inLen % aesBlockSize = 0 := by
  unfold getAesEncOutLen aesBlockSize
  omega

theorem toNat_pos {byte : UInt8} (nonzero : byte ≠ 0) : 0 < byte.toNat :=
  Nat.pos_of_ne_zero fun zero => nonzero (UInt8.toNat_inj.mp zero)

theorem endsWithPadding_append_replicate {message : List UInt8}
    {paddingLen : UInt8} {count i remaining : Nat}
    (inside : i + remaining ≤ count) :
    endsWithPadding (message ++ List.replicate count paddingLen) paddingLen
      i remaining = some true := by
  induction remaining generalizing i with
  | zero => rfl
  | succ remaining ih =>
      have short : i <
          (message ++ List.replicate count paddingLen).length := by
        simp
        omega
      have last : (message ++ List.replicate count paddingLen)[
          (message ++ List.replicate count paddingLen).length - 1 - i]? =
          some paddingLen := by
        simp only [List.length_append, List.length_replicate]
        rw [List.getElem?_append_right (by omega), List.getElem?_replicate,
          if_pos (by omega)]
      rw [endsWithPadding, if_pos short, last, Option.bind_eq_bind,
        Option.bind_some, if_neg (by simp)]
      exact ih (by omega)

/-- The bytes that the loop has compared are padding bytes. -/
theorem getElem?_of_endsWithPadding {data : List UInt8} {paddingLen : UInt8}
    {i remaining : Nat}
    (ends : endsWithPadding data paddingLen i remaining = some true) :
    (0 < remaining → i + remaining ≤ data.length) ∧
      ∀ k, i ≤ k → k < i + remaining →
        data[data.length - 1 - k]? = some paddingLen := by
  induction remaining generalizing i with
  | zero =>
      refine ⟨by omega, ?_⟩
      intro k after before
      omega
  | succ remaining ih =>
      rw [endsWithPadding] at ends
      split at ends
      case isFalse => cases ends
      case isTrue short =>
        obtain ⟨byte, isByte, rest⟩ := Option.bind_eq_some_iff.mp ends
        split at rest
        case isTrue => cases rest
        case isFalse equal =>
          obtain rfl := Decidable.not_not.mp equal
          obtain ⟨room, later⟩ := ih rest
          refine ⟨by omega, ?_⟩
          intro k after before
          rcases Nat.eq_or_lt_of_le after with rfl | beyond
          · exact isByte
          · exact later k beyond (by omega)

/-- The loop reads before the buffer only when the whole buffer holds the
padding byte. -/
theorem endsWithPadding_eq_none {data : List UInt8} {paddingLen : UInt8}
    {i remaining : Nat}
    (faults : endsWithPadding data paddingLen i remaining = none) :
    data.length < i + remaining ∧
      ∀ k, i ≤ k → k < data.length →
        data[data.length - 1 - k]? = some paddingLen := by
  induction remaining generalizing i with
  | zero => cases faults
  | succ remaining ih =>
      rw [endsWithPadding] at faults
      split at faults
      case isFalse beyond =>
        refine ⟨by omega, ?_⟩
        intro k after before
        omega
      case isTrue short =>
        have isByte : data[data.length - 1 - i]? =
            some (data[data.length - 1 - i]) := by simp
        rw [isByte] at faults
        simp only [bind, Option.bind] at faults
        split at faults
        case isTrue => cases faults
        case isFalse equal =>
          obtain ⟨room, later⟩ := ih faults
          refine ⟨by omega, ?_⟩
          intro k after before
          rcases Nat.eq_or_lt_of_le after with rfl | beyond
          · rw [isByte, Decidable.not_not.mp equal]
          · exact later k beyond before

theorem foldl_eq_of_fixed {α β : Type*} {step : β → α → β} {labels : List α}
    {start : β} (fixed : ∀ label ∈ labels, step start label = start) :
    labels.foldl step start = start := by
  induction labels with
  | nil => rfl
  | cons label labels ih =>
      rw [List.foldl_cons, fixed label (by simp)]
      exact ih fun other member => fixed other (by simp [member])

/-- The second check of `aes_padding_pkcs7_get` repeats the first one. -/
theorem aesPaddingPkcs7Get_of_matched {data : List UInt8}
    {paddingLen : UInt8} (last : data[data.length - 1]? = some paddingLen)
    (matched : endsWithPadding data paddingLen 0 paddingLen.toNat =
      some true) (positive : paddingLen ≠ 0) :
    aesPaddingPkcs7Get data =
      some ((data.length : Int) - paddingLen.toNat) := by
  have count : 0 < paddingLen.toNat := toNat_pos positive
  obtain ⟨room, bytes⟩ := getElem?_of_endsWithPadding matched
  rw [aesPaddingPkcs7Get, last]
  simp only [bind, Option.bind, matched, if_true, pure]
  have fits : ¬ data.length < paddingLen.toNat := by
    have := room count
    omega
  rw [if_neg fits, if_neg positive, foldl_eq_of_fixed, if_pos (by decide)]
  rintro ⟨byte, i⟩ member
  obtain ⟨_, inside, isByte⟩ := List.mem_zipIdx member
  dsimp only
  split
  case isFalse => rfl
  case isTrue after =>
    have isPadding := bytes (data.length - 1 - i) (by omega) (by omega)
    have sameIndex : data.length - 1 - (data.length - 1 - i) = i := by omega
    rw [sameIndex, List.getElem?_eq_getElem (by omega)] at isPadding
    have : byte = paddingLen := by
      rw [isByte]
      simpa using isPadding
    rw [this]
    simp

/-- Unpadding returns the length of the padded message. -/
theorem aesPaddingPkcs7Get_of_padded {message data : List UInt8}
    (padded : Pkcs7Padding.Padded message data) :
    aesPaddingPkcs7Get data = some (message.length : Int) := by
  obtain ⟨count, positive, small, rfl⟩ := padded
  have toNat : (UInt8.ofNat count).toNat = count := by
    rw [UInt8.toNat_ofNat', Nat.mod_eq_of_lt small]
  have nonzero : UInt8.ofNat count ≠ 0 := by
    intro zero
    rw [zero, UInt8.toNat_zero] at toNat
    omega
  have last : (message ++ List.replicate count (UInt8.ofNat count))[
      (message ++ List.replicate count (UInt8.ofNat count)).length - 1]? =
      some (UInt8.ofNat count) := by
    simp only [List.length_append, List.length_replicate]
    rw [List.getElem?_append_right (by omega), List.getElem?_replicate,
      if_pos (by omega)]
  rw [aesPaddingPkcs7Get_of_matched last
    (endsWithPadding_append_replicate (by omega)) nonzero, toNat]
  simp

/-- A positive result is the length of a message that `data` pads. -/
theorem padded_of_aesPaddingPkcs7Get {data : List UInt8} {len : Int}
    (gets : aesPaddingPkcs7Get data = some len) (nonzero : len ≠ 0) :
    ∃ message, Pkcs7Padding.Padded message data ∧
      (message.length : Int) = len := by
  have unfolded := gets
  rw [aesPaddingPkcs7Get] at unfolded
  obtain ⟨paddingLen, last, afterLast⟩ := Option.bind_eq_some_iff.mp unfolded
  obtain ⟨matched, loop, afterLoop⟩ := Option.bind_eq_some_iff.mp afterLast
  cases matched with
  | false =>
      rw [if_neg (by simp)] at afterLoop
      exact absurd (Option.some.inj afterLoop).symm nonzero
  | true =>
      by_cases zero : paddingLen = 0
      · have isBad : ∀ (labels : List (UInt8 × Nat)) (bad : UInt8), bad ≠ 0 →
            labels.foldl (fun bad (byte, i) =>
              bad ||| (if (data.length : Int) - paddingLen.toNat ≤ (i : Int)
                then byte ^^^ paddingLen else 0)) bad ≠ 0 := by
          intro labels
          induction labels with
          | nil => exact fun bad isBad => isBad
          | cons label labels ih =>
              intro bad isBad
              apply ih
              intro isZero
              apply isBad
              exact (UInt8.or_eq_zero_iff.mp isZero).1
        exfalso
        apply nonzero
        simp only [if_true, pure] at afterLoop
        rw [if_neg (isBad _ _ (by simp [zero]))] at afterLoop
        exact (Option.some.inj afterLoop).symm
      · have result := aesPaddingPkcs7Get_of_matched last loop zero
        have isLen := Option.some.inj (gets.symm.trans result)
        obtain ⟨room, bytes⟩ := getElem?_of_endsWithPadding loop
        have positive : 0 < paddingLen.toNat := toNat_pos zero
        have fits := room positive
        refine ⟨data.take (data.length - paddingLen.toNat),
          Pkcs7Padding.padded_of_tail positive (by omega) fun k inside =>
            bytes k (by omega) (by omega), ?_⟩
        rw [List.length_take]
        omega

end AesWrapper

end MbedtlsKcp
