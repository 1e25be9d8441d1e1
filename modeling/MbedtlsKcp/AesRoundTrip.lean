import MbedtlsKcp.AesWrapper
import MbedtlsKcp.TransitionRuns

/-!
# Messages through one encrypter and one decrypter

An encrypter and a decrypter that share a key and an iv process any sequence
of messages, and ciphertexts are decrypted in any order.  Every message comes
back and no buffer of the wrapper is left exactly when all messages are
shorter than 336 bytes: the debug dump needs three bytes for every byte of
ciphertext and its buffer has 1024.
-/

namespace MbedtlsKcp

namespace AesWrapper

open ByteBuffers TransitionRuns

/-- The dump of some bytes stays inside its buffer exactly when three bytes
are free for each of them. -/
theorem hexDump_isSome_iff {data hexBuf : List UInt8} {p : Nat}
    (nonempty : data ≠ []) :
    (hexDump data hexBuf p).isSome ↔ p + 3 * data.length ≤ hexBuf.length := by
  induction data generalizing hexBuf p with
  | nil => exact absurd rfl nonempty
  | cons byte rest ih =>
      rw [hexDump]
      by_cases room : p + 3 ≤ hexBuf.length
      case neg =>
        have faults : copyInto hexBuf p
            [hexDigit (byte / 16), hexDigit (byte % 16), 0] = none :=
          if_neg (by simpa using room)
        rw [faults]
        simp only [Option.bind_eq_bind, Option.bind_none, Option.isSome_none,
          List.length_cons, Bool.false_eq_true, false_iff]
        omega
      case pos =>
        have firstFits : p + [hexDigit (byte / 16), hexDigit (byte % 16),
            (0 : UInt8)].length ≤ hexBuf.length := by simpa using room
        have firstLength := length_overwrite firstFits
        rw [copyInto_eq_some firstFits, Option.bind_eq_bind, Option.bind_some]
        cases rest with
        | nil =>
            have lastFits : p + 2 + [(0 : UInt8)].length ≤
                (overwrite hexBuf p [hexDigit (byte / 16),
                  hexDigit (byte % 16), 0]).length := by
              rw [firstLength]
              exact room
            rw [if_neg (by simp), hexDump, copyInto_eq_some lastFits]
            simpa using room
        | cons next rest =>
            have colonFits : p + 2 + [colon].length ≤
                (overwrite hexBuf p [hexDigit (byte / 16),
                  hexDigit (byte % 16), 0]).length := by
              rw [firstLength]
              exact room
            rw [if_pos (by simp), copyInto_eq_some colonFits,
              Option.bind_some, ih (by simp), length_overwrite colonFits,
              firstLength]
            simp only [List.length_cons]
            omega

variable {mbedtls : Mbedtls}

/-- The encrypter is initialised with a key and an iv. -/
def Aes128CbcEncrypo.Keyed (enc : Aes128CbcEncrypo mbedtls)
    (key iv : AesKey) : Prop :=
  enc.isInit = true ∧
    enc.aes = mbedtls.setkeyEnc mbedtls.aesInit key ∧ enc.iv = iv

/-- The decrypter is initialised with a key and an iv. -/
def Aes128CbcDecrypo.Keyed (dec : Aes128CbcDecrypo mbedtls)
    (key iv : AesKey) : Prop :=
  dec.isInit = true ∧
    dec.aes = mbedtls.setkeyDec mbedtls.aesInit key ∧ dec.iv = iv

theorem keyed_initEncDec (enc : Aes128CbcEncrypo mbedtls)
    (dec : Aes128CbcDecrypo mbedtls) (key iv : AesKey)
    (freshEnc : enc.isInit = false) (freshDec : dec.isInit = false) :
    (initEncDec enc dec key iv).1.Keyed key iv ∧
      (initEncDec enc dec key iv).2.Keyed key iv := by
  simp [initEncDec, aesEncrypoOpt, aesDecrypoOpt, freshEnc, freshDec,
    Aes128CbcEncrypo.Keyed, Aes128CbcDecrypo.Keyed]

/-- `cipher` decrypts to the padded `message` under the key and iv. -/
def Mbedtls.Conceals (mbedtls : Mbedtls) (key iv : AesKey)
    (message cipher : List UInt8) : Prop :=
  cipher.length = getAesEncOutLen message.length ∧
    ∃ leftIv, mbedtls.cryptCbcDecrypt
      (mbedtls.setkeyDec mbedtls.aesInit key) iv cipher =
        some (leftIv, aesPaddingPkcs7Set message)

theorem hexDump_blocks_isSome_iff {cipher message : List UInt8}
    (length : cipher.length = getAesEncOutLen message.length) :
    (hexDump cipher (List.replicate hexBufSize 0) 0).isSome ↔
      message.length < 336 := by
  have positive : 0 < cipher.length := by
    rw [length]
    unfold getAesEncOutLen aesBlockSize
    omega
  rw [hexDump_isSome_iff (List.ne_nil_of_length_pos positive), length,
    List.length_replicate]
  unfold getAesEncOutLen aesBlockSize hexBufSize
  omega

/-- Encryption returns exactly for messages shorter than 336 bytes. -/
theorem aesEncrypoData_spec (inverts : mbedtls.CbcInverts)
    {enc : Aes128CbcEncrypo mbedtls} {key iv : AesKey}
    (keyed : enc.Keyed key iv) (message : List UInt8) :
    ∃ cipher, mbedtls.Conceals key iv message cipher ∧
      aesEncrypoData enc message =
        if message.length < 336 then
          some (enc, (getAesEncOutLen message.length : Int), cipher)
        else none := by
  obtain ⟨isInit, isContext, isIv⟩ := keyed
  have whole : (aesPaddingPkcs7Set message).length % aesBlockSize = 0 := by
    rw [length_aesPaddingPkcs7Set, getAesEncOutLen_mod]
  obtain ⟨cipher, encryptedIv, decryptedIv, encrypts, decrypts⟩ :=
    inverts key iv (aesPaddingPkcs7Set message) whole
  have sameLength := mbedtls.length_cryptCbcEncrypt encrypts
  rw [length_aesPaddingPkcs7Set] at sameLength
  refine ⟨cipher, ⟨sameLength, decryptedIv, decrypts⟩, ?_⟩
  have dump := hexDump_blocks_isSome_iff sameLength
  rw [aesEncrypoData, if_pos isInit, isContext, isIv]
  simp only [Mbedtls.encryptInPlace, encrypts, length_aesPaddingPkcs7Set]
  split
  case isTrue short =>
    obtain ⟨hexBuf, dumped⟩ := Option.isSome_iff_exists.mp (dump.mpr short)
    rw [dumped]
    rfl
  case isFalse long =>
    have faults : hexDump cipher (List.replicate hexBufSize 0) 0 = none :=
      Option.not_isSome_iff_eq_none.mp (mt dump.mp long)
    rw [faults]
    rfl

/-- Decryption into a buffer with room for the ciphertext returns the
message, whatever the buffer held. -/
theorem aesDecrypoData_of_conceals {dec : Aes128CbcDecrypo mbedtls}
    {key iv : AesKey} {message cipher out : List UInt8}
    (keyed : dec.Keyed key iv)
    (conceals : mbedtls.Conceals key iv message cipher)
    (room : cipher.length ≤ out.length) :
    ∃ left, aesDecrypoData dec cipher out =
        some (dec, (message.length : Int), left) ∧
      left.take message.length = message := by
  obtain ⟨isInit, isContext, isIv⟩ := keyed
  obtain ⟨length, leftIv, decrypts⟩ := conceals
  have sameLength : (aesPaddingPkcs7Set message).length = cipher.length := by
    rw [length_aesPaddingPkcs7Set, length]
  have fits : 0 + (aesPaddingPkcs7Set message).length ≤ out.length := by
    omega
  have readFits : 0 + cipher.length ≤
      (overwrite out 0 (aesPaddingPkcs7Set message)).length := by
    rw [length_overwrite fits]
    omega
  have readBack : slice (overwrite out 0 (aesPaddingPkcs7Set message)) 0
      cipher.length = aesPaddingPkcs7Set message := by
    rw [← sameLength]
    exact slice_overwrite_same _ (Nat.zero_le _)
  refine ⟨overwrite out 0 (aesPaddingPkcs7Set message), ?_, ?_⟩
  · have padded := Pkcs7Padding.padded_pad
      (by decide : 0 < aesBlockSize) (by decide : aesBlockSize < 256) message
    rw [← aesPaddingPkcs7Set_eq_pad] at padded
    rw [aesDecrypoData, if_pos isInit, isContext, isIv]
    simp only [Mbedtls.decryptInto, decrypts, copyInto_eq_some fits,
      Option.bind_eq_bind,
      Option.bind_some, readFrom_eq_some readFits, readBack,
      aesPaddingPkcs7Get_of_padded padded]
    rfl
  · rw [overwrite, List.take_zero, List.nil_append, aesPaddingPkcs7Set,
      List.append_assoc, List.take_left']
    rfl

/-- A use of the two contexts.  `decrypt` takes the ciphertext of an earlier
message by its number and the destination buffer. -/
inductive Use
  | encrypt (message : List UInt8)
  | decrypt (number : Nat) (out : List UInt8)

/-- The two contexts and what their calls have returned: a message with its
length and ciphertext, and a message with the length and bytes it was
decrypted to. -/
structure Session (mbedtls : Mbedtls) where
  enc : Aes128CbcEncrypo mbedtls
  dec : Aes128CbcDecrypo mbedtls
  encrypted : List (List UInt8 × Int × List UInt8)
  decrypted : List (List UInt8 × Int × List UInt8)

/-- A ciphertext that does not exist or has no room is not decrypted. -/
def Session.step (session : Session mbedtls) : Use → Option (Session mbedtls)
  | .encrypt message => do
      let (enc, len, cipher) ← aesEncrypoData session.enc message
      return { session with
        enc := enc
        encrypted := session.encrypted ++ [(message, len, cipher)] }
  | .decrypt number out =>
      match session.encrypted[number]? with
      | some (message, _, cipher) =>
          if cipher.length ≤ out.length then do
            let (dec, len, left) ← aesDecrypoData session.dec cipher out
            return { session with
              dec := dec
              decrypted :=
                session.decrypted ++ [(message, len, left.take len.toNat)] }
          else some session
      | none => some session

/-- Every call has returned what it should. -/
def Session.RoundTrips (session : Session mbedtls) : Prop :=
  (∀ call ∈ session.encrypted,
    call.2.1 = getAesEncOutLen call.1.length ∧
      call.2.2.length = getAesEncOutLen call.1.length) ∧
  ∀ call ∈ session.decrypted,
    call.2.1 = call.1.length ∧ call.2.2 = call.1

/-- The contexts are as they were initialised, and every ciphertext stands for
its message. -/
structure Session.Sound (session : Session mbedtls) (key iv : AesKey) :
    Prop where
  enc : session.enc.Keyed key iv
  dec : session.dec.Keyed key iv
  encrypted : ∀ call ∈ session.encrypted,
    call.2.1 = getAesEncOutLen call.1.length ∧
      mbedtls.Conceals key iv call.1 call.2.2
  decrypted : ∀ call ∈ session.decrypted,
    call.2.1 = call.1.length ∧ call.2.2 = call.1

theorem Session.Sound.roundTrips {session : Session mbedtls}
    {key iv : AesKey} (sound : session.Sound key iv) : session.RoundTrips :=
  ⟨fun call member =>
    ⟨(sound.encrypted call member).1, (sound.encrypted call member).2.1⟩,
    sound.decrypted⟩

def Use.Short : Use → Prop
  | .encrypt message => message.length < 336
  | .decrypt _ _ => True

/-- A use returns exactly when it is short, and it keeps the session sound. -/
theorem Session.Sound.step (inverts : mbedtls.CbcInverts)
    {session : Session mbedtls} {key iv : AesKey}
    (sound : session.Sound key iv) (use : Use) :
    (use.Short → ∃ next, session.step use = some next) ∧
      ∀ next, session.step use = some next →
        use.Short ∧ next.Sound key iv := by
  cases use with
  | encrypt message =>
      obtain ⟨cipher, conceals, encrypts⟩ :=
        aesEncrypoData_spec inverts sound.enc message
      constructor
      · intro short
        have isShort : message.length < 336 := short
        rw [if_pos isShort] at encrypts
        rw [Session.step, encrypts]
        exact ⟨_, rfl⟩
      · intro next steps
        rw [Session.step, encrypts] at steps
        split at steps
        case isFalse => cases steps
        case isTrue short =>
          obtain rfl := Option.some.inj steps
          refine ⟨short, sound.enc, sound.dec, ?_, sound.decrypted⟩
          intro call member
          rcases List.mem_append.mp member with earlier | new
          · exact sound.encrypted call earlier
          · obtain rfl := List.mem_singleton.mp new
            exact ⟨rfl, conceals⟩
  | decrypt number out =>
      have decrypts : ∃ next, session.step (.decrypt number out) = some next ∧
          next.Sound key iv := by
        rw [Session.step]
        cases call : session.encrypted[number]? with
        | none => exact ⟨session, rfl, sound⟩
        | some sent =>
            obtain ⟨message, len, cipher⟩ := sent
            dsimp only
            split
            case isFalse => exact ⟨session, rfl, sound⟩
            case isTrue room =>
              have conceals :=
                (sound.encrypted _ (List.mem_of_getElem? call)).2
              obtain ⟨left, returns, same⟩ :=
                aesDecrypoData_of_conceals sound.dec conceals room
              rw [returns]
              refine ⟨_, rfl, sound.enc, sound.dec, sound.encrypted, ?_⟩
              intro call member
              rcases List.mem_append.mp member with earlier | new
              · exact sound.decrypted call earlier
              · obtain rfl := List.mem_singleton.mp new
                exact ⟨rfl, same⟩
      obtain ⟨next, steps, kept⟩ := decrypts
      constructor
      · exact fun _ => ⟨next, steps⟩
      · intro other otherSteps
        obtain rfl := Option.some.inj (steps.symm.trans otherSteps)
        exact ⟨trivial, kept⟩

/-- A session that starts sound runs to its end exactly when all its uses are
short. -/
theorem Session.Sound.run_iff (inverts : mbedtls.CbcInverts)
    {session : Session mbedtls} {key iv : AesKey}
    (sound : session.Sound key iv) (uses : List Use) :
    (∃ last, run Session.step session uses = some last ∧ last.RoundTrips) ↔
      ∀ use ∈ uses, use.Short := by
  induction uses generalizing session with
  | nil => simpa using sound.roundTrips
  | cons use uses ih =>
      obtain ⟨returns, keeps⟩ := sound.step inverts use
      simp only [List.forall_mem_cons, run_cons]
      constructor
      · rintro ⟨last, runs, roundTrips⟩
        obtain ⟨next, steps, rest⟩ := Option.bind_eq_some_iff.mp runs
        obtain ⟨short, kept⟩ := keeps next steps
        exact ⟨short, (ih kept).mp ⟨last, rest, roundTrips⟩⟩
      · rintro ⟨short, shorts⟩
        obtain ⟨next, steps⟩ := returns short
        obtain ⟨last, rest, roundTrips⟩ := (ih (keeps next steps).2).mpr shorts
        refine ⟨last, ?_, roundTrips⟩
        rw [steps]
        exact rest

/-- The contexts before any message. -/
def Session.start (pair : Aes128CbcEncrypo mbedtls × Aes128CbcDecrypo mbedtls) :
    Session mbedtls where
  enc := pair.1
  dec := pair.2
  encrypted := []
  decrypted := []

/-- Everything that a session over a freshly initialised pair encrypts and
decrypts is right, and no buffer is left, exactly when every message it
encrypts is shorter than 336 bytes. -/
theorem session_roundTrips_iff_short (mbedtls : Mbedtls)
    (inverts : mbedtls.CbcInverts) (key iv : AesKey)
    (enc : Aes128CbcEncrypo mbedtls) (dec : Aes128CbcDecrypo mbedtls)
    (freshEnc : enc.isInit = false) (freshDec : dec.isInit = false)
    (uses : List Use) :
    (∃ last, run Session.step (.start (initEncDec enc dec key iv)) uses =
        some last ∧ last.RoundTrips) ↔
      ∀ message, Use.encrypt message ∈ uses → message.length < 336 := by
  obtain ⟨keyedEnc, keyedDec⟩ := keyed_initEncDec enc dec key iv freshEnc freshDec
  have sound : (Session.start (initEncDec enc dec key iv)).Sound key iv :=
    ⟨keyedEnc, keyedDec, by simp [Session.start], by simp [Session.start]⟩
  rw [sound.run_iff inverts uses]
  constructor
  · intro shorts message member
    exact shorts _ member
  · intro shorts use member
    cases use with
    | encrypt message => exact shorts message member
    | decrypt number out => trivial

/-- The key and iv of the demo, `0123456789012345`. -/
def sampleKey : AesKey :=
  #v[48, 49, 50, 51, 52, 53, 54, 55, 56, 57, 48, 49, 50, 51, 52, 53]

/-- `Hello AES Data`. -/
def sampleMessage : List UInt8 :=
  [72, 101, 108, 108, 111, 32, 65, 69, 83, 32, 68, 97, 116, 97]

/-- AES-128-CBC of `sampleMessage` under `sampleKey`. -/
def sampleBlock : AesKey :=
  #v[93, 104, 49, 191, 178, 64, 105, 125, 205, 46, 4, 85, 22, 24, 161, 70]

/-- Exchanges the padded sample message and its ciphertext and copies any
other data. -/
def exchangeSample (data : List UInt8) : List UInt8 :=
  if data = aesPaddingPkcs7Set sampleMessage then sampleBlock.toList
  else if data = sampleBlock.toList then aesPaddingPkcs7Set sampleMessage
  else data

theorem length_exchangeSample (data : List UInt8) :
    (exchangeSample data).length = data.length := by
  unfold exchangeSample
  split
  case isTrue same =>
    rw [same]
    rfl
  case isFalse =>
    split
    case isTrue same =>
      rw [same]
      rfl
    case isFalse => rfl

theorem exchangeSample_exchangeSample (data : List UInt8) :
    exchangeSample (exchangeSample data) = data := by
  have unlike : sampleBlock.toList ≠ aesPaddingPkcs7Set sampleMessage := by
    decide
  unfold exchangeSample
  split_ifs with isPlain isCipher <;> simp_all

/-- A cipher that agrees with AES on `sampleMessage` under `sampleKey`. -/
def sampleMbedtls : Mbedtls where
  Context := AesKey
  aesInit := Vector.replicate 16 0
  aesFree := fun _ => Vector.replicate 16 0
  setkeyEnc := fun _ key => key
  setkeyDec := fun _ key => key
  cryptCbcEncrypt := fun context _ data =>
    if data.length % aesBlockSize ≠ 0 then none
    else if context = sampleKey then some (sampleBlock, exchangeSample data)
    else some (sampleBlock, data)
  cryptCbcDecrypt := fun context _ data =>
    if data.length % aesBlockSize ≠ 0 then none
    else if context = sampleKey then some (sampleBlock, exchangeSample data)
    else some (sampleBlock, data)
  length_cryptCbcEncrypt := by
    intro context iv data leftIv out crypts
    split_ifs at crypts <;>
      obtain ⟨_, rfl⟩ := Prod.mk.inj (Option.some.inj crypts)
    · exact length_exchangeSample data
    · rfl
  length_cryptCbcDecrypt := by
    intro context iv data leftIv out crypts
    split_ifs at crypts <;>
      obtain ⟨_, rfl⟩ := Prod.mk.inj (Option.some.inj crypts)
    · exact length_exchangeSample data
    · rfl

theorem sampleMbedtls_cbcInverts : sampleMbedtls.CbcInverts := by
  intro key iv data whole
  by_cases isSample : key = sampleKey
  case neg =>
    refine ⟨data, sampleBlock, sampleBlock, ?_, ?_⟩ <;>
      simp [sampleMbedtls, whole, isSample]
  case pos =>
    refine ⟨exchangeSample data, sampleBlock, sampleBlock, ?_, ?_⟩
    · simp [sampleMbedtls, whole, isSample]
    · simp [sampleMbedtls, length_exchangeSample, whole, isSample,
        exchangeSample_exchangeSample]

def idleEncrypter : Aes128CbcEncrypo sampleMbedtls where
  isInit := false
  aes := Vector.replicate 16 0
  key := Vector.replicate 16 0
  iv := Vector.replicate 16 0

def idleDecrypter : Aes128CbcDecrypo sampleMbedtls where
  isInit := false
  aes := Vector.replicate 16 0
  key := Vector.replicate 16 0
  iv := Vector.replicate 16 0

theorem sampleSession_roundTrips :
    ∃ last, run Session.step
        (.start (initEncDec idleEncrypter idleDecrypter sampleKey sampleKey))
        [.encrypt sampleMessage, .decrypt 0 (List.replicate 16 7),
          .encrypt sampleMessage] = some last ∧
      last.RoundTrips :=
  (session_roundTrips_iff_short sampleMbedtls sampleMbedtls_cbcInverts
    sampleKey sampleKey idleEncrypter idleDecrypter rfl rfl _).mpr (by
      intro message member
      have same : message = sampleMessage := by simpa using member
      rw [same]
      decide)

/-- A message of 336 bytes is padded to 352, whose dump needs 1056. -/
theorem long_message_leaves_hexBuf :
    ¬ ∀ (mbedtls : Mbedtls), mbedtls.CbcInverts →
      ∀ (key iv : AesKey) (enc : Aes128CbcEncrypo mbedtls)
        (dec : Aes128CbcDecrypo mbedtls), enc.isInit = false →
        dec.isInit = false → ∀ uses : List Use,
          ∃ last, run Session.step (.start (initEncDec enc dec key iv)) uses =
            some last ∧ last.RoundTrips := by
  intro holds
  obtain ⟨last, runs, _⟩ := holds sampleMbedtls sampleMbedtls_cbcInverts
    sampleKey sampleKey idleEncrypter idleDecrypter rfl rfl
    [.encrypt (List.replicate 336 65)]
  obtain ⟨next, steps, _⟩ := Option.bind_eq_some_iff.mp runs
  obtain ⟨keyed, _⟩ := keyed_initEncDec idleEncrypter idleDecrypter
    sampleKey sampleKey rfl rfl
  obtain ⟨cipher, _, encrypts⟩ := aesEncrypoData_spec
    sampleMbedtls_cbcInverts keyed (List.replicate 336 65)
  rw [List.length_replicate, if_neg (by omega)] at encrypts
  rw [Session.step, Session.start, encrypts] at steps
  cases steps

end AesWrapper

end MbedtlsKcp
