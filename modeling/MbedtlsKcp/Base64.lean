import MbedtlsKcp.DigitStreams
import Mathlib.Data.UInt

/-!
# Base 64

`base64_encode` and `base64_decode` over the memory of the caller's buffers:
writing behind the end of a buffer or reading behind the decode table gives no
result.  Indices are unsigned numbers of 32 bits.
-/

namespace MbedtlsKcp

namespace Base64

open DigitStreams

def base64Pad : UInt8 := '='.toNat.toUInt8

def base64deFirst : UInt8 := '+'.toNat.toUInt8

def base64deLast : UInt8 := 'z'.toNat.toUInt8

/-- `base64en`. -/
def base64en : List UInt8 :=
  ['A', 'B', 'C', 'D', 'E', 'F', 'G', 'H', 'I', 'J', 'K', 'L', 'M', 'N', 'O',
    'P', 'Q', 'R', 'S', 'T', 'U', 'V', 'W', 'X', 'Y', 'Z', 'a', 'b', 'c', 'd',
    'e', 'f', 'g', 'h', 'i', 'j', 'k', 'l', 'm', 'n', 'o', 'p', 'q', 'r', 's',
    't', 'u', 'v', 'w', 'x', 'y', 'z', '0', '1', '2', '3', '4', '5', '6', '7',
    '8', '9', '+', '/'].map fun char => char.toNat.toUInt8

/-- `base64de`. -/
def base64de : List UInt8 :=
  [255, 255, 255, 255, 255, 255, 255, 255, 255, 255, 255, 255, 255, 255, 255,
    255, 255, 255, 255, 255, 255, 255, 255, 255, 255, 255, 255, 255, 255, 255,
    255, 255, 255, 255, 255, 255, 255, 255, 255, 255, 255, 255, 255, 62, 255,
    255, 255, 63, 52, 53, 54, 55, 56, 57, 58, 59, 60, 61, 255, 255, 255, 255,
    255, 255, 255, 0, 1, 2, 3, 4, 5, 6, 7, 8, 9, 10, 11, 12, 13, 14, 15, 16,
    17, 18, 19, 20, 21, 22, 23, 24, 25, 255, 255, 255, 255, 255, 255, 26, 27,
    28, 29, 30, 31, 32, 33, 34, 35, 36, 37, 38, 39, 40, 41, 42, 43, 44, 45, 46,
    47, 48, 49, 50, 51, 255, 255, 255, 255, 255]

/-- `BASE64_ENCODE_OUT_SIZE`. -/
def base64EncodeOutSize (size : Nat) : Nat :=
  ((size + 2) / 3 * 4 + 1) % 2 ^ 32

/-- `BASE64_DECODE_OUT_SIZE`. -/
def base64DecodeOutSize (size : Nat) : Nat :=
  size / 4 * 3 % 2 ^ 32

/-- `j++`. -/
def next (j : Nat) : Nat :=
  (j + 1) % 2 ^ 32

/-- `out[j] = value`. -/
def store (out : List UInt8) (j : Nat) (value : UInt8) : Option (List UInt8) :=
  if j < out.length then some (out.set j value) else none

/-- `out[j] |= value`. -/
def storeOr (out : List UInt8) (j : Nat) (value : UInt8) :
    Option (List UInt8) := do
  store out j ((← out[j]?) ||| value)

/-- `out[j++] = base64en[digit]`. -/
def put (out : List UInt8) (j : Nat) (digit : UInt8) :
    Option (List UInt8 × Nat) := do
  let out ← store out j (← base64en[digit.toNat]?)
  return (out, next j)

/-! ## Encoding -/

/-- The loop of `base64_encode` and what follows it, with `s`, `j` and `l`. -/
def encodeLoop : List UInt8 → Nat → Nat → UInt8 → List UInt8 →
    Option (Nat × List UInt8)
  | [], s, j, l, out => do
      let (out, j) ← match s with
        | 1 => do
            let (out, j) ← put out j ((l &&& 0x3) <<< 4)
            let out ← store out j base64Pad
            let out ← store out (next j) base64Pad
            pure (out, next (next j))
        | 2 => do
            let (out, j) ← put out j ((l &&& 0xF) <<< 2)
            let out ← store out j base64Pad
            pure (out, next j)
        | _ => pure (out, j)
      let out ← store out j 0
      return (j, out)
  | c :: rest, s, j, l, out =>
      match s with
      | 0 => do
          let (out, j) ← put out j (c >>> 2 &&& 0x3F)
          encodeLoop rest 1 j c out
      | 1 => do
          let (out, j) ← put out j ((l &&& 0x3) <<< 4 ||| c >>> 4 &&& 0xF)
          encodeLoop rest 2 j c out
      | 2 => do
          let (out, j) ← put out j ((l &&& 0xF) <<< 2 ||| c >>> 6 &&& 0x3)
          let (out, j) ← put out j (c &&& 0x3F)
          encodeLoop rest 0 j c out
      | _ => encodeLoop rest s j c out

/-- `base64_encode`: the returned length and the buffer after the call. -/
def base64Encode (data out : List UInt8) : Option (Nat × List UInt8) :=
  encodeLoop data 0 0 0 out

/-! ## Decoding -/

/-- The loop of `base64_decode`.  A byte from 128 on is not in the alphabet,
whether a `char` has a sign or not. -/
def decodeLoop : List UInt8 → Nat → Nat → List UInt8 →
    Option (Nat × List UInt8)
  | [], _, j, out => some (j, out)
  | byte :: rest, i, j, out => do
      if byte = base64Pad then
        return (j, out)
      if byte < base64deFirst ∨ base64deLast < byte then
        return (0, out)
      let c ← base64de[byte.toNat]?
      if c = 255 then
        return (0, out)
      match i % 4 with
      | 0 => do
          let out ← store out j (c <<< 2 &&& 0xFF)
          decodeLoop rest (i + 1) j out
      | 1 => do
          let out ← storeOr out j (c >>> 4 &&& 0x3)
          let out ← store out (next j) ((c &&& 0xF) <<< 4)
          decodeLoop rest (i + 1) (next j) out
      | 2 => do
          let out ← storeOr out j (c >>> 2 &&& 0xF)
          let out ← store out (next j) ((c &&& 0x3) <<< 6)
          decodeLoop rest (i + 1) (next j) out
      | _ => do
          let out ← storeOr out j c
          decodeLoop rest (i + 1) (next j) out

/-- `base64_decode`: the returned length and the buffer after the call. -/
def base64Decode (text out : List UInt8) : Option (Nat × List UInt8) :=
  if text.length % 4 ≠ 0 then some (0, out) else decodeLoop text 0 0 out

/-! ## Bits of a byte -/

/-- `high | low` when `high` has been shifted past the bits of `low`. -/
theorem toNat_join {value shift : Nat} {high low : UInt8}
    (isHigh : high.toNat = value * 2 ^ shift) (small : low.toNat < 2 ^ shift) :
    (high ||| low).toNat = value * 2 ^ shift + low.toNat := by
  rw [UInt8.toNat_or, isHigh, Nat.mul_comm,
    Nat.two_pow_add_eq_or_of_lt small]

/-- `(c >> down) & mask`. -/
theorem toNat_field (c : UInt8) {down width : Nat} {amount mask : UInt8}
    (isDown : amount.toNat = down) (low : down < 8)
    (isMask : mask.toNat = 2 ^ width - 1) :
    (c >>> amount &&& mask).toNat = c.toNat / 2 ^ down % 2 ^ width := by
  rw [UInt8.toNat_and, isMask, Nat.and_two_pow_sub_one_eq_mod,
    UInt8.toNat_shiftRight, isDown, Nat.mod_eq_of_lt low,
    Nat.shiftRight_eq_div_pow]

/-- `(c & mask) << up`. -/
theorem toNat_raised (c : UInt8) {up width : Nat} {amount mask : UInt8}
    (isUp : amount.toNat = up) (low : up < 8)
    (isMask : mask.toNat = 2 ^ width - 1) (fits : width + up ≤ 8) :
    ((c &&& mask) <<< amount).toNat = c.toNat % 2 ^ width * 2 ^ up := by
  have small := Nat.mod_lt c.toNat (Nat.two_pow_pos width)
  have bound : c.toNat % 2 ^ width * 2 ^ up < 256 := by
    calc c.toNat % 2 ^ width * 2 ^ up < 2 ^ width * 2 ^ up :=
          Nat.mul_lt_mul_of_pos_right small (Nat.two_pow_pos up)
      _ = 2 ^ (width + up) := (Nat.pow_add _ _ _).symm
      _ ≤ 2 ^ 8 := Nat.pow_le_pow_right (by decide) fits
  rw [UInt8.toNat_shiftLeft, UInt8.toNat_and, isMask,
    Nat.and_two_pow_sub_one_eq_mod, isUp, Nat.mod_eq_of_lt low,
    Nat.shiftLeft_eq]
  exact Nat.mod_eq_of_lt bound

/-! ## Writing to a buffer -/

variable {front start out : List UInt8} {j : Nat}

theorem store_append (here : front.length = j) (room : j < start.length)
    (value : UInt8) :
    store (front ++ start.drop j) j value =
      some (front ++ [value] ++ start.drop (j + 1)) := by
  subst here
  have inside : front.length < (front ++ start.drop front.length).length := by
    rw [List.length_append, List.length_drop]
    omega
  rw [store, if_pos inside, List.set_append_right _ _ (Nat.le_refl _),
    Nat.sub_self, List.drop_eq_getElem_cons room, List.set_cons_zero,
    List.append_assoc, List.singleton_append]

theorem storeOr_append (here : front.length = j) (cell value : UInt8)
    (tail : List UInt8) :
    storeOr (front ++ cell :: tail) j value =
      some (front ++ (cell ||| value) :: tail) := by
  subst here
  simp [storeOr, store]

/-! ## Letters and digits -/

/-- The letter for a digit. -/
def letter (digit : Nat) : UInt8 :=
  base64en.getD digit 0

/-- The digit for a letter, as `base64_decode` looks it up. -/
def digit (byte : UInt8) : Option UInt8 :=
  if byte < base64deFirst ∨ base64deLast < byte then none
  else
    match base64de[byte.toNat]? with
    | none => none
    | some c => if c = 255 then none else some c

theorem base64en_eq {digit : Nat} (small : digit < 64) :
    base64en[digit]? = some (letter digit) := by
  have inside : digit < base64en.length := small
  rw [letter, List.getD_eq_getElem?_getD, List.getElem?_eq_getElem inside]
  rfl

theorem digit_letter : ∀ value < 64,
    digit (letter value) = some value.toUInt8 ∧ letter value ≠ base64Pad := by
  decide +kernel

theorem digit_lt {byte value : UInt8} (isDigit : digit byte = some value) :
    value.toNat < 64 := by
  have all : ∀ code < 256, ∀ value ∈ digit (UInt8.ofNat code),
      value.toNat < 64 := by
    decide +kernel
  have found := all byte.toNat byte.toNat_lt value
  rw [UInt8.ofNat_toNat] at found
  exact found isDigit

theorem put_append {digits : List Nat} {digit : UInt8}
    (here : digits.length = j) (room : j < start.length)
    (fits : j + 1 < 2 ^ 32) {value : Nat} (isValue : digit.toNat = value)
    (small : value < 64) :
    put (digits.map letter ++ start.drop j) j digit =
      some ((digits ++ [value]).map letter ++ start.drop (j + 1), j + 1) := by
  have advance : next j = j + 1 := Nat.mod_eq_of_lt fits
  have length : (digits.map letter).length = j := by
    rw [List.length_map, here]
  rw [put, isValue, base64en_eq small, List.map_append, advance]
  simp [store_append length room]

/-! ## What is encoded -/

/-- The text for a list of byte values: digits for all their bits and some zero
bits, filled up to whole groups of four. -/
structure Encoded (values : List Nat) (text : List UInt8) : Prop where
  length : text.length = (values.length + 2) / 3 * 4
  digits : ∃ digits pad pads, text =
      digits.map letter ++ List.replicate pads base64Pad ∧
    (∀ digit ∈ digits, digit < 64) ∧ pad < 6 ∧
    6 * digits.length = 8 * values.length + pad ∧
    number 64 digits = number 256 values * 2 ^ pad

theorem firstDigit (c : UInt8) : (c >>> 2 &&& 0x3F).toNat = c.toNat / 4 := by
  have field := toNat_field c (show (2 : UInt8).toNat = 2 from rfl)
    (by decide) (show (0x3F : UInt8).toNat = 2 ^ 6 - 1 from rfl)
  have bound := c.toNat_lt
  omega

theorem secondDigit (l c : UInt8) :
    ((l &&& 0x3) <<< 4 ||| c >>> 4 &&& 0xF).toNat =
      l.toNat % 4 * 16 + c.toNat / 16 := by
  have raised := toNat_raised l (show (4 : UInt8).toNat = 4 from rfl)
    (by decide) (show (0x3 : UInt8).toNat = 2 ^ 2 - 1 from rfl) (by decide)
  have field := toNat_field c (show (4 : UInt8).toNat = 4 from rfl)
    (by decide) (show (0xF : UInt8).toNat = 2 ^ 4 - 1 from rfl)
  have bound := c.toNat_lt
  rw [toNat_join raised (by omega)]
  omega

theorem thirdDigit (l c : UInt8) :
    ((l &&& 0xF) <<< 2 ||| c >>> 6 &&& 0x3).toNat =
      l.toNat % 16 * 4 + c.toNat / 64 := by
  have raised := toNat_raised l (show (2 : UInt8).toNat = 2 from rfl)
    (by decide) (show (0xF : UInt8).toNat = 2 ^ 4 - 1 from rfl) (by decide)
  have field := toNat_field c (show (6 : UInt8).toNat = 6 from rfl)
    (by decide) (show (0x3 : UInt8).toNat = 2 ^ 2 - 1 from rfl)
  have bound := c.toNat_lt
  rw [toNat_join raised (by omega)]
  omega

theorem fourthDigit (c : UInt8) : (c &&& 0x3F).toNat = c.toNat % 64 := by
  rw [UInt8.toNat_and]
  exact Nat.and_two_pow_sub_one_eq_mod c.toNat 6

/-- What has been encoded when `l` was the last byte. -/
structure Encoding (source target : List Nat) (s j : Nat) (l : UInt8) :
    Prop where
  phase : s < 3
  here : target.length = j
  regrouped : Regrouped 8 6 source target (2 * s) (l.toNat % 2 ^ (2 * s))

variable {source target : List Nat} {s : Nat} {l c : UInt8}

theorem Encoding.first (encoding : Encoding source target 0 j l) (c : UInt8) :
    Encoding (source ++ [c.toNat]) (target ++ [c.toNat / 4]) 1 (j + 1) c where
  phase := by decide
  here := by simp [encoding.here]
  regrouped := by
    have none := encoding.regrouped
    simp only [Nat.mul_zero, Nat.pow_zero, Nat.mod_one] at none
    apply none.step c.toNat_lt rfl
    · simp
    · simp

theorem Encoding.second (encoding : Encoding source target 1 j l) (c : UInt8) :
    Encoding (source ++ [c.toNat])
      (target ++ [l.toNat % 4 * 16 + c.toNat / 16]) 2 (j + 1) c where
  phase := by decide
  here := by simp [encoding.here]
  regrouped := by
    apply encoding.regrouped.step c.toNat_lt rfl
    · simp only [Nat.mul_one, Nat.reducePow]
      omega
    · simp only [Nat.mul_one, Nat.reduceMul, Nat.reducePow]
      omega

theorem Encoding.third (encoding : Encoding source target 2 j l) (c : UInt8) :
    Encoding (source ++ [c.toNat])
      (target ++ [l.toNat % 16 * 4 + c.toNat / 64] ++ [c.toNat % 64]) 0
      (j + 1 + 1) c where
  phase := by decide
  here := by simp [encoding.here]
  regrouped := by
    have two : Regrouped 8 6 (source ++ [c.toNat])
        (target ++ [l.toNat % 16 * 4 + c.toNat / 64]) (0 + 6)
        (c.toNat % 64) := by
      apply encoding.regrouped.step c.toNat_lt rfl
      · simp only [Nat.reduceMul, Nat.reducePow]
        omega
      · simp only [Nat.reduceMul, Nat.reducePow]
        omega
    have last := two.write
    simpa [Nat.mod_one] using last

/-- The text with its last digit and the pads behind it. -/
theorem Encoding.encoded (encoding : Encoding source target s j l)
    (some : 0 < s) :
    Encoded source
      ((target ++ [l.toNat % 2 ^ (2 * s) * 2 ^ (6 - 2 * s)]).map letter ++
        List.replicate (3 - s) base64Pad) := by
  have phase := encoding.phase
  have length := encoding.regrouped.length
  obtain ⟨small, filled, same⟩ := encoding.regrouped.fill (by omega)
  constructor
  case length =>
    simp only [List.length_append, List.length_map, List.length_singleton,
      List.length_replicate]
    omega
  case digits =>
    refine ⟨_, 6 - 2 * s, 3 - s, rfl, ?_, by omega, ?_, same⟩
    · intro digit member
      rcases List.mem_append.mp member with earlier | last
      · exact encoding.regrouped.below digit earlier
      · obtain rfl := List.mem_singleton.mp last
        exact small
    · rw [List.length_append, List.length_singleton]
      exact filled

/-- The end of the text. -/
theorem Encoding.finish (encoding : Encoding source target s j l)
    (room : (source.length + 2) / 3 * 4 + 1 ≤ start.length)
    (fits : (source.length + 2) / 3 * 4 + 1 < 2 ^ 32) :
    ∃ text, Encoded source text ∧
      encodeLoop [] s j l (target.map letter ++ start.drop j) =
        some (text.length, text ++ 0 :: start.drop (text.length + 1)) := by
  have length := encoding.regrouped.length
  have here := encoding.here
  have boundL := l.toNat_lt
  have phase := encoding.phase
  obtain rfl | rfl | rfl : s = 0 ∨ s = 1 ∨ s = 2 := by omega
  · have encoded : Encoded source (target.map letter) := by
      constructor
      case length =>
        rw [List.length_map]
        omega
      case digits =>
        have same := encoding.regrouped.same
        have rest := encoding.regrouped.small
        have below := encoding.regrouped.below
        simp only [Nat.mul_zero, Nat.pow_zero, Nat.mul_one, Nat.mod_one,
          Nat.add_zero] at same
        refine ⟨target, 0, 0, by simp, below, by decide, by omega, ?_⟩
        rw [Nat.pow_zero, Nat.mul_one]
        exact same.symm
    refine ⟨_, encoded, ?_⟩
    have storeEnd : store (target.map letter ++ start.drop j) j 0 = some _ :=
      store_append ((List.length_map letter).trans here) (by omega) 0
    simp [encodeLoop, storeEnd, here]
  · refine ⟨_, encoding.encoded (by decide), ?_⟩
    have raised := toNat_raised l (show (4 : UInt8).toNat = 4 from rfl)
      (by decide) (show (0x3 : UInt8).toNat = 2 ^ 2 - 1 from rfl) (by decide)
    have putLast : put (target.map letter ++ start.drop j) j
        ((l &&& 0x3) <<< 4) = some _ :=
      put_append here (by omega) (by omega) raised (by omega)
    generalize lastIs : (target ++ [l.toNat % 2 ^ 2 * 2 ^ 4]).map letter =
      letters at putLast
    have count : letters.length = j + 1 := by simp [← lastIs, here]
    have storePad : store (letters ++ start.drop (j + 1)) (j + 1) base64Pad =
        some _ := store_append count (by omega) _
    have storePads : store (letters ++ [base64Pad] ++ start.drop (j + 1 + 1))
        (j + 1 + 1) base64Pad = some _ :=
      store_append (by simp [count]) (by omega) _
    have storeEnd : store (letters ++ [base64Pad] ++ [base64Pad] ++
        start.drop (j + 1 + 1 + 1)) (j + 1 + 1 + 1) 0 = some _ :=
      store_append (by simp [count]) (by omega) _
    have once : next (j + 1) = j + 1 + 1 := Nat.mod_eq_of_lt (by omega)
    have twice : next (j + 1 + 1) = j + 1 + 1 + 1 :=
      Nat.mod_eq_of_lt (by omega)
    simp only [encodeLoop, putLast, Option.bind_eq_bind, Option.bind_some,
      storePad, once, storePads, twice, storeEnd, Option.pure_def]
    simp [count, List.replicate]
  · refine ⟨_, encoding.encoded (by decide), ?_⟩
    have raised := toNat_raised l (show (2 : UInt8).toNat = 2 from rfl)
      (by decide) (show (0xF : UInt8).toNat = 2 ^ 4 - 1 from rfl) (by decide)
    have putLast : put (target.map letter ++ start.drop j) j
        ((l &&& 0xF) <<< 2) = some _ :=
      put_append here (by omega) (by omega) raised (by omega)
    generalize lastIs : (target ++ [l.toNat % 2 ^ 4 * 2 ^ 2]).map letter =
      letters at putLast
    have count : letters.length = j + 1 := by simp [← lastIs, here]
    have storePad : store (letters ++ start.drop (j + 1)) (j + 1) base64Pad =
        some _ := store_append count (by omega) _
    have storeEnd : store (letters ++ [base64Pad] ++ start.drop (j + 1 + 1))
        (j + 1 + 1) 0 = some _ :=
      store_append (by simp [count]) (by omega) _
    have once : next (j + 1) = j + 1 + 1 := Nat.mod_eq_of_lt (by omega)
    simp only [encodeLoop, putLast, Option.bind_eq_bind, Option.bind_some,
      storePad, once, storeEnd, Option.pure_def]
    simp [count]

/-- The loop encodes what is left. -/
theorem Encoding.loop (encoding : Encoding source target s j l)
    (rest : List UInt8)
    (room : (source.length + rest.length + 2) / 3 * 4 + 1 ≤ start.length)
    (fits : (source.length + rest.length + 2) / 3 * 4 + 1 < 2 ^ 32) :
    ∃ text, Encoded (source ++ rest.map UInt8.toNat) text ∧
      encodeLoop rest s j l (target.map letter ++ start.drop j) =
        some (text.length, text ++ 0 :: start.drop (text.length + 1)) := by
  induction rest generalizing source target s j l with
  | nil =>
      rw [List.map_nil, List.append_nil]
      exact encoding.finish room fits
  | cons c rest ih =>
      have length := encoding.regrouped.length
      have here := encoding.here
      rw [List.length_cons] at room fits
      have more : ∀ {target' s' j'},
          Encoding (source ++ [c.toNat]) target' s' j' c →
          ∃ text, Encoded (source ++ (c :: rest).map UInt8.toNat) text ∧
            encodeLoop rest s' j' c (target'.map letter ++ start.drop j') =
              some (text.length,
                text ++ 0 :: start.drop (text.length + 1)) := by
        intro target' s' j' next
        have := ih next
          (by simp only [List.length_append, List.length_singleton]; omega)
          (by simp only [List.length_append, List.length_singleton]; omega)
        simpa using this
      have boundC := c.toNat_lt
      have boundL := l.toNat_lt
      have phase := encoding.phase
      obtain rfl | rfl | rfl : s = 0 ∨ s = 1 ∨ s = 2 := by omega
      · have putFirst : put (target.map letter ++ start.drop j) j
            (c >>> 2 &&& 0x3F) = some _ :=
          put_append here (by omega) (by omega) (firstDigit c) (by omega)
        rw [encodeLoop, putFirst]
        exact more (encoding.first c)
      · have putSecond : put (target.map letter ++ start.drop j) j
            ((l &&& 0x3) <<< 4 ||| c >>> 4 &&& 0xF) = some _ :=
          put_append here (by omega) (by omega) (secondDigit l c) (by omega)
        rw [encodeLoop, putSecond]
        exact more (encoding.second c)
      · have putThird : put (target.map letter ++ start.drop j) j
            ((l &&& 0xF) <<< 2 ||| c >>> 6 &&& 0x3) = some _ :=
          put_append here (by omega) (by omega) (thirdDigit l c) (by omega)
        have putFourth : put
            ((target ++ [l.toNat % 16 * 4 + c.toNat / 64]).map letter ++
              start.drop (j + 1)) (j + 1) (c &&& 0x3F) = some _ :=
          put_append (by simp [here]) (by omega) (by omega) (fourthDigit c)
            (by omega)
        rw [encodeLoop, putThird]
        simp only [Option.bind_eq_bind, Option.bind_some, putFourth]
        exact more (encoding.third c)

/-- Within the buffer that `BASE64_ENCODE_OUT_SIZE` asks for, the text for the
data and its terminator are written, and nothing else. -/
theorem base64Encode_eq (data : List UInt8)
    (fits : (data.length + 2) / 3 * 4 + 1 < 2 ^ 32)
    (room : base64EncodeOutSize data.length ≤ start.length) :
    ∃ text, Encoded (data.map UInt8.toNat) text ∧
      base64Encode data start =
        some (text.length, text ++ 0 :: start.drop (text.length + 1)) := by
  have nothing : Encoding [] [] 0 0 0 :=
    ⟨by decide, rfl, regrouped_nil 8 6⟩
  rw [base64EncodeOutSize, Nat.mod_eq_of_lt fits] at room
  have whole := @Encoding.loop start 0 [] [] 0 0 nothing data
    (by simpa using room) (by simpa using fits)
  simpa [base64Encode] using whole

/-! ## What is decoded -/

/-- The digits before the first pad, unless a letter among them is not in the
alphabet. -/
def letters : List UInt8 → Option (List Nat)
  | [] => some []
  | byte :: rest =>
      if byte = base64Pad then some []
      else
        match digit byte with
        | none => none
        | some c => (letters rest).map (c.toNat :: ·)

/-- The cell behind what has been decoded, when some bits wait in it. -/
def waiting (left rest : Nat) : List UInt8 :=
  if left = 0 then [] else [(rest * 2 ^ (8 - left)).toUInt8]

/-- What has been decoded: after `source` the buffer holds `target` and the
bits that wait. -/
structure Decoding (start : List UInt8) (source target : List Nat)
    (left rest i j : Nat) (out : List UInt8) : Prop where
  regrouped : Regrouped 6 8 source target left rest
  short : left < 8
  count : source.length = i
  here : target.length = j
  written : out = target.map Nat.toUInt8 ++ waiting left rest ++
    start.drop (j + (waiting left rest).length)

variable {left rest i : Nat}

/-- The bits that wait are determined by the phase. -/
theorem Decoding.left_eq
    (decoding : Decoding start source target left rest i j out) :
    left = (8 - i % 4 * 2) % 8 := by
  have length := decoding.regrouped.length
  have short := decoding.short
  have count := decoding.count
  omega

theorem toNat_toUInt8 {value : Nat} (small : value < 256) :
    value.toUInt8.toNat = value :=
  Nat.mod_eq_of_lt small

theorem eq_toUInt8 {byte : UInt8} {value : Nat} (same : byte.toNat = value) :
    byte = value.toUInt8 := by
  subst same
  exact (UInt8.ofNat_toNat).symm

/-- The first letter of a group of four. -/
theorem Decoding.first
    (decoding : Decoding start source target left rest i j out)
    (phase : i % 4 = 0) (room : j < start.length) {c : UInt8}
    (small : c.toNat < 64) :
    ∃ after, store out j (c <<< 2 &&& 0xFF) = some after ∧
      Decoding start (source ++ [c.toNat]) target 6 c.toNat (i + 1) j
        after := by
  obtain rfl : left = 0 := by
    have := decoding.left_eq
    omega
  have here := decoding.here
  have none := decoding.regrouped.small
  rw [Nat.pow_zero, Nat.lt_one_iff] at none
  have cell : (c <<< 2 &&& 0xFF).toNat = c.toNat * 4 := by
    rw [UInt8.toNat_and, UInt8.toNat_shiftLeft, Nat.shiftLeft_eq,
      show (0xFF : UInt8).toNat = 2 ^ 8 - 1 from rfl,
      Nat.and_two_pow_sub_one_eq_mod, show (2 : UInt8).toNat % 8 = 2 from rfl]
    omega
  have written := decoding.written
  simp only [waiting, if_true, List.append_nil, List.length_nil,
    Nat.add_zero] at written
  have stored := store_append ((List.length_map Nat.toUInt8).trans here) room
    (c <<< 2 &&& 0xFF)
  rw [← written] at stored
  refine ⟨_, stored, ?_⟩
  constructor
  case regrouped =>
    have read := decoding.regrouped.read small
    simpa [none] using read
  case short => decide
  case count => simp [decoding.count]
  case here => exact here
  case written => simp [waiting, eq_toUInt8 cell]

/-- The bits of a letter that fill the byte before. -/
theorem Decoding.join
    (decoding : Decoding start source target left rest i j out)
    (waits : 0 < left) {c low : UInt8} (small : c.toNat < 64)
    (isLow : low.toNat = c.toNat / 2 ^ (left - 2)) :
    ∃ byte, storeOr out j low =
        some ((target ++ [byte]).map Nat.toUInt8 ++ start.drop (j + 1)) ∧
      Regrouped 6 8 (source ++ [c.toNat]) (target ++ [byte]) (left - 2)
        (c.toNat % 2 ^ (left - 2)) := by
  have lefts : left = 6 ∨ left = 4 ∨ left = 2 := by
    have := decoding.left_eq
    omega
  have bound := decoding.regrouped.small
  obtain ⟨fits, lowSmall, value, remainder⟩ :
      rest * 2 ^ (8 - left) < 256 ∧ low.toNat < 2 ^ (8 - left) ∧
        (rest * 2 ^ 6 + c.toNat) / 2 ^ (left - 2) =
          rest * 2 ^ (8 - left) + c.toNat / 2 ^ (left - 2) ∧
        (rest * 2 ^ 6 + c.toNat) % 2 ^ (left - 2) =
          c.toNat % 2 ^ (left - 2) := by
    rw [isLow]
    rcases lefts with rfl | rfl | rfl
    all_goals
      simp only [Nat.reduceSub, Nat.reducePow] at bound ⊢
      omega
  have cell := toNat_join (toNat_toUInt8 fits) lowSmall
  have written := decoding.written
  have apart : left ≠ 0 := by omega
  simp only [waiting, apart, if_false, List.length_singleton,
    List.append_assoc, List.singleton_append] at written
  refine ⟨rest * 2 ^ (8 - left) + c.toNat / 2 ^ (left - 2), ?_, ?_⟩
  · rw [written, storeOr_append ((List.length_map _).trans decoding.here),
      eq_toUInt8 (cell.trans (congrArg _ isLow))]
    simp
  · exact decoding.regrouped.step small (by omega) value remainder

/-- A letter that leaves some bits waiting. -/
theorem Decoding.middle
    (decoding : Decoding start source target left rest i j out)
    (waits : 2 < left) (room : j + 1 < start.length) (fits : j + 1 < 2 ^ 32)
    {c low high : UInt8} (small : c.toNat < 64)
    (isLow : low.toNat = c.toNat / 2 ^ (left - 2))
    (isHigh : high.toNat = c.toNat % 2 ^ (left - 2) * 2 ^ (8 - (left - 2))) :
    ∃ middle after, storeOr out j low = some middle ∧
      store middle (next j) high = some after ∧
      ∃ target', Decoding start (source ++ [c.toNat]) target' (left - 2)
        (c.toNat % 2 ^ (left - 2)) (i + 1) (next j) after := by
  obtain ⟨byte, stored, regrouped⟩ := decoding.join (by omega) small isLow
  have count : ((target ++ [byte]).map Nat.toUInt8).length = j + 1 := by
    simp [decoding.here]
  have advance : next j = j + 1 := Nat.mod_eq_of_lt fits
  have short := decoding.short
  rw [advance]
  refine ⟨_, _, stored, store_append count room high, target ++ [byte], ?_⟩
  constructor
  case regrouped => exact regrouped
  case short => omega
  case count => simp [decoding.count]
  case here => simp [decoding.here]
  case written =>
    have apart : left - 2 ≠ 0 := by omega
    simp only [waiting, apart, if_false, ← eq_toUInt8 isHigh,
      List.length_singleton]

/-- The last letter of a group of four. -/
theorem Decoding.last
    (decoding : Decoding start source target left rest i j out)
    (phase : i % 4 = 3) (fits : j + 1 < 2 ^ 32) {c : UInt8}
    (small : c.toNat < 64) :
    ∃ after, storeOr out j c = some after ∧
      ∃ target', Decoding start (source ++ [c.toNat]) target' 0 0 (i + 1)
        (next j) after := by
  obtain rfl : left = 2 := by
    have := decoding.left_eq
    omega
  have low : c.toNat = c.toNat / 2 ^ (2 - 2) := by simp
  obtain ⟨byte, stored, regrouped⟩ := decoding.join (by decide) small low
  have advance : next j = j + 1 := Nat.mod_eq_of_lt fits
  rw [Nat.sub_self, Nat.pow_zero, Nat.mod_one] at regrouped
  rw [advance]
  refine ⟨_, stored, target ++ [byte], ?_⟩
  constructor
  case regrouped => exact regrouped
  case short => decide
  case count => simp [decoding.count]
  case here => simp [decoding.here]
  case written => simp [waiting]

/-- Nothing is written at `size` or behind it. -/
theorem Decoding.kept
    (decoding : Decoding start source target left rest i j out) {size : Nat}
    (room : j + (waiting left rest).length ≤ size)
    (inside : size ≤ start.length) :
    out.length = start.length ∧ out.drop size = start.drop size := by
  have here := decoding.here
  rw [decoding.written]
  constructor
  · simp only [List.length_append, List.length_map, List.length_drop]
    omega
  · have length : (target.map Nat.toUInt8 ++ waiting left rest).length ≤
        size := by
      rw [List.length_append, List.length_map]
      omega
    rw [List.drop_append, List.drop_eq_nil_of_le length, List.nil_append,
      List.drop_drop]
    congr 1
    rw [List.length_append, List.length_map] at length ⊢
    omega

/-- What `base64_decode` returns and leaves in a buffer of `size` bytes when it
has still to read `text` behind the digits `source`. -/
structure Decoded (start : List UInt8) (size : Nat) (digits : Option (List Nat))
    (count : Nat) (after : List UInt8) : Prop where
  length : after.length = start.length
  kept : after.drop size = start.drop size
  rejected : digits = none → count = 0
  accepted : ∀ values, digits = some values →
    ∃ target left rest, Regrouped 6 8 values target left rest ∧ left < 8 ∧
      target.length = count ∧ after.take count = target.map Nat.toUInt8

/-- The end of the text or a pad. -/
theorem Decoding.stop
    (decoding : Decoding start source target left rest i j out) {size : Nat}
    (room : j + (waiting left rest).length ≤ size)
    (inside : size ≤ start.length) :
    Decoded start size (some source) j out := by
  obtain ⟨length, kept⟩ := decoding.kept room inside
  constructor
  case length => exact length
  case kept => exact kept
  case rejected => simp
  case accepted =>
    intro values same
    obtain rfl := Option.some.inj same
    refine ⟨target, left, rest, decoding.regrouped, decoding.short,
      decoding.here, ?_⟩
    rw [decoding.written, List.append_assoc, List.take_append_of_le_length]
    · rw [← decoding.here, ← List.length_map Nat.toUInt8, List.take_length]
    · simp [decoding.here]

/-- A letter that is not in the alphabet. -/
theorem Decoding.reject
    (decoding : Decoding start source target left rest i j out) {size : Nat}
    (room : j + (waiting left rest).length ≤ size)
    (inside : size ≤ start.length) :
    Decoded start size none 0 out := by
  obtain ⟨length, kept⟩ := decoding.kept room inside
  exact ⟨length, kept, fun _ => rfl, fun _ absurd => by cases absurd⟩

/-- What the loop does with a letter of the alphabet. -/
theorem decodeLoop_letter {byte c : UInt8} {text : List UInt8}
    (noPad : byte ≠ base64Pad) (isDigit : digit byte = some c) :
    decodeLoop (byte :: text) i j out =
      (match i % 4 with
      | 0 => do
          let out ← store out j (c <<< 2 &&& 0xFF)
          decodeLoop text (i + 1) j out
      | 1 => do
          let out ← storeOr out j (c >>> 4 &&& 0x3)
          let out ← store out (next j) ((c &&& 0xF) <<< 4)
          decodeLoop text (i + 1) (next j) out
      | 2 => do
          let out ← storeOr out j (c >>> 2 &&& 0xF)
          let out ← store out (next j) ((c &&& 0x3) <<< 6)
          decodeLoop text (i + 1) (next j) out
      | _ => do
          let out ← storeOr out j c
          decodeLoop text (i + 1) (next j) out) := by
  rw [decodeLoop]
  rw [digit] at isDigit
  split at isDigit
  · cases isDigit
  case isFalse inRange =>
    rw [if_neg noPad, if_neg inRange]
    cases found : base64de[byte.toNat]? with
    | none => simp [found] at isDigit
    | some value =>
        simp only [found] at isDigit
        split at isDigit
        · cases isDigit
        case isFalse apart =>
          obtain rfl := Option.some.inj isDigit
          simp [apart]

theorem decodeLoop_other {byte : UInt8} {text : List UInt8}
    (noPad : byte ≠ base64Pad) (noDigit : digit byte = none) :
    decodeLoop (byte :: text) i j out = some (0, out) := by
  rw [decodeLoop]
  rw [digit] at noDigit
  split at noDigit
  case isTrue outside =>
    rw [if_neg noPad, if_pos outside]
    rfl
  case isFalse inRange =>
    have inside : byte.toNat < base64de.length := by
      have last : byte.toNat ≤ base64deLast.toNat :=
        Nat.not_lt.mp (not_or.mp inRange).2
      exact Nat.lt_of_le_of_lt last (by decide +kernel)
    rw [if_neg noPad, if_neg inRange]
    rw [List.getElem?_eq_getElem inside] at noDigit ⊢
    simp only at noDigit
    split at noDigit
    case isTrue unused => simp [unused]
    case isFalse => cases noDigit

theorem length_waiting (left rest : Nat) :
    (waiting left rest).length = if left = 0 then 0 else 1 := by
  rw [waiting]
  split <;> rfl

/-- What has been written before the last of `total` letters. -/
theorem Decoding.within
    (decoding : Decoding start source target left rest i j out) {total : Nat}
    (whole : total % 4 = 0) (before : i ≤ total) :
    j + (waiting left rest).length ≤ total / 4 * 3 := by
  have length := decoding.regrouped.length
  have count := decoding.count
  have here := decoding.here
  rw [length_waiting]
  split
  · omega
  · omega

/-- The loop decodes what is left. -/
theorem Decoding.loop
    (decoding : Decoding start source target left rest i j out)
    (text : List UInt8) (whole : (i + text.length) % 4 = 0)
    (room : (i + text.length) / 4 * 3 ≤ start.length)
    (fits : i + text.length < 2 ^ 32) :
    ∃ count after, decodeLoop text i j out = some (count, after) ∧
      Decoded start ((i + text.length) / 4 * 3)
        ((letters text).map (source ++ ·)) count after := by
  induction text generalizing source target left rest i j out with
  | nil =>
      have within := @Decoding.within _ _ _ _ _ _ _ _ decoding i whole
        (Nat.le_refl i)
      have stopped := decoding.stop within room
      exact ⟨j, out, rfl, by simpa [letters] using stopped⟩
  | cons byte text ih =>
      have length := decoding.regrouped.length
      have count := decoding.count
      have here := decoding.here
      have lefts := decoding.left_eq
      rw [List.length_cons] at whole room fits ⊢
      have within := decoding.within whole (by omega)
      by_cases isPad : byte = base64Pad
      · refine ⟨j, out, ?_, ?_⟩
        · simp [decodeLoop, isPad]
        · have stopped := decoding.stop within room
          simpa [letters, isPad] using stopped
      cases isDigit : digit byte with
      | none =>
          refine ⟨0, out, decodeLoop_other isPad isDigit, ?_⟩
          have rejected := decoding.reject within room
          simpa [letters, isPad, isDigit] using rejected
      | some c =>
          have small := digit_lt isDigit
          have more : ∀ {target' left' rest' j' out'},
              Decoding start (source ++ [c.toNat]) target' left' rest' (i + 1)
                j' out' →
              ∃ count after,
                decodeLoop text (i + 1) j' out' = some (count, after) ∧
                Decoded start ((i + (text.length + 1)) / 4 * 3)
                  ((letters (byte :: text)).map (source ++ ·)) count
                  after := by
            intro target' left' rest' j' out' next
            have found := ih next (by omega) (by omega) (by omega)
            rw [Nat.add_assoc, Nat.add_comm 1] at found
            simpa [letters, isPad, isDigit, Option.map_map,
              Function.comp_def] using found
          have phases := Nat.mod_lt i (show 0 < 4 by decide)
          rw [decodeLoop_letter isPad isDigit]
          obtain phase | phase | phase | phase :
              i % 4 = 0 ∨ i % 4 = 1 ∨ i % 4 = 2 ∨ i % 4 = 3 := by omega
          · obtain ⟨after, stored, next⟩ :=
              decoding.first phase (by omega) small
            simp only [phase, stored]
            exact more next
          · obtain rfl : left = 6 := by omega
            have low := toNat_field c (show (4 : UInt8).toNat = 4 from rfl)
              (by decide) (show (0x3 : UInt8).toNat = 2 ^ 2 - 1 from rfl)
            have high := toNat_raised c (show (4 : UInt8).toNat = 4 from rfl)
              (by decide) (show (0xF : UInt8).toNat = 2 ^ 4 - 1 from rfl)
              (by decide)
            obtain ⟨middle, after, joined, stored, target', next⟩ :=
              decoding.middle (by decide) (by omega) (by omega) small
                (by rw [low]; omega) high
            simp only [phase, joined, Option.bind_eq_bind, Option.bind_some,
              stored]
            exact more next
          · obtain rfl : left = 4 := by omega
            have low := toNat_field c (show (2 : UInt8).toNat = 2 from rfl)
              (by decide) (show (0xF : UInt8).toNat = 2 ^ 4 - 1 from rfl)
            have high := toNat_raised c (show (6 : UInt8).toNat = 6 from rfl)
              (by decide) (show (0x3 : UInt8).toNat = 2 ^ 2 - 1 from rfl)
              (by decide)
            obtain ⟨middle, after, joined, stored, target', next⟩ :=
              decoding.middle (by decide) (by omega) (by omega) small
                (by rw [low]; omega) high
            simp only [phase, joined, Option.bind_eq_bind, Option.bind_some,
              stored]
            exact more next
          · obtain ⟨after, stored, target', next⟩ :=
              decoding.last phase (by omega) small
            simp only [phase, stored]
            exact more next

/-- What `base64_decode` accepts: the digits before the first pad in a text of
whole groups of four. -/
def accepts (text : List UInt8) : Option (List Nat) :=
  if text.length % 4 = 0 then letters text else none

theorem base64Decode_eq (text : List UInt8) (fits : text.length < 2 ^ 32)
    (room : base64DecodeOutSize text.length ≤ start.length) :
    ∃ count after, base64Decode text start = some (count, after) ∧
      Decoded start (base64DecodeOutSize text.length) (accepts text) count
        after := by
  have size : base64DecodeOutSize text.length = text.length / 4 * 3 :=
    Nat.mod_eq_of_lt (by omega)
  have nothing : Decoding start [] [] 0 0 0 0 start :=
    { regrouped := regrouped_nil 6 8
      short := by decide
      count := rfl
      here := rfl
      written := by simp [waiting] }
  rw [size] at room ⊢
  rw [base64Decode, accepts]
  by_cases whole : text.length % 4 = 0
  · have decoded := nothing.loop text (by omega) (by simpa using room)
      (by omega)
    simpa [whole, Nat.zero_add] using decoded
  · rw [if_pos whole, if_neg whole]
    exact ⟨0, start, rfl, rfl, rfl, fun _ => rfl, fun _ none => by cases none⟩

/-- Whatever the text, `base64_decode` stays within the buffer that
`BASE64_DECODE_OUT_SIZE` asks for.  It returns 0 unless the length is a
multiple of four and all letters before the first pad are in the alphabet; then
it returns how many whole bytes their bits make up and leaves these in the
buffer. -/
theorem base64Decode_exact (text out : List UInt8)
    (fits : text.length < 2 ^ 32)
    (room : base64DecodeOutSize text.length ≤ out.length) :
    ∃ count after, base64Decode text out = some (count, after) ∧
      after.length = out.length ∧
      after.drop (base64DecodeOutSize text.length) =
        out.drop (base64DecodeOutSize text.length) ∧
      (accepts text = none → count = 0) ∧
      ∀ digits, accepts text = some digits →
        count = 6 * digits.length / 8 ∧
        number 256 ((after.take count).map UInt8.toNat) =
          number 64 digits / 2 ^ (6 * digits.length % 8) := by
  obtain ⟨count, after, decodes, decoded⟩ := base64Decode_eq text fits room
  refine ⟨count, after, decodes, decoded.length, decoded.kept,
    decoded.rejected, ?_⟩
  intro digits accepted
  obtain ⟨target, left, rest, regrouped, short, here, bytes⟩ :=
    decoded.accepted digits accepted
  have length := regrouped.length
  have isLeft : 6 * digits.length % 8 = left := by omega
  have values : (target.map Nat.toUInt8).map UInt8.toNat = target := by
    have back : ∀ value ∈ target, (UInt8.toNat ∘ Nat.toUInt8) value = value :=
      fun value member => toNat_toUInt8 (regrouped.below value member)
    rw [List.map_map, List.map_congr_left back, List.map_id']
  constructor
  · omega
  · have same := regrouped.same
    have quotient : number (2 ^ 6) digits / 2 ^ left =
        number (2 ^ 8) target := by
      rw [same, Nat.mul_comm, Nat.mul_add_div (Nat.two_pow_pos left),
        Nat.div_eq_of_lt regrouped.small, Nat.add_zero]
    rw [bytes, values, isLeft]
    exact quotient.symm

/-- The six letters before the pads hold four whole bytes. -/
theorem base64Decode_exact_foob : ∃ count after,
    base64Decode [90, 109, 57, 118, 89, 103, 61, 61] (.replicate 6 1) =
      some (count, after) ∧ after.length = 6 ∧ count = 4 := by
  obtain ⟨count, after, decodes, length, -, -, accepted⟩ :=
    base64Decode_exact [90, 109, 57, 118, 89, 103, 61, 61] (.replicate 6 1)
      (by decide) (by decide)
  have digits : accepts [90, 109, 57, 118, 89, 103, 61, 61] =
      some [25, 38, 61, 47, 24, 32] := by
    decide +kernel
  exact ⟨count, after, decodes, length, (accepted _ digits).1⟩

theorem letters_pads (pads : Nat) :
    letters (List.replicate pads base64Pad) = some [] := by
  cases pads with
  | zero => rfl
  | succ pads => simp [List.replicate, letters]

/-- The letters of digits give the digits back. -/
theorem letters_append {digits : List Nat}
    (small : ∀ digit ∈ digits, digit < 64) (pads : Nat) :
    letters (digits.map letter ++ List.replicate pads base64Pad) =
      some digits := by
  induction digits with
  | nil => exact letters_pads pads
  | cons value digits ih =>
      rw [List.forall_mem_cons] at small
      obtain ⟨isDigit, noPad⟩ := digit_letter value small.1
      have back : value.toUInt8.toNat = value := toNat_toUInt8 (by omega)
      simp [letters, noPad, isDigit, ih small.2, back]

theorem Encoded.noZero {values : List Nat} {text : List UInt8}
    (encoded : Encoded values text) : 0 ∉ text := by
  obtain ⟨digits, pad, pads, rfl, small, -⟩ := encoded.digits
  have apart : ∀ value < 64, letter value ≠ 0 := by decide +kernel
  intro member
  rcases List.mem_append.mp member with isLetter | isPad
  · obtain ⟨value, inside, isZero⟩ := List.mem_map.mp isLetter
    exact apart value (small value inside) isZero
  · have same := List.eq_of_mem_replicate isPad
    exact absurd same (by decide)

/-- Decoding what has been encoded gives the data back, whatever was in the
buffers before. -/
theorem base64_round_trip (data out back : List UInt8)
    (fits : (data.length + 2) / 3 * 4 + 1 < 2 ^ 32)
    (room : base64EncodeOutSize data.length ≤ out.length)
    (backRoom : base64DecodeOutSize ((data.length + 2) / 3 * 4) ≤
      back.length) :
    ∃ text decoded,
      base64Encode data out =
        some (text.length, text ++ 0 :: out.drop (text.length + 1)) ∧
      0 ∉ text ∧ text.length + 1 = base64EncodeOutSize data.length ∧
      base64Decode text back = some (data.length, decoded) ∧
      decoded.take data.length = data := by
  obtain ⟨text, encoded, encodes⟩ := base64Encode_eq data fits room
  have length := encoded.length
  rw [List.length_map] at length
  have noZero := encoded.noZero
  obtain ⟨digits, pad, pads, rfl, small, short, filled, same⟩ := encoded.digits
  rw [← length] at backRoom
  obtain ⟨count, after, decodes, decoded⟩ :=
    base64Decode_eq _ (by omega) backRoom
  have accepted : accepts (digits.map letter ++
      List.replicate pads base64Pad) = some digits := by
    rw [accepts, if_pos (by omega), letters_append small]
  obtain ⟨target, left, rest, regrouped, whole, here, bytes⟩ :=
    decoded.accepted digits accepted
  have below : ∀ value ∈ data.map UInt8.toNat, value < 2 ^ 8 := by
    intro value member
    obtain ⟨byte, -, rfl⟩ := List.mem_map.mp member
    exact byte.toNat_lt
  obtain ⟨rfl, -⟩ := regrouped.recovers (by decide) whole (by omega) below
    filled same
  have isCount : count = data.length := by rw [← here, List.length_map]
  subst isCount
  refine ⟨_, after, encodes, noZero, ?_, decodes, ?_⟩
  · rw [base64EncodeOutSize, Nat.mod_eq_of_lt fits, length]
  · rw [bytes, List.map_map]
    have back : ∀ byte ∈ data, (Nat.toUInt8 ∘ UInt8.toNat) byte = byte :=
      fun byte _ => UInt8.ofNat_toNat
    rw [List.map_congr_left back, List.map_id']

/-- Four bytes there and back. -/
theorem base64_round_trip_foob : ∃ text decoded,
    base64Encode [102, 111, 111, 98] (.replicate 9 1) =
      some (text.length, text ++ 0 ::
        (List.replicate 9 1).drop (text.length + 1)) ∧
    0 ∉ text ∧ text.length + 1 = base64EncodeOutSize 4 ∧
    base64Decode text (.replicate 6 1) = some (4, decoded) ∧
    decoded.take 4 = [102, 111, 111, 98] :=
  base64_round_trip [102, 111, 111, 98] (.replicate 9 1) (.replicate 6 1)
    (by decide) (by decide) (by decide)

end Base64

end MbedtlsKcp
