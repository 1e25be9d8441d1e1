import MbedtlsKcp.BlockStreams
import MbedtlsKcp.ByteBuffers

/-!
# MD5 in pieces

`MD5Init`, `MD5Update` and `MD5Final` over a context with its 64-byte buffer,
and the digest of a file that is read in pieces.  A copy that does not fit and
a read behind the input give no result.
-/

namespace MbedtlsKcp

namespace CommonMd5

open ByteBuffers BlockStreams

/-- The chaining variables. -/
structure State where
  a : BitVec 32
  b : BitVec 32
  c : BitVec 32
  d : BitVec 32
  deriving DecidableEq, Repr

/-- `MD5_CONTEXT`. -/
structure Md5Context where
  state : State
  count : BitVec 32 × BitVec 32
  buffer : List UInt8
  deriving DecidableEq, Repr

/-- The number that unsigned arithmetic wraps around at. -/
def uintSize : Nat := 2 ^ 32

/-! ## Transforming a block -/

/-- `FF`, `GG`, `HH` and `II`. -/
inductive Round
  | f
  | g
  | h
  | i
  deriving DecidableEq, Repr

/-- The basic functions `F`, `G`, `H` and `I`. -/
def Round.mix : Round → BitVec 32 → BitVec 32 → BitVec 32 → BitVec 32
  | .f, x, y, z => x &&& y ||| ~~~x &&& z
  | .g, x, y, z => x &&& z ||| y &&& ~~~z
  | .h, x, y, z => x ^^^ y ^^^ z
  | .i, x, y, z => y ^^^ (x ||| ~~~z)

/-- `ROTATE_LEFT`. -/
def rotateLeft (x : BitVec 32) (n : Nat) : BitVec 32 :=
  x <<< n ||| x >>> (32 - n)

/-- The steps of `MD5Transform`: the round, the word of the block, the shift and
the constant.  The variables of a step are those of the one before, moved on by
one place. -/
def steps : List (Round × Nat × Nat × BitVec 32) :=
  [(.f, 0, 7, 0xd76aa478), (.f, 1, 12, 0xe8c7b756), (.f, 2, 17, 0x242070db),
    (.f, 3, 22, 0xc1bdceee), (.f, 4, 7, 0xf57c0faf), (.f, 5, 12, 0x4787c62a),
    (.f, 6, 17, 0xa8304613), (.f, 7, 22, 0xfd469501), (.f, 8, 7, 0x698098d8),
    (.f, 9, 12, 0x8b44f7af), (.f, 10, 17, 0xffff5bb1),
    (.f, 11, 22, 0x895cd7be), (.f, 12, 7, 0x6b901122),
    (.f, 13, 12, 0xfd987193), (.f, 14, 17, 0xa679438e),
    (.f, 15, 22, 0x49b40821), (.g, 1, 5, 0xf61e2562), (.g, 6, 9, 0xc040b340),
    (.g, 11, 14, 0x265e5a51), (.g, 0, 20, 0xe9b6c7aa), (.g, 5, 5, 0xd62f105d),
    (.g, 10, 9, 0x2441453), (.g, 15, 14, 0xd8a1e681), (.g, 4, 20, 0xe7d3fbc8),
    (.g, 9, 5, 0x21e1cde6), (.g, 14, 9, 0xc33707d6), (.g, 3, 14, 0xf4d50d87),
    (.g, 8, 20, 0x455a14ed), (.g, 13, 5, 0xa9e3e905), (.g, 2, 9, 0xfcefa3f8),
    (.g, 7, 14, 0x676f02d9), (.g, 12, 20, 0x8d2a4c8a), (.h, 5, 4, 0xfffa3942),
    (.h, 8, 11, 0x8771f681), (.h, 11, 16, 0x6d9d6122),
    (.h, 14, 23, 0xfde5380c), (.h, 1, 4, 0xa4beea44), (.h, 4, 11, 0x4bdecfa9),
    (.h, 7, 16, 0xf6bb4b60), (.h, 10, 23, 0xbebfbc70),
    (.h, 13, 4, 0x289b7ec6), (.h, 0, 11, 0xeaa127fa), (.h, 3, 16, 0xd4ef3085),
    (.h, 6, 23, 0x4881d05), (.h, 9, 4, 0xd9d4d039), (.h, 12, 11, 0xe6db99e5),
    (.h, 15, 16, 0x1fa27cf8), (.h, 2, 23, 0xc4ac5665), (.i, 0, 6, 0xf4292244),
    (.i, 7, 10, 0x432aff97), (.i, 14, 15, 0xab9423a7),
    (.i, 5, 21, 0xfc93a039), (.i, 12, 6, 0x655b59c3), (.i, 3, 10, 0x8f0ccc92),
    (.i, 10, 15, 0xffeff47d), (.i, 1, 21, 0x85845dd1), (.i, 8, 6, 0x6fa87e4f),
    (.i, 15, 10, 0xfe2ce6e0), (.i, 6, 15, 0xa3014314),
    (.i, 13, 21, 0x4e0811a1), (.i, 4, 6, 0xf7537e82),
    (.i, 11, 10, 0xbd3af235), (.i, 2, 15, 0x2ad7d2bb),
    (.i, 9, 21, 0xeb86d391)]

/-- One step. -/
def step (x : List (BitVec 32)) (state : State)
    (entry : Round × Nat × Nat × BitVec 32) : State :=
  let (round, word, shift, constant) := entry
  let a := state.a + (round.mix state.b state.c state.d + x.getD word 0 +
    constant)
  { a := state.d
    b := rotateLeft a shift + state.b
    c := state.b
    d := state.c }

/-- `Decode`: the words of a block. -/
def decode : List UInt8 → List (BitVec 32)
  | first :: second :: third :: fourth :: rest =>
      BitVec.ofNat 32 (decodeLE [first, second, third, fourth]) :: decode rest
  | _ => []

/-- `MD5Transform`. -/
def md5Transform (state : State) (block : List UInt8) : State :=
  let after := steps.foldl (step (decode block)) state
  { a := state.a + after.a
    b := state.b + after.b
    c := state.c + after.c
    d := state.d + after.d }

/-! ## The context -/

/-- `MD5Init`; the buffer keeps what was in it. -/
def md5Init (buffer : List UInt8) : Md5Context where
  state := ⟨0x67452301, 0xefcdab89, 0x98badcfe, 0x10325476⟩
  count := (0, 0)
  buffer := buffer

/-- The loop of `MD5Update` over whole blocks of the input from `i` on. -/
def transformBlocks (input : List UInt8) (i : Nat) (state : State) :
    Option (State × Nat) :=
  if (i + 63) % uintSize < input.length then
    if i + 64 ≤ input.length then
      transformBlocks input (i + 64) (md5Transform state (slice input i 64))
    else
      none
  else
    some (state, i)
termination_by input.length - i

/-- The count of bits after `inputLen` more bytes. -/
def addCount (count : BitVec 32 × BitVec 32) (inputLen : Nat) :
    BitVec 32 × BitVec 32 :=
  let bits := BitVec.ofNat 32 inputLen <<< 3
  let low := count.1 + bits
  let high := if low < bits then count.2 + 1 else count.2
  (low, high + BitVec.ofNat 32 inputLen >>> 29)

/-- The bytes in the buffer. -/
def index (count : BitVec 32 × BitVec 32) : Nat :=
  (count.1 >>> 3 &&& 0x3F).toNat

/-- `MD5Update`. -/
def md5Update (context : Md5Context) (input : List UInt8) :
    Option Md5Context := do
  let index := index context.count
  let count := addCount context.count input.length
  let partLen := 64 - index
  if partLen ≤ input.length then
    let buffer ← copyInto context.buffer index (input.take partLen)
    let state := md5Transform context.state buffer
    let (state, i) ← transformBlocks input partLen state
    let buffer ← copyInto buffer 0 (input.drop i)
    return { state, count, buffer }
  else
    let buffer ← copyInto context.buffer index input
    return { context with count, buffer }

/-- `PADDING`. -/
def padding : List UInt8 := 0x80 :: List.replicate 63 0

/-- `Encode` of the chaining variables. -/
def State.encode (state : State) : List UInt8 :=
  encodeLE 4 state.a.toNat ++ encodeLE 4 state.b.toNat ++
    encodeLE 4 state.c.toNat ++ encodeLE 4 state.d.toNat

/-- `MD5Final`: the digest and the context after the call. -/
def md5Final (context : Md5Context) : Option (List UInt8 × Md5Context) := do
  let bits := encodeLE 4 context.count.1.toNat ++
    encodeLE 4 context.count.2.toNat
  let index := index context.count
  let padLen := if index < 56 then 56 - index else 120 - index
  let context ← md5Update context (padding.take padLen)
  let context ← md5Update context bits
  return (context.state.encode,
    { state := ⟨0, 0, 0, 0⟩, count := (0, 0), buffer := .replicate 64 0 })

/-! ## What a digest is -/

/-- A message with what is put behind it: a bit, zeros, and its length in
bits. -/
def padded (message : List UInt8) : List UInt8 :=
  message ++ padding.take ((119 - message.length % 64) % 64 + 1) ++
    encodeLE 8 (8 * message.length)

/-- The chaining variables behind some blocks. -/
def chained (blocks : List (List UInt8)) : State :=
  blocks.foldl md5Transform (md5Init []).state

/-- The digest of a message: all blocks of the padded message, one after the
other. -/
def md5 (message : List UInt8) : List UInt8 :=
  (chained (blocks 64 (padded message))).encode

/-- The digest of a message in pieces. -/
def digest (buffer : List UInt8) (pieces : List (List UInt8)) :
    Option (List UInt8) := do
  let context ← pieces.foldlM md5Update (md5Init buffer)
  let (digest, _) ← md5Final context
  return digest

/-! ## What the context stands for -/

/-- The context has taken in a message: the whole blocks are chained, the rest
is in the buffer, and the count is that of its bits. -/
structure Absorbed (message : List UInt8) (context : Md5Context) : Prop where
  state : context.state = chained (blocks 64 message)
  count : context.count.1.toNat + 2 ^ 32 * context.count.2.toNat =
    8 * message.length % 2 ^ 64
  length : context.buffer.length = 64
  rest : context.buffer.take (message.length % 64) = leftover 64 message

variable {message input : List UInt8} {context : Md5Context}

theorem absorbed_init {buffer : List UInt8} (length : buffer.length = 64) :
    Absorbed [] (md5Init buffer) where
  state := rfl
  count := rfl
  length := length
  rest := rfl

/-- The lengths of the pieces do not make the loop counter wrap around. -/
def Fits (input : List UInt8) : Prop :=
  input.length + 63 < uintSize

theorem Absorbed.index_eq (absorbed : Absorbed message context) :
    index context.count = message.length % 64 := by
  have count := absorbed.count
  have low := context.count.1.isLt
  have shifted : (context.count.1 >>> 3 &&& 0x3F).toNat =
      context.count.1.toNat / 8 % 64 := by
    rw [BitVec.toNat_and, BitVec.toNat_ushiftRight, Nat.shiftRight_eq_div_pow]
    exact Nat.and_two_pow_sub_one_eq_mod _ 6
  rw [index, shifted]
  omega

/-- The carry of the low word. -/
theorem Absorbed.addCount (absorbed : Absorbed message context)
    (small : input.length < 2 ^ 32) :
    (addCount context.count input.length).1.toNat +
        2 ^ 32 * (addCount context.count input.length).2.toNat =
      8 * (message ++ input).length % 2 ^ 64 := by
  have count := absorbed.count
  have low := context.count.1.isLt
  have high := context.count.2.isLt
  have bits : (BitVec.ofNat 32 input.length <<< 3).toNat =
      8 * input.length % 2 ^ 32 := by
    rw [BitVec.toNat_shiftLeft, BitVec.toNat_ofNat, Nat.mod_eq_of_lt small,
      Nat.shiftLeft_eq, Nat.mul_comm]
  have top : (BitVec.ofNat 32 input.length >>> 29).toNat =
      input.length / 2 ^ 29 := by
    rw [BitVec.toNat_ushiftRight, BitVec.toNat_ofNat, Nat.mod_eq_of_lt small,
      Nat.shiftRight_eq_div_pow]
  rw [CommonMd5.addCount, List.length_append]
  dsimp only
  split
  case isTrue carry =>
    rw [BitVec.lt_def, BitVec.toNat_add, bits] at carry
    rw [BitVec.toNat_add, BitVec.toNat_add, BitVec.toNat_add, bits, top]
    have one : (1 : BitVec 32).toNat = 1 := rfl
    omega
  case isFalse carry =>
    rw [BitVec.lt_def, BitVec.toNat_add, bits] at carry
    rw [BitVec.toNat_add, BitVec.toNat_add, bits, top]
    omega

/-- The loop chains the whole blocks that are left. -/
theorem transformBlocks_eq (fits : Fits input) {i : Nat}
    (inside : i ≤ input.length) (state : State) :
    transformBlocks input i state =
      some ((blocks 64 (input.drop i)).foldl md5Transform state,
        input.length - (leftover 64 (input.drop i)).length) := by
  rw [Fits, uintSize] at fits
  induction left : input.length - i using Nat.strongRecOn
    generalizing i state with
  | ind left' ih =>
      rw [transformBlocks, uintSize, Nat.mod_eq_of_lt (by omega)]
      have length : (input.drop i).length = input.length - i :=
        List.length_drop
      by_cases more : i + 63 < input.length
      · have long : 64 ≤ (input.drop i).length := by omega
        rw [if_pos more, if_pos (by omega), ih _ (by omega) (by omega) _ rfl,
          blocks_of_long (by decide) long, leftover_of_long (by decide) long,
          List.drop_drop, List.foldl_cons, slice]
      · have short : (input.drop i).length < 64 := by omega
        rw [if_neg more, blocks_of_short short, leftover_of_short short,
          length, List.foldl_nil]
        congr 2
        omega

theorem length_leftover (stream : List UInt8) :
    (leftover 64 stream).length = stream.length % 64 := by
  rw [leftover, List.length_drop]
  omega

/-- What is left of a part is left at the end of the input. -/
theorem drop_leftover {i : Nat} (inside : i ≤ input.length) :
    input.drop (input.length - (leftover 64 (input.drop i)).length) =
      leftover 64 (input.drop i) := by
  rw [length_leftover, leftover, List.drop_drop, List.length_drop]
  congr 1
  omega

/-- An input that does not fill the buffer. -/
theorem Absorbed.buffered (absorbed : Absorbed message context)
    (short : message.length % 64 + input.length < 64)
    {count : BitVec 32 × BitVec 32}
    (counted : count.1.toNat + 2 ^ 32 * count.2.toNat =
      8 * (message ++ input).length % 2 ^ 64) :
    ∃ buffer,
      copyInto context.buffer (message.length % 64) input = some buffer ∧
      Absorbed (message ++ input) { context with count, buffer } := by
  have length := absorbed.length
  have fits : message.length % 64 + input.length ≤ context.buffer.length := by
    omega
  obtain ⟨cut, left⟩ := blocks_append (show 0 < 64 by decide) message input
  have whole : (leftover 64 message ++ input).length < 64 := by
    rw [List.length_append, length_leftover]
    exact short
  rw [blocks_of_short whole, List.append_nil] at cut
  rw [leftover_of_short whole] at left
  refine ⟨_, copyInto_eq_some fits, ?_⟩
  constructor
  case state => rw [cut, absorbed.state]
  case count => exact counted
  case length => rw [length_overwrite fits, length]
  case rest =>
    have held : (message ++ input).length % 64 =
        message.length % 64 + input.length := by
      rw [List.length_append]
      omega
    rw [held, left, take_overwrite input (by omega), absorbed.rest]

/-- An input that fills the buffer. -/
theorem Absorbed.transform (absorbed : Absorbed message context)
    (fits : Fits input) (long : 64 ≤ message.length % 64 + input.length)
    {count : BitVec 32 × BitVec 32}
    (counted : count.1.toNat + 2 ^ 32 * count.2.toNat =
      8 * (message ++ input).length % 2 ^ 64) :
    ∃ filled state i buffer,
      copyInto context.buffer (message.length % 64)
        (input.take (64 - message.length % 64)) = some filled ∧
      transformBlocks input (64 - message.length % 64)
        (md5Transform context.state filled) = some (state, i) ∧
      copyInto filled 0 (input.drop i) = some buffer ∧
      Absorbed (message ++ input) { state, count, buffer } := by
  have length := absorbed.length
  generalize part : 64 - message.length % 64 = partLen
  have inside : partLen ≤ input.length := by omega
  have partLength : (input.take partLen).length = partLen := by
    rw [List.length_take, Nat.min_eq_left inside]
  have room : message.length % 64 + (input.take partLen).length ≤
      context.buffer.length := by
    omega
  have filledIs : overwrite context.buffer (message.length % 64)
      (input.take partLen) = leftover 64 message ++ input.take partLen := by
    have all := take_overwrite (input.take partLen)
      (show message.length % 64 ≤ context.buffer.length by omega)
    rw [List.take_of_length_le (by rw [length_overwrite room]; omega),
      absorbed.rest] at all
    exact all
  obtain ⟨cut, left⟩ := blocks_append (show 0 < 64 by decide) message input
  have whole : 64 ≤ (leftover 64 message ++ input).length := by
    rw [List.length_append, length_leftover]
    exact long
  have front : (leftover 64 message ++ input).take 64 =
      leftover 64 message ++ input.take partLen := by
    rw [List.take_append, List.take_of_length_le
      (by rw [length_leftover]; omega), length_leftover, part]
  have back : (leftover 64 message ++ input).drop 64 =
      input.drop partLen := by
    rw [List.drop_append, List.drop_eq_nil_of_le
      (by rw [length_leftover]; omega), length_leftover, part,
      List.nil_append]
  rw [blocks_of_long (by decide) whole, front, back] at cut
  rw [leftover_of_long (by decide) whole, back] at left
  have rest := drop_leftover inside
  have last : 0 + (leftover 64 (input.drop partLen)).length ≤
      (leftover 64 message ++ input.take partLen).length := by
    rw [length_leftover, List.length_append, length_leftover, partLength]
    omega
  have store : copyInto (overwrite context.buffer (message.length % 64)
        (input.take partLen)) 0
      (input.drop (input.length -
        (leftover 64 (input.drop partLen)).length)) =
      some (overwrite (leftover 64 message ++ input.take partLen) 0
        (leftover 64 (input.drop partLen))) := by
    rw [rest, filledIs]
    exact copyInto_eq_some last
  refine ⟨_, _, _, _, copyInto_eq_some room, transformBlocks_eq fits inside _,
    store, ?_⟩
  constructor
  case state =>
    rw [cut, absorbed.state, filledIs, chained, chained, List.foldl_append,
      List.foldl_cons]
  case count => exact counted
  case length =>
    rw [length_overwrite last, List.length_append, length_leftover,
      partLength]
    omega
  case rest =>
    have stored := take_overwrite (leftover 64 (input.drop partLen))
      (Nat.zero_le (leftover 64 message ++ input.take partLen).length)
    rw [Nat.zero_add, List.take_zero, List.nil_append] at stored
    rw [← length_leftover, left]
    exact stored

/-- `MD5Update` takes in the input. -/
theorem Absorbed.update (absorbed : Absorbed message context)
    (fits : Fits input) :
    ∃ after, md5Update context input = some after ∧
      Absorbed (message ++ input) after := by
  have small : input.length < 2 ^ 32 := by
    rw [Fits, uintSize] at fits
    omega
  have counted := absorbed.addCount small
  rw [md5Update, absorbed.index_eq]
  by_cases fills : 64 - message.length % 64 ≤ input.length
  · obtain ⟨filled, state, i, buffer, fill, transform, store, taken⟩ :=
      absorbed.transform fits (by omega) counted
    simp only [fills, if_true, fill, Option.bind_eq_bind, Option.bind_some,
      transform, store]
    exact ⟨_, rfl, taken⟩
  · obtain ⟨buffer, store, taken⟩ := absorbed.buffered (by omega) counted
    simp only [fills, if_false, store, Option.bind_eq_bind, Option.bind_some]
    exact ⟨_, rfl, taken⟩

theorem Absorbed.pieces (absorbed : Absorbed message context)
    {pieces : List (List UInt8)} (fits : ∀ piece ∈ pieces, Fits piece) :
    ∃ after, pieces.foldlM md5Update context = some after ∧
      Absorbed (message ++ pieces.flatten) after := by
  induction pieces generalizing message context with
  | nil => exact ⟨context, rfl, by simpa using absorbed⟩
  | cons piece pieces ih =>
      rw [List.forall_mem_cons] at fits
      obtain ⟨next, updates, taken⟩ := absorbed.update fits.1
      obtain ⟨after, returns, all⟩ := ih taken fits.2
      refine ⟨after, ?_, ?_⟩
      · rw [List.foldlM_cons, updates]
        exact returns
      · rwa [List.flatten_cons, ← List.append_assoc]

/-- The length behind the padding is that of the message. -/
theorem Absorbed.bits (absorbed : Absorbed message context) :
    encodeLE 4 context.count.1.toNat ++ encodeLE 4 context.count.2.toNat =
      encodeLE 8 (8 * message.length) := by
  rw [encodeLE_append context.count.1.isLt]
  exact (congrArg (encodeLE 8) absorbed.count).trans (encodeLE_mod 8 _)

theorem fits_short (short : input.length ≤ 64) : Fits input := by
  rw [Fits, uintSize]
  omega

/-- `MD5Final` gives the digest of what has been taken in. -/
theorem Absorbed.final (absorbed : Absorbed message context) :
    ∃ after, md5Final context = some (md5 message, after) := by
  have below := Nat.mod_lt message.length (show 0 < 64 by decide)
  have padLen : (if message.length % 64 < 56 then 56 - message.length % 64
      else 120 - message.length % 64) =
      (119 - message.length % 64) % 64 + 1 := by
    split
    · omega
    · omega
  have padLength : (padding.take
      ((119 - message.length % 64) % 64 + 1)).length =
      (119 - message.length % 64) % 64 + 1 := by
    rw [List.length_take]
    have all : padding.length = 64 := rfl
    omega
  obtain ⟨padded, pads, absorbedPad⟩ :=
    absorbed.update (fits_short (show (padding.take
      ((119 - message.length % 64) % 64 + 1)).length ≤ 64 by omega))
  have bitsLength : (encodeLE 8 (8 * message.length)).length = 8 :=
    length_encodeLE 8 _
  obtain ⟨whole, counts, absorbedAll⟩ := absorbedPad.update
    (fits_short (show (encodeLE 8 (8 * message.length)).length ≤ 64 by omega))
  rw [md5Final, absorbed.bits, absorbed.index_eq]
  simp only [padLen, pads, Option.bind_eq_bind, Option.bind_some, counts,
    absorbedAll.state]
  exact ⟨_, rfl⟩

theorem Absorbed.digest {buffer : List UInt8} {pieces : List (List UInt8)}
    (updates : pieces.foldlM md5Update (md5Init buffer) = some context)
    (absorbed : Absorbed message context) :
    CommonMd5.digest buffer pieces = some (md5 message) := by
  obtain ⟨after, finishes⟩ := absorbed.final
  rw [CommonMd5.digest, updates]
  simp [finishes]

/-- The digest of a message does not depend on the pieces it comes in, nor on
what was in the context before. -/
theorem digest_eq_md5 {buffer : List UInt8} (length : buffer.length = 64)
    {pieces : List (List UInt8)}
    (fits : ∀ piece ∈ pieces, piece.length + 63 < uintSize) :
    digest buffer pieces = some (md5 pieces.flatten) := by
  obtain ⟨context, updates, absorbed⟩ := (absorbed_init length).pieces fits
  rw [List.nil_append] at absorbed
  exact absorbed.digest updates

/-- The digest of `abc`, taken in as two pieces. -/
theorem digest_eq_md5_abc : digest (.replicate 64 7) [[97], [98, 99]] =
    some (md5 [97, 98, 99]) :=
  digest_eq_md5 (by decide) (by decide)

example : md5 [97, 98, 99] = [0x90, 0x01, 0x50, 0x98, 0x3c, 0xd2, 0x4f, 0xb0,
    0xd6, 0x96, 0x3f, 0x7d, 0x28, 0xe1, 0x7f, 0x72] := by decide +kernel

/-! ## The digest of a file -/

/-- A digit of `%02hhx`. -/
def hexDigit (value : UInt8) : UInt8 :=
  if value < 10 then 48 + value else 87 + value

/-- `%02hhx` of some bytes. -/
def hexText (bytes : List UInt8) : List UInt8 :=
  bytes.flatMap fun byte => [hexDigit (byte / 16), hexDigit (byte % 16)]

/-- The loop that prints the digest from its byte `i` on. -/
def printDigest : List UInt8 → Nat → List UInt8 → Option (List UInt8)
  | [], _, mMd5 => some mMd5
  | byte :: rest, i, mMd5 => do
      let mMd5 ← copyInto mMd5 (i * 2)
        [hexDigit (byte / 16), hexDigit (byte % 16), 0]
      printDigest rest (i + 1) mMd5

/-- `COMM_API_calculate_md5` for a file that cannot be opened or the results of
reading it: the returned code and `m_md5` after the call.  `buffer` is what is
in the context on the stack. -/
def commApiCalculateMd5 (buffer : List UInt8)
    (file : Option (List (List UInt8))) (mMd5 : List UInt8) (md5Len : Int) :
    Option (Int × List UInt8) :=
  match file with
  | none => some (-1, mMd5)
  | some reads => do
      let digest ← digest buffer (reads.takeWhile (· ≠ []))
      if md5Len < 33 then
        return (-1, mMd5)
      let mMd5 ← printDigest digest 0 mMd5
      let mMd5 ← copyInto mMd5 32 [0]
      return (0, mMd5)

/-- Every byte is printed behind those before it; the byte behind the last one
is the terminator. -/
theorem printDigest_eq {bytes : List UInt8} {i : Nat} {mMd5 : List UInt8}
    (room : (i + bytes.length) * 2 < mMd5.length) :
    ∃ after, printDigest bytes i mMd5 = some after ∧
      after.length = mMd5.length ∧
      after.take ((i + bytes.length) * 2) =
        mMd5.take (i * 2) ++ hexText bytes ∧
      after.drop ((i + bytes.length) * 2 + 1) =
        mMd5.drop ((i + bytes.length) * 2 + 1) := by
  induction bytes generalizing i mMd5 with
  | nil => exact ⟨mMd5, rfl, rfl, by simp [hexText], rfl⟩
  | cons byte bytes ih =>
      rw [List.length_cons] at room ⊢
      generalize digits : [hexDigit (byte / 16), hexDigit (byte % 16)] = pair
      have pairLength : pair.length = 2 := by rw [← digits]; rfl
      have three : [hexDigit (byte / 16), hexDigit (byte % 16), 0] =
          pair ++ [0] := by rw [← digits]; rfl
      have fits : i * 2 + (pair ++ [0]).length ≤ mMd5.length := by
        rw [List.length_append, pairLength, List.length_singleton]
        omega
      have length := length_overwrite fits
      obtain ⟨after, prints, sameLength, front, back⟩ :=
        @ih (i + 1) (overwrite mMd5 (i * 2) (pair ++ [0])) (by omega)
      have total : i + 1 + bytes.length = i + (bytes.length + 1) := by omega
      rw [total] at front back
      refine ⟨after, ?_, sameLength.trans length, ?_, ?_⟩
      · rw [printDigest, three, copyInto_eq_some fits]
        exact prints
      · have stored : (overwrite mMd5 (i * 2) (pair ++ [0])).take
            ((i + 1) * 2) = mMd5.take (i * 2) ++ pair := by
          have all := take_overwrite (pair ++ [0])
            (show i * 2 ≤ mMd5.length by omega)
          have shorter := congrArg (List.take ((i + 1) * 2)) all
          rw [List.take_take, List.length_append, pairLength,
            List.length_singleton, Nat.min_eq_left (by omega),
            ← List.append_assoc, List.take_left'] at shorter
          · exact shorter
          · rw [List.length_append, List.length_take, pairLength]
            omega
        rw [front, stored, hexText, hexText, List.flatMap_cons, digits,
          List.append_assoc]
      · rw [back, overwrite, List.drop_append, List.drop_eq_nil_of_le,
          List.nil_append, List.drop_drop]
        · congr 1
          simp only [List.length_append, List.length_take, pairLength,
            List.length_singleton]
          omega
        · simp only [List.length_append, List.length_take, pairLength,
            List.length_singleton]
          omega

theorem length_md5 (message : List UInt8) : (md5 message).length = 16 := by
  simp [md5, State.encode]

/-- However the file is read, the text of its digest is stored, with a
terminator and nothing behind it; a buffer that is too short is not touched. -/
theorem commApiCalculateMd5_eq {buffer : List UInt8}
    (length : buffer.length = 64) {reads : List (List UInt8)}
    (short : ∀ read ∈ reads, read.length ≤ 1024) {mMd5 : List UInt8}
    {md5Len : Int} (room : md5Len ≤ mMd5.length) :
    commApiCalculateMd5 buffer (some reads) mMd5 md5Len =
      some (if md5Len < 33 then (-1, mMd5)
        else (0, hexText (md5 (reads.takeWhile (· ≠ [])).flatten) ++
          0 :: mMd5.drop 33)) := by
  have fits : ∀ piece ∈ reads.takeWhile (· ≠ []),
      piece.length + 63 < uintSize := by
    intro piece member
    have := short piece ((List.takeWhile_prefix _).subset member)
    rw [uintSize]
    omega
  obtain ⟨context, updates, absorbed⟩ := (absorbed_init length).pieces fits
  rw [List.nil_append] at absorbed
  rw [commApiCalculateMd5]
  simp only [absorbed.digest updates, Option.bind_eq_bind, Option.bind_some]
  have digestLength := length_md5 (reads.takeWhile (· ≠ [])).flatten
  generalize md5 (reads.takeWhile (· ≠ [])).flatten = bytes at digestLength
  by_cases small : md5Len < 33
  · simp only [small, if_true]
    rfl
  · obtain ⟨after, prints, sameLength, front, back⟩ :=
      @printDigest_eq bytes 0 mMd5 (by omega)
    rw [digestLength] at front back
    have terminated : copyInto after 32 [0] =
        some (hexText bytes ++ 0 :: mMd5.drop 33) := by
      have inside : 32 + [(0 : UInt8)].length ≤ after.length := by
        rw [sameLength, List.length_singleton]
        omega
      rw [copyInto_eq_some inside, overwrite]
      simp only [Nat.zero_add, Nat.reduceMul, Nat.reduceAdd, Nat.zero_mul,
        List.take_zero, List.nil_append] at front back
      simp [front, back]
    simp only [small, if_false, prints, Option.bind_some, terminated]
    rfl

/-- A file of three bytes that is read in two pieces. -/
theorem commApiCalculateMd5_abc :
    commApiCalculateMd5 (.replicate 64 7) (some [[97], [98, 99], []])
        (.replicate 33 1) 33 =
      some (0, hexText (md5 [97, 98, 99]) ++ 0 :: []) :=
  commApiCalculateMd5_eq (by decide) (by decide) (by decide)

end CommonMd5

end MbedtlsKcp
