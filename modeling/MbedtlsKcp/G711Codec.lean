import MbedtlsKcp.CellMidpoints
import MbedtlsKcp.ByteBuffers
import Mathlib.Data.List.Forall2
import Mathlib.Tactic.IntervalCases

/-!
# The G.711 codec of the recordings

`g711codec.c` gives a sample a code of one byte: a sign, the segment of its
magnitude and four bits of the place in that segment.
-/

namespace MbedtlsKcp

namespace G711Codec

open ByteBuffers CellMidpoints

/-- `seg_end`. -/
def segEnd : List Int :=
  [0xFF, 0x1FF, 0x3FF, 0x7FF, 0xFFF, 0x1FFF, 0x3FFF, 0x7FFF]

/-- `search`; the loop has come to `i`. -/
def search (val : Int) : List Int → Nat → Nat
  | [], i => i
  | stop :: table, i => if val ≤ stop then i else search val table (i + 1)

/-- `(val >> shift) & QUANT_MASK`, also of a negative number. -/
def quantum (val : Int) (shift : Nat) : UInt8 :=
  ((val / 2 ^ shift) % 16).toNat.toUInt8

def alaw2linear (aVal : UInt8) : Int :=
  let aVal := aVal ^^^ 0x55
  let t : Nat := (aVal &&& 0xf).toNat <<< 4
  let seg := ((aVal &&& 0x70) >>> 4).toNat
  let t := match seg with
    | 0 => t + 8
    | 1 => t + 0x108
    | seg + 2 => (t + 0x108) <<< (seg + 1)
  if aVal &&& 0x80 ≠ 0 then t else -t

def ulaw2linear (uVal : UInt8) : Int :=
  let uVal := ~~~uVal
  let t : Nat := ((uVal &&& 0xf).toNat <<< 3) + 0x84
  let t := t <<< ((uVal &&& 0x70) >>> 4).toNat
  if uVal &&& 0x80 ≠ 0 then 0x84 - t else t - 0x84

/-- `(short) value`. -/
def toShort (value : Int) : Int :=
  value.bmod (2 ^ 16)

/-- The code of a magnitude in the A-law, before its sign. -/
def alawCode (pcmVal : Int) (seg : Nat) : UInt8 :=
  (seg.toUInt8 <<< 4) ||| quantum pcmVal (if seg < 2 then 4 else seg + 3)

def linear2alaw (pcmVal : Int) : UInt8 :=
  let mask : UInt8 := if pcmVal ≥ 0 then 0xD5 else 0x55
  let pcmVal := if pcmVal ≥ 0 then pcmVal else -pcmVal - 8
  let seg := search pcmVal segEnd 0
  if seg ≥ 8 then 0x7F ^^^ mask else alawCode pcmVal seg ^^^ mask

def ulawCode (pcmVal : Int) (seg : Nat) : UInt8 :=
  (seg.toUInt8 <<< 4) ||| quantum pcmVal (seg + 3)

def linear2ulaw (pcmVal : Int) : UInt8 :=
  let mask : UInt8 := if pcmVal < 0 then 0x7F else 0xFF
  let pcmVal := if pcmVal < 0 then 0x84 - pcmVal else pcmVal + 0x84
  let seg := search pcmVal segEnd 0
  if seg ≥ 8 then 0x7F ^^^ mask else ulawCode pcmVal seg ^^^ mask

/-- `g711a_encode`; the returned length is the one of the codes. -/
def g711aEncode (amp : List Int) : List UInt8 :=
  amp.map linear2alaw

def g711uEncode (amp : List Int) : List UInt8 :=
  amp.map linear2ulaw

def g711aDecode (g711aData : List UInt8) : List Int :=
  g711aData.map fun code => toShort (alaw2linear code)

def g711uDecode (g711uData : List UInt8) : List Int :=
  g711uData.map fun code => toShort (ulaw2linear code)

/-- Bytes that are read as shorts; an odd one is left over. -/
def shorts : List UInt8 → List Int
  | low :: high :: rest => toShort (decodeLE [low, high]) :: shorts rest
  | _ => []

/-- Shorts in memory. -/
def bytes (values : List Int) : List UInt8 :=
  values.flatMap fun value => encodeLE 2 (value % 2 ^ 16).toNat

/-- `PCM2G711a`, of data that is there. -/
def pcm2G711a (inAudioData : List UInt8) : List UInt8 :=
  g711aEncode (shorts inAudioData)

def pcm2G711u (inAudioData : List UInt8) : List UInt8 :=
  g711uEncode (shorts inAudioData)

/-- `G711a2PCM`. -/
def g711a2Pcm (inAudioData : List UInt8) : List UInt8 :=
  bytes (g711aDecode inAudioData)

def g711u2Pcm (inAudioData : List UInt8) : List UInt8 :=
  bytes (g711uDecode inAudioData)

section Magnitudes

variable {value : Nat}

/-- The segments start at the powers of two from `2 ^ 8` on. -/
theorem search_segEnd (short : value < 2 ^ 15) :
    search value segEnd 0 < 8 ∧ value < 2 ^ (search value segEnd 0 + 8) ∧
      (search value segEnd 0 ≠ 0 →
        2 ^ (search value segEnd 0 + 7) ≤ value) := by
  simp only [search, segEnd]
  split_ifs <;> simp <;> omega

/-- Behind the segments are the numbers of more than 15 bits. -/
theorem search_segEnd_of_le (long : 2 ^ 15 ≤ value) :
    search value segEnd 0 = 8 := by
  simp only [search, segEnd]
  split_ifs <;> omega

theorem quantum_natCast (shift : Nat) :
    quantum value shift = (value / 2 ^ shift % 16).toUInt8 := by
  have same : ((value : Int) / 2 ^ shift % 16).toNat =
      value / 2 ^ shift % 16 := by
    norm_cast
  rw [quantum, same]

theorem alaw2linear_code : ∀ seg : Nat, seg < 8 → ∀ quant : Nat, quant < 16 →
    alaw2linear (((seg.toUInt8 <<< 4) ||| quant.toUInt8) ^^^ 0xD5) =
        (if seg = 0 then 16 * quant + 8
          else (16 * quant + 264) * 2 ^ (seg - 1) : Nat) ∧
      alaw2linear (((seg.toUInt8 <<< 4) ||| quant.toUInt8) ^^^ 0x55) =
        -(if seg = 0 then 16 * quant + 8
          else (16 * quant + 264) * 2 ^ (seg - 1) : Nat) := by
  decide

theorem ulaw2linear_code : ∀ seg : Nat, seg < 8 → ∀ quant : Nat, quant < 16 →
    ulaw2linear (((seg.toUInt8 <<< 4) ||| quant.toUInt8) ^^^ 0xFF) =
        ((8 * quant + 132) * 2 ^ seg : Nat) - 132 ∧
      ulaw2linear (((seg.toUInt8 <<< 4) ||| quant.toUInt8) ^^^ 0x7F) =
        132 - ((8 * quant + 132) * 2 ^ seg : Nat) := by
  decide

/-- Half the width of the cells of the A-law, as a power of two. -/
def alawShift (seg : Nat) : Nat :=
  if seg = 0 then 3 else seg + 2

theorem alaw_middle (short : value < 2 ^ 15) :
    alaw2linear (alawCode value (search value segEnd 0) ^^^ 0xD5) =
        middle (alawShift (search value segEnd 0)) value ∧
      alaw2linear (alawCode value (search value segEnd 0) ^^^ 0x55) =
        -middle (alawShift (search value segEnd 0)) value := by
  obtain ⟨few, below, above⟩ := search_segEnd short
  generalize search value segEnd 0 = seg at few below above ⊢
  have decoded := alaw2linear_code seg few
    (value / 2 ^ (if seg < 2 then 4 else seg + 3) % 16)
    (Nat.mod_lt _ (by decide))
  rw [alawCode, quantum_natCast, decoded.1, decoded.2]
  have same : (if seg = 0 then
        16 * (value / 2 ^ (if seg < 2 then 4 else seg + 3) % 16) + 8
      else (16 * (value / 2 ^ (if seg < 2 then 4 else seg + 3) % 16) + 264) *
        2 ^ (seg - 1)) = middle (alawShift seg) value := by
    interval_cases seg <;> simp [middle, alawShift] at below above ⊢ <;>
      omega
  simp only [same, and_self]

theorem ulaw_middle (short : value < 2 ^ 15)
    (biased : 132 ≤ value) :
    ulaw2linear (ulawCode value (search value segEnd 0) ^^^ 0xFF) =
        middle (search value segEnd 0 + 2) value - 132 ∧
      ulaw2linear (ulawCode value (search value segEnd 0) ^^^ 0x7F) =
        132 - middle (search value segEnd 0 + 2) value := by
  obtain ⟨few, below, above⟩ := search_segEnd short
  generalize search value segEnd 0 = seg at few below above ⊢
  have decoded := ulaw2linear_code seg few (value / 2 ^ (seg + 3) % 16)
    (Nat.mod_lt _ (by decide))
  rw [ulawCode, quantum_natCast, decoded.1, decoded.2]
  have same : (8 * (value / 2 ^ (seg + 3) % 16) + 132) * 2 ^ seg =
      middle (seg + 2) value := by
    interval_cases seg <;> simp [middle] at below above ⊢ <;> omega
  simp only [same, and_self]

theorem two_pow_alawShift_le (short : value < 2 ^ 15) :
    2 ^ alawShift (search value segEnd 0) ≤ max 8 (value / 32) := by
  obtain ⟨few, below, above⟩ := search_segEnd short
  generalize search value segEnd 0 = seg at few below above ⊢
  interval_cases seg <;> simp [alawShift] at above ⊢ <;> omega

theorem two_pow_ulaw_le (short : value < 2 ^ 15) (biased : 132 ≤ value) :
    2 ^ (search value segEnd 0 + 2) ≤ value / 32 := by
  obtain ⟨few, below, above⟩ := search_segEnd short
  generalize search value segEnd 0 = seg at few below above ⊢
  interval_cases seg <;> simp at above ⊢ <;> omega

end Magnitudes

section Samples

variable {sample : Int} {value : Nat}

theorem linear2alaw_natCast (short : value < 2 ^ 15) :
    alaw2linear (linear2alaw value) =
      middle (alawShift (search value segEnd 0)) value := by
  have few := (search_segEnd short).1
  have positive : (value : Int) ≥ 0 := Int.natCast_nonneg value
  simp only [linear2alaw, positive, if_true]
  rw [if_neg (Nat.not_le.mpr few)]
  exact (alaw_middle short).1

theorem linear2alaw_neg (short : value < 2 ^ 15) :
    alaw2linear (linear2alaw (-(value : Int) - 8)) =
      -middle (alawShift (search value segEnd 0)) value := by
  have few := (search_segEnd short).1
  have negative : ¬ -(value : Int) - 8 ≥ 0 := by omega
  have back : -(-(value : Int) - 8) - 8 = value := by omega
  simp only [linear2alaw, negative, if_false, back]
  rw [if_neg (Nat.not_le.mpr few)]
  exact (alaw_middle short).2

/-- The samples that a short holds. -/
def IsShort (sample : Int) : Prop :=
  -2 ^ 15 ≤ sample ∧ sample < 2 ^ 15

/-- How far the A-law takes a sample: by half a cell, up to 7 more below zero,
and the samples next below zero to the far end of their segment. -/
def AlawClose (sample decoded : Int) : Prop :=
  if sample ≥ 0 then |decoded - sample| ≤ max 8 (sample / 32)
  else if sample ≤ -8 then |decoded - sample| ≤ max 8 (-sample / 32) + 7
  else decoded = -248

def UlawClose (sample decoded : Int) : Prop :=
  |decoded - sample| ≤ (|sample| + 132) / 32

theorem alawClose (isShort : IsShort sample) :
    AlawClose sample (alaw2linear (linear2alaw sample)) := by
  obtain ⟨low, high⟩ := isShort
  unfold AlawClose
  split_ifs with positive negative
  · obtain ⟨value, rfl⟩ := Int.eq_ofNat_of_zero_le positive
    have short : value < 2 ^ 15 := by omega
    have upper := middle_le (alawShift (search value segEnd 0)) value
    have lower := le_middle (alawShift (search value segEnd 0)) value
    have width := two_pow_alawShift_le short
    rw [linear2alaw_natCast short, abs_le]
    omega
  · obtain ⟨value, same⟩ :=
      Int.eq_ofNat_of_zero_le (show 0 ≤ -sample - 8 by omega)
    have short : value < 2 ^ 15 := by omega
    obtain rfl : sample = -(value : Int) - 8 := by omega
    have upper := middle_le (alawShift (search value segEnd 0)) value
    have lower := le_middle (alawShift (search value segEnd 0)) value
    have width := two_pow_alawShift_le short
    rw [linear2alaw_neg short, abs_le]
    omega
  · have few : -8 < sample ∧ sample < 0 := by omega
    obtain ⟨above, below⟩ := few
    interval_cases sample <;> decide

theorem linear2ulaw_natCast (short : value + 132 < 2 ^ 15) :
    ulaw2linear (linear2ulaw value) =
      middle (search (value + 132 : Nat) segEnd 0 + 2) (value + 132) -
        132 := by
  have few := (search_segEnd short).1
  have positive : ¬ (value : Int) < 0 := by omega
  simp only [linear2ulaw, positive, if_false]
  have same : (value : Int) + 0x84 = (value + 132 : Nat) := rfl
  rw [same, if_neg (Nat.not_le.mpr few)]
  exact (ulaw_middle short (by omega)).1

theorem linear2ulaw_neg (short : value + 132 < 2 ^ 15) (some : 0 < value) :
    ulaw2linear (linear2ulaw (-value)) =
      132 -
        middle (search (value + 132 : Nat) segEnd 0 + 2) (value + 132) := by
  have few := (search_segEnd short).1
  have negative : -(value : Int) < 0 := by omega
  simp only [linear2ulaw, negative, if_true]
  have same : 0x84 - -(value : Int) = (value + 132 : Nat) := by omega
  rw [same, if_neg (Nat.not_le.mpr few)]
  exact (ulaw_middle short (by omega)).2

/-- Magnitudes behind the segments have the code of the largest one. -/
theorem linear2ulaw_long (long : 2 ^ 15 ≤ value + 132) :
    ulaw2linear (linear2ulaw value) = 32124 ∧
      (0 < value → ulaw2linear (linear2ulaw (-value)) = -32124) := by
  have behind : search (value + 132 : Nat) segEnd 0 = 8 :=
    search_segEnd_of_le long
  constructor
  · have positive : ¬ (value : Int) < 0 := by omega
    have same : (value : Int) + 0x84 = (value + 132 : Nat) := rfl
    simp only [linear2ulaw, positive, if_false, same, behind, ge_iff_le,
      le_refl, if_true]
    decide
  · intro some
    have negative : -(value : Int) < 0 := by omega
    have same : 0x84 - -(value : Int) = (value + 132 : Nat) := by omega
    simp only [linear2ulaw, negative, if_true, same, behind, ge_iff_le,
      le_refl]
    decide

theorem ulawClose (isShort : IsShort sample) :
    UlawClose sample (ulaw2linear (linear2ulaw sample)) := by
  obtain ⟨low, high⟩ := isShort
  unfold UlawClose
  by_cases positive : 0 ≤ sample
  · obtain ⟨value, rfl⟩ := Int.eq_ofNat_of_zero_le positive
    rw [abs_of_nonneg positive, abs_le]
    by_cases short : value + 132 < 2 ^ 15
    · have upper :=
        middle_le (search (value + 132 : Nat) segEnd 0 + 2) (value + 132)
      have lower :=
        le_middle (search (value + 132 : Nat) segEnd 0 + 2) (value + 132)
      have width := two_pow_ulaw_le short (by omega)
      rw [linear2ulaw_natCast short]
      omega
    · rw [(linear2ulaw_long (Nat.le_of_not_lt short)).1]
      omega
  · obtain ⟨value, same⟩ :=
      Int.eq_ofNat_of_zero_le (show 0 ≤ -sample by omega)
    obtain rfl : sample = -(value : Int) := by omega
    rw [abs_of_neg (Int.not_le.mp positive), abs_le]
    by_cases short : value + 132 < 2 ^ 15
    · have upper :=
        middle_le (search (value + 132 : Nat) segEnd 0 + 2) (value + 132)
      have lower :=
        le_middle (search (value + 132 : Nat) segEnd 0 + 2) (value + 132)
      have width := two_pow_ulaw_le short (by omega)
      rw [linear2ulaw_neg short (by omega)]
      omega
    · rw [(linear2ulaw_long (Nat.le_of_not_lt short)).2 (by omega)]
      omega

end Samples

section Streams

theorem forall_uint8 {property : UInt8 → Prop}
    (holds : ∀ n : Nat, n < 256 → property n.toUInt8) (code : UInt8) :
    property code := by
  have same : code.toNat.toUInt8 = code := UInt8.ofNat_toNat
  rw [← same]
  exact holds code.toNat code.toNat_lt

theorem isShort_alaw2linear (code : UInt8) : IsShort (alaw2linear code) := by
  refine @forall_uint8 (fun code => IsShort (alaw2linear code)) ?_ code
  unfold IsShort
  decide +kernel

theorem isShort_ulaw2linear (code : UInt8) : IsShort (ulaw2linear code) := by
  refine @forall_uint8 (fun code => IsShort (ulaw2linear code)) ?_ code
  unfold IsShort
  decide +kernel

theorem linear2alaw_alaw2linear (code : UInt8) :
    linear2alaw (alaw2linear code) = code := by
  refine @forall_uint8 (fun code => linear2alaw (alaw2linear code) = code) ?_
    code
  decide +kernel

/-- The zero of the u-law has two codes. -/
def canonical (code : UInt8) : UInt8 :=
  if code = 0x7F then 0xFF else code

theorem linear2ulaw_ulaw2linear (code : UInt8) :
    linear2ulaw (ulaw2linear code) = canonical code := by
  refine @forall_uint8
    (fun code => linear2ulaw (ulaw2linear code) = canonical code) ?_ code
  decide +kernel

theorem toShort_eq (value : Int) :
    toShort value =
      if value % 65536 < 32768 then value % 65536 else value % 65536 - 65536 :=
  rfl

theorem toShort_of_isShort {sample : Int} (isShort : IsShort sample) :
    toShort sample = sample := by
  obtain ⟨low, high⟩ := isShort
  rw [toShort_eq]
  split <;> omega

theorem isShort_toShort (value : Int) : IsShort (toShort value) := by
  rw [IsShort, toShort_eq]
  split <;> omega

/-- A short is read back from its two bytes. -/
theorem shorts_bytes {values : List Int}
    (inRange : ∀ value ∈ values, IsShort value) :
    shorts (bytes values) = values := by
  induction values with
  | nil => rfl
  | cons value values ih =>
      obtain ⟨isShort, rest⟩ := List.forall_mem_cons.mp inRange
      have small : (value % 2 ^ 16).toNat < 256 ^ 2 := by omega
      have read : decodeLE (encodeLE 2 (value % 2 ^ 16).toNat) =
          (value % 2 ^ 16).toNat := by
        rw [decodeLE_encodeLE, Nat.mod_eq_of_lt small]
      have same : toShort ((value % 2 ^ 16).toNat : Nat) = value := by
        obtain ⟨low, high⟩ := isShort
        rw [toShort_eq]
        split <;> omega
      have next := ih rest
      simp only [bytes, List.flatMap_cons, encodeLE, List.cons_append,
        List.nil_append, shorts] at next read ⊢
      rw [read, same, next]

theorem isShort_of_mem_shorts {memory : List UInt8} {sample : Int}
    (member : sample ∈ shorts memory) : IsShort sample := by
  induction memory using shorts.induct with
  | case1 low high rest ih =>
      rw [shorts, List.mem_cons] at member
      rcases member with same | later
      · rw [same]
        exact isShort_toShort _
      · exact ih later
  | case2 memory short =>
      rw [shorts] at member
      · simp at member
      · exact short

/-- The samples of decoded codes. -/
theorem shorts_bytes_map {decode : UInt8 → Int}
    (inRange : ∀ code, IsShort (decode code)) (codes : List UInt8) :
    shorts (bytes (codes.map fun code => toShort (decode code))) =
      codes.map decode := by
  have same : (codes.map fun code => toShort (decode code)) =
      codes.map decode := by
    apply List.map_congr_left
    intro code _
    exact toShort_of_isShort (inRange code)
  rw [same]
  apply shorts_bytes
  intro value member
  obtain ⟨code, -, rfl⟩ := List.mem_map.mp member
  exact inRange code

theorem shorts_g711a2Pcm (codes : List UInt8) :
    shorts (g711a2Pcm codes) = codes.map alaw2linear :=
  shorts_bytes_map isShort_alaw2linear codes

theorem shorts_g711u2Pcm (codes : List UInt8) :
    shorts (g711u2Pcm codes) = codes.map ulaw2linear :=
  shorts_bytes_map isShort_ulaw2linear codes

/-- Codes come back from decoding and encoding, but for the two codes of the
zero in the u-law. -/
theorem pcm2G711_of_g711ToPcm (codes : List UInt8) :
    pcm2G711a (g711a2Pcm codes) = codes ∧
      pcm2G711u (g711u2Pcm codes) = codes.map canonical := by
  constructor
  · rw [pcm2G711a, shorts_g711a2Pcm, g711aEncode, List.map_map]
    calc
      codes.map (linear2alaw ∘ alaw2linear) = codes.map id := by
        apply List.map_congr_left
        intro code _
        exact linear2alaw_alaw2linear code
      _ = codes := List.map_id codes
  · rw [pcm2G711u, shorts_g711u2Pcm, g711uEncode, List.map_map]
    apply List.map_congr_left
    intro code _
    exact linear2ulaw_ulaw2linear code

/-- Audio data that is encoded and decoded keeps its samples up to the errors
of the codes. -/
theorem forall_close (audio : List UInt8) :
    List.Forall₂ AlawClose (shorts audio)
        (shorts (g711a2Pcm (pcm2G711a audio))) ∧
      List.Forall₂ UlawClose (shorts audio)
        (shorts (g711u2Pcm (pcm2G711u audio))) := by
  constructor
  · rw [shorts_g711a2Pcm, pcm2G711a, g711aEncode, List.map_map]
    apply List.forall₂_map_right_iff.mpr
    apply List.forall₂_same.mpr
    intro sample member
    exact alawClose (isShort_of_mem_shorts member)
  · rw [shorts_g711u2Pcm, pcm2G711u, g711uEncode, List.map_map]
    apply List.forall₂_map_right_iff.mpr
    apply List.forall₂_same.mpr
    intro sample member
    exact ulawClose (isShort_of_mem_shorts member)

end Streams

end G711Codec

end MbedtlsKcp
