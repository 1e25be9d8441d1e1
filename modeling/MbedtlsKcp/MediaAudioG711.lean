import MbedtlsKcp.G711Codec

/-!
# The G.711 codec of the audio module

`media_audio_g711.c` has the codec of the recordings once more, with shorts for
the numbers that `g711codec.c` keeps in integers.
-/

namespace MbedtlsKcp

namespace MediaAudioG711

open G711Codec CellMidpoints

/-- `_af_linear2alaw`. -/
def afLinear2alaw (pcmVal : Int) : UInt8 :=
  let mask : UInt8 := if pcmVal ≥ 0 then 0xD5 else 0x55
  let pcmVal :=
    if pcmVal ≥ 0 then pcmVal
    else
      let pcmVal := toShort (-pcmVal - 1)
      if pcmVal < 0 then 32767 else pcmVal
  let seg := search pcmVal segEnd 0
  if seg ≥ 8 then 0x7F ^^^ mask else alawCode pcmVal seg ^^^ mask

/-- `_af_alaw2linear`, in shorts. -/
def afAlaw2linear (aVal : UInt8) : Int :=
  toShort (alaw2linear aVal)

/-- `_af_linear2ulaw`; the biased magnitude is a short again. -/
def afLinear2ulaw (pcmVal : Int) : UInt8 :=
  let mask : UInt8 := if pcmVal < 0 then 0x7F else 0xFF
  let pcmVal :=
    toShort (if pcmVal < 0 then 0x84 - pcmVal else pcmVal + 0x84)
  let seg := search pcmVal segEnd 0
  if seg ≥ 8 then 0x7F ^^^ mask else ulawCode pcmVal seg ^^^ mask

/-- `_af_ulaw2linear`. -/
def afUlaw2linear (uVal : UInt8) : Int :=
  toShort (ulaw2linear uVal)

def g711Encoder (pcm : List Int) (lawflag : Int) : List UInt8 :=
  if lawflag = 0 then pcm.map afLinear2alaw else pcm.map afLinear2ulaw

def g711Decoder (code : List UInt8) (lawflag : Int) : List Int :=
  if lawflag = 0 then code.map afAlaw2linear else code.map afUlaw2linear

section Samples

variable {sample : Int}

theorem afLinear2alaw_neg {value : Nat} (short : value < 2 ^ 15) :
    alaw2linear (afLinear2alaw (-(value : Int) - 1)) =
      -middle (alawShift (search value segEnd 0)) value := by
  have few := (search_segEnd short).1
  have negative : ¬ -(value : Int) - 1 ≥ 0 := by omega
  have back : -(-(value : Int) - 1) - 1 = value := by omega
  have kept : toShort (value : Int) = value :=
    toShort_of_isShort ⟨by omega, by omega⟩
  have positive : ¬ (value : Int) < 0 := by omega
  simp only [afLinear2alaw, negative, if_false, back, kept, positive]
  rw [if_neg (Nat.not_le.mpr few)]
  exact (alaw_middle short).2

/-- Half a cell, on both sides of zero. -/
theorem abs_afAlaw (isShort : IsShort sample) :
    |afAlaw2linear (afLinear2alaw sample) - sample| ≤
      max 8 (|sample| / 32) := by
  rw [afAlaw2linear, toShort_of_isShort (isShort_alaw2linear _)]
  obtain ⟨low, high⟩ := isShort
  by_cases positive : sample ≥ 0
  · have close := alawClose ⟨low, high⟩
    have same : afLinear2alaw sample = linear2alaw sample := by
      simp [afLinear2alaw, linear2alaw, positive]
    rw [AlawClose, if_pos positive] at close
    rw [same, abs_of_nonneg positive]
    exact close
  · obtain ⟨value, same⟩ :=
      Int.eq_ofNat_of_zero_le (show 0 ≤ -sample - 1 by omega)
    have short : value < 2 ^ 15 := by omega
    obtain rfl : sample = -(value : Int) - 1 := by omega
    have upper := middle_le (alawShift (search value segEnd 0)) value
    have lower := le_middle (alawShift (search value segEnd 0)) value
    have width := two_pow_alawShift_le short
    rw [afLinear2alaw_neg short, abs_of_neg (Int.not_le.mp positive), abs_le]
    omega

/-- A biased magnitude that became negative has a code near zero. -/
theorem abs_ulawCode_le {val : Int} :
    |ulaw2linear (ulawCode val 0 ^^^ 0xFF)| ≤ 120 ∧
      |ulaw2linear (ulawCode val 0 ^^^ 0x7F)| ≤ 120 := by
  have few : (val / 2 ^ 3 % 16).toNat < 16 := by omega
  have decoded := ulaw2linear_code 0 (by decide) _ few
  have same : ulawCode val 0 =
      ((0 : Nat).toUInt8 <<< 4) ||| (val / 2 ^ 3 % 16).toNat.toUInt8 := rfl
  rw [same, decoded.1, decoded.2, abs_le, abs_le]
  omega

theorem search_of_neg {val : Int} (negative : val < 0) :
    search val segEnd 0 = 0 := by
  have first : val ≤ 0xFF := by omega
  simp [search, segEnd, first]

/-- The bias carries a loud sample out of the shorts. -/
theorem abs_afUlaw_le (isShort : IsShort sample) (loud : 32635 < |sample|) :
    |afUlaw2linear (afLinear2ulaw sample)| ≤ 120 := by
  rw [afUlaw2linear, toShort_of_isShort (isShort_ulaw2linear _)]
  obtain ⟨low, high⟩ := isShort
  by_cases negative : sample < 0
  · rw [abs_of_neg negative] at loud
    have wraps : toShort (0x84 - sample) < 0 := by
      rw [toShort_eq]
      split <;> omega
    simp only [afLinear2ulaw, negative, if_true, search_of_neg wraps]
    exact (abs_ulawCode_le).2
  · rw [abs_of_nonneg (Int.not_lt.mp negative)] at loud
    have wraps : toShort (sample + 0x84) < 0 := by
      rw [toShort_eq]
      split <;> omega
    simp only [afLinear2ulaw, negative, if_false, search_of_neg wraps]
    exact (abs_ulawCode_le).1

theorem afLinear2ulaw_eq (quiet : |sample| ≤ 32635) :
    afLinear2ulaw sample = linear2ulaw sample := by
  obtain ⟨low, high⟩ := abs_le.mp quiet
  have fits : toShort (if sample < 0 then 0x84 - sample else sample + 0x84) =
      if sample < 0 then 0x84 - sample else sample + 0x84 := by
    apply toShort_of_isShort
    split <;> constructor <;> omega
  simp only [afLinear2ulaw, linear2ulaw, fits]

/-- The u-law keeps a sample close exactly if its bias fits into a short. -/
theorem ulawClose_iff (isShort : IsShort sample) :
    UlawClose sample (afUlaw2linear (afLinear2ulaw sample)) ↔
      |sample| ≤ 32635 := by
  constructor
  · intro close
    by_contra loud
    have small := abs_afUlaw_le isShort (Int.not_le.mp loud)
    have reach : |sample| ≤ 2 ^ 15 := abs_le.mpr ⟨isShort.1, isShort.2.le⟩
    have apart := abs_sub_abs_le_abs_sub sample
      (afUlaw2linear (afLinear2ulaw sample))
    rw [abs_sub_comm] at apart
    rw [UlawClose] at close
    omega
  · intro quiet
    rw [afUlaw2linear, toShort_of_isShort (isShort_ulaw2linear _),
      afLinear2ulaw_eq quiet]
    exact ulawClose isShort

end Samples

/-- Samples that are encoded and decoded stay within half a cell in the A-law;
in the u-law they stay close exactly if none is louder than 32635. -/
theorem forall_close_iff (pcm : List Int)
    (inRange : ∀ sample ∈ pcm, IsShort sample) :
    List.Forall₂ (fun sample decoded =>
        |decoded - sample| ≤ max 8 (|sample| / 32)) pcm
        (g711Decoder (g711Encoder pcm 0) 0) ∧
      (List.Forall₂ UlawClose pcm (g711Decoder (g711Encoder pcm 1) 1) ↔
        ∀ sample ∈ pcm, |sample| ≤ 32635) := by
  constructor
  · simp only [g711Decoder, g711Encoder, if_true, List.map_map]
    apply List.forall₂_map_right_iff.mpr
    apply List.forall₂_same.mpr
    intro sample member
    exact abs_afAlaw (inRange sample member)
  · simp only [g711Decoder, g711Encoder, one_ne_zero, if_false, List.map_map]
    rw [List.forall₂_map_right_iff, List.forall₂_same]
    apply forall₂_congr
    intro sample member
    exact ulawClose_iff (inRange sample member)

theorem forall_close_iff_loud :
    ¬ List.Forall₂ UlawClose [12, -32000, 32700]
      (g711Decoder (g711Encoder [12, -32000, 32700] 1) 1) := by
  intro close
  have inRange : ∀ sample ∈ [12, -32000, 32700], IsShort sample := by
    unfold IsShort
    decide
  have quiet := (forall_close_iff _ inRange).2.mp close
  exact absurd (quiet 32700 (by simp)) (by decide)

end MediaAudioG711

end MbedtlsKcp
