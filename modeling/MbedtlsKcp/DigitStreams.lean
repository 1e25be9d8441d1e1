import Mathlib.Data.Nat.Digits.Lemmas

/-!
# Digits of one width as digits of another

A stream of digits of `width` bits is read as a stream of digits of `size`
bits: what has been read stands for the same number as what has been written,
together with the bits that still wait for more.  Streams of one length that
stand for one number are equal, so reading back what has been padded with zero
bits gives the first stream again.
-/

namespace MbedtlsKcp

namespace DigitStreams

/-- The number that digits stand for, the most significant first. -/
def number (base : Nat) (digits : List Nat) : Nat :=
  Nat.ofDigits base digits.reverse

@[simp]
theorem number_nil (base : Nat) : number base [] = 0 :=
  rfl

@[simp]
theorem number_snoc (base : Nat) (digits : List Nat) (digit : Nat) :
    number base (digits ++ [digit]) = number base digits * base + digit := by
  rw [number, List.reverse_concat, Nat.ofDigits_cons, number, Nat.mul_comm,
    Nat.add_comm]

/-- Digits of one length are determined by their number. -/
theorem number_inj {base : Nat} {first second : List Nat} (positive : 1 < base)
    (length : first.length = second.length)
    (firstBelow : ∀ digit ∈ first, digit < base)
    (secondBelow : ∀ digit ∈ second, digit < base)
    (same : number base first = number base second) : first = second := by
  apply List.reverse_injective
  apply Nat.ofDigits_inj_of_len_eq positive
  · simp [length]
  · simpa using firstBelow
  · simpa using secondBelow
  · exact same

/-- The digits `source` have been written as `target`, but for `left` bits
with the value `rest`. -/
structure Regrouped (width size : Nat) (source target : List Nat)
    (left rest : Nat) : Prop where
  length : width * source.length = size * target.length + left
  same : number (2 ^ width) source = number (2 ^ size) target * 2 ^ left + rest
  small : rest < 2 ^ left
  below : ∀ digit ∈ target, digit < 2 ^ size

variable {width size left rest : Nat} {source target : List Nat}

theorem regrouped_nil (width size : Nat) : Regrouped width size [] [] 0 0 where
  length := rfl
  same := rfl
  small := Nat.one_pos
  below := by simp

/-- One more digit is read. -/
theorem Regrouped.read
    (regrouped : Regrouped width size source target left rest)
    {digit : Nat} (small : digit < 2 ^ width) :
    Regrouped width size (source ++ [digit]) target (left + width)
      (rest * 2 ^ width + digit) where
  length := by
    rw [List.length_append, List.length_singleton, Nat.mul_succ,
      regrouped.length, Nat.add_assoc]
  same := by
    rw [number_snoc, regrouped.same, Nat.pow_add, Nat.add_mul, Nat.mul_assoc,
      Nat.add_assoc]
  small := by
    have bound := Nat.mul_le_mul_right (2 ^ width) regrouped.small
    rw [Nat.pow_add]
    rw [Nat.succ_mul] at bound
    omega
  below := regrouped.below

/-- The first bits that wait are written as a digit. -/
theorem Regrouped.write
    (regrouped : Regrouped width size source target (left + size) rest) :
    Regrouped width size source (target ++ [rest / 2 ^ left]) left
      (rest % 2 ^ left) where
  length := by
    rw [regrouped.length, List.length_append, List.length_singleton,
      Nat.mul_succ]
    omega
  same := by
    have split := Nat.div_add_mod rest (2 ^ left)
    rw [regrouped.same, number_snoc, Nat.add_mul, Nat.pow_add,
      Nat.mul_assoc, Nat.mul_comm (2 ^ size), Nat.mul_comm (rest / 2 ^ left)]
    omega
  small := Nat.mod_lt _ (Nat.two_pow_pos left)
  below := by
    intro digit member
    rcases List.mem_append.mp member with earlier | last
    · exact regrouped.below digit earlier
    · obtain rfl := List.mem_singleton.mp last
      apply Nat.div_lt_of_lt_mul
      rw [← Nat.pow_add]
      exact regrouped.small

/-- A digit is read and one is written. -/
theorem Regrouped.step
    (regrouped : Regrouped width size source target left rest)
    {digit after value waiting : Nat} (small : digit < 2 ^ width)
    (total : left + width = after + size)
    (isValue : (rest * 2 ^ width + digit) / 2 ^ after = value)
    (isWaiting : (rest * 2 ^ width + digit) % 2 ^ after = waiting) :
    Regrouped width size (source ++ [digit]) (target ++ [value]) after
      waiting := by
  have read := regrouped.read small
  rw [total] at read
  subst isValue isWaiting
  exact read.write

/-- The bits that are left fill a last digit with zero bits behind them. -/
theorem Regrouped.fill
    (regrouped : Regrouped width size source target left rest)
    (few : left ≤ size) :
    rest * 2 ^ (size - left) < 2 ^ size ∧
      size * (target.length + 1) =
        width * source.length + (size - left) ∧
      number (2 ^ size) (target ++ [rest * 2 ^ (size - left)]) =
        number (2 ^ width) source * 2 ^ (size - left) := by
  have whole : 2 ^ size = 2 ^ left * 2 ^ (size - left) := by
    rw [← Nat.pow_add, Nat.add_sub_cancel' few]
  refine ⟨?_, ?_, ?_⟩
  · rw [whole]
    exact Nat.mul_lt_mul_of_pos_right regrouped.small (Nat.two_pow_pos _)
  · rw [regrouped.length, Nat.mul_succ]
    omega
  · rw [number_snoc, regrouped.same, Nat.add_mul, whole, Nat.mul_assoc]

/-- Reading digits that stand for `source` and some zero bits gives `source`
back. -/
theorem Regrouped.recovers {digits : List Nat} {pad : Nat}
    (regrouped : Regrouped size width digits target left rest)
    (positive : 0 < width) (whole : left < width) (short : pad < width)
    (below : ∀ digit ∈ source, digit < 2 ^ width)
    (length : size * digits.length = width * source.length + pad)
    (same : number (2 ^ size) digits = number (2 ^ width) source * 2 ^ pad) :
    target = source ∧ rest = 0 := by
  have counted := regrouped.length
  rw [length] at counted
  have lengths : target.length = source.length := by
    have quotients := congrArg (· / width) counted
    simpa [Nat.mul_add_div positive, Nat.div_eq_of_lt short,
      Nat.div_eq_of_lt whole] using quotients.symm
  rw [lengths] at counted
  obtain rfl : left = pad := by omega
  have numbers := regrouped.same
  rw [same] at numbers
  have small := regrouped.small
  have equal : number (2 ^ width) source = number (2 ^ width) target := by
    have quotients := congrArg (· / 2 ^ left) numbers
    simpa [Nat.mul_comm _ (2 ^ left), Nat.mul_add_div (Nat.two_pow_pos left),
      Nat.div_eq_of_lt small] using quotients
  constructor
  · apply number_inj (Nat.one_lt_two_pow (Nat.ne_of_gt positive)) lengths
      regrouped.below below equal.symm
  · rw [equal] at numbers
    omega

end DigitStreams

end MbedtlsKcp
