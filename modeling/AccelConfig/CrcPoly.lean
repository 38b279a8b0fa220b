/-
The register of a cyclic redundancy check is a remainder.

A word stands for a polynomial over the field with two elements, and so does a
sequence of bits, the first being the leading coefficient.  What is in the
register after a run is the remainder of the bits read, times `X ^ w`
(`toPoly_run`).
-/
import AccelConfig.Crc
import Mathlib.Algebra.Polynomial.Div
import Mathlib.Algebra.Field.ZMod
import Mathlib.Algebra.CharP.Two
import Mathlib.Tactic.LinearCombination

open Polynomial

namespace Crc

variable {w : ℕ}

/-- A bit as a coefficient. -/
def coeffOf (b : Bool) : ZMod 2 := if b then 1 else 0

theorem coeffOf_xor (a b : Bool) : coeffOf (a ^^ b) = coeffOf a + coeffOf b := by
  cases a <;> cases b <;> decide

/-- The polynomial whose coefficients are the bits of a word. -/
noncomputable def toPoly (x : BitVec w) : (ZMod 2)[X] :=
  ∑ i ∈ Finset.range w, monomial i (coeffOf (x.getLsbD i))

/-- The polynomial whose coefficients are the bits, the first one leading. -/
noncomputable def bitsPoly (bits : List Bool) : (ZMod 2)[X] :=
  bits.foldl (fun p b => X * p + C (coeffOf b)) 0

/-- The divisor: the leading coefficient of degree `w` is not in the word. -/
noncomputable def divisor (poly : BitVec w) : (ZMod 2)[X] := X ^ w + toPoly poly

theorem coeff_toPoly (x : BitVec w) (i : ℕ) : (toPoly x).coeff i = coeffOf (x.getLsbD i) := by
  rw [toPoly, finsetSum_coeff]
  by_cases hi : i < w
  · rw [Finset.sum_eq_single_of_mem i (Finset.mem_range.mpr hi), coeff_monomial, if_pos rfl]
    intro j _ hj
    rw [coeff_monomial, if_neg hj]
  · rw [BitVec.getLsbD_of_ge x i (Nat.not_lt.mp hi)]
    refine Finset.sum_eq_zero fun j hj => ?_
    have hlt := Finset.mem_range.mp hj
    rw [coeff_monomial, if_neg (by omega)]

theorem toPoly_xor (x y : BitVec w) : toPoly (x ^^^ y) = toPoly x + toPoly y := by
  ext i
  rw [coeff_add, coeff_toPoly, coeff_toPoly, coeff_toPoly, BitVec.getLsbD_xor, coeffOf_xor]

theorem degree_toPoly (x : BitVec w) : (toPoly x).degree < w := by
  rw [degree_lt_iff_coeff_zero]
  intro i hi
  rw [coeff_toPoly, BitVec.getLsbD_of_ge x i hi]
  rfl

theorem degree_divisor (poly : BitVec w) : (divisor poly).degree = w := by
  rw [divisor, degree_add_eq_left_of_degree_lt, degree_X_pow]
  rw [degree_X_pow]
  exact degree_toPoly poly

theorem monic_divisor (poly : BitVec w) : (divisor poly).Monic :=
  monic_X_pow_add (degree_toPoly poly)

/-- A shift is a multiplication by `X`, up to the bit that leaves. -/
theorem toPoly_shiftLeft (x : BitVec w) (hw : 0 < w) :
    toPoly (x <<< 1) + C (coeffOf x.msb) * X ^ w = X * toPoly x := by
  ext i
  rw [coeff_add, coeff_C_mul, coeff_X_pow, coeff_toPoly, BitVec.getLsbD_shiftLeft]
  cases i with
  | zero =>
    rw [coeff_X_mul_zero, if_neg (by omega)]
    simp [coeffOf]
  | succ i =>
    rw [coeff_X_mul, coeff_toPoly, Nat.add_sub_cancel]
    rcases Nat.lt_trichotomy (i + 1) w with hlt | heq | hgt
    · rw [if_neg (by omega)]
      simp [hlt]
    · have hlast : w - 1 = i := by omega
      rw [if_pos heq, BitVec.msb_eq_getLsbD_last, hlast, decide_eq_false (by omega)]
      simp [coeffOf]
    · rw [if_neg (by omega), BitVec.getLsbD_of_ge x i (by omega)]
      simp [coeffOf]

/-- One step, as an equation between polynomials. -/
theorem toPoly_step (poly crc : BitVec w) (hw : 0 < w) (b : Bool) :
    toPoly (step poly crc b) + C (coeffOf (crc.msb ^^ b)) * divisor poly =
      X * toPoly crc + C (coeffOf b) * X ^ w := by
  have hshift := toPoly_shiftLeft crc hw
  have hstep : toPoly (step poly crc b) =
      toPoly (crc <<< 1) + C (coeffOf (crc.msb ^^ b)) * toPoly poly := by
    rw [step]
    cases crc.msb ^^ b
    · simp [coeffOf]
    · simp [coeffOf, toPoly_xor]
  have htwo : (2 : (ZMod 2)[X]) = 0 := CharTwo.two_eq_zero
  rw [hstep, divisor, coeffOf_xor, C_add]
  linear_combination hshift + (C (coeffOf crc.msb) + C (coeffOf b)) * toPoly poly * htwo

/-- After a run the register holds the remainder. -/
theorem toPoly_run (poly crc : BitVec w) (hw : 0 < w) (bits : List Bool) :
    toPoly (run poly crc bits) =
      (toPoly crc * X ^ bits.length + bitsPoly bits * X ^ w) %ₘ divisor poly := by
  have hsmall : ∀ x : BitVec w, toPoly x %ₘ divisor poly = toPoly x := fun x =>
    (modByMonic_eq_self_iff (monic_divisor poly)).mpr (by
      rw [degree_divisor]
      exact degree_toPoly x)
  rw [← hsmall (run poly crc bits)]
  refine modByMonic_eq_of_dvd_sub (monic_divisor poly) ?_
  induction bits using List.reverseRecOn with
  | nil => simp [run, bitsPoly]
  | append_singleton bits b ih =>
    obtain ⟨q, hq⟩ := ih
    have hrun : run poly crc (bits ++ [b]) = step poly (run poly crc bits) b := by
      rw [run_append]
      rfl
    have hbits : bitsPoly (bits ++ [b]) = X * bitsPoly bits + C (coeffOf b) := by
      rw [bitsPoly, List.foldl_append]
      rfl
    have hstep := toPoly_step poly (run poly crc bits) hw b
    refine ⟨X * q - C (coeffOf ((run poly crc bits).msb ^^ b)), ?_⟩
    rw [hrun, hbits, List.length_append, List.length_singleton, pow_succ]
    linear_combination X * hq + hstep

end Crc
