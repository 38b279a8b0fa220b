/-
Sizes with a suffix.

The number is multiplied by the unit in 64 bits, and a product that is smaller than the
number is taken for an overflow.  Not every product that has wrapped around is smaller.

* `wrapped_lt_iff` — which products are;
* `parseSize64Units_iff` — exactly which sizes are read as they should be.
-/
import AccelConfig.CLiteral
import Mathlib.Tactic.Ring

open CNumeral

namespace Accfg

namespace ParseSize

/-! ### The function -/

def SZ_1K : BitVec 64 := 0x00000400#64

def SZ_1M : BitVec 64 := 0x00100000#64

def SZ_1G : BitVec 64 := 0x40000000#64

def SZ_1T : BitVec 64 := 0x10000000000#64

def ULLONG_MAX : BitVec 64 := BitVec.allOnes 64

/-- The unit that a `case` of the `switch` on `*end` multiplies by. -/
def unitOf (c : Char) : Option (BitVec 64) :=
  if c = 'k' ∨ c = 'K' then some SZ_1K
  else if c = 'm' ∨ c = 'M' then some SZ_1M
  else if c = 'g' ∨ c = 'G' then some SZ_1G
  else if c = 't' ∨ c = 'T' then some SZ_1T
  else none

/-- The whole `switch`: the unit, and where `end` points to then. -/
def switchEnd : List Char → BitVec 64 × List Char
  | [] => (1, [])
  | c :: rest =>
    match unitOf c with
    | some unit => (unit, rest)
    | none => (1, c :: rest)

/-- `__parse_size64`: the size, and what `units` points to, if it is not null. -/
def parseSize64Units (str : List Char) (units : Option (BitVec 64)) :
    BitVec 64 × Option (BitVec 64) :=
  let val := strtoull str
  if val = ULLONG_MAX then (val, units)
  else
    let check := val
    let unit := (switchEnd (strtolEnd str)).1
    let rest := (switchEnd (strtolEnd str)).2
    let val := val * unit
    (if val < check ∨ rest ≠ [] then ULLONG_MAX else val, units.map fun _ => unit)

/-- `parse_size64`. -/
def parseSize64 (str : List Char) : BitVec 64 := (parseSize64Units str none).1

/-! ### What it is for -/

/-- The factor that a suffix stands for. -/
def factorOf (c : Char) : Option ℕ :=
  if c = 'k' ∨ c = 'K' then some (2 ^ 10)
  else if c = 'm' ∨ c = 'M' then some (2 ^ 20)
  else if c = 'g' ∨ c = 'G' then some (2 ^ 30)
  else if c = 't' ∨ c = 'T' then some (2 ^ 40)
  else none

/-- The factor that the text behind the number stands for. -/
def suffixFactor : List Char → Option ℕ
  | [] => some 1
  | [c] => factorOf c
  | _ => none

/-- A number that fits below the largest word, or the largest word. -/
def capped (m : ℕ) : BitVec 64 := if m < 2 ^ 64 - 1 then BitVec.ofNat 64 m else ULLONG_MAX

/-- What a number with this text behind it should be read as. -/
def exactSize (n : ℕ) (rest : List Char) : BitVec 64 :=
  match suffixFactor rest with
  | some f => capped (n * f)
  | none => ULLONG_MAX

/-- The high digits of a number outweigh the low ones, at the place where the word ends
once the number is multiplied. -/
def Outweighs (n f : ℕ) : Prop := (f - 1) * (n % (2 ^ 64 / f)) < n / (2 ^ 64 / f) * (2 ^ 64 / f)

/-! ### Products that wrap around -/

/-- A product that has wrapped around is smaller than the number exactly then. -/
theorem wrapped_lt_iff {n f : ℕ} (hf : f ∣ 2 ^ 64) : n * f % 2 ^ 64 < n ↔ Outweighs n f := by
  obtain ⟨m, hm⟩ := hf
  have hpos : 0 < f := Nat.pos_of_ne_zero (by rintro rfl; omega)
  have hquot : 2 ^ 64 / f = m := by rw [hm, Nat.mul_div_cancel_left m hpos]
  have hwrap : n * f % 2 ^ 64 = n % m * f := by rw [hm, mul_comm f m, Nat.mul_mod_mul_right]
  have hsplit : n / m * m + n % m = n := Nat.div_add_mod' n m
  have hone : n % m * f = (f - 1) * (n % m) + n % m := by
    obtain ⟨k, rfl⟩ : ∃ k, f = k + 1 := ⟨f - 1, by omega⟩
    rw [Nat.add_sub_cancel]
    ring
  rw [Outweighs, hquot, hwrap, hone]
  omega

/-! ### The suffix -/

theorem factorOf_eq (c : Char) : factorOf c = (unitOf c).map BitVec.toNat := by
  simp only [factorOf, unitOf]
  split_ifs <;> rfl

theorem unitOf_isPow {c : Char} {unit : BitVec 64} (h : unitOf c = some unit) :
    ∃ k < 63, unit.toNat = 2 ^ (k + 1) := by
  simp only [unitOf] at h
  split_ifs at h <;> cases h
  · exact ⟨9, by decide, rfl⟩
  · exact ⟨19, by decide, rfl⟩
  · exact ⟨29, by decide, rfl⟩
  · exact ⟨39, by decide, rfl⟩

/-- Whatever is left after the `switch` is more than a suffix. -/
theorem suffixFactor_eq (rest : List Char) :
    suffixFactor rest =
      if (switchEnd rest).2 = [] then some (switchEnd rest).1.toNat else none := by
  rcases rest with _ | ⟨c, _ | ⟨d, tail⟩⟩
  · rfl
  · rw [suffixFactor, factorOf_eq, switchEnd]
    cases unitOf c with
    | none => rfl
    | some unit => rfl
  · have hleft : (switchEnd (c :: d :: tail)).2 ≠ [] := by
      rw [switchEnd]
      cases unitOf c with
      | none => exact List.cons_ne_nil _ _
      | some unit => exact List.cons_ne_nil _ _
    rw [if_neg hleft]
    rfl

/-- The unit is 1 or a power of two. -/
theorem switchEnd_isPow (rest : List Char) : ∃ k < 64, (switchEnd rest).1.toNat = 2 ^ k := by
  rcases rest with _ | ⟨c, rest⟩
  · exact ⟨0, by decide, rfl⟩
  · rw [switchEnd]
    cases hunit : unitOf c with
    | none => exact ⟨0, by decide, rfl⟩
    | some unit =>
      obtain ⟨k, hk, hpow⟩ := unitOf_isPow hunit
      exact ⟨k + 1, by omega, hpow⟩

/-! ### The size -/

theorem strtoull_toNat {str rest : List Char} {n : ℕ} (h : Accepts str n rest) :
    (strtoull str).toNat = if n < 2 ^ 64 then n else 2 ^ 64 - 1 := by
  rw [strtoull, h.read.1, Int.natAbs_natCast]
  split
  · next hlt => rw [BitVec.ofInt_natCast, BitVec.toNat_ofNat, Nat.mod_eq_of_lt hlt]
  · rfl

/-- A number that does not fit is left as it is, and so is any unit. -/
theorem exactSize_of_le {n : ℕ} (hn : 2 ^ 64 - 1 ≤ n) (rest : List Char) :
    exactSize n rest = ULLONG_MAX := by
  obtain ⟨k, -, hpow⟩ := switchEnd_isPow rest
  rw [exactSize, suffixFactor_eq]
  split_ifs
  · have hle : n * 1 ≤ n * 2 ^ k := Nat.mul_le_mul_left n Nat.one_le_two_pow
    rw [hpow]
    exact if_neg (by omega)
  · rfl

theorem toNat_capped {m : ℕ} (h : m < 2 ^ 64) : (capped m).toNat = m := by
  rw [capped]
  split
  · rw [BitVec.toNat_ofNat, Nat.mod_eq_of_lt h]
  · have hm : m = 2 ^ 64 - 1 := by omega
    rw [hm]
    rfl

/-- The product, with its check, for a number and a unit that are read. -/
theorem checked_product_iff {val unit : BitVec 64} {k : ℕ} (hunit : unit.toNat = 2 ^ k)
    (hk : k < 64) :
    (if val * unit < val then ULLONG_MAX else val * unit) = capped (val.toNat * 2 ^ k) ↔
      val.toNat * 2 ^ k < 2 ^ 64 ∨ Outweighs val.toNat (2 ^ k) := by
  have hprod : (val * unit).toNat = val.toNat * 2 ^ k % 2 ^ 64 := by rw [BitVec.toNat_mul, hunit]
  have hdvd : 2 ^ k ∣ 2 ^ 64 := Nat.pow_dvd_pow 2 hk.le
  by_cases hfit : val.toNat * 2 ^ k < 2 ^ 64
  · rw [Nat.mod_eq_of_lt hfit] at hprod
    have hle : val.toNat * 1 ≤ val.toNat * 2 ^ k := Nat.mul_le_mul_left _ Nat.one_le_two_pow
    have hcheck : ¬val * unit < val := by
      rw [BitVec.lt_def, hprod]
      omega
    refine iff_of_true ?_ (Or.inl hfit)
    rw [if_neg hcheck]
    exact BitVec.eq_of_toNat_eq (hprod.trans (toNat_capped hfit).symm)
  · have hcap : capped (val.toNat * 2 ^ k) = ULLONG_MAX := if_neg (by omega)
    -- a product of a power of two cannot be the largest word by chance
    have hne : val * unit ≠ ULLONG_MAX := by
      intro hmax
      obtain ⟨j, rfl⟩ : ∃ j, k = j + 1 := by
        refine ⟨k - 1, ?_⟩
        have hk0 : k ≠ 0 := by
          rintro rfl
          have hlt := val.isLt
          omega
        omega
      have hones : (val * unit).toNat = 2 ^ 64 - 1 := by rw [hmax]; rfl
      rw [hprod, Nat.pow_succ, ← mul_assoc] at hones
      omega
    have hcheck : val * unit < val ↔ Outweighs val.toNat (2 ^ k) := by
      rw [BitVec.lt_def, hprod, wrapped_lt_iff hdvd]
    rw [hcap, ← hcheck, or_iff_right hfit]
    split
    · next hlt => exact iff_of_true rfl hlt
    · next hlt => exact iff_of_false hne hlt

/-- The size is what it should be exactly when the product does not wrap around, or the
number does not fit, or the overflow shows. -/
theorem parseSize64Units_iff {str rest : List Char} {n : ℕ} (h : Accepts str n rest)
    (units : Option (BitVec 64)) :
    (parseSize64Units str units).1 = exactSize n rest ↔
      ∀ f, suffixFactor rest = some f → n * f < 2 ^ 64 ∨ 2 ^ 64 - 1 ≤ n ∨ Outweighs n f := by
  have hval := strtoull_toNat h
  by_cases hbig : 2 ^ 64 - 1 ≤ n
  · have hmax : strtoull str = ULLONG_MAX := by
      refine BitVec.eq_of_toNat_eq ?_
      have hones : ULLONG_MAX.toNat = 2 ^ 64 - 1 := rfl
      rw [hval, hones]
      split
      · omega
      · rfl
    rw [parseSize64Units, if_pos hmax, exactSize_of_le hbig, hmax]
    exact iff_of_true rfl fun f _ => Or.inr (Or.inl hbig)
  · rw [if_pos (by omega)] at hval
    have hsmall : strtoull str ≠ ULLONG_MAX := by
      intro hmax
      rw [hmax] at hval
      exact hbig hval.le
    obtain ⟨k, hk, hunit⟩ := switchEnd_isPow rest
    rw [parseSize64Units, if_neg hsmall, exactSize, suffixFactor_eq, h.read.2.2]
    dsimp only
    by_cases hleft : (switchEnd rest).2 = []
    · rw [if_pos hleft, hunit]
      simp only [hleft, ne_eq, not_true_eq_false, or_false, Option.some.injEq, forall_eq']
      rw [← hval, checked_product_iff hunit hk, hval]
      exact or_congr_right (or_iff_right hbig).symm
    · rw [if_neg hleft, if_pos (Or.inr hleft)]
      exact iff_of_true rfl fun f hf => absurd hf (by simp)

/-- A decimal numeral without a sign is read up to the suffix. -/
theorem accepts_suffix {ds : List Char} {c : Char} (hne : ds ≠ []) (hhead : ds.head? ≠ some '0')
    (hds : ds.all (fun d => digitVal d < 10) = true) (hc : ¬digitVal c < 10) :
    Accepts (ds ++ [c]) (numeral 10 ds) [c] := by
  have hbase : detectBase (ds ++ [c]) = (10, ds ++ [c]) := by
    refine detectBase_decimal ?_
    rwa [List.head?_append_of_ne_nil ds hne]
  have hdigits : ∀ d ∈ ds, digitVal d < 10 := fun d hd =>
    of_decide_eq_true (List.all_eq_true.mp hds d hd)
  refine ⟨[], [], ds, rfl, List.forall_mem_nil _, Or.inl rfl, Literal.decimal hne hhead hdigits,
    longest_of_scan hbase fun d hd => ?_⟩
  obtain rfl : c = d := Option.some_inj.mp hd
  exact hc

theorem accepts_512k : Accepts ['5', '1', '2', 'k'] 512 ['k'] :=
  @accepts_suffix ['5', '1', '2'] 'k' (by decide) (by decide) (by decide) (by decide)

theorem accepts_16777217T :
    Accepts ['1', '6', '7', '7', '7', '2', '1', '7', 'T'] 16777217 ['T'] :=
  @accepts_suffix ['1', '6', '7', '7', '7', '2', '1', '7'] 'T' (by decide) (by decide)
    (by decide) (by decide)

theorem parseSize64Units_iff_512k :
    (parseSize64Units ['5', '1', '2', 'k'] none).1 = exactSize 512 ['k'] ↔
      ∀ f, suffixFactor ['k'] = some f → 512 * f < 2 ^ 64 ∨ 2 ^ 64 - 1 ≤ 512 ∨ Outweighs 512 f :=
  parseSize64Units_iff accepts_512k none

/-- 16 EiB and 1 TiB are read as 1 TiB. -/
theorem not_parseSize64_wrapped :
    Accepts ['1', '6', '7', '7', '7', '2', '1', '7', 'T'] 16777217 ['T'] ∧
      parseSize64 ['1', '6', '7', '7', '7', '2', '1', '7', 'T'] = 1099511627776#64 ∧
      exactSize 16777217 ['T'] = ULLONG_MAX :=
  ⟨accepts_16777217T, by decide, by decide⟩

end ParseSize

end Accfg
