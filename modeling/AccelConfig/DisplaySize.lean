/-
Sizes for human readers.

From 5000 KiB on a size is printed twice, in binary and in decimal units, each time
as a number of hundredths that is rounded in integers.  For the binary units the
size is multiplied by 200 before it is divided, and the product may wrap around.

* `nearest_hundredths` — rounding in integers;
* `figure_append_inj` — what a printed figure stands for;
* `displays_iff` — which sizes are printed right.
-/
import AccelConfig.CNumeral
import Mathlib.Algebra.Order.Field.Basic
import Mathlib.Data.Rat.Cast.Order
import Mathlib.Tactic.FieldSimp
import Mathlib.Tactic.Linarith
import Mathlib.Tactic.Ring

open CNumeral

namespace Accfg

namespace DisplaySize

/-! ### The function -/

/-- `%02ld`. -/
def decimal2 (z : ℤ) : List Char :=
  List.replicate (2 - (decimal z).length) '0' ++ decimal z

/-- `%ld.%02ld` of a number of hundredths. -/
def centi (c : ℤ) : List Char := decimal (c.tdiv 100) ++ '.' :: decimal2 (c.tmod 100)

variable (bytes : BitVec 64)

def cMiB : ℤ := ((bytes * 200#64 / (1#64 <<< 20) + 1#64) / 2#64).toInt

def cGiB : ℤ := ((bytes * 200#64 / (1#64 <<< 30) + 1#64) / 2#64).toInt

def cMB : ℤ := ((bytes / (1000000#64 / 200#64) + 1#64) / 2#64).toInt

def cGB : ℤ := ((bytes / (1000000000#64 / 200#64) + 1#64) / 2#64).toInt

/-- `util_json_object_size`: the size, as a number of JSON. -/
def utilJsonObjectSize (size : BitVec 64) : ℤ := size.toInt

/-- `display_size`. -/
def displaySize (jobj : ℤ) : List Char :=
  let bytes := BitVec.ofInt 64 jobj
  if bytes < 5000#64 * 1024#64 then Nat.toDigits 10 bytes.toNat
  else
    let iec :=
      if bytes < 2#64 * 1024#64 * 1024#64 * 1024#64 then '"' :: centi (cMiB bytes) ++ " MiB".toList
      else '"' :: centi (cGiB bytes) ++ " GiB".toList
    let jedec :=
      if bytes < 2#64 * 1024#64 * 1024#64 * 1024#64 then
        " (".toList ++ centi (cMB bytes) ++ " MB)\"".toList
      else " (".toList ++ centi (cGB bytes) ++ " GB)\"".toList
    iec ++ jedec

/-! ### What it is for -/

/-- A number of hundredths with its point. -/
def figure (c : ℕ) : List Char := centi c

/-- So many hundredths of a unit are as near to a number of bytes as hundredths can be. -/
def Nearest (c bytes unit : ℕ) : Prop := |(c : ℚ) / 100 - (bytes : ℚ) / unit| ≤ 1 / 200

/-- Both figures, with their units. -/
def sizeText (iec jedec : ℕ) (unit : Char) : List Char :=
  '"' :: figure iec ++ (' ' :: unit :: "iB (".toList) ++
    (figure jedec ++ (' ' :: unit :: "B)\"".toList))

/-- What should be printed for a number of bytes. -/
def Displays (bytes : ℕ) (text : List Char) : Prop :=
  if bytes < 5000 * 1024 then text = Nat.toDigits 10 bytes
  else if bytes < 2 * 2 ^ 30 then
    ∃ iec jedec, text = sizeText iec jedec 'M' ∧ Nearest iec bytes (2 ^ 20) ∧
      Nearest jedec bytes (10 ^ 6)
  else
    ∃ iec jedec, text = sizeText iec jedec 'G' ∧ Nearest iec bytes (2 ^ 30) ∧
      Nearest jedec bytes (10 ^ 9)

/-! ### Rounding in integers -/

section Rounding

variable {c bytes unit : ℕ}

theorem nearest_iff (hunit : 0 < unit) :
    Nearest c bytes unit ↔
      2 * c * unit ≤ 200 * bytes + unit ∧ 200 * bytes ≤ 2 * c * unit + unit := by
  have hpos : (0 : ℚ) < unit := Nat.cast_pos.mpr hunit
  have hdiff : (c : ℚ) / 100 - (bytes : ℚ) / unit =
      (2 * c * unit - 200 * bytes) / (200 * unit) := by
    field_simp
    ring
  have hden : (0 : ℚ) < 200 * unit := by positivity
  rw [Nearest, hdiff, abs_le, le_div_iff₀ hden, div_le_iff₀ hden]
  have hhalf : (1 : ℚ) / 200 * (200 * unit) = unit := by ring
  rw [hhalf, neg_mul, hhalf]
  constructor
  · rintro ⟨hlow, hhigh⟩
    constructor
    · have h : (2 * c * unit : ℚ) ≤ 200 * bytes + unit := by linarith only [hhigh]
      exact_mod_cast h
    · have h : (200 * bytes : ℚ) ≤ 2 * c * unit + unit := by linarith only [hlow]
      exact_mod_cast h
  · rintro ⟨hlow, hhigh⟩
    have hlow' : (2 * c * unit : ℚ) ≤ 200 * bytes + unit := by exact_mod_cast hlow
    have hhigh' : (200 * bytes : ℚ) ≤ 2 * c * unit + unit := by exact_mod_cast hhigh
    constructor
    · linarith only [hhigh']
    · linarith only [hlow']

/-- Half of a quotient, rounded up, is within half a step of the half of what was divided. -/
theorem halved_bounds (hunit : 0 < unit) (n : ℕ) :
    2 * ((n / unit + 1) / 2) * unit ≤ n + unit ∧ n < 2 * ((n / unit + 1) / 2) * unit + unit := by
  have hlow : n / unit * unit ≤ n := Nat.div_mul_le_self n unit
  have hhigh : n < (n / unit + 1) * unit := by
    rw [mul_comm]
    exact Nat.lt_mul_div_succ n hunit
  constructor
  · calc 2 * ((n / unit + 1) / 2) * unit ≤ (n / unit + 1) * unit :=
          Nat.mul_le_mul_right unit (Nat.mul_div_le _ 2)
      _ = n / unit * unit + unit := Nat.succ_mul _ _
      _ ≤ n + unit := Nat.add_le_add_right hlow unit
  · have hhalf : n / unit + 1 ≤ 2 * ((n / unit + 1) / 2) + 1 := by omega
    calc n < (n / unit + 1) * unit := hhigh
      _ ≤ (2 * ((n / unit + 1) / 2) + 1) * unit := Nat.mul_le_mul_right unit hhalf
      _ = 2 * ((n / unit + 1) / 2) * unit + unit := Nat.succ_mul _ _

theorem nearest_hundredths (hunit : 0 < unit) (bytes : ℕ) :
    Nearest ((bytes * 200 / unit + 1) / 2) bytes unit := by
  obtain ⟨hlow, hhigh⟩ := halved_bounds hunit (bytes * 200)
  rw [nearest_iff hunit, mul_comm 200 bytes]
  exact ⟨hlow, hhigh.le⟩

/-- A product that has wrapped around leaves too small a number. -/
theorem not_nearest_wrapped {m : ℕ} (hunit : 0 < unit) (hroom : 2 * unit < m)
    (hwrap : m ≤ bytes * 200) : ¬Nearest ((bytes * 200 % m / unit + 1) / 2) bytes unit := by
  rw [nearest_iff hunit]
  rintro ⟨-, hhigh⟩
  have hleft := (halved_bounds hunit (bytes * 200 % m)).1
  have hquot : m * (bytes * 200 / m) + bytes * 200 % m = bytes * 200 := Nat.div_add_mod _ m
  have hpos : 0 < m := by omega
  have hone : m * 1 ≤ m * (bytes * 200 / m) :=
    Nat.mul_le_mul_left m (Nat.div_pos hwrap hpos)
  omega

end Rounding

/-! ### What a figure stands for -/

theorem numeral_decimal2 {m : ℕ} (h : m < 100) :
    numeral 10 (decimal2 m) = m ∧ (decimal2 m).length = 2 := by
  have htext : decimal (m : ℤ) = Nat.toDigits 10 m := by
    rw [decimal, if_neg (by omega), Int.natAbs_natCast]
  have hlen : (Nat.toDigits 10 m).length ≤ 2 :=
    (Nat.length_toDigits_le_iff (by decide) (by decide)).mpr h
  rw [decimal2, htext, numeral_zeros, numeral_toDigits, List.length_append, List.length_replicate]
  exact ⟨rfl, by omega⟩

theorem figure_eq (c : ℕ) :
    figure c = Nat.toDigits 10 (c / 100) ++ '.' :: decimal2 ((c % 100 : ℕ) : ℤ) := by
  have hint : (c : ℤ).tdiv 100 = ((c / 100 : ℕ) : ℤ) := rfl
  have hrem : (c : ℤ).tmod 100 = ((c % 100 : ℕ) : ℤ) := rfl
  rw [figure, centi, hint, hrem, decimal, if_neg (by omega), Int.natAbs_natCast]

/-- The digits before the point and the two behind it give the number back. -/
theorem figure_append_inj {c c' : ℕ} {rest rest' : List Char}
    (h : figure c ++ rest = figure c' ++ rest') : c = c' ∧ rest = rest' := by
  have hdigits : ∀ n : ℕ, ∀ d ∈ Nat.toDigits 10 n, d.isDigit = true :=
    fun _ _ => isDigit_of_mem_toDigits
  have hpoint : ∀ text, Stops ('.' :: text) := fun text => stops_cons (by decide)
  rw [figure_eq, figure_eq, List.append_assoc, List.append_assoc] at h
  have hint : Nat.toDigits 10 (c / 100) = Nat.toDigits 10 (c' / 100) := by
    have htake := congrArg (List.takeWhile fun d => decide (digitVal d < 10)) h
    rwa [List.cons_append, List.cons_append, takeWhile_digits (hdigits _) (hpoint _),
      takeWhile_digits (hdigits _) (hpoint _)] at htake
  have hquot : c / 100 = c' / 100 := by
    rw [← numeral_toDigits (c / 100), hint, numeral_toDigits]
  obtain ⟨hval, hlen⟩ := numeral_decimal2 (Nat.mod_lt c (by decide : 0 < 100))
  obtain ⟨hval', hlen'⟩ := numeral_decimal2 (Nat.mod_lt c' (by decide : 0 < 100))
  rw [hint, List.append_cancel_left_eq, List.cons_append, List.cons_append,
    List.cons.injEq] at h
  obtain ⟨hcents, hrest⟩ := List.append_inj h.2 (hlen.trans hlen'.symm)
  have hrem : c % 100 = c' % 100 := by rw [← hval, hcents, hval']
  refine ⟨?_, hrest⟩
  rw [← Nat.div_add_mod c 100, hquot, hrem, Nat.div_add_mod]

theorem sizeText_inj {iec jedec iec' jedec' : ℕ} {unit : Char}
    (h : sizeText iec jedec unit = sizeText iec' jedec' unit) : iec = iec' ∧ jedec = jedec' := by
  rw [sizeText, sizeText, List.append_assoc, List.append_assoc] at h
  obtain ⟨hiec, hrest⟩ := figure_append_inj (List.cons.inj h).2
  rw [List.append_cancel_left_eq] at hrest
  exact ⟨hiec, (figure_append_inj hrest).1⟩

/-! ### The figures that are printed -/

theorem halved_toInt {x : BitVec 64} (h : x.toNat < 2 ^ 63) :
    ((x + 1#64) / 2#64).toInt = (((x.toNat + 1) / 2 : ℕ) : ℤ) := by
  have hone : (1#64).toNat = 1 := rfl
  have htwo : (2#64).toNat = 2 := rfl
  have hval : ((x + 1#64) / 2#64).toNat = (x.toNat + 1) / 2 := by
    rw [BitVec.toNat_udiv, BitVec.toNat_add, hone, htwo, Nat.mod_eq_of_lt (by omega)]
  rw [BitVec.toInt_eq_toNat_of_lt (by omega), hval]

theorem toNat_times_200 (unit : BitVec 64) :
    (bytes * 200#64 / unit).toNat = bytes.toNat * 200 % 2 ^ 64 / unit.toNat := by
  rw [BitVec.toNat_udiv, BitVec.toNat_mul]
  rfl

/-- A figure in a unit of two hundredths or more: the product may wrap around. -/
theorem multiplied_eq {unit : BitVec 64} (h : 2 ≤ unit.toNat) :
    ((bytes * 200#64 / unit + 1#64) / 2#64).toInt =
      (((bytes.toNat * 200 % 2 ^ 64 / unit.toNat + 1) / 2 : ℕ) : ℤ) := by
  have hlt : bytes.toNat * 200 % 2 ^ 64 / unit.toNat < 2 ^ 63 := by
    refine Nat.div_lt_of_lt_mul ?_
    have hwrapped : bytes.toNat * 200 % 2 ^ 64 < 2 ^ 64 := Nat.mod_lt _ (by omega)
    omega
  rw [halved_toInt (by rwa [toNat_times_200]), toNat_times_200]

/-- Here the unit is divided by 200 first, and nothing can wrap around. -/
theorem divided_eq {unit : BitVec 64} (h : 2 ≤ unit.toNat) :
    ((bytes / unit + 1#64) / 2#64).toInt =
      (((bytes.toNat * 200 / (unit.toNat * 200) + 1) / 2 : ℕ) : ℤ) := by
  have hlt : bytes.toNat / unit.toNat < 2 ^ 63 := by
    refine Nat.div_lt_of_lt_mul ?_
    have hbytes := bytes.isLt
    omega
  have hval : (bytes / unit).toNat = bytes.toNat / unit.toNat := BitVec.toNat_udiv
  rw [halved_toInt (by rwa [hval]), hval, Nat.mul_div_mul_right _ _ (by omega)]

/-- The size goes through a signed number of JSON and comes back as it was. -/
theorem displaySize_eq (size : BitVec 64) :
    displaySize (utilJsonObjectSize size) =
      if size.toNat < 5000 * 1024 then Nat.toDigits 10 size.toNat
      else if size.toNat < 2 * 2 ^ 30 then
        sizeText ((size.toNat * 200 % 2 ^ 64 / 2 ^ 20 + 1) / 2)
          ((size.toNat * 200 / 10 ^ 6 + 1) / 2) 'M'
      else
        sizeText ((size.toNat * 200 % 2 ^ 64 / 2 ^ 30 + 1) / 2)
          ((size.toNat * 200 / 10 ^ 9 + 1) / 2) 'G' := by
  have hplain : (size < 5000#64 * 1024#64) = (size.toNat < 5000 * 1024) := rfl
  have hmega : (size < 2#64 * 1024#64 * 1024#64 * 1024#64) = (size.toNat < 2 * 2 ^ 30) := rfl
  have hMiB : cMiB size = (((size.toNat * 200 % 2 ^ 64 / 2 ^ 20 + 1) / 2 : ℕ) : ℤ) :=
    multiplied_eq size (show 2 ≤ (1#64 <<< 20).toNat by decide)
  have hGiB : cGiB size = (((size.toNat * 200 % 2 ^ 64 / 2 ^ 30 + 1) / 2 : ℕ) : ℤ) :=
    multiplied_eq size (show 2 ≤ (1#64 <<< 30).toNat by decide)
  have hMB : cMB size = (((size.toNat * 200 / 10 ^ 6 + 1) / 2 : ℕ) : ℤ) :=
    divided_eq size (show 2 ≤ (1000000#64 / 200#64).toNat by decide)
  have hGB : cGB size = (((size.toNat * 200 / 10 ^ 9 + 1) / 2 : ℕ) : ℤ) :=
    divided_eq size (show 2 ≤ (1000000000#64 / 200#64).toNat by decide)
  rw [displaySize, utilJsonObjectSize, BitVec.ofInt_toInt]
  dsimp only
  rw [hMiB, hGiB, hMB, hGB]
  simp only [hplain, hmega]
  split
  · rfl
  · split
    · simp only [sizeText, figure, List.append_assoc]
      rfl
    · simp only [sizeText, figure, List.append_assoc]
      rfl

theorem not_displays_of_wrap {size : BitVec 64} (hwrap : 2 ^ 64 ≤ size.toNat * 200) :
    ¬Displays size.toNat (displaySize (utilJsonObjectSize size)) := by
  have hplain : ¬size.toNat < 5000 * 1024 := by omega
  have hmega : ¬size.toNat < 2 * 2 ^ 30 := by omega
  rw [displaySize_eq, Displays, if_neg hplain, if_neg hmega, if_neg hplain, if_neg hmega]
  rintro ⟨iec, jedec, htext, hiec, -⟩
  obtain ⟨rfl, -⟩ := sizeText_inj htext
  exact not_nearest_wrapped (by omega) (by omega) hwrap hiec

/-- The size is printed as it should be exactly when 200 times it fits a word. -/
theorem displays_iff (size : BitVec 64) :
    Displays size.toNat (displaySize (utilJsonObjectSize size)) ↔ size.toNat * 200 < 2 ^ 64 := by
  constructor
  · intro h
    by_contra hwrap
    exact not_displays_of_wrap (Nat.not_lt.mp hwrap) h
  · intro hsmall
    rw [displaySize_eq, Displays, Nat.mod_eq_of_lt hsmall]
    split_ifs
    · rfl
    · exact ⟨_, _, rfl, nearest_hundredths (by omega) _, nearest_hundredths (by omega) _⟩
    · exact ⟨_, _, rfl, nearest_hundredths (by omega) _, nearest_hundredths (by omega) _⟩

/-- From 92233720368547759 bytes on, 85899345 GiB, the count of GiB starts again from zero. -/
theorem not_displays_wrapped :
    displaySize (utilJsonObjectSize 92233720368547759#64) =
        "\"0.00 GiB (92233720.37 GB)\"".toList ∧
      ¬Displays 92233720368547759 (displaySize (utilJsonObjectSize 92233720368547759#64)) := by
  constructor
  · decide +kernel
  · exact @not_displays_of_wrap 92233720368547759#64 (by decide)

end DisplaySize

end Accfg
