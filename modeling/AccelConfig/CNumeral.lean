/-
Numerals as the C library prints and reads them.

A C string is a list of bytes; it is written here as a list of characters, one
per byte.  `decimal` is what `printf("%d")` and its 64-bit relatives produce,
`scanInt` is one integer conversion of `sscanf` (or `strtol` with an explicit
base), and `strtol0` is `strtol(_, NULL, 0)` before the value is clamped:

* `scanInt_decimal` — scanning a printed number gives the number back and
  stops at the first byte that is not a digit;
* `strtol0_decimal` — base detection does not disturb a printed number, since
  no decimal numeral but `0` starts with a zero.
-/
import Mathlib.Data.Nat.Digits.Defs
import Mathlib.Data.Int.Basic
import Mathlib.Data.List.Basic
import Mathlib.Order.Lattice
import Mathlib.Tactic.IntervalCases

namespace CNumeral

/-- `isspace` in the C locale. -/
def isBlank (c : Char) : Bool := c = ' ' || ('\t' ≤ c && c ≤ '\r')

/-- The value of a digit in bases up to 36; 36 for any other character. -/
def digitVal (c : Char) : ℕ :=
  if c.isDigit then c.toNat - 48
  else if c.isLower then c.toNat - 87
  else if c.isUpper then c.toNat - 55
  else 36

/-- The value of a digit string, most significant digit first. -/
def numeral (b : ℕ) (ds : List Char) : ℕ := ds.foldl (fun a c => b * a + digitVal c) 0

/-- An optional sign: whether it is a minus, and what follows it. -/
def scanSign : List Char → Bool × List Char
  | '-' :: cs => (true, cs)
  | '+' :: cs => (false, cs)
  | cs => (false, cs)

/-- The sign applied to a magnitude. -/
def signed (neg : Bool) (n : ℕ) : ℤ := if neg then -n else n

/-- One integer conversion: blanks, a sign, at least one digit.  The result is
the value and the text that is left. -/
def scanInt (b : ℕ) (cs : List Char) : Option (ℤ × List Char) :=
  match scanSign (cs.dropWhile isBlank) with
  | (neg, body) =>
    match body.takeWhile (fun c => digitVal c < b) with
    | [] => none
    | ds => some (signed neg (numeral b ds), body.dropWhile (fun c => digitVal c < b))

/-- The base that a base argument of 0 selects, and the text its digits are
taken from: `0x` needs a hexadecimal digit behind it. -/
def detectBase : List Char → ℕ × List Char
  | '0' :: x :: d :: cs =>
    if (x = 'x' ∨ x = 'X') ∧ digitVal d < 16 then (16, d :: cs) else (8, '0' :: x :: d :: cs)
  | '0' :: cs => (8, '0' :: cs)
  | cs => (10, cs)

/-- `strtol(cs, NULL, 0)` before clamping; 0 where there is no digit. -/
def strtol0 (cs : List Char) : ℤ :=
  match scanSign (cs.dropWhile isBlank) with
  | (neg, body) =>
    match detectBase body with
    | (b, ds) => signed neg (numeral b (ds.takeWhile (fun c => digitVal c < b)))

/-- `strtol(cs, &end, 0)` leaves `end` at the start: nothing was converted. -/
def noDigits (cs : List Char) : Bool :=
  match scanSign (cs.dropWhile isBlank) with
  | (_, body) =>
    match detectBase body with
    | (b, ds) => (ds.takeWhile (fun c => digitVal c < b)).isEmpty

/-- The decimal text of an integer. -/
def decimal (z : ℤ) : List Char :=
  if z < 0 then '-' :: Nat.toDigits 10 z.natAbs else Nat.toDigits 10 z.natAbs

/-- The value that `strtol` returns: out of range values stick at the ends. -/
def clamp (lo hi z : ℤ) : ℤ := max lo (min hi z)

/-- `strtol(cs, NULL, 0)`. -/
def strtol (cs : List Char) : ℤ := clamp (-2 ^ 63) (2 ^ 63 - 1) (strtol0 cs)

/-- What `strtoull` makes of a number: a sign is applied modulo the word size,
and a magnitude that does not fit sticks at the end. -/
def unsignedLong (z : ℤ) : BitVec 64 :=
  if z.natAbs < 2 ^ 64 then BitVec.ofInt 64 z else BitVec.allOnes 64

/-- `strtoull(cs, NULL, 0)`: a sign is applied modulo the word size, and a
magnitude that does not fit sticks at the end. -/
def strtoull (cs : List Char) : BitVec 64 :=
  if (strtol0 cs).natAbs < 2 ^ 64 then BitVec.ofInt 64 (strtol0 cs) else BitVec.allOnes 64

theorem clamp_of_mem {lo hi z : ℤ} (h₁ : lo ≤ z) (h₂ : z ≤ hi) : clamp lo hi z = z := by
  rw [clamp, min_eq_right h₂, max_eq_right h₁]

/-! ### Digit strings -/

theorem digitVal_of_isDigit {c : Char} (h : c.isDigit = true) : digitVal c = c.toNat - 48 := by
  rw [digitVal, if_pos h]

theorem digitVal_lt_ten {c : Char} (h : c.isDigit = true) : digitVal c < 10 := by
  have hc : 48 ≤ c.toNat ∧ c.toNat ≤ 57 := by
    simpa [Char.isDigit, UInt32.le_iff_toNat_le] using h
  rw [digitVal_of_isDigit h]
  omega

theorem isDigit_of_digitVal_lt_ten {c : Char} (h : digitVal c < 10) : c.isDigit = true := by
  rw [digitVal] at h
  by_contra hd
  rw [if_neg hd] at h
  split at h
  · next hl =>
    have hc : 97 ≤ c.toNat := by
      have hrange := Bool.and_eq_true_iff.mp hl
      exact UInt32.le_iff_toNat_le.mp (of_decide_eq_true hrange.1)
    omega
  · split at h
    · next hu =>
      have hc : 65 ≤ c.toNat := by
        have hrange : c.val ≥ 'A'.val ∧ c.val ≤ 'Z'.val := of_decide_eq_true hu
        exact UInt32.le_iff_toNat_le.mp hrange.1
      omega
    · omega

theorem numeral_eq_ofDigitChars {ds : List Char} (h : ∀ c ∈ ds, c.isDigit = true) :
    numeral 10 ds = Nat.ofDigitChars 10 ds 0 := by
  rw [numeral, Nat.ofDigitChars_eq_foldl]
  refine List.foldl_ext _ _ _ fun a c hc => ?_
  rw [digitVal_of_isDigit (h c hc)]
  rfl

theorem isDigit_of_mem_toDigits {n : ℕ} {c : Char} (h : c ∈ Nat.toDigits 10 n) :
    c.isDigit = true :=
  Nat.isDigit_of_mem_toDigits (by decide) (by decide) h

theorem numeral_toDigits (n : ℕ) : numeral 10 (Nat.toDigits 10 n) = n := by
  rw [numeral_eq_ofDigitChars fun _ => isDigit_of_mem_toDigits, Nat.ofDigitChars_ten_toDigits]

/-- Zeros in front do not count. -/
theorem numeral_zeros (b k : ℕ) (ds : List Char) :
    numeral b (List.replicate k '0' ++ ds) = numeral b ds := by
  induction k with
  | zero => rfl
  | succ k ih =>
    rw [List.replicate_succ, List.cons_append]
    exact ih

/-- No character that a digit could be taken for stands at the head. -/
def Stops (rest : List Char) : Prop := ∀ c ∈ rest.head?, c.isDigit = false

theorem stops_nil : Stops [] := by simp [Stops]

theorem stops_cons {c : Char} {rest : List Char} (h : c.isDigit = false) :
    Stops (c :: rest) := by simpa [Stops] using h

/-- The longest run of characters of a kind ends where the next one is of another kind. -/
theorem span_exact {p : Char → Bool} {ds rest : List Char} (hd : ∀ c ∈ ds, p c = true)
    (hr : ∀ c ∈ rest.head?, p c = false) :
    (ds ++ rest).takeWhile p = ds ∧ (ds ++ rest).dropWhile p = rest := by
  rw [List.takeWhile_append_of_pos hd, List.dropWhile_append_of_pos hd]
  rcases rest with _ | ⟨c, rest⟩
  · exact ⟨List.append_nil ds, rfl⟩
  · have hc : p c = false := hr c rfl
    constructor
    · rw [List.takeWhile_cons_of_neg (by simp [hc]), List.append_nil]
    · exact List.dropWhile_cons_of_neg (by simp [hc])

theorem span_digits {ds rest : List Char} (hd : ∀ c ∈ ds, c.isDigit = true) (hr : Stops rest) :
    (ds ++ rest).takeWhile (fun c => digitVal c < 10) = ds ∧
      (ds ++ rest).dropWhile (fun c => digitVal c < 10) = rest := by
  refine span_exact (fun c hc => decide_eq_true (digitVal_lt_ten (hd c hc))) fun c hc => ?_
  refine decide_eq_false fun hlt => ?_
  have hdigit := hr c hc
  rw [isDigit_of_digitVal_lt_ten hlt] at hdigit
  cases hdigit

theorem takeWhile_digits {ds rest : List Char} (hd : ∀ c ∈ ds, c.isDigit = true)
    (hr : Stops rest) : (ds ++ rest).takeWhile (fun c => digitVal c < 10) = ds :=
  (span_digits hd hr).1

theorem dropWhile_digits {ds rest : List Char} (hd : ∀ c ∈ ds, c.isDigit = true)
    (hr : Stops rest) : (ds ++ rest).dropWhile (fun c => digitVal c < 10) = rest :=
  (span_digits hd hr).2

/-- A numeral longer than one digit does not start with a zero. -/
theorem head_toDigits_ne_zero {n : ℕ} (hn : 0 < n) : (Nat.toDigits 10 n).head? ≠ some '0' := by
  induction n using Nat.strongRecOn with
  | ind n ih =>
    by_cases h : n < 10
    · rw [Nat.toDigits_of_lt_base h]
      interval_cases n <;> decide
    · rw [Nat.toDigits_of_base_le (by omega) (by omega), List.head?_append]
      have hlt := ih (n / 10) (by omega) (by omega)
      rcases hd : (Nat.toDigits 10 (n / 10)).head? with _ | c
      · exact absurd (List.head?_eq_none_iff.mp hd) Nat.toDigits_ne_nil
      · rw [hd] at hlt
        simpa using hlt

/-! ### Reading what was printed -/

theorem dropWhile_blank_digits {ds : List Char} (rest : List Char) (hne : ds ≠ [])
    (hd : ∀ c ∈ ds, c.isDigit = true) :
    (ds ++ rest).dropWhile isBlank = ds ++ rest ∧ scanSign (ds ++ rest) = (false, ds ++ rest) := by
  rcases ds with _ | ⟨c, ds⟩
  · exact absurd rfl hne
  · have hc := hd c List.mem_cons_self
    have hb : isBlank c = false := by
      have h : 48 ≤ c.toNat := by
        simp only [Char.isDigit, Bool.and_eq_true, decide_eq_true_eq, ge_iff_le,
          UInt32.le_iff_toNat_le] at hc
        exact hc.1
      rcases hbc : isBlank c with _ | _
      · rfl
      · simp only [isBlank, Bool.or_eq_true, decide_eq_true_eq, Bool.and_eq_true] at hbc
        rcases hbc with rfl | ⟨-, hle⟩
        · exact absurd hc (by decide)
        · have : c.toNat ≤ 13 := hle
          omega
    refine ⟨by simp [hb], ?_⟩
    have h1 : c ≠ '-' := by rintro rfl; exact absurd hc (by decide)
    have h2 : c ≠ '+' := by rintro rfl; exact absurd hc (by decide)
    rw [List.cons_append, scanSign]
    · exact fun cs h => h1 (List.cons.inj h).1
    · exact fun cs h => h2 (List.cons.inj h).1

private theorem dropWhile_blank_minus (cs : List Char) :
    ('-' :: cs).dropWhile isBlank = '-' :: cs := by
  have : isBlank '-' = false := by decide
  simp [this]

/-- Scanning a printed number gives the number back. -/
theorem scanInt_decimal (z : ℤ) {rest : List Char} (hr : Stops rest) :
    scanInt 10 (decimal z ++ rest) = some (z, rest) := by
  have hd : ∀ c ∈ Nat.toDigits 10 z.natAbs, c.isDigit = true := fun _ => isDigit_of_mem_toDigits
  rcases htd : Nat.toDigits 10 z.natAbs with _ | ⟨d, ds⟩
  · exact absurd htd Nat.toDigits_ne_nil
  rw [decimal]
  by_cases hz : z < 0
  · rw [if_pos hz, List.cons_append, scanInt, dropWhile_blank_minus]
    simp only [scanSign]
    rw [takeWhile_digits hd hr, dropWhile_digits hd hr, htd]
    simp only [← htd, numeral_toDigits, signed, if_true]
    rw [Option.some_inj, Prod.mk.injEq]
    exact ⟨by omega, rfl⟩
  · obtain ⟨hb, hs⟩ := dropWhile_blank_digits rest Nat.toDigits_ne_nil hd
    rw [if_neg hz, scanInt, hb, hs]
    simp only
    rw [takeWhile_digits hd hr, dropWhile_digits hd hr, htd]
    simp only [← htd, numeral_toDigits, signed, Bool.false_eq_true, if_false]
    rw [Option.some_inj, Prod.mk.injEq]
    exact ⟨by omega, rfl⟩

/-- Base detection on a printed magnitude keeps its value. -/
private theorem detectBase_toDigits (n : ℕ) :
    ∃ b, detectBase (Nat.toDigits 10 n) = (b, Nat.toDigits 10 n) ∧
      numeral b ((Nat.toDigits 10 n).takeWhile (fun c => digitVal c < b)) = n := by
  rcases Nat.eq_zero_or_pos n with rfl | hn
  · exact ⟨8, by decide, by decide⟩
  · refine ⟨10, ?_, ?_⟩
    · have hne := head_toDigits_ne_zero hn
      rcases htd : Nat.toDigits 10 n with _ | ⟨d, ds⟩
      · rfl
      · rw [htd, List.head?_cons, ne_eq, Option.some_inj] at hne
        unfold detectBase
        split
        · next h => exact absurd (List.cons.inj h).1 hne
        · next h => exact absurd (List.cons.inj h).1 hne
        · rfl
    · have h : (Nat.toDigits 10 n ++ []).takeWhile (fun c => digitVal c < 10)
          = Nat.toDigits 10 n :=
        takeWhile_digits (fun _ => isDigit_of_mem_toDigits) stops_nil
      rw [List.append_nil] at h
      rw [h, numeral_toDigits]

/-- A printed number is read back by `strtol` with base 0. -/
theorem strtol0_decimal (z : ℤ) : strtol0 (decimal z) = z := by
  have hd : ∀ c ∈ Nat.toDigits 10 z.natAbs, c.isDigit = true := fun _ => isDigit_of_mem_toDigits
  obtain ⟨b, hb, hn⟩ := detectBase_toDigits z.natAbs
  rw [decimal]
  by_cases hz : z < 0
  · rw [if_pos hz, strtol0, dropWhile_blank_minus]
    simp only [scanSign, hb, hn, signed, if_true]
    omega
  · obtain ⟨hbl, hs⟩ := dropWhile_blank_digits [] Nat.toDigits_ne_nil hd
    rw [List.append_nil] at hbl hs
    rw [if_neg hz, strtol0, hbl, hs]
    simp only [hb, hn, signed, Bool.false_eq_true, if_false]
    omega

/-- Different numbers print differently. -/
theorem decimal_injective : Function.Injective decimal := by
  intro a b h
  rw [← strtol0_decimal a, h, strtol0_decimal]

/-! ### Decimal numerals -/

/-- The text is a decimal numeral of the number: blanks, a sign and digits, and
nothing else; the blanks and the sign may be missing. -/
def IsDecimal (cs : List Char) (z : ℤ) : Prop :=
  ∃ pad sign ds, cs = pad ++ (sign ++ ds) ∧ (∀ c ∈ pad, isBlank c = true) ∧
    (sign = [] ∨ sign = ['+'] ∨ sign = ['-']) ∧ ds ≠ [] ∧ (∀ c ∈ ds, c.isDigit = true) ∧
    z = signed (sign = ['-']) (numeral 10 ds)

/-- What `scanSign` takes is a sign or nothing. -/
theorem scanSign_split (cs : List Char) :
    ∃ sign, (sign = [] ∨ sign = ['+'] ∨ sign = ['-']) ∧ cs = sign ++ (scanSign cs).2 ∧
      ((scanSign cs).1 = true ↔ sign = ['-']) := by
  unfold scanSign
  split
  · exact ⟨['-'], Or.inr (Or.inr rfl), rfl, by simp⟩
  · exact ⟨['+'], Or.inr (Or.inl rfl), rfl, by simp⟩
  · exact ⟨[], Or.inl rfl, rfl, by simp⟩

/-- Digits and nothing behind them. -/
theorem takeWhile_all_digits {ds : List Char} (hd : ∀ c ∈ ds, c.isDigit = true) :
    ds.takeWhile (fun c => digitVal c < 10) = ds ∧
      ds.dropWhile (fun c => digitVal c < 10) = [] := by
  have htake := takeWhile_digits hd stops_nil
  have hdrop := dropWhile_digits hd stops_nil
  rw [List.append_nil] at htake hdrop
  exact ⟨htake, hdrop⟩

theorem isDecimal_of_scanInt {cs : List Char} {z : ℤ} (h : scanInt 10 cs = some (z, [])) :
    IsDecimal cs z := by
  obtain ⟨sign, hsign, hsplit, hneg⟩ := scanSign_split (cs.dropWhile isBlank)
  rw [scanInt] at h
  generalize scanSign (cs.dropWhile isBlank) = r at h hsplit hneg
  obtain ⟨neg, body⟩ := r
  dsimp only at h hsplit hneg
  cases hds : body.takeWhile (fun c => digitVal c < 10) with
  | nil =>
    rw [hds] at h
    cases h
  | cons d ds =>
    rw [hds] at h
    obtain ⟨hz, hrest⟩ := Prod.mk.inj (Option.some_inj.mp h)
    have hbody : body = d :: ds := by
      rw [← List.takeWhile_append_dropWhile (p := fun c => digitVal c < 10) (l := body), hds, hrest,
        List.append_nil]
    refine ⟨cs.takeWhile isBlank, sign, d :: ds, ?_, List.all_eq_true.mp List.all_takeWhile, hsign,
      List.cons_ne_nil d ds, fun c hc => ?_, ?_⟩
    · rw [← hbody, ← hsplit, List.takeWhile_append_dropWhile]
    · rw [← hds] at hc
      exact isDigit_of_digitVal_lt_ten
        (of_decide_eq_true (List.all_eq_true.mp List.all_takeWhile c hc))
    · rw [← hz]
      congr 1
      rw [Bool.eq_iff_iff, hneg, decide_eq_true_eq]

theorem scanInt_of_isDecimal {cs : List Char} {z : ℤ} (h : IsDecimal cs z) :
    scanInt 10 cs = some (z, []) := by
  obtain ⟨pad, sign, ds, rfl, hpad, hsign, hne, hds, rfl⟩ := h
  obtain ⟨htake, hdrop⟩ := takeWhile_all_digits hds
  obtain ⟨hblank, hscan⟩ := dropWhile_blank_digits [] hne hds
  rw [List.append_nil] at hblank hscan
  have hskip : (pad ++ (sign ++ ds)).dropWhile isBlank = sign ++ ds := by
    rw [List.dropWhile_append_of_pos hpad]
    rcases hsign with rfl | rfl | rfl
    · exact hblank
    · rfl
    · rfl
  have hbody : scanSign (sign ++ ds) = (decide (sign = ['-']), ds) := by
    rcases hsign with rfl | rfl | rfl
    · exact hscan
    · rfl
    · rfl
  rw [scanInt, hskip, hbody]
  dsimp only
  rw [htake, hdrop]
  cases ds with
  | nil => exact absurd rfl hne
  | cons d ds => rfl

theorem scanInt_eq_some_nil_iff {cs : List Char} {z : ℤ} :
    scanInt 10 cs = some (z, []) ↔ IsDecimal cs z :=
  ⟨isDecimal_of_scanInt, scanInt_of_isDecimal⟩

/-- A text is a numeral of one number at most. -/
theorem IsDecimal.unique {cs : List Char} {z z' : ℤ} (h : IsDecimal cs z) (h' : IsDecimal cs z') :
    z = z' := by
  have hsame := (scanInt_of_isDecimal h).symm.trans (scanInt_of_isDecimal h')
  exact (Prod.mk.inj (Option.some_inj.mp hsame)).1

/-- What is printed is a numeral. -/
theorem isDecimal_decimal (z : ℤ) : IsDecimal (decimal z) z := by
  have h := scanInt_decimal z stops_nil
  rw [List.append_nil] at h
  exact isDecimal_of_scanInt h

theorem not_isDecimal_nil (z : ℤ) : ¬IsDecimal [] z := by
  intro h
  cases scanInt_of_isDecimal h

end CNumeral
