/-
Bits that are packed into words.

A memory of words of `k` bits is a stream of bits, the lowest bit of each word
first.  A bit may be set in its word, a number may be put anywhere between two
words, and a number is read through a window of two words.

* `toNat_and_low`, `toNat_and_not_low` — the low bits of a word, and what is left
  without them;
* `eq_field_iff` — a field is what its bits are;
* `getLsbD_window` — a window shows the bits of its two words;
* `bitAt_orWord`, `bitAt_orBit`, `bitAt_orWindow` — what a store of bits adds to
  a memory, and `bitAt_clearWord`, `bitAt_clearBit` what it takes away;
* `bitAt_put`, `field_put` — in particular, of a number at any place, and in
  one of the fields.
-/
import Mathlib.Data.BitVec
import Mathlib.Logic.Function.Basic

namespace PackedBits

variable {k : ℕ} {m m' : ℕ → BitVec k} {p q r j : ℕ}

/-- A bit of the stream. -/
def bitAt (m : ℕ → BitVec k) (p : ℕ) : Bool := (m (p / k)).getLsbD (p % k)

/-- The bit of a word at its place in the stream. -/
theorem bitAt_mul_add (hj : j < k) : bitAt m (k * r + j) = (m r).getLsbD j := by
  have hk : 0 < k := by omega
  rw [bitAt, Nat.mul_add_div hk, Nat.div_eq_of_lt hj, Nat.add_zero, Nat.mul_add_mod,
    Nat.mod_eq_of_lt hj]

@[simp] theorem bitAt_zero (p : ℕ) : bitAt (fun _ => 0#k) p = false := BitVec.getLsbD_zero

/-! ### The low bits of a word -/

/-- The low bits of a word are its remainder. -/
theorem toNat_and_low {n : ℕ} (hn : n ≤ k) (x : BitVec k) :
    (x &&& BitVec.ofNat k (2 ^ n - 1)).toNat = x.toNat % 2 ^ n := by
  have hpow : 2 ^ n ≤ 2 ^ k := Nat.pow_le_pow_right (by decide) hn
  have hlt : 2 ^ n - 1 < 2 ^ k := lt_of_lt_of_le (Nat.sub_lt (Nat.two_pow_pos n) Nat.one_pos) hpow
  rw [BitVec.toNat_and, BitVec.toNat_ofNat, Nat.mod_eq_of_lt hlt, Nat.and_two_pow_sub_one_eq_mod]

/-- Without them it is rounded down. -/
theorem toNat_and_not_low {n : ℕ} (hn : n ≤ k) (x : BitVec k) :
    (x &&& ~~~BitVec.ofNat k (2 ^ n - 1)).toNat = 2 ^ n * (x.toNat / 2 ^ n) := by
  have hlow := toNat_and_low hn x
  generalize BitVec.ofNat k (2 ^ n - 1) = mask at hlow ⊢
  have hdisjoint : (x &&& ~~~mask) &&& (x &&& mask) = 0#k := by
    refine BitVec.eq_of_getLsbD_eq fun i hi => ?_
    simp only [BitVec.getLsbD_and, BitVec.getLsbD_not, BitVec.getLsbD_zero]
    cases x.getLsbD i <;> cases mask.getLsbD i <;> simp
  have hunion : (x &&& ~~~mask) ||| (x &&& mask) = x := by
    refine BitVec.eq_of_getLsbD_eq fun i hi => ?_
    simp only [BitVec.getLsbD_and, BitVec.getLsbD_not, BitVec.getLsbD_or, decide_eq_true hi]
    cases x.getLsbD i <;> cases mask.getLsbD i <;> rfl
  have hsum := BitVec.toNat_add_of_and_eq_zero hdisjoint
  rw [BitVec.add_eq_or_of_and_eq_zero _ _ hdisjoint, hunion, hlow] at hsum
  have hdiv := Nat.div_add_mod x.toNat (2 ^ n)
  omega

/-! ### Fields -/

/-- One of the numbers of `w` bits that are packed one behind the other. -/
def field (w : ℕ) (m : ℕ → BitVec k) (i : ℕ) : BitVec w :=
  (BitVec.ofBoolListLE ((List.range w).map fun j => bitAt m (i * w + j))).setWidth w

theorem getLsbD_field {w : ℕ} (hj : j < w) (i : ℕ) :
    (field w m i).getLsbD j = bitAt m (i * w + j) := by
  rw [field, BitVec.getLsbD_setWidth, BitVec.getLsbD_ofBoolListLE, List.getD_eq_getElem?_getD,
    List.getElem?_map, List.getElem?_range hj, decide_eq_true hj]
  rfl

theorem eq_field_iff {w i : ℕ} {x : BitVec w} :
    x = field w m i ↔ ∀ j < w, x.getLsbD j = bitAt m (i * w + j) := by
  refine ⟨fun h j hj => by rw [h, getLsbD_field hj], fun h => ?_⟩
  exact BitVec.eq_of_getLsbD_eq fun j hj => by rw [h j hj, getLsbD_field hj]

/-! ### Windows -/

/-- Two words next to each other. -/
def window (m : ℕ → BitVec k) (r : ℕ) : BitVec (2 * k) :=
  (m (r + 1)).setWidth (2 * k) <<< k ||| (m r).setWidth (2 * k)

/-- A window shows the bits of its two words. -/
theorem getLsbD_window (hj : j < 2 * k) : (window m r).getLsbD j = bitAt m (k * r + j) := by
  rw [window, BitVec.getLsbD_or, BitVec.getLsbD_shiftLeft, BitVec.getLsbD_setWidth,
    BitVec.getLsbD_setWidth]
  by_cases hlow : j < k
  · simp [hj, hlow, bitAt_mul_add hlow]
  · have hhigh : j - k < k := by omega
    have hplace : k * r + j = k * (r + 1) + (j - k) := by
      rw [Nat.mul_succ]
      omega
    have hout : (m r).getLsbD j = false := BitVec.getLsbD_of_ge _ _ (by omega)
    have hj' : j - k < 2 * k := by omega
    simp [hj, hlow, hj', hout, hplace, bitAt_mul_add hhigh]

/-! ### Stores -/

/-- Bits are set in a word. -/
def orWord (m : ℕ → BitVec k) (r : ℕ) (x : BitVec k) : ℕ → BitVec k :=
  Function.update m r (m r ||| x)

/-- Bits are set in two words next to each other. -/
def orWindow (m : ℕ → BitVec k) (r : ℕ) (x : BitVec (2 * k)) : ℕ → BitVec k :=
  orWord (orWord m r (x.setWidth k)) (r + 1) ((x >>> k).setWidth k)

theorem bitAt_orWord (x : BitVec k) (p : ℕ) :
    bitAt (orWord m r x) p = (bitAt m p || (decide (p / k = r) && x.getLsbD (p % k))) := by
  rw [bitAt, orWord, bitAt]
  by_cases hp : p / k = r
  · rw [hp, Function.update_self, BitVec.getLsbD_or]
    simp
  · rw [Function.update_of_ne hp]
    simp [hp]

/-- A bit is set, if it should be. -/
def orBit (m : ℕ → BitVec k) (p : ℕ) (b : Bool) : ℕ → BitVec k :=
  orWord m (p / k) ((BitVec.ofBool b).setWidth k <<< (p % k))

/-- A bit in its word. -/
theorem getLsbD_bit (hk : 0 < k) (p q : ℕ) :
    (decide (q / k = p / k) && (1#k <<< (p % k)).getLsbD (q % k)) = decide (q = p) := by
  have hp := Nat.div_add_mod p k
  have hq := Nat.div_add_mod q k
  have hmod : q % k < k := Nat.mod_lt q hk
  rw [BitVec.getLsbD_shiftLeft, BitVec.getLsbD_one]
  by_cases heq : q = p
  · subst heq
    simp [hmod, hk]
  · rw [decide_eq_false heq]
    -- in another word, or at another place in the same one
    by_cases hword : q / k = p / k
    · have hplace : q % k < p % k ∨ q % k - p % k ≠ 0 := by
        rw [hword] at hq
        omega
      rcases hplace with hlt | hne
      · simp [hlt]
      · simp [hne]
    · simp [hword]

theorem bitAt_orBit (hk : 0 < k) (b : Bool) (p q : ℕ) :
    bitAt (orBit m p b) q = (bitAt m q || (decide (q = p) && b)) := by
  rw [orBit, bitAt_orWord]
  cases b with
  | true =>
    have hone : (BitVec.ofBool true).setWidth k = 1#k :=
      BitVec.setWidth_ofNat_one_eq_ofNat_one_of_lt (by omega)
    rw [hone, getLsbD_bit hk, Bool.and_true]
  | false =>
    simp

@[simp] theorem orBit_false (p : ℕ) : orBit m p false = m := by
  rw [orBit, orWord]
  simp

/-- Bits are cleared in a word. -/
def clearWord (m : ℕ → BitVec k) (r : ℕ) (x : BitVec k) : ℕ → BitVec k :=
  Function.update m r (m r &&& ~~~x)

theorem bitAt_clearWord (hk : 0 < k) (x : BitVec k) (p : ℕ) :
    bitAt (clearWord m r x) p = (bitAt m p && !(decide (p / k = r) && x.getLsbD (p % k))) := by
  have hmod : p % k < k := Nat.mod_lt p hk
  rw [bitAt, clearWord, bitAt]
  by_cases hp : p / k = r
  · rw [hp, Function.update_self, BitVec.getLsbD_and, BitVec.getLsbD_not]
    simp [hmod]
  · rw [Function.update_of_ne hp]
    simp [hp]

/-- A bit is cleared. -/
def clearBit (m : ℕ → BitVec k) (p : ℕ) : ℕ → BitVec k :=
  clearWord m (p / k) (1#k <<< (p % k))

theorem bitAt_clearBit (hk : 0 < k) (p q : ℕ) :
    bitAt (clearBit m p) q = (bitAt m q && !decide (q = p)) := by
  rw [clearBit, bitAt_clearWord hk, getLsbD_bit hk]

theorem bitAt_orWindow (hk : 0 < k) (x : BitVec (2 * k)) (p : ℕ) :
    bitAt (orWindow m r x) p =
      (bitAt m p || (decide (k * r ≤ p) && x.getLsbD (p - k * r))) := by
  have hp := Nat.div_add_mod p k
  have hmod : p % k < k := Nat.mod_lt p hk
  rw [orWindow, bitAt_orWord, bitAt_orWord, BitVec.getLsbD_setWidth, BitVec.getLsbD_setWidth,
    BitVec.getLsbD_ushiftRight, decide_eq_true hmod, Bool.true_and, Bool.true_and, Bool.or_assoc]
  congr 1
  -- in the first word, in the second, or in another one
  by_cases hfirst : p / k = r
  · have hle : k * r ≤ p := by
      rw [← hfirst]
      omega
    have hsub : p - k * r = p % k := by
      rw [← hfirst]
      omega
    simp [hfirst, hle, hsub]
  by_cases hsecond : p / k = r + 1
  · have hmul : k * (p / k) = k * r + k := by rw [hsecond, Nat.mul_succ]
    have hle : k * r ≤ p := by omega
    have hsub : p - k * r = k + p % k := by omega
    simp [hsecond, hle, hsub]
  · have hout : ¬k * r ≤ p ∨ 2 * k ≤ p - k * r := by
      rcases Nat.lt_or_ge (p / k) r with hlt | hge
      · refine .inl fun hle => ?_
        have hle' : r ≤ p / k := (Nat.le_div_iff_mul_le hk).mpr (by rwa [Nat.mul_comm])
        omega
      · have hmul : k * (r + 2) ≤ k * (p / k) := Nat.mul_le_mul_left k (by omega)
        rw [Nat.mul_add] at hmul
        omega
    rcases hout with hlt | hge
    · simp [hfirst, hsecond, hlt]
    · simp [hfirst, hsecond, BitVec.getLsbD_of_ge _ _ hge]

/-- A number is put at a place in the stream, over two words if need be. -/
def put (m : ℕ → BitVec k) (p : ℕ) (x : BitVec k) : ℕ → BitVec k :=
  orWindow m (p / k) (x.setWidth (2 * k) <<< (p % k))

theorem bitAt_put (hk : 0 < k) (x : BitVec k) (p q : ℕ) :
    bitAt (put m p x) q = (bitAt m q || (decide (p ≤ q) && x.getLsbD (q - p))) := by
  have hp := Nat.div_add_mod p k
  have hmod : p % k < k := Nat.mod_lt p hk
  rw [put, bitAt_orWindow hk, BitVec.getLsbD_shiftLeft, BitVec.getLsbD_setWidth]
  congr 1
  by_cases hle : p ≤ q
  · have hwords : k * (p / k) ≤ q := by omega
    have hbit : q - k * (p / k) - p % k = q - p := by omega
    have hnot : ¬q - k * (p / k) < p % k := by omega
    simp only [hwords, hle, hnot, hbit, decide_true, decide_false, Bool.true_and, Bool.not_false]
    by_cases hin : q - p < k
    · have h1 : q - k * (p / k) < 2 * k := by omega
      have h2 : q - p < 2 * k := by omega
      simp [h1, h2]
    · rw [BitVec.getLsbD_of_ge _ _ (Nat.not_lt.mp hin)]
      simp
  · have hcond : ¬k * (p / k) ≤ q ∨ q - k * (p / k) < p % k := by omega
    rcases hcond with hlt | hlt
    · simp [hlt, hle]
    · simp [hlt, hle]

/-- A number that is put into one of the fields. -/
theorem field_put {w : ℕ} (hk : 0 < k) {x : BitVec k} (hx : ∀ j, w ≤ j → x.getLsbD j = false)
    (i i' : ℕ) :
    field w (put m (i * w) x) i' =
      if i' = i then field w m i' ||| x.setWidth w else field w m i' := by
  refine BitVec.eq_of_getLsbD_eq fun j hj => ?_
  rw [getLsbD_field hj, bitAt_put hk]
  by_cases hi : i' = i
  · subst hi
    rw [if_pos rfl, BitVec.getLsbD_or, getLsbD_field hj, BitVec.getLsbD_setWidth,
      Nat.add_sub_cancel_left]
    simp [hj]
  · rw [if_neg hi, getLsbD_field hj]
    -- the number ends before the other field begins, or begins after its end
    rcases Nat.lt_or_gt_of_ne hi with hlt | hgt
    · have hmul : (i' + 1) * w ≤ i * w := Nat.mul_le_mul_right w hlt
      rw [Nat.succ_mul] at hmul
      have hnot : ¬i * w ≤ i' * w + j := by omega
      simp [hnot]
    · have hmul : (i + 1) * w ≤ i' * w := Nat.mul_le_mul_right w hgt
      rw [Nat.succ_mul] at hmul
      rw [hx _ (by omega)]
      simp

@[simp] theorem field_zero (w i : ℕ) : field w (fun _ => 0#k) i = 0#w := by
  refine (eq_field_iff.mpr fun j _ => ?_).symm
  simp

end PackedBits
