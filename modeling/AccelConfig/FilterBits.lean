/-
Filters that leave a bit for each input, or for each value.

A scan sets the bit of an input if its element lies between two parameters, and a
set membership if the element is in a bit set; so a scan is the set membership in
the interval.  `find_unique` sets the bit of each element: it leaves the set of all
the elements of the source.

* `bitAt_forInputs` — which bits a loop over the inputs sets;
* `iaaDoScan_eq_iaaDoSetMembership` — a scan, as a set membership;
* `iaaDoFindUnique_exact` — the elements that are found.
-/
import AccelConfig.IaaFilter
import Mathlib.Order.Bounds.Defs

open CLoop PackedBits

namespace Accfg

namespace IaaFilter

variable {flags : FilterFlags} {dst : ℕ → BitVec 32} {n : BitVec 32}

/-! ### Bits that are stored -/

/-- A bit is stored in the word that it belongs to. -/
theorem orWord_bit (b : Bool) (i : BitVec 32) :
    orWord dst (i / 32#32).toNat ((BitVec.ofBool b).setWidth 32 <<< (i % 32#32).toNat) =
      orBit dst i.toNat b := by
  rw [orBit, BitVec.toNat_udiv, BitVec.toNat_umod]
  rfl

theorem orWord_one (i : BitVec 32) :
    orWord dst (i / 32#32).toNat (1#32 <<< (i % 32#32).toNat) = orBit dst i.toNat true :=
  orWord_bit true i

theorem maskBit_eq (src2 : ℕ → BitVec 32) (i : BitVec 32) :
    maskBit src2 i = (BitVec.ofBool (bitAt src2 i.toNat)).setWidth 32 := by
  refine BitVec.eq_of_getLsbD_eq fun j hj => ?_
  rw [maskBit, BitVec.getLsbD_and, BitVec.getLsbD_ushiftRight, BitVec.getLsbD_one,
    BitVec.getLsbD_setWidth, BitVec.getLsbD_ofBool, bitAt, BitVec.toNat_udiv, BitVec.toNat_umod]
  by_cases hzero : j = 0
  · subst hzero
    simp
  · simp [hzero]

/-- What a loop that sets bits leaves: the bits that were set before, and the ones
of the inputs. -/
theorem bitAt_forInputs (place : BitVec 32 → ℕ) (b : BitVec 32 → Bool) (p : ℕ) :
    bitAt (forInputs n (fun i dst => orBit dst (place i) (b i)) dst) p = true ↔
      bitAt dst p = true ∨ ∃ i < n, place i = p ∧ b i = true := by
  have hrun : bitAt (forInputs n (fun i dst => orBit dst (place i) (b i)) dst) p = true ↔
      bitAt dst p = true ∨
        ∃ i < n.toNat, place (BitVec.ofNat 32 i) = p ∧ b (BitVec.ofNat 32 i) = true := by
    refine forRange_induction
      (P := fun n m => bitAt m p = true ↔
        bitAt dst p = true ∨ ∃ i < n, place (BitVec.ofNat 32 i) = p ∧ b (BitVec.ofNat 32 i) = true)
      n.toNat (by simp) fun n _ m hm => ?_
    rw [bitAt_orBit (by omega), Bool.or_eq_true, hm, Bool.and_eq_true, decide_eq_true_iff, or_assoc]
    refine or_congr_right ⟨?_, ?_⟩
    · rintro (⟨i, hi, hbit⟩ | ⟨hplace, hbit⟩)
      · exact ⟨i, Nat.lt_succ_of_lt hi, hbit⟩
      · exact ⟨n, Nat.lt_succ_self n, hplace.symm, hbit⟩
    · rintro ⟨i, hi, hplace, hbit⟩
      rcases Nat.lt_succ_iff_lt_or_eq.mp hi with hlt | rfl
      · exact .inl ⟨i, hlt, hplace, hbit⟩
      · exact .inr ⟨hplace.symm, hbit⟩
  rw [hrun]
  refine or_congr_right ⟨?_, ?_⟩
  · rintro ⟨i, hi, hbit⟩
    have hidx : (BitVec.ofNat 32 i).toNat = i := by
      rw [toNat_ofNat_of_lt (hi.trans n.isLt)]
    exact ⟨BitVec.ofNat 32 i, BitVec.lt_def.mpr (by rwa [hidx]), hbit⟩
  · rintro ⟨i, hi, hbit⟩
    refine ⟨i.toNat, BitVec.lt_def.mp hi, ?_⟩
    rwa [BitVec.ofNat_toNat, BitVec.setWidth_eq]

/-! ### Values of elements -/

/-- A number under the mask of so many bits. -/
theorem toNat_and_maskOf {w : BitVec 32} (h : w.toNat ≤ 32) (x : BitVec 32) :
    (x &&& maskOf w).toNat = x.toNat % 2 ^ w.toNat := by
  have hpow : 2 ^ w.toNat ≤ 2 ^ 32 := Nat.pow_le_pow_right (by omega) h
  have hpos : 0 < 2 ^ w.toNat := Nat.two_pow_pos _
  rw [maskOf_eq h, BitVec.toNat_and, toNat_ofNat_of_lt (by omega),
    Nat.and_two_pow_sub_one_eq_mod]

/-- An element has no more bits than are valid. -/
theorem toNat_element_lt (hdrop : DropsFit flags) (src : ℕ → BitVec 32) (n i : BitVec 32) :
    (getElement flags src n i).element.toNat < 2 ^ valid flags := by
  have hvalid := toNat_validWidth flags hdrop
  have hfit := valid_le flags
  have hpos : 0 < 2 ^ valid flags := Nat.two_pow_pos _
  have hpow : 2 ^ valid flags ≤ 2 ^ 32 := Nat.pow_le_pow_right (by omega) (by omega)
  have hmask : ((maskOf (validWidth flags)).setWidth 64).toNat = 2 ^ valid flags - 1 := by
    rw [maskOf_eq (by omega), hvalid, BitVec.toNat_setWidth, BitVec.toNat_ofNat,
      Nat.mod_eq_of_lt (show 2 ^ valid flags - 1 < 2 ^ 32 by omega), Nat.mod_eq_of_lt (by omega)]
  rw [getElement]
  dsimp only
  rw [BitVec.toNat_setWidth, BitVec.toNat_and, hmask]
  refine (Nat.mod_le _ _).trans_lt (Nat.and_le_right.trans_lt ?_)
  omega

/-! ### Scan -/

/-- The bit set has the values that lie between the parameters, as far as these
go. -/
def Between (flags : FilterFlags) (aecs : FilterAecs) (set : ℕ → BitVec 32) : Prop :=
  ∀ e < 2 ^ width flags, bitAt set e = true ↔
    aecs.lowFilterParam.toNat % 2 ^ width flags ≤ e ∧
      e ≤ aecs.highFilterParam.toNat % 2 ^ width flags

/-- A scan is the set membership in an interval. -/
theorem iaaDoScan_eq_iaaDoSetMembership (flags : FilterFlags) (aecs : FilterAecs)
    (dst src set : ℕ → BitVec 32) (numInputs : BitVec 32) (hlow : low flags = 0)
    (hhigh : high flags = 0) (hset : Between flags aecs set) :
    iaaDoScan flags dst src aecs numInputs = iaaDoSetMembership flags dst src set numInputs := by
  obtain ⟨hdrop, hvalid⟩ := valid_eq_width flags hlow hhigh
  rw [iaaDoScan, iaaDoSetMembership]
  dsimp only
  congr 2
  -- one turn of either loop sets the same bit
  funext i dst
  have hlt := toNat_element_lt hdrop src numInputs i
  rw [hvalid] at hlt
  generalize (getElement flags src numInputs i).element = element at hlt ⊢
  have hinside : (aecs.lowFilterParam &&& maskOf (elementWidth flags) ≤ element ∧
      element ≤ aecs.highFilterParam &&& maskOf (elementWidth flags)) ↔
      bitAt set element.toNat = true := by
    rw [hset _ hlt, BitVec.le_def, BitVec.le_def, toNat_and_maskOf (width_le flags),
      toNat_and_maskOf (width_le flags)]
    rfl
  rw [maskBit_eq, orWord_bit, orWord_one]
  by_cases hbit : bitAt set element.toNat = true
  · rw [if_pos (hinside.mpr hbit), hbit]
  · rw [if_neg (mt hinside.mp hbit), eq_false_of_ne_true hbit, orBit_false]

/-- Elements of two bits, of which one or two are looked for. -/
theorem iaaDoScan_eq_iaaDoSetMembership_pairs :
    iaaDoScan 0x4#32 (fun _ => 0#32) (fun _ => 0xe4e4e4e4#32) ⟨5#32, 2#32⟩ 16#32 =
      iaaDoSetMembership 0x4#32 (fun _ => 0#32) (fun _ => 0xe4e4e4e4#32) (fun _ => 6#32) 16#32 :=
  iaaDoScan_eq_iaaDoSetMembership 0x4#32 ⟨5#32, 2#32⟩ _ _ _ _ (by decide) (by decide)
    (show ∀ e < 2 ^ width 0x4#32, bitAt (fun _ => 6#32) e = true ↔
      5 % 2 ^ width 0x4#32 ≤ e ∧ e ≤ 2 % 2 ^ width 0x4#32 by decide)

/-! ### Find unique -/

theorem isLeast_byteSize (bitSize : BitVec 32) :
    IsLeast {b | bitSize.toNat ≤ 8 * b} (byteSize bitSize).toNat := by
  have hlt := bitSize.isLt
  have hrest : bitSize % 8#32 ≠ 0#32 ↔ bitSize.toNat % 8 ≠ 0 := by
    rw [Ne, ← BitVec.toNat_inj, BitVec.toNat_umod]
    rfl
  have hdiv : (bitSize / 8#32).toNat = bitSize.toNat / 8 := by
    rw [BitVec.toNat_udiv]
    rfl
  have hsize : (byteSize bitSize).toNat = (bitSize.toNat + 7) / 8 := by
    rw [byteSize]
    by_cases h : bitSize.toNat % 8 ≠ 0
    · rw [if_pos (hrest.mpr h), BitVec.toNat_add, hdiv, BitVec.toNat_ofNat]
      omega
    · rw [if_neg (mt hrest.mp h), hdiv]
      omega
  rw [hsize]
  constructor
  · show bitSize.toNat ≤ 8 * ((bitSize.toNat + 7) / 8)
    omega
  · intro b hb
    have hb' : bitSize.toNat ≤ 8 * b := hb
    omega

theorem bitAt_iaaDoFindUnique (src : ℕ → BitVec 32) (numInputs : BitVec 32) (e : ℕ) :
    bitAt (iaaDoFindUnique flags (fun _ => 0#32) src numInputs).dst e = true ↔
      ∃ i < numInputs, (getElement flags src numInputs i).element.toNat = e := by
  simp only [iaaDoFindUnique, orWord_one]
  rw [bitAt_forInputs (fun i => (getElement flags src numInputs i).element.toNat) fun _ => true]
  simp

theorem bitAt_iaaDoSetMembership (src src2 : ℕ → BitVec 32) (numInputs i : BitVec 32) :
    bitAt (iaaDoSetMembership flags (fun _ => 0#32) src src2 numInputs).dst i.toNat = true ↔
      i < numInputs ∧ bitAt src2 (getElement flags src numInputs i).element.toNat = true := by
  simp only [iaaDoSetMembership, maskBit_eq, orWord_bit]
  rw [bitAt_forInputs BitVec.toNat fun i =>
    bitAt src2 (getElement flags src numInputs i).element.toNat]
  constructor
  · rintro (hzero | ⟨i', hi, hplace, hbit⟩)
    · simp at hzero
    · rw [BitVec.toNat_inj] at hplace
      subst hplace
      exact ⟨hi, hbit⟩
  · rintro ⟨hi, hbit⟩
    exact .inr ⟨i, hi, rfl, hbit⟩

/-- What `find_unique` leaves is the set of the elements of the source, in as few
bytes as hold all values; so every element is a member of it. -/
theorem iaaDoFindUnique_exact (flags : FilterFlags) (src : ℕ → BitVec 32) (numInputs : BitVec 32)
    (hdrop : DropsFit flags) (hvalid : valid flags ≤ 31) :
    let found := iaaDoFindUnique flags (fun _ => 0#32) src numInputs
    (∀ e, bitAt found.dst e = true ↔
        ∃ i < numInputs, (getElement flags src numInputs i).element.toNat = e) ∧
      IsLeast {b | 2 ^ valid flags ≤ 8 * b} found.dstSize.toNat ∧
      ∀ i < numInputs,
        bitAt (iaaDoSetMembership flags (fun _ => 0#32) src found.dst numInputs).dst i.toNat =
          true := by
  have hpow : 2 ^ valid flags ≤ 2 ^ 31 := Nat.pow_le_pow_right (by omega) hvalid
  have hsize : (1#32 <<< (validWidth flags).toNat).toNat = 2 ^ valid flags := by
    rw [BitVec.toNat_shiftLeft, toNat_validWidth flags hdrop, BitVec.toNat_ofNat, Nat.shiftLeft_eq,
      Nat.mod_eq_of_lt (show 1 < 2 ^ 32 by omega), Nat.one_mul, Nat.mod_eq_of_lt (by omega)]
  refine ⟨bitAt_iaaDoFindUnique src numInputs, ?_, fun i hi => ?_⟩
  · rw [← hsize]
    exact isLeast_byteSize _
  · exact (bitAt_iaaDoSetMembership src _ numInputs i).mpr
      ⟨hi, (bitAt_iaaDoFindUnique src numInputs _).mpr ⟨i, hi, rfl⟩⟩

/-- Elements of six bits, of which one is dropped at either end. -/
theorem iaaDoFindUnique_exact_sixes :
    let found := iaaDoFindUnique 0x420014#32 (fun _ => 0#32) (fun _ => 0xe4e4e4e4#32) 16#32
    (∀ e, bitAt found.dst e = true ↔
        ∃ i < 16#32,
          (getElement 0x420014#32 (fun _ => 0xe4e4e4e4#32) 16#32 i).element.toNat = e) ∧
      IsLeast {b | 2 ^ valid 0x420014#32 ≤ 8 * b} found.dstSize.toNat ∧
      ∀ i < 16#32,
        bitAt (iaaDoSetMembership 0x420014#32 (fun _ => 0#32) (fun _ => 0xe4e4e4e4#32)
          found.dst 16#32).dst i.toNat = true :=
  iaaDoFindUnique_exact 0x420014#32 (fun _ => 0xe4e4e4e4#32) 16#32
    (show low _ + high _ < width _ by decide) (by decide)

end IaaFilter

end Accfg
