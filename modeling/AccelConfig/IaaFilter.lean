/-
The filters that the test compares the device with.

The elements of a source are packed one behind the other, from the first bit of
the first word on.  `get_element` reads one of them through a window of two
words, or of one word if it is the last; `set_element` puts one into a
destination.  The filters go through all the elements of a source.

* `getLsbD_getElement` — which bits of the source an element has;
* `setElement_eq` — where an element is put.
-/
import AccelConfig.CLoop
import AccelConfig.PackedBits

open CLoop PackedBits

namespace Accfg

namespace IaaFilter

/-! ### Flags -/

/-- `struct iaa_filter_flags_t`, as it lies in a number. -/
abbrev FilterFlags := BitVec 32

variable (flags : FilterFlags)

def src1Width : BitVec 5 := flags.extractLsb' 2 5

def dropLowBits : BitVec 5 := flags.extractLsb' 17 5

def dropHighBits : BitVec 5 := flags.extractLsb' 22 5

def elementWidth : BitVec 32 := (src1Width flags).setWidth 32 + 1#32

def validWidth : BitVec 32 :=
  elementWidth flags - (dropHighBits flags).setWidth 32 - (dropLowBits flags).setWidth 32

/-- `mask`, for elements of this width. -/
def maskOf (width : BitVec 32) : BitVec 32 :=
  let elementSize := 1#64 <<< width.toNat
  (elementSize - 1#64).setWidth 32

/-! ### Elements -/

/-- What `get_element` returns, and the words that it reads. -/
structure Fetched where
  element : BitVec 32
  words : List ℕ

/-- `get_element`. -/
def getElement (src1Ptr : ℕ → BitVec 32) (numInputs : BitVec 32) (inputIdx : BitVec 32) :
    Fetched :=
  let mask := maskOf (validWidth flags)
  let row := (inputIdx * elementWidth flags / 32#32).toNat
  let (qword, words) : BitVec (2 * 32) × List ℕ :=
    if inputIdx < numInputs - 1#32 then (window src1Ptr row, [row, row + 1])
    else ((src1Ptr row).setWidth 64, [row])
  let startBit := inputIdx * elementWidth flags % 32#32
  let element := qword >>> startBit.toNat >>> (dropLowBits flags).toNat &&& mask.setWidth 64
  ⟨element.setWidth 32, words⟩

/-- `set_element`. -/
def setElement (dstPtr : ℕ → BitVec 32) (element : BitVec 32) (inputIdx : BitVec 32) :
    ℕ → BitVec 32 :=
  let dwordOffset := (validWidth flags * inputIdx / 32#32).toNat
  let bitOffset := (validWidth flags * inputIdx % 32#32).toNat
  orWindow dstPtr dwordOffset (element.setWidth 64 <<< bitOffset)

/-! ### Filters -/

/-- What a filter returns, and the destination that it leaves. -/
structure Filtered where
  dst : ℕ → BitVec 32
  dstSize : BitVec 32

/-- The number of bytes for so many bits. -/
def byteSize (bitSize : BitVec 32) : BitVec 32 :=
  if bitSize % 8#32 ≠ 0#32 then bitSize / 8#32 + 1#32 else bitSize / 8#32

/-- `for (input_idx = 0; input_idx < num_inputs; input_idx++)`. -/
def forInputs {σ : Type} (numInputs : BitVec 32) (body : BitVec 32 → σ → σ) : σ → σ :=
  forRange (fun i => body (BitVec.ofNat 32 i)) numInputs.toNat

/-- `struct iaa_filter_aecs_t`, as far as it is used. -/
structure FilterAecs where
  lowFilterParam : BitVec 32
  highFilterParam : BitVec 32

/-- The bit of an input in a mask, as a number. -/
def maskBit (src2Ptr : ℕ → BitVec 32) (inputIdx : BitVec 32) : BitVec 32 :=
  src2Ptr (inputIdx / 32#32).toNat >>> (inputIdx % 32#32).toNat &&& 1#32

def iaaDoScan (dst src1 : ℕ → BitVec 32) (src2 : FilterAecs) (numInputs : BitVec 32) : Filtered :=
  let mask := maskOf (elementWidth flags)
  let dst := forInputs numInputs (fun inputIdx dst =>
    let element := (getElement flags src1 numInputs inputIdx).element
    if src2.lowFilterParam &&& mask ≤ element ∧ element ≤ src2.highFilterParam &&& mask then
      orWord dst (inputIdx / 32#32).toNat (1#32 <<< (inputIdx % 32#32).toNat)
    else dst) dst
  ⟨dst, byteSize numInputs⟩

def iaaDoSetMembership (dst src1 src2 : ℕ → BitVec 32) (numInputs : BitVec 32) : Filtered :=
  let dst := forInputs numInputs (fun inputIdx dst =>
    let element := (getElement flags src1 numInputs inputIdx).element
    orWord dst (inputIdx / 32#32).toNat (maskBit src2 element <<< (inputIdx % 32#32).toNat)) dst
  ⟨dst, byteSize numInputs⟩

/-- One turn of the loop of `iaa_do_select`: `output_idx` counts what is put. -/
def selectTurn (src1 src2 : ℕ → BitVec 32) (numInputs inputIdx : BitVec 32) :
    (ℕ → BitVec 32) × BitVec 32 → (ℕ → BitVec 32) × BitVec 32
  | (dst, outputIdx) =>
    if maskBit src2 inputIdx ≠ 0#32 then
      let element := (getElement flags src1 numInputs inputIdx).element
      (setElement flags dst element outputIdx, outputIdx + 1#32)
    else (dst, outputIdx)

def iaaDoSelect (dst src1 src2 : ℕ → BitVec 32) (numInputs : BitVec 32) : Filtered :=
  let (dst, outputIdx) := forInputs numInputs (selectTurn flags src1 src2 numInputs) (dst, 0#32)
  ⟨dst, byteSize (outputIdx * elementWidth flags)⟩

def iaaDoFindUnique (dst src1 : ℕ → BitVec 32) (numInputs : BitVec 32) : Filtered :=
  let elementSize := 1#32 <<< (validWidth flags).toNat
  let dst := forInputs numInputs (fun inputIdx dst =>
    let element := (getElement flags src1 numInputs inputIdx).element
    orWord dst (element / 32#32).toNat (1#32 <<< (element % 32#32).toNat)) dst
  ⟨dst, byteSize elementSize⟩

/-- One turn of the loop of `iaa_do_expand`: `output_idx` counts what is taken. -/
def expandTurn (src1 src2 : ℕ → BitVec 32) (numInputs inputIdx : BitVec 32) :
    (ℕ → BitVec 32) × BitVec 32 → (ℕ → BitVec 32) × BitVec 32
  | (dst, outputIdx) =>
    if maskBit src2 inputIdx ≠ 0#32 then
      let element := (getElement flags src1 numInputs outputIdx).element
      (setElement flags dst element inputIdx, outputIdx + 1#32)
    else (setElement flags dst 0#32 inputIdx, outputIdx)

def iaaDoExpand (dst src1 src2 : ℕ → BitVec 32) (numInputs : BitVec 32) : Filtered :=
  let (dst, _) := forInputs numInputs (expandTurn flags src1 src2 numInputs) (dst, 0#32)
  ⟨dst, byteSize (numInputs * elementWidth flags)⟩

/-! ### Widths -/

/-- The width of an element, and how many of its bits are dropped at either
end. -/
def width : ℕ := (elementWidth flags).toNat

def low : ℕ := (dropLowBits flags).toNat

def high : ℕ := (dropHighBits flags).toNat

/-- The bits of an element that are not dropped. -/
def valid : ℕ := width flags - high flags - low flags

/-- Not all bits of an element are dropped. -/
def DropsFit : Prop := low flags + high flags < width flags

theorem width_eq : width flags = (src1Width flags).toNat + 1 := by
  have hlt := (src1Width flags).isLt
  rw [width, elementWidth, BitVec.toNat_add, BitVec.toNat_setWidth,
    Nat.mod_eq_of_lt (show (src1Width flags).toNat < 2 ^ 32 by omega), BitVec.toNat_ofNat]
  omega

theorem width_pos : 0 < width flags := by
  rw [width_eq]
  omega

theorem width_le : width flags ≤ 32 := by
  have hlt := (src1Width flags).isLt
  rw [width_eq]
  omega

theorem valid_pos (h : DropsFit flags) : 0 < valid flags := by
  rw [DropsFit] at h
  rw [valid]
  omega

theorem valid_le : valid flags + low flags ≤ 32 ∨ valid flags = 0 := by
  have hle := width_le flags
  rw [valid]
  omega

theorem toNat_validWidth (h : DropsFit flags) : (validWidth flags).toNat = valid flags := by
  have hlow := (dropLowBits flags).isLt
  have hhigh := (dropHighBits flags).isLt
  rw [DropsFit, low, high, width] at h
  have hhigh' : ((dropHighBits flags).setWidth 32).toNat = (dropHighBits flags).toNat := by
    rw [BitVec.toNat_setWidth, Nat.mod_eq_of_lt (by omega)]
  have hlow' : ((dropLowBits flags).setWidth 32).toNat = (dropLowBits flags).toNat := by
    rw [BitVec.toNat_setWidth, Nat.mod_eq_of_lt (by omega)]
  have hsub : (elementWidth flags - (dropHighBits flags).setWidth 32).toNat =
      (elementWidth flags).toNat - (dropHighBits flags).toNat := by
    rw [BitVec.toNat_sub_of_le (BitVec.le_def.mpr (by omega)), hhigh']
  rw [validWidth, BitVec.toNat_sub_of_le (BitVec.le_def.mpr (by omega)), hsub, hlow', valid, low,
    high, width]

/-- Without dropped bits all of them are valid. -/
theorem valid_eq_width (hlow : low flags = 0) (hhigh : high flags = 0) :
    DropsFit flags ∧ valid flags = width flags := by
  have hpos := width_pos flags
  rw [DropsFit, valid]
  omega

theorem maskOf_eq {n : BitVec 32} (h : n.toNat ≤ 32) :
    maskOf n = BitVec.ofNat 32 (2 ^ n.toNat - 1) := by
  have hpow : 2 ^ n.toNat < 2 ^ 64 := Nat.pow_lt_pow_right (by omega) (by omega)
  have hpos : 0 < 2 ^ n.toNat := Nat.two_pow_pos _
  have hone : 1#64 ≤ 1#64 <<< n.toNat := by
    rw [BitVec.le_def, BitVec.toNat_shiftLeft, BitVec.toNat_ofNat, Nat.shiftLeft_eq, Nat.one_mod,
      Nat.one_mul, Nat.mod_eq_of_lt hpow]
    exact hpos
  refine BitVec.eq_of_toNat_eq ?_
  rw [maskOf, BitVec.toNat_setWidth, BitVec.toNat_sub_of_le hone, BitVec.toNat_shiftLeft,
    BitVec.toNat_ofNat, BitVec.toNat_ofNat, Nat.shiftLeft_eq,
    Nat.mod_eq_of_lt (show 1 < 2 ^ 64 by decide), Nat.one_mul, Nat.mod_eq_of_lt hpow]

/-- The mask has as many bits set as an element has. -/
theorem getLsbD_maskOf {n : BitVec 32} (h : n.toNat ≤ 32) (j : ℕ) :
    (maskOf n).getLsbD j = decide (j < n.toNat) := by
  rw [maskOf_eq h, BitVec.getLsbD_ofNat, Nat.testBit_two_pow_sub_one]
  by_cases hj : j < n.toNat
  · have hj' : j < 32 := by omega
    simp [hj, hj']
  · simp [hj]

/-! ### What an element is -/

section Elements

variable {flags} {src : ℕ → BitVec 32} {n i : BitVec 32}

/-- Where an element begins. -/
theorem toNat_begin (hwrap : i.toNat * width flags < 2 ^ 32) :
    (i * elementWidth flags).toNat = i.toNat * width flags := by
  rw [width] at hwrap ⊢
  rw [BitVec.toNat_mul, Nat.mod_eq_of_lt hwrap]

theorem toNat_row (hwrap : i.toNat * width flags < 2 ^ 32) :
    (i * elementWidth flags / 32#32).toNat = i.toNat * width flags / 32 := by
  rw [BitVec.toNat_udiv, toNat_begin hwrap]
  rfl

theorem toNat_startBit (hwrap : i.toNat * width flags < 2 ^ 32) :
    (i * elementWidth flags % 32#32).toNat = i.toNat * width flags % 32 := by
  rw [BitVec.toNat_umod, toNat_begin hwrap]
  rfl

/-- An element has the bits of the source that are its valid ones; but the last
element is read from a single word. -/
theorem getLsbD_getElement (hdrop : DropsFit flags) (hwrap : i.toNat * width flags < 2 ^ 32)
    (j : ℕ) :
    (getElement flags src n i).element.getLsbD j =
      (decide (j < valid flags) &&
        (decide (i < n - 1#32) || decide (i.toNat * width flags % 32 + low flags + j < 32)) &&
        bitAt src (i.toNat * width flags + low flags + j)) := by
  have hvalid := toNat_validWidth flags hdrop
  have hlow : (dropLowBits flags).toNat = low flags := rfl
  have hfit := valid_le flags
  have hpos := valid_pos flags hdrop
  have hmod : i.toNat * width flags % 32 < 32 := Nat.mod_lt _ (by omega)
  have hsplit := Nat.div_add_mod (i.toNat * width flags) 32
  have hplace : i.toNat * width flags + low flags + j =
      32 * (i.toNat * width flags / 32) + (i.toNat * width flags % 32 + (low flags + j)) := by omega
  have hmask : (maskOf (validWidth flags)).getLsbD j = decide (j < valid flags) := by
    rw [getLsbD_maskOf (by omega), hvalid]
  rw [getElement]
  dsimp only
  rw [BitVec.getLsbD_setWidth, BitVec.getLsbD_and, BitVec.getLsbD_setWidth, hmask]
  by_cases hj : j < valid flags
  · have hj32 : j < 32 := by omega
    have hj64 : j < 2 * 32 := by omega
    have hin : i.toNat * width flags % 32 + (low flags + j) < 2 * 32 := by omega
    simp only [hj, hj32, hj64, decide_true, Bool.true_and, Bool.and_true,
      BitVec.getLsbD_ushiftRight, toNat_startBit hwrap, toNat_row hwrap, hlow, hplace]
    by_cases hi : i < n - 1#32
    · simp only [hi, if_true, decide_true, Bool.true_or, Bool.true_and]
      rw [getLsbD_window hin]
    · simp only [hi, if_false, decide_false, Bool.false_or]
      rw [BitVec.getLsbD_setWidth]
      by_cases hword : i.toNat * width flags % 32 + (low flags + j) < 32
      · have hword' : i.toNat * width flags % 32 + low flags + j < 32 := by omega
        simp only [hword', hin, decide_true, Bool.true_and]
        rw [bitAt_mul_add hword]
      · have hword' : ¬i.toNat * width flags % 32 + low flags + j < 32 := by omega
        rw [BitVec.getLsbD_of_ge _ _ (Nat.not_lt.mp hword)]
        simp [hword']
  · simp [hj]

/-- An element is put where as many valid bits of others are before it. -/
theorem setElement_eq (hdrop : DropsFit flags) (hwrap : i.toNat * valid flags < 2 ^ 32)
    (dst : ℕ → BitVec 32) (element : BitVec 32) :
    setElement flags dst element i = put dst (i.toNat * valid flags) element := by
  have hbegin : (validWidth flags * i).toNat = i.toNat * valid flags := by
    rw [BitVec.toNat_mul, toNat_validWidth flags hdrop, Nat.mul_comm, Nat.mod_eq_of_lt hwrap]
  rw [setElement, put]
  simp only [BitVec.toNat_udiv, BitVec.toNat_umod, hbegin, BitVec.toNat_ofNat]

end Elements

end IaaFilter

end Accfg
