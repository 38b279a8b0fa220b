/-
Elements that a mask selects, and expands again.

A selection goes through the elements of its source and puts the marked ones one
behind the other; an expansion goes through the places of its destination and puts
the next element at the marked ones.  So a selection gathers, and an expansion
scatters, and either undoes the other.

* `element_eq_field` — an element that lies in one word is read right;
* `iaaDoSelect_run`, `iaaDoExpand_run` — what the loops leave;
* `select_expand` — one after the other.
-/
import AccelConfig.Compaction
import AccelConfig.FilterBits
import AccelConfig.PackedElement

open CLoop PackedBits Compaction

namespace Accfg

namespace IaaFilter

variable {flags : FilterFlags} {src mask : ℕ → BitVec 32} {n : BitVec 32}

/-- The mask has the bit of an element set. -/
abbrev Marked (mask : ℕ → BitVec 32) (i : ℕ) : Prop := bitAt mask i = true

/-- A bit of the mask, as the filters test it. -/
theorem maskBit_ne_zero_iff (mask : ℕ → BitVec 32) (i : BitVec 32) :
    maskBit mask i ≠ 0#32 ↔ Marked mask i.toNat := by
  rw [maskBit_eq, Marked]
  cases bitAt mask i.toNat with
  | true => decide
  | false => decide

/-! ### Widths that divide a word -/

/-- No element lies in two words. -/
theorem startBit_add_width_le (hw : width flags ∣ 32) (i : ℕ) :
    startBit flags i + width flags ≤ 32 := by
  obtain ⟨c, hc⟩ := hw
  have hpos : 0 < c := by
    rcases Nat.eq_zero_or_pos c with rfl | hpos
    · simp at hc
    · exact hpos
  have hmod : i % c + 1 ≤ c := Nat.mod_lt i hpos
  calc startBit flags i + width flags = width flags * (i % c) + width flags := by
        rw [startBit, Nat.mul_comm i, hc, Nat.mul_mod_mul_left]
    _ = width flags * (i % c + 1) := (Nat.mul_succ _ _).symm
    _ ≤ width flags * c := Nat.mul_le_mul_left _ hmod
    _ = 32 := hc.symm

/-- An element is read right, be it the last one or not. -/
theorem element_eq_field (hw : width flags ∣ 32) (hlow : low flags = 0) (hhigh : high flags = 0)
    {i : BitVec 32} (hwrap : i.toNat * width flags < 2 ^ 32) :
    (getElement flags src n i).element = (field (width flags) src i.toNat).setWidth 32 := by
  obtain ⟨hdrop, hvalid⟩ := valid_eq_width flags hlow hhigh
  have hstart := startBit_add_width_le hw i.toNat
  rw [startBit] at hstart
  refine BitVec.eq_of_getLsbD_eq fun j hj => ?_
  rw [getLsbD_getElement hdrop hwrap, hvalid, hlow, Nat.add_zero, Nat.add_zero,
    BitVec.getLsbD_setWidth]
  by_cases hin : j < width flags
  · have hword : i.toNat * width flags % 32 + j < 32 := by omega
    rw [getLsbD_field hin]
    simp [hin, hj, hword]
  · rw [BitVec.getLsbD_of_ge (field (width flags) src i.toNat) j (Nat.not_lt.mp hin)]
    simp [hin]

/-! ### What the loops leave -/

section Runs

variable {k : ℕ} {s : (ℕ → BitVec 32) × BitVec 32}

/-- After `k` turns of a selection. -/
def Gathered (flags : FilterFlags) (src mask : ℕ → BitVec 32) (k : ℕ)
    (s : (ℕ → BitVec 32) × BitVec 32) : Prop :=
  field (width flags) s.1 = gather (Marked mask) k (field (width flags) src) ∧
    s.2 = BitVec.ofNat 32 (Nat.count (Marked mask) k)

/-- After `k` turns of an expansion. -/
def Scattered (flags : FilterFlags) (src mask : ℕ → BitVec 32) (k : ℕ)
    (s : (ℕ → BitVec 32) × BitVec 32) : Prop :=
  field (width flags) s.1 = scatter (Marked mask) k (field (width flags) src) ∧
    s.2 = BitVec.ofNat 32 (Nat.count (Marked mask) k)

theorem field_zeros (w : ℕ) : field w (fun _ => 0#32) = fun _ => 0#w :=
  funext fun i => field_zero w i

theorem gathered_zero : Gathered flags src mask 0 (fun _ => 0#32, 0#32) :=
  ⟨by rw [field_zeros, gather_zero]; exact rfl, rfl⟩

theorem scattered_zero : Scattered flags src mask 0 (fun _ => 0#32, 0#32) :=
  ⟨by rw [field_zeros, scatter_zero]; exact rfl, rfl⟩

/-- The number of marks, as the loops count it. -/
theorem count_succ_of_marked (hmark : Marked mask k) :
    BitVec.ofNat 32 (Nat.count (Marked mask) k) + 1#32 =
      BitVec.ofNat 32 (Nat.count (Marked mask) (k + 1)) := by
  rw [Nat.count_succ, if_pos hmark, BitVec.ofNat_add]

variable (hw : width flags ∣ 32) (hlow : low flags = 0) (hhigh : high flags = 0)
  (hsize : n.toNat * width flags < 2 ^ 32) (hk : k < n.toNat)
include hw hlow hhigh hsize hk

/-- One turn of a selection. -/
theorem Gathered.succ (h : Gathered flags src mask k s) :
    Gathered flags src mask (k + 1) (selectTurn flags src mask n (BitVec.ofNat 32 k) s) := by
  obtain ⟨dst, outputIdx⟩ := s
  obtain ⟨hfields, rfl⟩ := h
  rw [selectTurn]
  dsimp only at hfields
  obtain ⟨hidx, hin⟩ := toNat_index hsize hk.le
  obtain ⟨hout, hfit⟩ := toNat_index hsize ((Nat.count_le (Marked mask)).trans hk.le)
  have hmask := maskBit_ne_zero_iff mask (BitVec.ofNat 32 k)
  rw [hidx] at hmask
  by_cases hmark : Marked mask k
  · -- behind what is gathered there are zeros
    have hfield : field (width flags) (setElement flags dst
        (getElement flags src n (BitVec.ofNat 32 k)).element
        (BitVec.ofNat 32 (Nat.count (Marked mask) k))) =
        gather (Marked mask) (k + 1) (field (width flags) src) := by
      rw [element_eq_field hw hlow hhigh hin, field_setElement hlow hhigh hfit, hout, hidx,
        gather_succ, if_pos hmark, hfields, gather_count]
      congr 1
      exact BitVec.zero_or
    rw [if_pos (hmask.mpr hmark)]
    exact ⟨hfield, count_succ_of_marked hmark⟩
  · rw [if_neg (mt hmask.mp hmark), Gathered, gather_succ, if_neg hmark, Nat.count_succ,
      if_neg hmark, Nat.add_zero]
    exact ⟨hfields, rfl⟩

/-- One turn of an expansion. -/
theorem Scattered.succ (h : Scattered flags src mask k s) :
    Scattered flags src mask (k + 1) (expandTurn flags src mask n (BitVec.ofNat 32 k) s) := by
  obtain ⟨dst, outputIdx⟩ := s
  obtain ⟨hfields, rfl⟩ := h
  rw [expandTurn]
  dsimp only at hfields
  obtain ⟨hidx, hin⟩ := toNat_index hsize hk.le
  obtain ⟨hout, hfit⟩ := toNat_index hsize ((Nat.count_le (Marked mask)).trans hk.le)
  have hmask := maskBit_ne_zero_iff mask (BitVec.ofNat 32 k)
  rw [hidx] at hmask
  -- the place of this turn is still zero
  have hput : ∀ e : BitVec (width flags),
      field (width flags) (setElement flags dst (e.setWidth 32) (BitVec.ofNat 32 k)) =
        Function.update (scatter (Marked mask) k (field (width flags) src)) k e := by
    intro e
    rw [field_setElement hlow hhigh hin, hidx, hfields, scatter_self]
    congr 1
    exact BitVec.zero_or
  by_cases hmark : Marked mask k
  · rw [if_pos (hmask.mpr hmark), element_eq_field hw hlow hhigh hfit, hout, Scattered, hput,
      scatter_succ, if_pos hmark]
    exact ⟨rfl, count_succ_of_marked hmark⟩
  · have hzero : 0#32 = (0#(width flags)).setWidth 32 := (BitVec.setWidth_zero _ _).symm
    rw [if_neg (mt hmask.mp hmark), hzero, Scattered, hput, scatter_succ, if_neg hmark,
      Nat.count_succ, if_neg hmark, Nat.add_zero]
    exact ⟨rfl, rfl⟩

end Runs

/-- A selection gathers the elements of its source. -/
theorem iaaDoSelect_run (src mask : ℕ → BitVec 32) (hw : width flags ∣ 32)
    (hlow : low flags = 0) (hhigh : high flags = 0) (hsize : n.toNat * width flags < 2 ^ 32) :
    let selected := iaaDoSelect flags (fun _ => 0#32) src mask n
    field (width flags) selected.dst =
        gather (Marked mask) n.toNat (field (width flags) src) ∧
      selected.dstSize =
        byteSize (BitVec.ofNat 32 (Nat.count (Marked mask) n.toNat) * elementWidth flags) := by
  have hrun : Gathered flags src mask n.toNat
      (forInputs n (selectTurn flags src mask n) (fun _ => 0#32, 0#32)) :=
    forRange_induction (P := Gathered flags src mask) n.toNat gathered_zero
      fun k hk _ hs => hs.succ hw hlow hhigh hsize hk
  rw [iaaDoSelect]
  exact ⟨hrun.1, by rw [← hrun.2]⟩

/-- An expansion scatters them. -/
theorem iaaDoExpand_run (src mask : ℕ → BitVec 32) (hw : width flags ∣ 32)
    (hlow : low flags = 0) (hhigh : high flags = 0) (hsize : n.toNat * width flags < 2 ^ 32) :
    field (width flags) (iaaDoExpand flags (fun _ => 0#32) src mask n).dst =
      scatter (Marked mask) n.toNat (field (width flags) src) := by
  have hrun : Scattered flags src mask n.toNat
      (forInputs n (expandTurn flags src mask n) (fun _ => 0#32, 0#32)) :=
    forRange_induction (P := Scattered flags src mask) n.toNat scattered_zero
      fun k hk _ hs => hs.succ hw hlow hhigh hsize hk
  exact hrun.1

/-! ### One after the other -/

/-- So many elements take as many bytes as the filters return. -/
theorem isLeast_byteSize_mul (hsize : n.toNat * width flags < 2 ^ 32) {c : ℕ} (hc : c ≤ n.toNat) :
    IsLeast {b | c * width flags ≤ 8 * b}
      (byteSize (BitVec.ofNat 32 c * elementWidth flags)).toNat := by
  obtain ⟨hidx, hwrap⟩ := toNat_index hsize hc
  have hbits := toNat_begin hwrap
  rw [hidx] at hbits
  rw [← hbits]
  exact isLeast_byteSize _

/-- What is selected and expanded again is the source, with zeros for the elements
that are not marked; what is expanded and selected again are the first elements,
as many as there are marks. -/
theorem select_expand (flags : FilterFlags) (x y mask : ℕ → BitVec 32) (numInputs : BitVec 32)
    (hw : width flags ∣ 32) (hlow : low flags = 0) (hhigh : high flags = 0)
    (hsize : numInputs.toNat * width flags < 2 ^ 32) :
    let zeros : ℕ → BitVec 32 := fun _ => 0#32
    let count := Nat.count (Marked mask) numInputs.toNat
    let selected := iaaDoSelect flags zeros x mask numInputs
    let expanded := iaaDoExpand flags zeros y mask numInputs
    (∀ i, field (width flags) (iaaDoExpand flags zeros selected.dst mask numInputs).dst i =
        if i < numInputs.toNat ∧ Marked mask i then field (width flags) x i else 0) ∧
      (∀ k, field (width flags) (iaaDoSelect flags zeros expanded.dst mask numInputs).dst k =
        if k < count then field (width flags) y k else 0) ∧
      IsLeast {b | count * width flags ≤ 8 * b} selected.dstSize.toNat ∧
      IsLeast {b | numInputs.toNat * width flags ≤ 8 * b} expanded.dstSize.toNat := by
  intro zeros count selected expanded
  obtain ⟨hselected, hselectedSize⟩ := iaaDoSelect_run x mask hw hlow hhigh hsize
  have hexpanded := iaaDoExpand_run y mask hw hlow hhigh hsize
  refine ⟨fun i => ?_, fun k => ?_, ?_, ?_⟩
  · rw [iaaDoExpand_run _ _ hw hlow hhigh hsize, hselected, scatter_gather]
  · rw [(iaaDoSelect_run _ _ hw hlow hhigh hsize).1, hexpanded, gather_scatter]
  · rw [hselectedSize]
    exact isLeast_byteSize_mul hsize (Nat.count_le _)
  · have hall := isLeast_byteSize_mul hsize le_rfl
    rwa [BitVec.ofNat_toNat, BitVec.setWidth_eq] at hall

/-- Elements of four bits, of which every other one is marked. -/
theorem select_expand_fours :
    let zeros : ℕ → BitVec 32 := fun _ => 0#32
    let x : ℕ → BitVec 32 := fun _ => 0x76543210#32
    let mask : ℕ → BitVec 32 := fun _ => 0x55555555#32
    let count := Nat.count (Marked mask) 20
    let selected := iaaDoSelect 0xc#32 zeros x mask 20#32
    let expanded := iaaDoExpand 0xc#32 zeros x mask 20#32
    (∀ i, field (width 0xc#32) (iaaDoExpand 0xc#32 zeros selected.dst mask 20#32).dst i =
        if i < 20 ∧ Marked mask i then field (width 0xc#32) x i else 0) ∧
      (∀ k, field (width 0xc#32) (iaaDoSelect 0xc#32 zeros expanded.dst mask 20#32).dst k =
        if k < count then field (width 0xc#32) x k else 0) ∧
      IsLeast {b | count * width 0xc#32 ≤ 8 * b} selected.dstSize.toNat ∧
      IsLeast {b | 20 * width 0xc#32 ≤ 8 * b} expanded.dstSize.toNat :=
  select_expand 0xc#32 _ _ (fun _ => 0x55555555#32) 20#32 (by decide) (by decide) (by decide)
    (by decide)

end IaaFilter

end Accfg
