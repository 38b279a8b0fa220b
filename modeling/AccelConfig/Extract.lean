/-
Elements of an interval of indices.

An extraction goes from one parameter to another, whatever the number of inputs is;
so it reads behind the source if the second parameter is there, and never ends if
that is the largest number of 32 bits.  Its size is computed apart, and is wrong if
the parameters are the wrong way round.

* `extractTurn_path` — the states of the loop;
* `field_extractedTo` — what it leaves;
* `extracts_iff` — exactly when an extraction is right.
-/
import AccelConfig.SelectExpand
import AccelConfig.Turns

open CLoop PackedBits Turns

namespace Accfg

namespace IaaFilter

/-! ### The filter -/

/-- The variables of the loop, and the indices that elements were read at. -/
structure Extracting where
  inputIdx : BitVec 32
  dst : ℕ → BitVec 32
  reads : List (BitVec 32)

structure Extracted extends Filtered where
  reads : List (BitVec 32)

variable (flags : FilterFlags)

/-- One turn of the loop of `iaa_do_extract`. -/
def extractTurn (src1 : ℕ → BitVec 32) (src2 : FilterAecs) (numInputs : BitVec 32)
    (s : Extracting) : Turn Extracting Extracting :=
  if s.inputIdx ≤ src2.highFilterParam then
    let element := (getElement flags src1 numInputs s.inputIdx).element
    .next ⟨s.inputIdx + 1#32,
      setElement flags s.dst element (s.inputIdx - src2.lowFilterParam), s.reads ++ [s.inputIdx]⟩
  else .done s

/-- `bit_size`. -/
def extractBitSize (src2 : FilterAecs) (numInputs : BitVec 32) : BitVec 32 :=
  if numInputs - 1#32 < src2.lowFilterParam then 0#32
  else if numInputs - 1#32 < src2.highFilterParam then
    (numInputs - src2.lowFilterParam) * elementWidth flags
  else (src2.highFilterParam - src2.lowFilterParam + 1#32) * elementWidth flags

/-- `iaa_do_extract`, for so many turns of its loop at most. -/
def iaaDoExtract (fuel : ℕ) (dst src1 : ℕ → BitVec 32) (src2 : FilterAecs)
    (numInputs : BitVec 32) : Option Extracted :=
  (run (extractTurn flags src1 src2 numInputs) fuel ⟨src2.lowFilterParam, dst, []⟩).map fun s =>
    ⟨⟨s.dst, byteSize (extractBitSize flags src2 numInputs)⟩, s.reads⟩

/-! ### What it is for -/

variable (src : ℕ → BitVec 32) (aecs : FilterAecs) (n : BitVec 32)

/-- The index of the first element, and the index behind the last one. -/
def first : ℕ := aecs.lowFilterParam.toNat

def stop : ℕ := aecs.highFilterParam.toNat + 1

/-- How many elements of the source are asked for. -/
def asked : ℕ := min (stop aecs) n.toNat - first aecs

/-- The elements that are asked for are packed from the first bit on, in as few
bytes as they need; the other bits of these bytes are zero, and no element was read
that the source does not have. -/
structure ExtractsTo (r : Extracted) : Prop where
  reads : ∀ i ∈ r.reads, i < n
  size : IsLeast {b | asked aecs n * width flags ≤ 8 * b} r.dstSize.toNat
  elements : ∀ k < asked aecs n,
    field (width flags) r.dst k = field (width flags) src (first aecs + k)
  rest : ∀ p, asked aecs n * width flags ≤ p → p < 8 * r.dstSize.toNat → bitAt r.dst p = false

def Extracts : Prop :=
  ∃ fuel r, iaaDoExtract flags fuel (fun _ => 0#32) src aecs n = some r ∧
    ExtractsTo flags src aecs n r

/-- Either nothing is asked for, because the first element is behind the source or
right behind the last one; or the source has all that is, and its own last element,
if that is asked for, has no bits set in a second word. -/
def InSource : Prop :=
  (stop aecs ≤ first aecs ∧ (n.toNat ≤ first aecs ∨ first aecs = stop aecs)) ∨
    (first aecs < stop aecs ∧ stop aecs ≤ n.toNat ∧
      (stop aecs = n.toNat → FitsWord (n.toNat - 1) (field (width flags) src (n.toNat - 1))))

/-! ### The loop -/

/-- The state after so many turns. -/
def extractedTo (k : ℕ) : Extracting where
  inputIdx := aecs.lowFilterParam + BitVec.ofNat 32 k
  dst := forRange (fun i dst => setElement flags dst
    (getElement flags src n (aecs.lowFilterParam + BitVec.ofNat 32 i)).element
    (BitVec.ofNat 32 i)) k fun _ => 0#32
  reads := (List.range k).map fun i => aecs.lowFilterParam + BitVec.ofNat 32 i

variable {flags src aecs n} {k : ℕ}

theorem toNat_lowFilterParam_add (h : first aecs + k < 2 ^ 32) :
    (aecs.lowFilterParam + BitVec.ofNat 32 k).toNat = first aecs + k := by
  rw [first] at h ⊢
  rw [BitVec.toNat_add, toNat_ofNat_of_lt (show k < 2 ^ 32 by omega),
    Nat.mod_eq_of_lt h]

theorem stop_le (aecs : FilterAecs) : stop aecs ≤ 2 ^ 32 := aecs.highFilterParam.isLt

theorem first_lt (aecs : FilterAecs) : first aecs < 2 ^ 32 := aecs.lowFilterParam.isLt

theorem le_highFilterParam_iff {i : BitVec 32} :
    i ≤ aecs.highFilterParam ↔ i.toNat < stop aecs := by
  rw [BitVec.le_def, stop, Nat.lt_succ_iff]

/-- One turn. -/
theorem extractTurn_path (hk : first aecs + k < stop aecs) :
    extractTurn flags src aecs n (extractedTo flags src aecs n k) =
      .next (extractedTo flags src aecs n (k + 1)) := by
  have hidx : (aecs.lowFilterParam + BitVec.ofNat 32 k).toNat = first aecs + k :=
    toNat_lowFilterParam_add (hk.trans_le (stop_le aecs))
  have hle : (extractedTo flags src aecs n k).inputIdx ≤ aecs.highFilterParam := by
    rw [le_highFilterParam_iff]
    exact hidx.trans_lt hk
  have hplace : (extractedTo flags src aecs n k).inputIdx - aecs.lowFilterParam =
      BitVec.ofNat 32 k := by
    rw [extractedTo, BitVec.add_comm, BitVec.add_sub_cancel]
  have hsucc : (extractedTo flags src aecs n k).inputIdx + 1#32 =
      aecs.lowFilterParam + BitVec.ofNat 32 (k + 1) := by
    rw [extractedTo, BitVec.ofNat_add, BitVec.add_assoc]
  rw [extractTurn, if_pos hle, hplace, hsucc]
  simp only [extractedTo, List.range_succ, List.map_append, List.map_singleton, forRange]

/-- The loop ends if the second parameter is not the largest number. -/
theorem ends_extractedTo (h : stop aecs < 2 ^ 32) :
    Ends (extractTurn flags src aecs n) (extractedTo flags src aecs n 0)
      (extractedTo flags src aecs n (stop aecs - first aecs)) := by
  have hfirst := first_lt aecs
  have hlt : first aecs + (stop aecs - first aecs) < 2 ^ 32 := by omega
  have hidx := toNat_lowFilterParam_add hlt
  have hnot : ¬(extractedTo flags src aecs n (stop aecs - first aecs)).inputIdx ≤
      aecs.highFilterParam := by
    rw [le_highFilterParam_iff, extractedTo, hidx]
    omega
  have hpath : ∀ k < stop aecs - first aecs,
      extractTurn flags src aecs n (extractedTo flags src aecs n k) =
        .next (extractedTo flags src aecs n (k + 1)) := fun k hk => extractTurn_path (by omega)
  exact ends_of_path hpath (by rw [extractTurn, if_neg hnot])

/-- It goes on forever if it is. -/
theorem not_ends_extract (h : stop aecs = 2 ^ 32) (s r : Extracting) :
    ¬Ends (extractTurn flags src aecs n) s r := by
  refine not_ends_of_forever (P := fun _ => True) (fun s _ => ?_) trivial r
  have hle : s.inputIdx ≤ aecs.highFilterParam := by
    rw [le_highFilterParam_iff, h]
    exact s.inputIdx.isLt
  rw [extractTurn, if_pos hle]
  exact ⟨_, rfl, trivial⟩

/-- So an extraction is right if the state that the loop ends in is. -/
theorem extracts_iff_of_lt (h : stop aecs < 2 ^ 32) :
    Extracts flags src aecs n ↔
      let s := extractedTo flags src aecs n (stop aecs - first aecs)
      ExtractsTo flags src aecs n ⟨⟨s.dst, byteSize (extractBitSize flags aecs n)⟩, s.reads⟩ := by
  have hstart : extractedTo flags src aecs n 0 = ⟨aecs.lowFilterParam, fun _ => 0#32, []⟩ := by
    rw [extractedTo, BitVec.add_zero]
    rfl
  have hends : Ends (extractTurn flags src aecs n) (extractedTo flags src aecs n 0)
      (extractedTo flags src aecs n (stop aecs - first aecs)) := ends_extractedTo h
  rw [hstart] at hends
  constructor
  · rintro ⟨fuel, r, hrun, hright⟩
    obtain ⟨s, hs, rfl⟩ := Option.map_eq_some_iff.mp hrun
    rwa [hends.unique ⟨fuel, hs⟩]
  · intro hright
    obtain ⟨fuel, hrun⟩ := hends
    exact ⟨fuel, _, by rw [iaaDoExtract, hrun, Option.map_some], hright⟩

theorem not_extracts (h : stop aecs = 2 ^ 32) : ¬Extracts flags src aecs n := by
  rintro ⟨fuel, r, hrun, -⟩
  obtain ⟨s, hs, -⟩ := Option.map_eq_some_iff.mp hrun
  exact not_ends_extract h _ s ⟨fuel, hs⟩

/-! ### What it leaves -/

section Leaves

variable (hlow : low flags = 0) (hhigh : high flags = 0)
  (hsize : n.toNat * width flags < 2 ^ 32)
include hlow hhigh

/-- An element that is read is right unless it is the last one of the source, and has
bits set in a second word. -/
theorem element_eq_field_iff (hsize : n.toNat * width flags < 2 ^ 32) {i : BitVec 32}
    (hi : i.toNat < n.toNat) :
    (getElement flags src n i).element = (field (width flags) src i.toNat).setWidth 32 ↔
      (i.toNat + 1 = n.toNat → FitsWord i.toNat (field (width flags) src i.toNat)) := by
  obtain ⟨hdrop, -⟩ := valid_eq_width flags hlow hhigh
  set es := (List.range n.toNat).map (field (width flags) src) with hes
  have hlen : es.length = n.toNat := by rw [hes, List.length_map, List.length_range]
  have hpacked : Packed es src := fun k hk => by simp only [hes, List.getElem_map,
    List.getElem_range]
  have hiff := element_right_iff hdrop (hlen ▸ hsize) hpacked (hlen ▸ hi)
  rw [validBits_eq hlow hhigh] at hiff
  simpa only [hes, List.getElem_map, List.getElem_range, List.length_map, List.length_range,
    BitVec.ofNat_toNat, BitVec.setWidth_eq] using hiff

/-- An element has no bits beyond its width. -/
theorem element_setWidth {i : BitVec 32} (hwrap : i.toNat * width flags < 2 ^ 32) :
    ((getElement flags src n i).element.setWidth (width flags)).setWidth 32 =
      (getElement flags src n i).element := by
  obtain ⟨hdrop, hvalid⟩ := valid_eq_width flags hlow hhigh
  refine BitVec.eq_of_getLsbD_eq fun j hj => ?_
  rw [BitVec.getLsbD_setWidth, BitVec.getLsbD_setWidth, getLsbD_getElement hdrop hwrap, hvalid]
  by_cases hin : j < width flags
  · simp [hin, hj]
  · simp [hin]

include hsize

/-- The fields that the first turns leave are the elements that they read. -/
theorem field_extractedTo (hstop : stop aecs ≤ n.toNat) (hk : first aecs + k ≤ stop aecs) (i : ℕ) :
    field (width flags) (extractedTo flags src aecs n k).dst i =
      if i < k then
        (getElement flags src n (aecs.lowFilterParam + BitVec.ofNat 32 i)).element.setWidth _
      else 0#_ := by
  refine forRange_induction (P := fun k dst => ∀ i, field (width flags) dst i =
      if i < k then
        (getElement flags src n (aecs.lowFilterParam + BitVec.ofNat 32 i)).element.setWidth _
      else 0#_) k (fun i => by rw [field_zeros, if_neg (Nat.not_lt_zero i)])
    (fun j hj dst hdst i => ?_) i
  obtain ⟨hplace, hfits⟩ := toNat_index hsize (show j ≤ n.toNat by omega)
  have hidx : (aecs.lowFilterParam + BitVec.ofNat 32 j).toNat = first aecs + j :=
    toNat_lowFilterParam_add (by have := stop_le aecs; omega)
  have hwrap : (aecs.lowFilterParam + BitVec.ofNat 32 j).toNat * width flags < 2 ^ 32 := by
    rw [hidx]
    exact (Nat.mul_le_mul_right _ (by omega)).trans_lt hsize
  rw [← element_setWidth hlow hhigh hwrap, field_setElement hlow hhigh hfits, hplace]
  rcases Nat.lt_trichotomy i j with hlt | rfl | hgt
  · rw [Function.update_of_ne hlt.ne, hdst, if_pos hlt, if_pos (Nat.lt_succ_of_lt hlt)]
  · rw [Function.update_self, hdst, if_neg (Nat.lt_irrefl _), if_pos (Nat.lt_succ_self _)]
    exact BitVec.zero_or
  · have hnot : ¬i < j := by omega
    have hnot' : ¬i < j + 1 := by omega
    rw [Function.update_of_ne hgt.ne', hdst, if_neg hnot, if_neg hnot']

/-- They are right unless the last element of the source is among them, and has bits
set in a second word. -/
theorem fields_right_iff (hfirst : first aecs < stop aecs) (hstop : stop aecs ≤ n.toNat) :
    (∀ k < stop aecs - first aecs,
        field (width flags) (extractedTo flags src aecs n (stop aecs - first aecs)).dst k =
          field (width flags) src (first aecs + k)) ↔
      (stop aecs = n.toNat →
        FitsWord (n.toNat - 1) (field (width flags) src (n.toNat - 1))) := by
  have hone : ∀ k < stop aecs - first aecs,
      (field (width flags) (extractedTo flags src aecs n (stop aecs - first aecs)).dst k =
          field (width flags) src (first aecs + k) ↔
        (first aecs + k + 1 = n.toNat →
          FitsWord (first aecs + k) (field (width flags) src (first aecs + k)))) := by
    intro k hk
    have hidx : (aecs.lowFilterParam + BitVec.ofNat 32 k).toNat = first aecs + k :=
      toNat_lowFilterParam_add (by have := stop_le aecs; omega)
    have hwrap : (aecs.lowFilterParam + BitVec.ofNat 32 k).toNat * width flags < 2 ^ 32 := by
      rw [hidx]
      exact (Nat.mul_le_mul_right _ (by omega)).trans_lt hsize
    have hread : (aecs.lowFilterParam + BitVec.ofNat 32 k).toNat < n.toNat := by omega
    have hiff := @element_eq_field_iff flags src n hlow hhigh hsize _ hread
    rw [hidx] at hiff
    rw [field_extractedTo hlow hhigh hsize hstop (by omega), if_pos hk, ← hiff]
    constructor
    · intro heq
      rw [← heq, element_setWidth hlow hhigh hwrap]
    · intro heq
      rw [heq, BitVec.setWidth_setWidth_of_le _ (width_le flags), BitVec.setWidth_eq]
  constructor
  · intro hall hlast
    have hlt : stop aecs - first aecs - 1 < stop aecs - first aecs := by omega
    have hplace : first aecs + (stop aecs - first aecs - 1) = n.toNat - 1 := by omega
    have hfits := (hone _ hlt).mp (hall _ hlt)
    rw [hplace] at hfits
    exact hfits (by omega)
  · intro hlast k hk
    refine (hone k hk).mpr fun hend => ?_
    have hplace : first aecs + k = n.toNat - 1 := by omega
    rw [hplace]
    exact hlast (by omega)

/-- Behind them there are zeros. -/
theorem bitAt_extractedTo (hfirst : first aecs < stop aecs) (hstop : stop aecs ≤ n.toNat) {p : ℕ}
    (hp : (stop aecs - first aecs) * width flags ≤ p) :
    bitAt (extractedTo flags src aecs n (stop aecs - first aecs)).dst p = false := by
  have hpos := width_pos flags
  have hplace : p / width flags * width flags + p % width flags = p := Nat.div_add_mod' p _
  have hbehind : ¬p / width flags < stop aecs - first aecs :=
    Nat.not_lt.mpr ((Nat.le_div_iff_mul_le hpos).mpr hp)
  rw [← hplace, ← getLsbD_field (Nat.mod_lt p hpos),
    field_extractedTo hlow hhigh hsize hstop (by omega), if_neg hbehind]
  exact BitVec.getLsbD_zero

end Leaves

/-! ### The size -/

section Size

variable (hpos : 0 < n.toNat)
include hpos

theorem sub_one_lt_iff (x : BitVec 32) : n - 1#32 < x ↔ n.toNat ≤ x.toNat := by
  have hone : (n - 1#32).toNat = n.toNat - 1 :=
    BitVec.toNat_sub_of_le (BitVec.le_def.mpr (show 1 ≤ n.toNat by omega))
  rw [BitVec.lt_def, hone]
  omega

/-- Nothing is asked for, and the source ends before the first parameter. -/
theorem extractBitSize_of_le (h : n.toNat ≤ first aecs) : extractBitSize flags aecs n = 0#32 := by
  rw [extractBitSize, if_pos ((sub_one_lt_iff hpos _).mpr h)]

/-- The parameters are as the last branch of the code takes them. -/
theorem extractBitSize_of_lt (h : first aecs < n.toNat) (h' : stop aecs ≤ n.toNat) :
    extractBitSize flags aecs n =
      (aecs.highFilterParam - aecs.lowFilterParam + 1#32) * elementWidth flags := by
  have hlow : ¬n.toNat ≤ aecs.lowFilterParam.toNat := Nat.not_le.mpr h
  have hhigh : ¬n.toNat ≤ aecs.highFilterParam.toNat := Nat.not_le.mpr h'
  rw [extractBitSize, if_neg (mt (sub_one_lt_iff hpos _).mp hlow),
    if_neg (mt (sub_one_lt_iff hpos _).mp hhigh)]

end Size

/-- The number of elements as the code computes it, if the parameters are the right
way round. -/
theorem sub_add_one_of_le (h : first aecs ≤ stop aecs) :
    aecs.highFilterParam - aecs.lowFilterParam + 1#32 =
      BitVec.ofNat 32 (stop aecs - first aecs) := by
  have hlt := stop_le aecs
  apply BitVec.eq_of_toNat_eq
  simp only [first, stop, BitVec.toNat_add, BitVec.toNat_sub, BitVec.toNat_ofNat] at h hlt ⊢
  omega

/-- And if they are the wrong way round. -/
theorem sub_add_one_of_ge (h : stop aecs ≤ first aecs) :
    aecs.highFilterParam - aecs.lowFilterParam + 1#32 =
      -BitVec.ofNat 32 (first aecs - stop aecs) := by
  have hlt := first_lt aecs
  apply BitVec.eq_of_toNat_eq
  simp only [first, stop, BitVec.toNat_add, BitVec.toNat_sub, BitVec.toNat_neg,
    BitVec.toNat_ofNat] at h hlt ⊢
  omega

theorem byteSize_eq_zero_iff (bitSize : BitVec 32) :
    (byteSize bitSize).toNat = 0 ↔ bitSize = 0#32 := by
  obtain ⟨hmem, hleast⟩ := isLeast_byteSize bitSize
  rw [← BitVec.toNat_inj]
  constructor
  · intro hzero
    rw [Set.mem_ofPred_eq, hzero] at hmem
    exact Nat.le_zero.mp hmem
  · intro hzero
    exact Nat.le_zero.mp (hleast (show bitSize.toNat ≤ 8 * 0 by rw [hzero]; rfl))

/-- With the parameters the wrong way round the size is right only if they are next to
each other, or the source ends before the first one. -/
theorem extractBitSize_eq_zero_iff (hpos : 0 < n.toNat) (hsize : n.toNat * width flags < 2 ^ 32)
    (h : stop aecs ≤ first aecs) :
    extractBitSize flags aecs n = 0#32 ↔ n.toNat ≤ first aecs ∨ first aecs = stop aecs := by
  by_cases hbehind : n.toNat ≤ first aecs
  · rw [extractBitSize_of_le hpos hbehind]
    exact iff_of_true rfl (.inl hbehind)
  · obtain ⟨hidx, hwrap⟩ := toNat_index hsize (show first aecs - stop aecs ≤ n.toNat by omega)
    have hbits := toNat_begin hwrap
    rw [extractBitSize_of_lt hpos (by omega) (by omega), sub_add_one_of_ge h, BitVec.neg_mul,
      BitVec.neg_eq_zero_iff, ← BitVec.toNat_inj, hbits, hidx]
    have hw := width_pos flags
    simp only [BitVec.toNat_ofNat, Nat.zero_mod, Nat.mul_eq_zero]
    omega

/-! ### When an extraction is right -/

/-- A size of nothing. -/
theorem isLeast_zero_iff {b c : ℕ} (hc : c = 0) : IsLeast {b | c ≤ 8 * b} b ↔ b = 0 := by
  subst hc
  refine ⟨fun h => Nat.le_zero.mp (h.2 (Nat.zero_le _)), ?_⟩
  rintro rfl
  exact ⟨Nat.zero_le _, fun _ _ => Nat.zero_le _⟩

/-- With no elements asked for. -/
theorem extracts_iff_of_ge (hpos : 0 < n.toNat) (hsize : n.toNat * width flags < 2 ^ 32)
    (h : stop aecs ≤ first aecs) :
    Extracts flags src aecs n ↔ n.toNat ≤ first aecs ∨ first aecs = stop aecs := by
  have hfirst := first_lt aecs
  have hasked : asked aecs n = 0 := by
    rw [asked]
    omega
  have hcount : asked aecs n * width flags = 0 := by rw [hasked, Nat.zero_mul]
  rw [extracts_iff_of_lt (by omega), Nat.sub_eq_zero_of_le h,
    ← extractBitSize_eq_zero_iff hpos hsize h, ← byteSize_eq_zero_iff, ← isLeast_zero_iff hcount]
  constructor
  · exact fun hright => hright.size
  · intro hleast
    refine ⟨fun i hi => absurd hi List.not_mem_nil, hleast, fun k hk => ?_, fun p _ _ => ?_⟩
    · rw [hasked] at hk
      exact absurd hk (Nat.not_lt_zero k)
    · exact bitAt_zero p

/-- With some, that the source has. -/
theorem extracts_iff_of_stop_le (hlow : low flags = 0) (hhigh : high flags = 0)
    (hpos : 0 < n.toNat) (hsize : n.toNat * width flags < 2 ^ 32)
    (hfirst : first aecs < stop aecs) (hstop : stop aecs ≤ n.toNat) :
    Extracts flags src aecs n ↔
      (stop aecs = n.toNat →
        FitsWord (n.toNat - 1) (field (width flags) src (n.toNat - 1))) := by
  have hn := n.isLt
  have hasked : asked aecs n = stop aecs - first aecs := by rw [asked, Nat.min_eq_left hstop]
  rw [extracts_iff_of_lt (by omega), ← fields_right_iff hlow hhigh hsize hfirst hstop, ← hasked]
  constructor
  · exact fun hright => hright.elements
  · intro helements
    refine ⟨fun i hi => ?_, ?_, helements, fun p hp _ => ?_⟩
    · obtain ⟨k, hk, rfl⟩ := List.mem_map.mp hi
      have hlt := List.mem_range.mp hk
      rw [BitVec.lt_def, toNat_lowFilterParam_add (by omega)]
      omega
    · rw [extractBitSize_of_lt hpos (by omega) hstop, sub_add_one_of_le hfirst.le, ← hasked]
      exact isLeast_byteSize_mul hsize (by omega)
    · rw [hasked] at hp ⊢
      exact bitAt_extractedTo hlow hhigh hsize hfirst hstop hp

/-- With some that the source does not have. -/
theorem not_extracts_of_lt_stop (hfirst : first aecs < stop aecs) (hstop : n.toNat < stop aecs) :
    ¬Extracts flags src aecs n := by
  have hle := stop_le aecs
  rcases Nat.lt_or_ge (stop aecs) (2 ^ 32) with hlt | hge
  · rw [extracts_iff_of_lt hlt]
    intro hright
    -- the element at the second parameter was read
    have hread := hright.reads (aecs.lowFilterParam + BitVec.ofNat 32 (stop aecs - first aecs - 1))
      (List.mem_map_of_mem (List.mem_range.mpr (by omega)))
    rw [BitVec.lt_def, toNat_lowFilterParam_add (by omega)] at hread
    omega
  · exact not_extracts (by omega)

/-- An extraction ends, and is right, exactly if the source has what is asked for. -/
theorem extracts_iff (flags : FilterFlags) (src : ℕ → BitVec 32) (aecs : FilterAecs)
    (numInputs : BitVec 32) (hlow : low flags = 0) (hhigh : high flags = 0)
    (hpos : 0 < numInputs.toNat) (hsize : numInputs.toNat * width flags < 2 ^ 32) :
    Extracts flags src aecs numInputs ↔ InSource flags src aecs numInputs := by
  rw [InSource]
  rcases Nat.lt_or_ge (first aecs) (stop aecs) with hfirst | hge
  · rcases Nat.lt_or_ge numInputs.toNat (stop aecs) with hout | hstop
    · refine iff_of_false (not_extracts_of_lt_stop hfirst hout) ?_
      rintro (⟨hle, -⟩ | ⟨-, hle, -⟩)
      · omega
      · omega
    · rw [extracts_iff_of_stop_le hlow hhigh hpos hsize hfirst hstop]
      refine ⟨fun hlast => .inr ⟨hfirst, hstop, hlast⟩, ?_⟩
      rintro (⟨hle, -⟩ | ⟨-, -, hlast⟩)
      · omega
      · exact hlast
  · rw [extracts_iff_of_ge hpos hsize hge]
    refine ⟨fun h => .inl ⟨hge, h⟩, ?_⟩
    rintro (⟨-, h⟩ | ⟨hlt, -⟩)
    · exact h
    · omega

/-- The third to the sixth of seven elements of five bits. -/
theorem extracts_iff_fives :
    Extracts 0x10#32 (fun _ => 0x76543210#32) ⟨2#32, 5#32⟩ 7#32 ↔
      InSource 0x10#32 (fun _ => 0x76543210#32) ⟨2#32, 5#32⟩ 7#32 :=
  extracts_iff 0x10#32 _ _ _ (by decide) (by decide) (by decide) (by decide)

/-- The parameters of the test, on a source of 64 bytes: it has no elements from
the 65th on. -/
theorem not_extracts_behind :
    ¬Extracts 0x1c#32 (fun _ => 0x98765432#32) ⟨10#32, 100#32⟩ 64#32 :=
  not_extracts_of_lt_stop (by decide) (by decide)

end IaaFilter

end Accfg
