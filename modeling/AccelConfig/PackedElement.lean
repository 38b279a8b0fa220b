/-
Elements that are read, and written.

An element is read from the word that it begins in, and from the next one; but the
last element only from the one that it begins in.  So all but the last are read
right, though most of them from a word too many, which may lie behind the source;
and what the last has in a second word is lost.

* `element_right_iff`, `words_right_iff` — when an element is right, and the
  words that are read;
* `field_writeAll` — what is written is packed;
* `packed_access_iff` — both, and when what is written is read again.
-/
import AccelConfig.IaaFilter

open CLoop PackedBits

namespace Accfg

namespace IaaFilter

/-! ### Packed elements -/

variable {flags : FilterFlags} {src : ℕ → BitVec 32} {i n : ℕ}

/-- The elements lie in the source one behind the other. -/
def Packed (es : List (BitVec (width flags))) (src : ℕ → BitVec 32) : Prop :=
  ∀ i (h : i < es.length), field (width flags) src i = es[i]

/-- The valid bits of an element. -/
def validBits (e : BitVec (width flags)) : BitVec 32 :=
  (e.extractLsb' (low flags) (valid flags)).setWidth 32

variable (flags) in
/-- The bit of the first word that an element begins at. -/
def startBit (i : ℕ) : ℕ := i * width flags % 32

variable (flags) in
/-- Some bit of an element lies in a word. -/
def Holds (i r : ℕ) : Prop := ∃ j < width flags, (i * width flags + j) / 32 = r

/-- None of the valid bits of an element that lie behind the word it begins in is
set. -/
def FitsWord (i : ℕ) (e : BitVec (width flags)) : Prop :=
  ∀ j < valid flags, 32 ≤ startBit flags i + low flags + j → e.getLsbD (low flags + j) = false

theorem getLsbD_validBits (e : BitVec (width flags)) (j : ℕ) :
    (validBits e).getLsbD j = (decide (j < valid flags) && e.getLsbD (low flags + j)) := by
  have hle := valid_le flags
  rw [validBits, BitVec.getLsbD_setWidth, BitVec.getLsbD_extractLsb']
  by_cases hj : j < valid flags
  · have hj' : j < 32 := by omega
    simp [hj, hj']
  · simp [hj]

/-- An index, as the loops have it. -/
theorem toNat_index (hsize : n * width flags < 2 ^ 32) (hi : i ≤ n) :
    (BitVec.ofNat 32 i).toNat = i ∧ (BitVec.ofNat 32 i).toNat * width flags < 2 ^ 32 := by
  have hpos := width_pos flags
  have hn : n ≤ n * width flags := Nat.le_mul_of_pos_right n hpos
  have hmul : i * width flags ≤ n * width flags := Nat.mul_le_mul_right _ hi
  have hidx : (BitVec.ofNat 32 i).toNat = i := by
    rw [toNat_ofNat_of_lt (by omega)]
  exact ⟨hidx, by rw [hidx]; omega⟩

/-- An element counts as the last one, or not. -/
theorem lt_sub_one_iff (hsize : n * width flags < 2 ^ 32) (hi : i < n) :
    BitVec.ofNat 32 i < BitVec.ofNat 32 n - 1#32 ↔ i + 1 < n := by
  obtain ⟨hidx, -⟩ := toNat_index hsize hi.le
  obtain ⟨hnum, -⟩ := toNat_index hsize le_rfl
  have hone : (BitVec.ofNat 32 n - 1#32).toNat = n - 1 := by
    rw [BitVec.toNat_sub_of_le (BitVec.le_def.mpr (by rw [hnum, BitVec.toNat_ofNat]; omega)), hnum]
    rfl
  rw [BitVec.lt_def, hidx, hone]
  omega

/-! ### One element -/

section OneElement

variable {es : List (BitVec (width flags))}

/-- The element that is read, for each index of a packed source. -/
theorem getLsbD_packed (hdrop : DropsFit flags) (hsize : es.length * width flags < 2 ^ 32)
    (hpacked : Packed es src) (hi : i < es.length) (j : ℕ) :
    (getElement flags src (BitVec.ofNat 32 es.length) (BitVec.ofNat 32 i)).element.getLsbD j =
      (decide (j < valid flags) &&
        (decide (i + 1 < es.length) || decide (startBit flags i + low flags + j < 32)) &&
        es[i].getLsbD (low flags + j)) := by
  obtain ⟨hidx, hwrap⟩ := toNat_index hsize hi.le
  rw [getLsbD_getElement hdrop hwrap, hidx, decide_eq_decide.mpr (lt_sub_one_iff hsize hi),
    startBit]
  by_cases hj : j < valid flags
  · have hin : low flags + j < width flags := by
      rw [DropsFit] at hdrop
      rw [valid] at hj
      omega
    rw [← hpacked i hi, getLsbD_field hin, Nat.add_assoc (i * width flags)]
  · simp [hj]

/-- An element is read right unless it is the last one, and has bits set in a
second word. -/
theorem element_right_iff (hdrop : DropsFit flags) (hsize : es.length * width flags < 2 ^ 32)
    (hpacked : Packed es src) (hi : i < es.length) :
    (getElement flags src (BitVec.ofNat 32 es.length) (BitVec.ofNat 32 i)).element =
        validBits es[i] ↔
      (i + 1 = es.length → FitsWord i es[i]) := by
  have hread := getLsbD_packed hdrop hsize hpacked hi
  constructor
  · intro heq hlast j hj hbeyond
    have hbit := hread j
    rw [heq, getLsbD_validBits] at hbit
    have hnot : ¬i + 1 < es.length := by omega
    have hnot' : ¬startBit flags i + low flags + j < 32 := by omega
    simpa [hj, hnot, hnot'] using hbit
  · intro hlast
    refine BitVec.eq_of_getLsbD_eq fun j _ => ?_
    rw [hread, getLsbD_validBits]
    by_cases hj : j < valid flags
    · by_cases hbefore : i + 1 < es.length
      · simp [hbefore]
      · by_cases hword : startBit flags i + low flags + j < 32
        · simp [hword]
        · rw [hlast (by omega) j hj (by omega)]
          simp
    · simp [hj]

/-- The words that are read hold bits of the element exactly if it is the last one
or lies over two words. -/
theorem words_right_iff (hsize : n * width flags < 2 ^ 32) (hi : i < n) :
    (∀ r ∈ (getElement flags src (BitVec.ofNat 32 n) (BitVec.ofNat 32 i)).words, Holds flags i r) ↔
      (i + 1 < n → 32 < startBit flags i + width flags) := by
  obtain ⟨hidx, hwrap⟩ := toNat_index hsize hi.le
  have hpos := width_pos flags
  have hle := width_le flags
  have hrow : Holds flags i (i * width flags / 32) := ⟨0, hpos, rfl⟩
  have hnext : Holds flags i (i * width flags / 32 + 1) ↔ 32 < startBit flags i + width flags := by
    rw [startBit]
    constructor
    · rintro ⟨j, hj, hword⟩
      omega
    · intro h
      exact ⟨width flags - 1, by omega, by omega⟩
  rw [getElement]
  dsimp only
  rw [toNat_row hwrap, hidx]
  by_cases hbefore : i + 1 < n
  · rw [if_pos ((lt_sub_one_iff hsize hi).mpr hbefore)]
    simp [hrow, hnext, hbefore]
  · rw [if_neg (mt (lt_sub_one_iff hsize hi).mp hbefore)]
    simp [hrow, hbefore]

end OneElement

/-! ### Writing and reading -/

/-- The elements written in order into a destination of zeros. -/
def writeAll (es : List (BitVec (width flags))) : ℕ → BitVec 32 :=
  forRange (fun i dst => setElement flags dst ((es.getD i 0).setWidth 32) (BitVec.ofNat 32 i))
    es.length fun _ => 0#32

/-- An element has no bits beyond its width. -/
theorem getLsbD_setWidth_of_ge (e : BitVec (width flags)) (j : ℕ) (hj : width flags ≤ j) :
    (e.setWidth 32).getLsbD j = false := by
  rw [BitVec.getLsbD_setWidth, BitVec.getLsbD_of_ge e j hj, Bool.and_false]

/-- What an element that is written adds to the fields. -/
theorem field_setElement (hlow : low flags = 0) (hhigh : high flags = 0) {i : BitVec 32}
    (hwrap : i.toNat * width flags < 2 ^ 32) (dst : ℕ → BitVec 32) (e : BitVec (width flags)) :
    field (width flags) (setElement flags dst (e.setWidth 32) i) =
      Function.update (field (width flags) dst) i.toNat
        (field (width flags) dst i.toNat ||| e) := by
  obtain ⟨hdrop, hvalid⟩ := valid_eq_width flags hlow hhigh
  rw [← hvalid] at hwrap
  funext i'
  rw [setElement_eq hdrop hwrap, hvalid, field_put (by omega) (getLsbD_setWidth_of_ge e),
    BitVec.setWidth_setWidth_of_le _ (width_le flags), BitVec.setWidth_eq]
  by_cases hi : i' = i.toNat
  · rw [if_pos hi, hi, Function.update_self]
  · rw [if_neg hi, Function.update_of_ne hi]

section WriteAll

variable {es : List (BitVec (width flags))}

theorem field_writeAll (hlow : low flags = 0) (hhigh : high flags = 0)
    (hsize : es.length * width flags < 2 ^ 32) (i : ℕ) :
    field (width flags) (writeAll es) i = es.getD i 0 := by
  have hwritten : ∀ i', field (width flags) (writeAll es) i' =
      if i' < es.length then es.getD i' 0 else 0 := by
    refine forRange_induction
      (P := fun n dst => ∀ i', field (width flags) dst i' = if i' < n then es.getD i' 0 else 0)
      es.length (fun i' => field_zero _ _) fun n hn dst hdst i' => ?_
    obtain ⟨hidx, hwrap⟩ := toNat_index hsize hn.le
    rw [field_setElement hlow hhigh hwrap, hidx]
    rcases Nat.lt_trichotomy i' n with hlt | heq | hgt
    · rw [Function.update_of_ne hlt.ne, hdst, if_pos hlt, if_pos (Nat.lt_succ_of_lt hlt)]
    · subst heq
      rw [Function.update_self, hdst, if_neg (Nat.lt_irrefl _), if_pos (Nat.lt_succ_self _)]
      exact BitVec.zero_or
    · have hnot : ¬i' < n := by omega
      have hnot' : ¬i' < n + 1 := by omega
      rw [Function.update_of_ne hgt.ne', hdst, if_neg hnot, if_neg hnot']
  rw [hwritten]
  split
  · rfl
  · next hge =>
    rw [List.getD_eq_getElem?_getD, List.getElem?_eq_none (Nat.not_lt.mp hge)]
    rfl

theorem packed_writeAll (hlow : low flags = 0) (hhigh : high flags = 0)
    (hsize : es.length * width flags < 2 ^ 32) : Packed es (writeAll es) := by
  intro i hi
  rw [field_writeAll hlow hhigh hsize, List.getD_eq_getElem?_getD, List.getElem?_eq_getElem hi]
  rfl

end WriteAll

/-- What is written can be read again. -/
def RoundTrips (es : List (BitVec (width flags))) : Prop :=
  ∀ i (h : i < es.length),
    (getElement flags (writeAll es) (BitVec.ofNat 32 es.length) (BitVec.ofNat 32 i)).element =
      es[i].setWidth 32

/-- Without dropped bits an element is its valid bits. -/
theorem validBits_eq (hlow : low flags = 0) (hhigh : high flags = 0) (e : BitVec (width flags)) :
    validBits e = e.setWidth 32 := by
  obtain ⟨-, hvalid⟩ := valid_eq_width flags hlow hhigh
  refine BitVec.eq_of_getLsbD_eq fun j hj => ?_
  rw [getLsbD_validBits, BitVec.getLsbD_setWidth, hlow, hvalid, Nat.zero_add]
  by_cases hin : j < width flags
  · simp [hj, hin]
  · rw [BitVec.getLsbD_of_ge e j (Nat.not_lt.mp hin)]
    simp

/-- It can unless the last element has bits set in a second word. -/
theorem roundTrips_iff {es : List (BitVec (width flags))} (hlow : low flags = 0)
    (hhigh : high flags = 0) (hsize : es.length * width flags < 2 ^ 32) :
    RoundTrips es ↔ ∀ i (h : i < es.length), i + 1 = es.length → FitsWord i es[i] := by
  obtain ⟨hdrop, -⟩ := valid_eq_width flags hlow hhigh
  have hpacked := packed_writeAll hlow hhigh hsize
  constructor
  · intro htrip i hi
    refine (element_right_iff hdrop hsize hpacked hi).mp ?_
    rw [htrip i hi, validBits_eq hlow hhigh]
  · intro hlast i hi
    rw [(element_right_iff hdrop hsize hpacked hi).mpr (hlast i hi), validBits_eq hlow hhigh]

/-- An element is read as it should be: its valid bits, from words that hold some
of its bits. -/
def Accessed (es : List (BitVec (width flags))) (src : ℕ → BitVec 32) (i : ℕ)
    (e : BitVec (width flags)) : Prop :=
  let fetched := getElement flags src (BitVec.ofNat 32 es.length) (BitVec.ofNat 32 i)
  fetched.element = validBits e ∧ ∀ r ∈ fetched.words, Holds flags i r

/-- The last element is read as it should be if it has no bits set in a second
word, and any other one if it lies over two words; and what is written can be
read again if the former holds. -/
theorem packed_access_iff (flags : FilterFlags) (es : List (BitVec (width flags)))
    (hdrop : DropsFit flags) (hsize : es.length * width flags < 2 ^ 32) :
    (∀ src, Packed es src → ∀ i (h : i < es.length),
      (Accessed es src i es[i] ↔
        (i + 1 = es.length → FitsWord i es[i]) ∧
          (i + 1 < es.length → 32 < startBit flags i + width flags))) ∧
      (low flags = 0 → high flags = 0 →
        (RoundTrips es ↔ ∀ i (h : i < es.length), i + 1 = es.length → FitsWord i es[i])) := by
  refine ⟨fun src hpacked i hi => ?_, fun hlow hhigh => roundTrips_iff hlow hhigh hsize⟩
  rw [Accessed, element_right_iff hdrop hsize hpacked hi, words_right_iff hsize hi]

/-- Elements of five bits, all of them set. -/
def fives (n : ℕ) : List (BitVec (width 0x10#32)) := List.replicate n (BitVec.allOnes _)

theorem packed_access_iff_fives :
    (∀ src, Packed (fives 7) src → ∀ i (h : i < (fives 7).length),
      (Accessed (fives 7) src i (fives 7)[i] ↔
        (i + 1 = (fives 7).length → FitsWord i (fives 7)[i]) ∧
          (i + 1 < (fives 7).length → 32 < startBit 0x10#32 i + width 0x10#32))) ∧
      (low 0x10#32 = 0 → high 0x10#32 = 0 →
        (RoundTrips (fives 7) ↔
          ∀ i (h : i < (fives 7).length), i + 1 = (fives 7).length → FitsWord i (fives 7)[i])) :=
  packed_access_iff 0x10#32 (fives 7) (show low _ + high _ < width _ by decide) (by decide)

/-- The last of seven elements of five bits loses three of them; and for the first
of two a word is read in which neither lies. -/
theorem not_packed_access :
    ¬RoundTrips (fives 7) ∧
      ¬∀ r ∈ (getElement 0x10#32 (writeAll (fives 2)) 2#32 0#32).words, Holds 0x10#32 0 r := by
  constructor
  · rw [roundTrips_iff (by decide) (by decide) (by decide)]
    intro h
    have hbit := h 6 (by decide) (by decide) 2 (by decide) (by decide)
    exact absurd hbit (by decide)
  · rw [words_right_iff (n := 2) (by decide) (by decide)]
    decide

end IaaFilter

end Accfg
