/-
Bitmaps: the search for a bit.

The first bit that is found is counted from 1 where its place, counted from 0, is
meant; so a search is right only if it finds nothing.

* `ends_found`, `ends_none` — what the search returns;
* `finds_iff` — when that is right;
* `tellsFull_iff` — when a map is rightly called full;
* `bitmap_iff` — both, with the tests and the ranges of bits.
-/
import AccelConfig.Bitmap
import AccelConfig.CLoop

open CLoop PackedBits Turns

namespace Accfg

namespace Bitmap

/-! ### The functions -/

/-- `__builtin_ffsl`: the place of the lowest bit, counted from 1, or 0. -/
def ffsl (x : BitVec 64) : ℕ := ((List.range 64).find? fun i => x.getLsbD i).elim 0 (· + 1)

/-- `round_down`. -/
def roundDown (x y : BitVec 64) : BitVec 64 := x &&& ~~~(y - 1#64)

/-- The variables of the loop of `_find_next_bit`. -/
structure Search where
  tmp : BitVec 64
  start : BitVec 64

/-- `while (!tmp)`, and the `return` behind it. -/
def searchTurn (addr : ℕ → BitVec 64) (nbits invert : BitVec 64) (s : Search) :
    Turn (BitVec 64) Search :=
  if s.tmp = 0#64 then
    let start := s.start + 64#64
    if nbits ≤ start then .done nbits
    else .next ⟨addr (start / 64#64).toNat ^^^ invert, start⟩
  else
    let found := s.start + BitVec.ofNat 64 (ffsl s.tmp)
    .done (if found < nbits then found else nbits)

/-- `_find_next_bit`, for so many turns of its loop at most. -/
def findNext (fuel : ℕ) (addr : ℕ → BitVec 64) (nbits start invert : BitVec 64) :
    Option (BitVec 64) :=
  if nbits = 0#64 ∨ nbits ≤ start then some nbits
  else
    run (searchTurn addr nbits invert) fuel
      ⟨(addr (start / 64#64).toNat ^^^ invert) &&& BITMAP_FIRST_WORD_MASK start,
        roundDown start 64#64⟩

/-- `find_next_bit`. -/
def findNextBit (fuel : ℕ) (addr : ℕ → BitVec 64) (size offset : BitVec 64) : Option (BitVec 64) :=
  findNext fuel addr size offset 0#64

/-- `find_next_zero_bit`. -/
def findNextZeroBit (fuel : ℕ) (addr : ℕ → BitVec 64) (size offset : BitVec 64) :
    Option (BitVec 64) :=
  findNext fuel addr size offset (BitVec.allOnes 64)

/-- `bitmap_full`; the number of bits is an argument, so `small_const_nbits` is false. -/
def bitmapFull (fuel : ℕ) (src : ℕ → BitVec 64) (nbits : BitVec 32) : Option Bool :=
  (findNextZeroBit fuel src (nbits.setWidth 64) 0#64).map fun r => decide (r = nbits.setWidth 64)

/-! ### What they are for -/

/-- The smallest index from an offset on where the bit is the one that is searched for, or
the size if there is none below it. -/
def IsNext (b : Bool) (map : ℕ → BitVec 64) (offset size r : ℕ) : Prop :=
  (offset ≤ r ∧ r < size ∧ bitAt map r = b ∧ ∀ i, offset ≤ i → i < r → bitAt map i ≠ b) ∨
    (r = size ∧ ∀ i, offset ≤ i → i < size → bitAt map i ≠ b)

/-- A search for a bit returns what it should. -/
def Finds (find : ℕ → (ℕ → BitVec 64) → BitVec 64 → BitVec 64 → Option (BitVec 64)) (b : Bool)
    (map : ℕ → BitVec 64) (size offset : BitVec 64) : Prop :=
  ∃ fuel r, find fuel map size offset = some r ∧
    IsNext b map offset.toNat size.toNat r.toNat

/-- There is nothing to be found; and if the size is so large that the last word is the last
one that there can be, the search is stopped in that word, before its last bit. -/
def Absent (b : Bool) (map : ℕ → BitVec 64) (size offset : BitVec 64) : Prop :=
  size ≤ offset ∨
    (∀ i, offset.toNat ≤ i → i < size.toNat → bitAt map i ≠ b) ∧
      (size.toNat ≤ 2 ^ 64 - 64 ∨ ∃ i, size.toNat ≤ i ∧ i < 2 ^ 64 - 1 ∧ bitAt map i = b)

/-- A map is called full if all its bits are set. -/
def TellsFull (map : ℕ → BitVec 64) (nbits : BitVec 32) : Prop :=
  ∃ fuel r, bitmapFull fuel map nbits = some r ∧
    (r = true ↔ ∀ i < nbits.toNat, bitAt map i = true)

/-- A range of bits has changed, and nothing else. -/
def Changes (f : ℕ → (ℕ → BitVec 64) → BitVec 32 → ℤ → Option (ℕ → BitVec 64)) (b : Bool)
    (map : ℕ → BitVec 64) (start : BitVec 32) (len : ℕ) : Prop :=
  ∃ fuel map', f fuel map start len = some map' ∧
    ∀ i, bitAt map' i = if start.toNat ≤ i ∧ i < start.toNat + len then b else bitAt map i

/-! ### The state of a search -/

theorem ffsl_eq {x : BitVec 64} {i : ℕ} (hi : i < 64) (hx : x.getLsbD i = true)
    (hlow : ∀ j < i, x.getLsbD j = false) : ffsl x = i + 1 := by
  have hfind : (List.range 64).find? (fun i => x.getLsbD i) = some i := by
    rw [List.find?_range_eq_some]
    exact ⟨hx, List.mem_range.mpr hi, fun j hj => by rw [hlow j hj]; rfl⟩
  rw [ffsl, hfind]
  rfl

variable {addr : ℕ → BitVec 64} {nbits offset invert : BitVec 64} {k i : ℕ}

/-- The bits that are searched for, as bits that are set. -/
def hits (addr : ℕ → BitVec 64) (invert : BitVec 64) : ℕ → BitVec 64 := fun r => addr r ^^^ invert

/-- The state after so many words. -/
def searching (addr : ℕ → BitVec 64) (invert offset : BitVec 64) (k : ℕ) : Search where
  tmp :=
    if k = 0 then hits addr invert (offset.toNat / 64) &&& BITMAP_FIRST_WORD_MASK offset
    else hits addr invert (offset.toNat / 64 + k)
  start := BitVec.ofNat 64 (64 * (offset.toNat / 64 + k))

theorem getLsbD_tmp {j : ℕ} (hj : j < 64) :
    (searching addr invert offset k).tmp.getLsbD j =
      (decide (offset.toNat ≤ 64 * (offset.toNat / 64 + k) + j) &&
        bitAt (hits addr invert) (64 * (offset.toNat / 64 + k) + j)) := by
  rw [searching, bitAt_mul_add hj]
  dsimp only
  split
  · next h =>
    subst h
    have hplace : offset.toNat % 64 ≤ j ↔ offset.toNat ≤ 64 * (offset.toNat / 64 + 0) + j := by
      omega
    rw [BitVec.getLsbD_and, getLsbD_firstWordMask (by omega) offset hj, Bool.and_comm,
      Nat.add_zero, decide_eq_decide.mpr hplace]
    rfl
  · next h =>
    rw [decide_eq_true (by omega), Bool.true_and]

/-- No bit is found in the next words. -/
def NoneIn (addr : ℕ → BitVec 64) (invert offset : BitVec 64) (stop : ℕ) : Prop :=
  ∀ i, offset.toNat ≤ i → i < stop → bitAt (hits addr invert) i = false

/-- This is the first bit that is found. -/
structure First (addr : ℕ → BitVec 64) (invert offset : BitVec 64) (i : ℕ) : Prop where
  le : offset.toNat ≤ i
  hit : bitAt (hits addr invert) i = true
  none : NoneIn addr invert offset i

theorem tmp_eq_zero (h : NoneIn addr invert offset (64 * (offset.toNat / 64 + k + 1))) :
    (searching addr invert offset k).tmp = 0#64 := by
  refine BitVec.eq_of_getLsbD_eq fun j hj => ?_
  rw [getLsbD_tmp hj, BitVec.getLsbD_zero]
  by_cases hle : offset.toNat ≤ 64 * (offset.toNat / 64 + k) + j
  · rw [h _ hle (by omega), Bool.and_false]
  · rw [decide_eq_false hle, Bool.false_and]

theorem First.ffsl_tmp (h : First addr invert offset i) (hk : i / 64 = offset.toNat / 64 + k) :
    (searching addr invert offset k).tmp ≠ 0#64 ∧
      ffsl (searching addr invert offset k).tmp = i % 64 + 1 := by
  have hmod : i % 64 < 64 := Nat.mod_lt i (by omega)
  have hi : 64 * (offset.toNat / 64 + k) + i % 64 = i := by omega
  have hbit : (searching addr invert offset k).tmp.getLsbD (i % 64) = true := by
    rw [getLsbD_tmp hmod, hi, decide_eq_true h.le, h.hit]
    rfl
  constructor
  · intro hzero
    rw [hzero, BitVec.getLsbD_zero] at hbit
    cases hbit
  · refine ffsl_eq hmod hbit fun j hj => ?_
    rw [getLsbD_tmp (by omega)]
    by_cases hle : offset.toNat ≤ 64 * (offset.toNat / 64 + k) + j
    · rw [h.none _ hle (by omega), Bool.and_false]
    · rw [decide_eq_false hle, Bool.false_and]

/-! ### One turn -/

theorem toNat_start (h : 64 * (offset.toNat / 64 + k) < 2 ^ 64) :
    (searching addr invert offset k).start.toNat = 64 * (offset.toNat / 64 + k) := by
  rw [searching, toNat_ofNat_of_lt h]

theorem start_add (k : ℕ) :
    (searching addr invert offset k).start + 64#64 =
      (searching addr invert offset (k + 1)).start := by
  have hplace : 64 * (offset.toNat / 64 + (k + 1)) = 64 * (offset.toNat / 64 + k) + 64 := by omega
  rw [searching, searching, hplace, BitVec.ofNat_add]

/-- Nothing in this word, and another one follows. -/
theorem searchTurn_next (hnone : NoneIn addr invert offset (64 * (offset.toNat / 64 + k + 1)))
    (hlt : 64 * (offset.toNat / 64 + k + 1) < nbits.toNat) :
    searchTurn addr nbits invert (searching addr invert offset k) =
      .next (searching addr invert offset (k + 1)) := by
  have hbits := nbits.isLt
  have hstart : (searching addr invert offset (k + 1)).start.toNat =
      64 * (offset.toNat / 64 + k + 1) := toNat_start (by omega)
  have hnot : ¬nbits ≤ (searching addr invert offset (k + 1)).start := by
    rw [BitVec.le_def, hstart]
    omega
  have hword : ((searching addr invert offset (k + 1)).start / 64#64).toNat =
      offset.toNat / 64 + (k + 1) := by
    rw [BitVec.toNat_udiv, hstart]
    exact Nat.mul_div_cancel_left _ (by decide)
  rw [searchTurn, if_pos (tmp_eq_zero hnone)]
  dsimp only
  rw [start_add, if_neg hnot, hword]
  rfl

/-- Nothing in this word, and it was the last one. -/
theorem searchTurn_stop (hnone : NoneIn addr invert offset (64 * (offset.toNat / 64 + k + 1)))
    (hle : nbits.toNat ≤ 64 * (offset.toNat / 64 + k + 1))
    (hlt : 64 * (offset.toNat / 64 + k + 1) < 2 ^ 64) :
    searchTurn addr nbits invert (searching addr invert offset k) = .done nbits := by
  have hstart : (searching addr invert offset (k + 1)).start.toNat =
      64 * (offset.toNat / 64 + k + 1) := toNat_start hlt
  rw [searchTurn, if_pos (tmp_eq_zero hnone)]
  dsimp only
  rw [start_add, if_pos]
  rw [BitVec.le_def, hstart]
  exact hle

/-- Nothing in the very last word: the search goes on with the first one. -/
theorem searchTurn_wrap (hnone : NoneIn addr invert offset (2 ^ 64))
    (hlast : 64 * (offset.toNat / 64 + k + 1) = 2 ^ 64) (hpos : 0 < nbits.toNat) :
    searchTurn addr nbits invert (searching addr invert offset k) =
      .next (searching addr invert 0#64 0) := by
  have hstart : (searching addr invert offset (k + 1)).start = 0#64 := by
    rw [searching, ← Nat.add_assoc, hlast]
    rfl
  have hnot : ¬nbits ≤ 0#64 := by
    rw [BitVec.le_def]
    exact Nat.not_le.mpr hpos
  have hmask : BITMAP_FIRST_WORD_MASK 0#64 = BitVec.allOnes 64 := by decide
  rw [searchTurn, if_pos (tmp_eq_zero (hlast ▸ hnone))]
  dsimp only
  rw [start_add, hstart, if_neg hnot, searching, if_pos rfl, hmask, BitVec.and_allOnes]
  rfl

/-- What is returned when a bit is found. -/
def found (nbits : BitVec 64) (i : ℕ) : BitVec 64 :=
  if BitVec.ofNat 64 (i + 1) < nbits then BitVec.ofNat 64 (i + 1) else nbits

theorem searchTurn_found (h : First addr invert offset i) (hk : i / 64 = offset.toNat / 64 + k) :
    searchTurn addr nbits invert (searching addr invert offset k) = .done (found nbits i) := by
  obtain ⟨hne, hffs⟩ := h.ffsl_tmp hk
  have hsum : (searching addr invert offset k).start + BitVec.ofNat 64 (i % 64 + 1) =
      BitVec.ofNat 64 (i + 1) := by
    rw [searching, ← hk, ← BitVec.ofNat_add, ← Nat.add_assoc, Nat.div_add_mod]
  rw [searchTurn, if_neg hne]
  dsimp only
  rw [hffs, hsum]
  rfl

/-! ### The whole search -/

/-- Words without the bit may be left out. -/
theorem ends_iff_skip {n : ℕ} {r : BitVec 64}
    (hnone : NoneIn addr invert offset (64 * (offset.toNat / 64 + n)))
    (hlt : 0 < n → 64 * (offset.toNat / 64 + n) < nbits.toNat) :
    Ends (searchTurn addr nbits invert) (searching addr invert offset 0) r ↔
      Ends (searchTurn addr nbits invert) (searching addr invert offset n) r := by
  refine ends_iff_of_path fun k hk => searchTurn_next (fun i hlow hhigh => ?_) ?_
  · exact hnone i hlow (by omega)
  · have hlast := hlt (by omega)
    omega

theorem ends_found (h : First addr invert offset i) (hlt : 64 * (i / 64) < nbits.toNat) :
    Ends (searchTurn addr nbits invert) (searching addr invert offset 0) (found nbits i) := by
  have hle := h.le
  obtain ⟨n, hn⟩ : ∃ n, i / 64 = offset.toNat / 64 + n := ⟨i / 64 - offset.toNat / 64, by omega⟩
  refine (ends_iff_skip (n := n) (fun j hlow hhigh => ?_) fun _ => ?_).mpr
    (ends_done (searchTurn_found h hn))
  · exact h.none j hlow (by omega)
  · omega

theorem ends_none (hoff : offset.toNat < nbits.toNat) (hsmall : nbits.toNat ≤ 2 ^ 64 - 64)
    (hnone : NoneIn addr invert offset (64 * ((nbits.toNat - 1) / 64 + 1))) :
    Ends (searchTurn addr nbits invert) (searching addr invert offset 0) nbits := by
  obtain ⟨n, hn⟩ : ∃ n, (nbits.toNat - 1) / 64 = offset.toNat / 64 + n :=
    ⟨(nbits.toNat - 1) / 64 - offset.toNat / 64, by omega⟩
  rw [hn] at hnone
  refine (ends_iff_skip (n := n) (fun j hlow hhigh => ?_) fun _ => ?_).mpr
    (ends_done (searchTurn_stop hnone ?_ ?_))
  · exact hnone j hlow (by omega)
  · omega
  · omega
  · omega

/-- A search that gets past the largest number starts again. -/
theorem ends_iff_wrap {r : BitVec 64} (hlarge : 2 ^ 64 - 64 < nbits.toNat)
    (hnone : NoneIn addr invert offset (2 ^ 64)) :
    Ends (searchTurn addr nbits invert) (searching addr invert offset 0) r ↔
      Ends (searchTurn addr nbits invert) (searching addr invert 0#64 0) r := by
  have hoff := offset.isLt
  obtain ⟨n, hn⟩ : ∃ n, 2 ^ 58 - 1 = offset.toNat / 64 + n :=
    ⟨2 ^ 58 - 1 - offset.toNat / 64, by omega⟩
  rw [ends_iff_skip (n := n) (fun j hlow hhigh => hnone j hlow (by omega)) fun _ => by omega]
  exact ends_iff_of_next (searchTurn_wrap hnone (by omega) (by omega))

/-- There it never ends if there is no such bit at all. -/
theorem not_ends (hlarge : 2 ^ 64 - 64 < nbits.toNat) (hnone : NoneIn addr invert 0#64 (2 ^ 64))
    (r : BitVec 64) :
    ¬Ends (searchTurn addr nbits invert) (searching addr invert 0#64 0) r := by
  refine not_ends_of_forever (P := fun s => ∃ k < 2 ^ 58, s = searching addr invert 0#64 k)
    (fun s hs => ?_) ⟨0, by decide, rfl⟩ r
  obtain ⟨k, hk, rfl⟩ := hs
  have hzero : (0#64).toNat = 0 := rfl
  by_cases hlast : k + 1 < 2 ^ 58
  · refine ⟨_, searchTurn_next (fun i hlow hhigh => hnone i hlow ?_) ?_, k + 1, hlast, rfl⟩
    · omega
    · omega
  · exact ⟨_, searchTurn_wrap hnone (by omega) (by omega), 0, by decide, rfl⟩

/-! ### What is returned -/

/-- The argument of the helper that makes the bits that are searched for ones. -/
def inverting (b : Bool) : BitVec 64 := if b then 0#64 else BitVec.allOnes 64

variable {b : Bool} {size : BitVec 64}

theorem bitAt_hits (b : Bool) (addr : ℕ → BitVec 64) (i : ℕ) :
    bitAt (hits addr (inverting b)) i = true ↔ bitAt addr i = b := by
  have hmod : i % 64 < 64 := Nat.mod_lt i (by omega)
  have hinvert : (inverting b).getLsbD (i % 64) = !b := by
    cases b with
    | true => exact BitVec.getLsbD_zero
    | false => exact BitVec.getLsbD_allOnes.trans (decide_eq_true hmod)
  rw [bitAt, bitAt, hits, BitVec.getLsbD_xor, hinvert]
  cases b <;> cases (addr (i / 64)).getLsbD (i % 64) <;> decide

theorem noneIn_iff {stop : ℕ} :
    NoneIn addr (inverting b) offset stop ↔
      ∀ i, offset.toNat ≤ i → i < stop → bitAt addr i ≠ b := by
  refine forall_congr' fun i => imp_congr_right fun _ => imp_congr_right fun _ => ?_
  rw [← Bool.not_eq_true, ne_eq, bitAt_hits]

/-- Either there is nothing up to an index, or there is a first one. -/
theorem noneIn_or_first (addr : ℕ → BitVec 64) (invert offset : BitVec 64) (stop : ℕ) :
    NoneIn addr invert offset stop ∨ ∃ i < stop, First addr invert offset i := by
  by_cases h : NoneIn addr invert offset stop
  · exact Or.inl h
  · right
    simp only [NoneIn, not_forall, Bool.not_eq_false] at h
    obtain ⟨j, hle, hlt, hj⟩ := h
    have hsome : ∃ i, offset.toNat ≤ i ∧ bitAt (hits addr invert) i = true := ⟨j, hle, hj⟩
    obtain ⟨hfirst, hhit⟩ := Nat.find_spec hsome
    refine ⟨Nat.find hsome, (Nat.find_min' hsome ⟨hle, hj⟩).trans_lt hlt, hfirst, hhit, ?_⟩
    intro i hlow hhigh
    rw [← Bool.not_eq_true]
    exact fun hi => Nat.find_min hsome hhigh ⟨hlow, hi⟩

/-- The start of the search. -/
theorem findNext_eq (hoff : offset.toNat < size.toNat) (fuel : ℕ) :
    findNext fuel addr size offset invert =
      run (searchTurn addr size invert) fuel (searching addr invert offset 0) := by
  have hpos : size ≠ 0#64 := by
    rintro rfl
    exact Nat.not_lt_zero _ hoff
  have hle : ¬size ≤ offset := by
    rw [BitVec.le_def]
    exact Nat.not_le.mpr hoff
  have hround : roundDown offset 64#64 = BitVec.ofNat 64 (64 * (offset.toNat / 64 + 0)) := by
    refine BitVec.eq_of_toNat_eq ?_
    have hoff := offset.isLt
    rw [toNat_ofNat_of_lt (by omega)]
    exact @toNat_and_not_low 64 6 (by omega) offset
  rw [findNext, if_neg (not_or.mpr ⟨hpos, hle⟩), hround]
  rfl

/-- `find_next_bit` or `find_next_zero_bit`. -/
def searchFor (b : Bool) (fuel : ℕ) (map : ℕ → BitVec 64) (size offset : BitVec 64) :
    Option (BitVec 64) :=
  findNext fuel map size offset (inverting b)

theorem finds_iff_ends (hoff : offset.toNat < size.toNat) :
    Finds (searchFor b) b addr size offset ↔
      ∃ r, Ends (searchTurn addr size (inverting b)) (searching addr (inverting b) offset 0) r ∧
        IsNext b addr offset.toNat size.toNat r.toNat := by
  simp only [Finds, searchFor, findNext_eq hoff]
  constructor
  · rintro ⟨fuel, r, hrun, h⟩
    exact ⟨r, ⟨fuel, hrun⟩, h⟩
  · rintro ⟨r, ⟨fuel, hrun⟩, h⟩
    exact ⟨fuel, r, hrun, h⟩

/-- A result is enough to know. -/
theorem finds_iff_of_ends {r : BitVec 64} (hoff : offset.toNat < size.toNat)
    (h : Ends (searchTurn addr size (inverting b)) (searching addr (inverting b) offset 0) r) :
    Finds (searchFor b) b addr size offset ↔ IsNext b addr offset.toNat size.toNat r.toNat := by
  rw [finds_iff_ends hoff]
  constructor
  · rintro ⟨r', hends, hnext⟩
    rwa [h.unique hends]
  · intro hnext
    exact ⟨r, h, hnext⟩

theorem isNext_iff_of_noneIn (hnone : NoneIn addr (inverting b) offset size.toNat) (r : ℕ) :
    IsNext b addr offset.toNat size.toNat r ↔ r = size.toNat := by
  rw [noneIn_iff] at hnone
  constructor
  · rintro (⟨hle, hlt, hr, -⟩ | ⟨hr, -⟩)
    · exact absurd hr (hnone r hle hlt)
    · exact hr
  · intro hr
    exact Or.inr ⟨hr, hnone⟩

theorem isNext_iff_of_first (h : First addr (inverting b) offset i) (hlt : i < size.toNat) (r : ℕ) :
    IsNext b addr offset.toNat size.toNat r ↔ r = i := by
  have hhit := (bitAt_hits b addr i).mp h.hit
  have hnone := noneIn_iff.mp h.none
  constructor
  · rintro (⟨hle, -, hr, hmin⟩ | ⟨-, hmin⟩)
    · rcases Nat.lt_trichotomy r i with hlow | heq | hhigh
      · exact absurd hr (hnone r hle hlow)
      · exact heq
      · exact absurd hhit (hmin i h.le hhigh)
    · exact absurd hhit (hmin i h.le hlt)
  · rintro rfl
    exact Or.inl ⟨h.le, hlt, hhit, hnone⟩

/-- What is returned for a bit below the size is one too many. -/
theorem toNat_found (hlt : i < size.toNat) : (found size i).toNat = i + 1 := by
  have hsize := size.isLt
  rw [found]
  split
  · rw [toNat_ofNat_of_lt (by omega)]
  · next hnot =>
    rw [BitVec.lt_def, toNat_ofNat_of_lt (by omega)] at hnot
    omega

/-- Past the largest number a search is never right. -/
theorem not_finds_wrapped (hoff : offset.toNat < size.toNat) (hlarge : 2 ^ 64 - 64 < size.toNat)
    (hnone : NoneIn addr (inverting b) offset (2 ^ 64)) :
    ¬Finds (searchFor b) b addr size offset := by
  have hsize := size.isLt
  rw [finds_iff_ends hoff]
  rintro ⟨r, hends, hnext⟩
  rw [ends_iff_wrap hlarge hnone] at hends
  rcases noneIn_or_first addr (inverting b) 0#64 (2 ^ 64) with hall | ⟨j, hj, hfirst⟩
  · exact not_ends hlarge hall r hends
  · -- a bit is found before the place where the search began
    have hlow : j < offset.toNat := by
      by_contra hge
      have hclear := hnone j (Nat.not_lt.mp hge) hj
      rw [hfirst.hit] at hclear
      cases hclear
    have hr := hends.unique (ends_found hfirst (by omega))
    rw [isNext_iff_of_noneIn (fun i hle hlt => hnone i hle (by omega)), hr,
      toNat_found (by omega)] at hnext
    omega

/-- Behind the size a bit ends the search, and is returned as the size. -/
theorem toNat_found_eq_iff (hle : size.toNat ≤ i) (hi : i < 2 ^ 64) (hpos : 0 < size.toNat) :
    (found size i).toNat = size.toNat ↔ i < 2 ^ 64 - 1 := by
  rw [found]
  by_cases hlast : i < 2 ^ 64 - 1
  · have hnot : ¬BitVec.ofNat 64 (i + 1) < size := by
      rw [BitVec.lt_def, toNat_ofNat_of_lt (by omega)]
      omega
    rw [if_neg hnot]
    exact iff_of_true rfl hlast
  · have hzero : BitVec.ofNat 64 (i + 1) = 0#64 := by
      have hone : i + 1 = 2 ^ 64 := by omega
      rw [hone]
      rfl
    have hlt : 0#64 < size := by
      rw [BitVec.lt_def]
      exact hpos
    rw [hzero, if_pos hlt]
    exact iff_of_false (Nat.ne_of_lt hpos) hlast

/-- With no such bit in all the words that are searched. -/
theorem finds_iff_of_noneIn (hoff : offset.toNat < size.toNat)
    (hnone : NoneIn addr (inverting b) offset (64 * ((size.toNat - 1) / 64 + 1))) :
    Finds (searchFor b) b addr size offset ↔ Absent b addr size offset := by
  have hsize := size.isLt
  have hbelow : NoneIn addr (inverting b) offset size.toNat :=
    fun i hle hlt => hnone i hle (by omega)
  by_cases hsmall : size.toNat ≤ 2 ^ 64 - 64
  · rw [finds_iff_of_ends hoff (ends_none hoff hsmall hnone), isNext_iff_of_noneIn hbelow]
    exact iff_of_true rfl (.inr ⟨noneIn_iff.mp hbelow, .inl hsmall⟩)
  · have hall : NoneIn addr (inverting b) offset (2 ^ 64) :=
      fun i hle hlt => hnone i hle (by omega)
    refine iff_of_false (not_finds_wrapped hoff (by omega) hall) ?_
    rintro (hle | ⟨-, hle | ⟨i, hlow, hhigh, hi⟩⟩)
    · rw [BitVec.le_def] at hle
      omega
    · exact hsmall hle
    · exact noneIn_iff.mp hall i (by omega) (by omega) hi

/-- With a first such bit in one of them, below the size or behind it. -/
theorem finds_iff_of_first (hoff : offset.toNat < size.toNat)
    (hfirst : First addr (inverting b) offset i) (hi : 64 * (i / 64) < size.toNat) :
    Finds (searchFor b) b addr size offset ↔ Absent b addr size offset := by
  have hsize := size.isLt
  have hhit := (bitAt_hits b addr i).mp hfirst.hit
  have hout : ¬size ≤ offset := by
    rw [BitVec.le_def]
    omega
  have hends : Ends (searchTurn addr size (inverting b))
      (searching addr (inverting b) offset 0) (found size i) := ends_found hfirst hi
  rw [finds_iff_of_ends hoff hends, Absent, or_iff_right hout]
  by_cases hlt : i < size.toNat
  · rw [isNext_iff_of_first hfirst hlt, toNat_found hlt]
    refine iff_of_false (by omega) ?_
    rintro ⟨hnone, -⟩
    exact hnone i hfirst.le hlt hhit
  · have hnone : NoneIn addr (inverting b) offset size.toNat :=
      fun j hle hj => hfirst.none j hle (by omega)
    rw [isNext_iff_of_noneIn hnone, toNat_found_eq_iff (by omega) (by omega) (by omega)]
    constructor
    · intro hi'
      exact ⟨noneIn_iff.mp hnone, .inr ⟨i, by omega, hi', hhit⟩⟩
    · rintro ⟨-, hsmall | ⟨j, hlow, hhigh, hj⟩⟩
      · omega
      · by_contra hge
        exact noneIn_iff.mp hfirst.none j (by omega) (by omega) hj

/-- A search is right exactly if there is nothing to be found. -/
theorem finds_iff (b : Bool) (addr : ℕ → BitVec 64) (size offset : BitVec 64) :
    Finds (searchFor b) b addr size offset ↔ Absent b addr size offset := by
  by_cases hout : size ≤ offset
  · refine iff_of_true ⟨0, size, if_pos (.inr hout), .inr ⟨rfl, fun i hle hlt => ?_⟩⟩ (.inl hout)
    rw [BitVec.le_def] at hout
    omega
  · have hoff : offset.toNat < size.toNat := by
      rw [BitVec.le_def] at hout
      omega
    rcases noneIn_or_first addr (inverting b) offset (64 * ((size.toNat - 1) / 64 + 1)) with
      hnone | ⟨i, hi, hfirst⟩
    · exact finds_iff_of_noneIn hoff hnone
    · exact finds_iff_of_first hoff hfirst (by omega)

/-! ### Full maps -/

/-- What the search returns decides. -/
theorem tellsFull_iff_of_run {map : ℕ → BitVec 64} {nbits : BitVec 32} {r : BitVec 64} {fuel : ℕ}
    (hrun : findNextZeroBit fuel map (nbits.setWidth 64) 0#64 = some r)
    (hunique : ∀ fuel' r', findNextZeroBit fuel' map (nbits.setWidth 64) 0#64 = some r' → r' = r) :
    TellsFull map nbits ↔
      (r = nbits.setWidth 64 ↔ ∀ i < nbits.toNat, bitAt map i = true) := by
  constructor
  · rintro ⟨fuel', full, hfull, htells⟩
    obtain ⟨r', hr', rfl⟩ := Option.map_eq_some_iff.mp hfull
    rw [hunique fuel' r' hr', decide_eq_true_eq] at htells
    exact htells
  · intro h
    refine ⟨fuel, _, by rw [bitmapFull, hrun]; rfl, ?_⟩
    rw [decide_eq_true_eq]
    exact h

theorem toNat_setWidth_64 (nbits : BitVec 32) : (nbits.setWidth 64).toNat = nbits.toNat :=
  BitVec.toNat_setWidth_of_le (by omega)

/-- No bit at all makes a full map, and is called one. -/
theorem tellsFull_of_zero {map : ℕ → BitVec 64} {nbits : BitVec 32} (hzero : nbits.toNat = 0) :
    TellsFull map nbits := by
  have hempty : ∀ fuel, findNextZeroBit fuel map (nbits.setWidth 64) 0#64 =
      some (nbits.setWidth 64) := by
    intro fuel
    refine if_pos (.inl (BitVec.eq_of_toNat_eq ?_))
    rw [toNat_setWidth_64, hzero]
    rfl
  rw [tellsFull_iff_of_run (hempty 0) fun fuel' r' h =>
    (Option.some_inj.mp ((hempty fuel').symm.trans h)).symm]
  exact iff_of_true rfl fun i hi => by omega

/-- What the loop returns decides. -/
theorem tellsFull_iff_of_ends {map : ℕ → BitVec 64} {nbits : BitVec 32} {r : BitVec 64}
    (hpos : 0 < nbits.toNat)
    (hends : Ends (searchTurn map (nbits.setWidth 64) (inverting false))
      (searching map (inverting false) 0#64 0) r) :
    TellsFull map nbits ↔
      (r = nbits.setWidth 64 ↔ ∀ i < nbits.toNat, bitAt map i = true) := by
  have hoff : (0#64).toNat < (nbits.setWidth 64).toNat := by
    rw [toNat_setWidth_64]
    exact hpos
  obtain ⟨fuel, hrun⟩ := id hends
  refine tellsFull_iff_of_run ((findNext_eq hoff fuel).trans hrun) fun fuel' r' h => ?_
  exact Ends.unique ⟨fuel', (findNext_eq hoff fuel').symm.trans h⟩ hends

/-- A map with no clear bit is called full. -/
theorem tellsFull_of_noneIn {map : ℕ → BitVec 64} {nbits : BitVec 32} (hpos : 0 < nbits.toNat)
    (hnone : NoneIn map (inverting false) 0#64 nbits.toNat) : TellsFull map nbits := by
  have hnbits := nbits.isLt
  have hsize := toNat_setWidth_64 nbits
  have hnone' : NoneIn map (inverting false) 0#64 (nbits.setWidth 64).toNat := by rwa [hsize]
  have hoff : (0#64).toNat < (nbits.setWidth 64).toNat := by rwa [hsize]
  have hfinds : Finds (searchFor false) false map (nbits.setWidth 64) 0#64 :=
    (finds_iff _ _ _ _).mpr (.inr ⟨noneIn_iff.mp hnone', .inl (by omega)⟩)
  obtain ⟨r, hends, hnext⟩ := (finds_iff_ends hoff).mp hfinds
  have hr : r = nbits.setWidth 64 :=
    BitVec.eq_of_toNat_eq ((isNext_iff_of_noneIn hnone' _).mp hnext)
  rw [tellsFull_iff_of_ends hpos hends]
  exact iff_of_true hr fun i hi =>
    Bool.eq_true_of_not_eq_false (noneIn_iff.mp hnone i (Nat.zero_le i) hi)

/-- A map with a clear bit is called full if that is the last one. -/
theorem tellsFull_iff_of_first {map : ℕ → BitVec 64} {nbits : BitVec 32}
    (hfirst : First map (inverting false) 0#64 i) (hi : i < nbits.toNat) :
    TellsFull map nbits ↔ i + 1 ≠ nbits.toNat := by
  have hsize := toNat_setWidth_64 nbits
  have hclear : bitAt map i = false := (bitAt_hits false map i).mp hfirst.hit
  have hnot : ¬∀ j < nbits.toNat, bitAt map j = true := by
    intro h
    rw [h i hi] at hclear
    cases hclear
  rw [tellsFull_iff_of_ends (by omega) (ends_found hfirst (by omega)), iff_false_right hnot,
    ← BitVec.toNat_inj, toNat_found (by omega), hsize]

/-- A map is rightly called full, or not full, unless its last bit is the only clear one. -/
theorem tellsFull_iff (map : ℕ → BitVec 64) (nbits : BitVec 32) :
    TellsFull map nbits ↔
      ∀ k, nbits.toNat = k + 1 → (∀ i < k, bitAt map i = true) → bitAt map k = true := by
  rcases Nat.eq_zero_or_pos nbits.toNat with hzero | hpos
  · exact iff_of_true (tellsFull_of_zero hzero) fun k hk => by omega
  rcases noneIn_or_first map (inverting false) 0#64 nbits.toNat with hnone | ⟨i, hi, hfirst⟩
  · refine iff_of_true (tellsFull_of_noneIn hpos hnone) fun k hk _ => ?_
    exact Bool.eq_true_of_not_eq_false (noneIn_iff.mp hnone k (Nat.zero_le k) (by omega))
  · have hclear : bitAt map i = false := (bitAt_hits false map i).mp hfirst.hit
    have hlow : ∀ j < i, bitAt map j = true := fun j hj =>
      Bool.eq_true_of_not_eq_false (noneIn_iff.mp hfirst.none j (Nat.zero_le j) hj)
    rw [tellsFull_iff_of_first hfirst hi]
    constructor
    · intro hne k hk hbelow
      rw [hbelow i (by omega)] at hclear
      cases hclear
    · intro h hlast
      rw [h i hlast.symm hlow] at hclear
      cases hclear

/-! ### The whole of it -/

/-- Tests and ranges of bits are right; a search is right exactly if there is nothing to be
found, and a full map is told from others exactly if its last bit is not the only clear one. -/
theorem bitmap_iff (map : ℕ → BitVec 64) (size offset : BitVec 64) (nbits start : BitVec 32)
    (len : ℕ) :
    (∀ nr, testBit nr map = (BitVec.ofBool (bitAt map nr.toNat)).setWidth 32) ∧
      (Finds findNextBit true map size offset ↔ Absent true map size offset) ∧
      (Finds findNextZeroBit false map size offset ↔ Absent false map size offset) ∧
      (TellsFull map nbits ↔
        ∀ k, nbits.toNat = k + 1 → (∀ i < k, bitAt map i = true) → bitAt map k = true) ∧
      Changes bitmapSet true map start len ∧ Changes bitmapClear false map start len :=
  ⟨fun nr => testBit_eq nr map, finds_iff true map size offset, finds_iff false map size offset,
    tellsFull_iff map nbits, bitmapRange_spec writes_orWord map start len,
    bitmapRange_spec writes_clearWord map start len⟩

/-- The first of 64 bits is set, and the search from there returns 1; a single bit is clear,
and the map is called full. -/
theorem not_finds_first :
    testBit 0#32 (fun _ => 1#64) = 1#32 ∧
      findNextBit 1 (fun _ => 1#64) 64#64 0#64 = some 1#64 ∧
      ¬Finds findNextBit true (fun _ => 1#64) 64#64 0#64 ∧
      bitmapFull 1 (fun _ => 0#64) 1#32 = some true := by
  refine ⟨by decide, by decide, fun h => ?_, by decide⟩
  rcases (finds_iff true _ _ _).mp h with hle | ⟨hnone, -⟩
  · exact absurd hle (by decide)
  · exact hnone 0 (by decide) (by decide) (by decide)

end Bitmap

end Accfg
