/-
Runs of bits, in three formats.

The lengths of the runs are given as bytes, as numbers of 16 bits, or as the
differences of offsets.  Each run sets or clears as many bits as it is long, behind
the bits of the runs before it; so the three loops have the same turn, and differ in
where they read the length.

* `bitAt_burstTurn` — the bits of one run;
* `Bursted.succ` — so the bits of the first runs are there after as many turns;
* `iaaDoRleBurst_agree` — the three formats.
-/
import AccelConfig.SelectExpand

open CLoop PackedBits

namespace Accfg

namespace IaaFilter

/-! ### The filter -/

/-- `for (i = from; i < to; i++)`. -/
def forFrom {σ : Type} (a b : BitVec 32) (body : BitVec 32 → σ → σ) : σ → σ :=
  forRange (fun k => body (a + BitVec.ofNat 32 k)) (b.toNat - a.toNat)

/-- The destination, and the bits that are there. -/
structure Burst where
  dst : ℕ → BitVec 32
  totalReplicaTimes : BitVec 32

/-- One turn of each of the loops of `iaa_do_rle_burst`. -/
def burstTurn (src2 : ℕ → BitVec 32) (inputIdx replicaTimes : BitVec 32) (s : Burst) : Burst :=
  let stop := s.totalReplicaTimes + replicaTimes
  if maskBit src2 inputIdx ≠ 0#32 then
    ⟨forFrom s.totalReplicaTimes stop
      (fun i dst => orWord dst (i / 32#32).toNat (1#32 <<< (i % 32#32).toNat)) s.dst, stop⟩
  else
    ⟨forFrom s.totalReplicaTimes stop
      (fun i dst => clearWord dst (i / 32#32).toNat (1#32 <<< (i % 32#32).toNat)) s.dst, stop⟩

variable (flags : FilterFlags)

def iaaDoRleBurst (dst src1 src2 : ℕ → BitVec 32) (numInputs : BitVec 32) : Filtered :=
  let s : Burst := ⟨dst, 0#32⟩
  let s :=
    if elementWidth flags = 8#32 then
      forInputs numInputs (fun inputIdx =>
        burstTurn src2 inputIdx ((field 8 src1 inputIdx.toNat).setWidth 32)) s
    else if elementWidth flags = 16#32 then
      forInputs numInputs (fun inputIdx =>
        burstTurn src2 inputIdx ((field 16 src1 inputIdx.toNat).setWidth 32)) s
    else if elementWidth flags = 32#32 then
      forInputs (numInputs - 1#32) (fun inputIdx =>
        burstTurn src2 inputIdx
          (field 32 src1 (inputIdx + 1#32).toNat - field 32 src1 inputIdx.toNat)) s
    else s
  ⟨s.dst, byteSize s.totalReplicaTimes⟩

/-! ### Runs -/

/-- A run of bits. -/
structure Run where
  times : BitVec 8
  bit : Bool

/-- The bits of the runs, in order. -/
def expand (runs : List Run) : List Bool :=
  runs.flatMap fun run => List.replicate run.times.toNat run.bit

def total (runs : List Run) : ℕ := (runs.map fun run => run.times.toNat).sum

variable (runs : List Run)

/-- The bit of each run is in the mask. -/
def Masks (src2 : ℕ → BitVec 32) : Prop := ∀ i (h : i < runs.length), bitAt src2 i = runs[i].bit

/-- The lengths are packed as numbers of `w` bits. -/
def Counts (w : ℕ) (src1 : ℕ → BitVec 32) : Prop :=
  ∀ i (h : i < runs.length), field w src1 i = runs[i].times.setWidth w

/-- The source has the sums of the lengths up to each run, beginning from a base. -/
def Offsets (base : BitVec 32) (src1 : ℕ → BitVec 32) : Prop :=
  ∀ i ≤ runs.length, field 32 src1 i = base + BitVec.ofNat 32 (total (runs.take i))

/-- The bits of the runs, and as many bytes as they need. -/
structure Expands (r : Filtered) : Prop where
  bits : ∀ p, bitAt r.dst p = (expand runs)[p]?.getD false
  size : IsLeast {b | total runs ≤ 8 * b} r.dstSize.toNat

variable {runs}

theorem length_expand (runs : List Run) : (expand runs).length = total runs := by
  simp only [expand, total, List.length_flatMap, List.length_replicate]

theorem expand_take_succ {k : ℕ} (hk : k < runs.length) :
    expand (runs.take (k + 1)) =
      expand (runs.take k) ++ List.replicate runs[k].times.toNat runs[k].bit := by
  simp only [expand, List.take_succ_eq_append_getElem hk, List.flatMap_append,
    List.flatMap_singleton]

theorem total_take_succ {k : ℕ} (hk : k < runs.length) :
    total (runs.take (k + 1)) = total (runs.take k) + runs[k].times.toNat := by
  simp only [total, List.take_succ_eq_append_getElem hk, List.map_append, List.map_singleton,
    List.sum_append, List.sum_singleton]

theorem total_take_le (runs : List Run) (k : ℕ) : total (runs.take k) ≤ total runs := by
  have hsplit : total runs = total (runs.take k) + total (runs.drop k) := by
    rw [total, total, total, ← List.sum_append, ← List.map_append, List.take_append_drop]
  omega

/-! ### One run -/

section OneRun

variable {src2 dst : ℕ → BitVec 32}

/-- Stores of one bit, one place after the other. -/
theorem bitAt_forFrom {store : BitVec 32 → (ℕ → BitVec 32) → ℕ → BitVec 32} {b : Bool}
    (hstore : ∀ i dst p, bitAt (store i dst) p = if p = i.toNat then b else bitAt dst p)
    (start stop : BitVec 32) (p : ℕ) :
    bitAt (forFrom start stop store dst) p =
      if start.toNat ≤ p ∧ p < stop.toNat then b else bitAt dst p := by
  have hrun : bitAt (forFrom start stop store dst) p =
      if start.toNat ≤ p ∧ p < start.toNat + (stop.toNat - start.toNat) then b
      else bitAt dst p := by
    refine forRange_induction (P := fun k m => bitAt m p =
      if start.toNat ≤ p ∧ p < start.toNat + k then b else bitAt dst p) _ ?_ fun k hk m hm => ?_
    · rw [if_neg (by omega)]
    · have hidx : (start + BitVec.ofNat 32 k).toNat = start.toNat + k := by
        have hlt := stop.isLt
        rw [BitVec.toNat_add, toNat_ofNat_of_lt (show k < 2 ^ 32 by omega),
          Nat.mod_eq_of_lt (by omega)]
      rw [hstore, hidx, hm]
      by_cases hp : p = start.toNat + k
      · rw [if_pos hp, if_pos (by omega)]
      · have hiff : start.toNat ≤ p ∧ p < start.toNat + (k + 1) ↔
            start.toNat ≤ p ∧ p < start.toNat + k := by omega
        rw [if_neg hp, if_congr hiff rfl rfl]
  have hiff : start.toNat ≤ p ∧ p < start.toNat + (stop.toNat - start.toNat) ↔
      start.toNat ≤ p ∧ p < stop.toNat := by omega
  rw [hrun, if_congr hiff rfl rfl]

theorem bitAt_setOne (i : BitVec 32) (dst : ℕ → BitVec 32) (p : ℕ) :
    bitAt (orWord dst (i / 32#32).toNat (1#32 <<< (i % 32#32).toNat)) p =
      if p = i.toNat then true else bitAt dst p := by
  rw [orWord_one, bitAt_orBit (by omega)]
  by_cases hp : p = i.toNat
  · simp [hp]
  · simp [hp]

theorem bitAt_clearOne (i : BitVec 32) (dst : ℕ → BitVec 32) (p : ℕ) :
    bitAt (clearWord dst (i / 32#32).toNat (1#32 <<< (i % 32#32).toNat)) p =
      if p = i.toNat then false else bitAt dst p := by
  have hclear : clearWord dst (i / 32#32).toNat (1#32 <<< (i % 32#32).toNat) =
      clearBit dst i.toNat := by
    rw [clearBit, BitVec.toNat_udiv, BitVec.toNat_umod]
    rfl
  rw [hclear, bitAt_clearBit (by omega)]
  by_cases hp : p = i.toNat
  · simp [hp]
  · simp [hp]

/-- A turn gives the bits of one run the bit of the mask. -/
theorem bitAt_burstTurn (src2 : ℕ → BitVec 32) (i t : BitVec 32) (s : Burst) (p : ℕ) :
    bitAt (burstTurn src2 i t s).dst p =
      if s.totalReplicaTimes.toNat ≤ p ∧ p < (s.totalReplicaTimes + t).toNat then
        bitAt src2 i.toNat
      else bitAt s.dst p := by
  have hmark := maskBit_ne_zero_iff src2 i
  rw [burstTurn]
  by_cases hbit : bitAt src2 i.toNat = true
  · rw [if_pos (hmark.mpr hbit), hbit]
    exact bitAt_forFrom bitAt_setOne _ _ p
  · rw [if_neg (mt hmark.mp hbit), eq_false_of_ne_true hbit]
    exact bitAt_forFrom bitAt_clearOne _ _ p

theorem totalReplicaTimes_burstTurn (src2 : ℕ → BitVec 32) (i t : BitVec 32) (s : Burst) :
    (burstTurn src2 i t s).totalReplicaTimes = s.totalReplicaTimes + t := by
  rw [burstTurn]
  split <;> rfl

end OneRun

/-! ### All runs -/

section AllRuns

variable {src1 src2 : ℕ → BitVec 32} {n : BitVec 32} {k : ℕ}

/-- The bits of the first runs, and how many they are. -/
def Bursted (runs : List Run) (k : ℕ) (s : Burst) : Prop :=
  s.totalReplicaTimes = BitVec.ofNat 32 (total (runs.take k)) ∧
    ∀ p, bitAt s.dst p = (expand (runs.take k))[p]?.getD false

theorem bursted_zero : Bursted runs 0 ⟨fun _ => 0#32, 0#32⟩ :=
  ⟨rfl, fun p => by rw [bitAt_zero]; rfl⟩

/-- One turn puts the bits of one run behind the ones before. -/
theorem Bursted.succ (htotal : total runs < 2 ^ 32) (hmask : Masks runs src2)
    (hlen : runs.length < 2 ^ 32) (hk : k < runs.length) {s : Burst} (h : Bursted runs k s) :
    Bursted runs (k + 1)
      (burstTurn src2 (BitVec.ofNat 32 k) (runs[k].times.setWidth 32) s) := by
  obtain ⟨hsum, hbits⟩ := h
  have hidx : (BitVec.ofNat 32 k).toNat = k := by
    rw [toNat_ofNat_of_lt (by omega)]
  have hnext : s.totalReplicaTimes + runs[k].times.setWidth 32 =
      BitVec.ofNat 32 (total (runs.take (k + 1))) := by
    rw [hsum, total_take_succ hk, BitVec.ofNat_add, BitVec.ofNat_toNat]
  have hstart : s.totalReplicaTimes.toNat = total (runs.take k) := by
    have hle := total_take_le runs k
    rw [hsum, toNat_ofNat_of_lt (by omega)]
  have hstop : (s.totalReplicaTimes + runs[k].times.setWidth 32).toNat =
      total (runs.take (k + 1)) := by
    have hle := total_take_le runs (k + 1)
    rw [hnext, toNat_ofNat_of_lt (by omega)]
  refine ⟨by rw [totalReplicaTimes_burstTurn, hnext], fun p => ?_⟩
  rw [bitAt_burstTurn, hstart, hstop, hidx, hmask k hk, hbits, expand_take_succ hk,
    total_take_succ hk]
  by_cases hold : p < total (runs.take k)
  · rw [if_neg (by omega), List.getElem?_append_left (by rwa [length_expand])]
  · rw [List.getElem?_append_right (by rw [length_expand]; omega), length_expand,
      List.getElem?_replicate]
    by_cases hnew : p < total (runs.take k) + runs[k].times.toNat
    · rw [if_pos ⟨by omega, hnew⟩, if_pos (by omega), Option.getD_some]
    · rw [if_neg (by omega), if_neg (by omega),
        List.getElem?_eq_none (by rw [length_expand]; omega)]

/-- A loop that reads the lengths of the runs leaves their bits. -/
theorem expands_forInputs (htotal : total runs < 2 ^ 32) (hmask : Masks runs src2)
    (hlen : runs.length = n.toNat) {t : BitVec 32 → BitVec 32}
    (ht : ∀ i (h : i < runs.length), t (BitVec.ofNat 32 i) = runs[i].times.setWidth 32) :
    let s := forInputs n (fun inputIdx => burstTurn src2 inputIdx (t inputIdx))
      ⟨fun _ => 0#32, 0#32⟩
    Expands runs ⟨s.dst, byteSize s.totalReplicaTimes⟩ := by
  intro s
  have hlt := n.isLt
  have hrun : Bursted runs n.toNat s := by
    refine forRange_induction (P := Bursted runs) n.toNat bursted_zero fun k hk _ hs => ?_
    have hstep := hs.succ htotal hmask (show runs.length < 2 ^ 32 by omega)
      (show k < runs.length by omega)
    rwa [← ht k (by omega)] at hstep
  have hall : runs.take n.toNat = runs := List.take_of_length_le hlen.le
  obtain ⟨hsum, hbits⟩ := hrun
  rw [hall] at hsum hbits
  refine ⟨hbits, ?_⟩
  have hleast := isLeast_byteSize s.totalReplicaTimes
  have htoNat : s.totalReplicaTimes.toNat = total runs := by
    rw [hsum, toNat_ofNat_of_lt htotal]
  rwa [htoNat] at hleast

/-- What the bits and the size are determines a destination. -/
theorem Expands.unique {r r' : Filtered} (h : Expands runs r) (h' : Expands runs r') : r = r' := by
  have hdst : r.dst = r'.dst := by
    funext i
    refine BitVec.eq_of_getLsbD_eq fun j hj => ?_
    rw [← bitAt_mul_add hj, ← bitAt_mul_add hj, h.bits, h'.bits]
  have hsize : r.dstSize = r'.dstSize := BitVec.eq_of_toNat_eq (h.size.unique h'.size)
  cases r
  cases r'
  exact congrArg₂ Filtered.mk hdst hsize

/-! ### The three formats -/

theorem elementWidth_eq {flags : FilterFlags} {w : ℕ} (hw : width flags = w) :
    elementWidth flags = BitVec.ofNat 32 w := by
  rw [← hw, width, BitVec.ofNat_toNat, BitVec.setWidth_eq]

variable {flags : FilterFlags} (htotal : total runs < 2 ^ 32) (hmask : Masks runs src2)
  (hlen : runs.length = n.toNat)
include htotal hmask hlen

theorem expands_bytes (hw : width flags = 8) (hsrc : Counts runs 8 src1) :
    Expands runs (iaaDoRleBurst flags (fun _ => 0#32) src1 src2 n) := by
  have hlt := n.isLt
  rw [iaaDoRleBurst, if_pos (elementWidth_eq hw)]
  refine expands_forInputs htotal hmask hlen (t := fun i => (field 8 src1 i.toNat).setWidth 32)
    fun i hi => ?_
  rw [toNat_ofNat_of_lt (show i < 2 ^ 32 by omega), hsrc i hi,
    BitVec.setWidth_eq]

theorem expands_words (hw : width flags = 16) (hsrc : Counts runs 16 src1) :
    Expands runs (iaaDoRleBurst flags (fun _ => 0#32) src1 src2 n) := by
  have hlt := n.isLt
  have hwidth := elementWidth_eq hw
  rw [iaaDoRleBurst, if_neg (by rw [hwidth]; decide), if_pos hwidth]
  refine expands_forInputs htotal hmask hlen (t := fun i => (field 16 src1 i.toNat).setWidth 32)
    fun i hi => ?_
  rw [toNat_ofNat_of_lt (show i < 2 ^ 32 by omega), hsrc i hi]
  refine BitVec.eq_of_toNat_eq ?_
  have hbyte := runs[i].times.isLt
  simp only [BitVec.toNat_setWidth]
  omega

/-- The length of a run is the difference of two offsets. -/
theorem expands_offsets (hw : width flags = 32) {base : BitVec 32} (hsrc : Offsets runs base src1) :
    Expands runs (iaaDoRleBurst flags (fun _ => 0#32) src1 src2 (n + 1#32)) := by
  have hlt := n.isLt
  have hwidth := elementWidth_eq hw
  rw [iaaDoRleBurst, if_neg (by rw [hwidth]; decide), if_neg (by rw [hwidth]; decide),
    if_pos hwidth, BitVec.add_sub_cancel]
  refine expands_forInputs htotal hmask hlen
    (t := fun i => field 32 src1 (i + 1#32).toNat - field 32 src1 i.toNat) fun i hi => ?_
  have hidx : (BitVec.ofNat 32 i).toNat = i := by
    rw [toNat_ofNat_of_lt (by omega)]
  have hsucc : (BitVec.ofNat 32 i + 1#32).toNat = i + 1 := by
    rw [← BitVec.ofNat_add, toNat_ofNat_of_lt (by omega)]
  rw [hidx, hsucc, hsrc i hi.le, hsrc (i + 1) hi, total_take_succ hi, BitVec.ofNat_add,
    ← BitVec.add_assoc, BitVec.add_comm _ (BitVec.ofNat 32 runs[i].times.toNat),
    BitVec.add_sub_cancel, BitVec.ofNat_toNat]

end AllRuns

/-- The same runs in each of the three formats give the same bits, which are those of
the runs in order, and the same size. -/
theorem iaaDoRleBurst_agree (flags8 flags16 flags32 : FilterFlags) (hw8 : width flags8 = 8)
    (hw16 : width flags16 = 16) (hw32 : width flags32 = 32) (runs : List Run) (base : BitVec 32)
    (numInputs : BitVec 32) (counts8 counts16 offsets src2 : ℕ → BitVec 32)
    (hlen : runs.length = numInputs.toNat) (htotal : total runs < 2 ^ 32)
    (hmask : Masks runs src2) (hcounts8 : Counts runs 8 counts8)
    (hcounts16 : Counts runs 16 counts16) (hoffsets : Offsets runs base offsets) :
    let zeros : ℕ → BitVec 32 := fun _ => 0#32
    let burst8 := iaaDoRleBurst flags8 zeros counts8 src2 numInputs
    let burst16 := iaaDoRleBurst flags16 zeros counts16 src2 numInputs
    let burst32 := iaaDoRleBurst flags32 zeros offsets src2 (numInputs + 1#32)
    burst8 = burst16 ∧ burst8 = burst32 ∧ Expands runs burst8 := by
  intro zeros burst8 burst16 burst32
  have h8 : Expands runs burst8 := expands_bytes htotal hmask hlen hw8 hcounts8
  have h16 : Expands runs burst16 := expands_words htotal hmask hlen hw16 hcounts16
  have h32 : Expands runs burst32 := expands_offsets htotal hmask hlen hw32 hoffsets
  exact ⟨h8.unique h16, h8.unique h32, h8⟩

/-- Runs of three, no, two and four bits. -/
def fourRuns : List Run := [⟨3#8, true⟩, ⟨0#8, true⟩, ⟨2#8, false⟩, ⟨4#8, true⟩]

/-- The sums of their lengths, from a base where they wrap around. -/
def fourOffsets (i : ℕ) : BitVec 32 :=
  [0xfffffffe#32, 1#32, 1#32, 3#32, 7#32].getD i 0#32

theorem iaaDoRleBurst_agree_four :
    let zeros : ℕ → BitVec 32 := fun _ => 0#32
    let burst8 := iaaDoRleBurst 0x1c#32 zeros (fun _ => 0x04020003#32) (fun _ => 0xb#32) 4#32
    let burst16 := iaaDoRleBurst 0x3c#32 zeros (fun i => if i = 0 then 3#32 else 0x40002#32)
      (fun _ => 0xb#32) 4#32
    let burst32 := iaaDoRleBurst 0x7c#32 zeros fourOffsets (fun _ => 0xb#32) (4#32 + 1#32)
    burst8 = burst16 ∧ burst8 = burst32 ∧ Expands fourRuns burst8 :=
  iaaDoRleBurst_agree 0x1c#32 0x3c#32 0x7c#32 (by decide) (by decide) (by decide) fourRuns
    0xfffffffe#32 4#32 _ _ _ _ (by decide) (by decide)
    (show ∀ i (h : i < fourRuns.length), _ by decide)
    (show ∀ i (h : i < fourRuns.length), _ by decide)
    (show ∀ i (h : i < fourRuns.length), _ by decide)
    (show ∀ i ≤ fourRuns.length, _ by decide)

end IaaFilter

end Accfg
