/-
The guard of a buffer, with every flag.

The loop counts in 32 bits up to a length of 64, and computes each byte in `int`
before it keeps 16 bits.  For the lengths that the counter reaches it divides the
bits of the buffer; so a buffer with its guard behind it leaves nothing.

* `crcTurn_path` — one byte;
* `ends_crcTurn` — the loop;
* `dsaCalculateCrcT10difRun_exact` — the guard, and the guard behind the buffer.
-/
import AccelConfig.T10Dif
import AccelConfig.Turns

open CLoop Crc Turns

namespace Accfg

/-! ### The function -/

/-- `(crc << 8) ^ t10_dif_crc_table[((crc >> 8) ^ buffer[i]) & 0xff]`, in `int`, kept as
an `unsigned short`. -/
def t10Byte (crc : BitVec 16) (data : BitVec 8) : BitVec 16 :=
  let index := (crc.setWidth 32 >>> 8 ^^^ data.setWidth 32) &&& 0xff#32
  (crc.setWidth 32 <<< 8 ^^^ (t10DifCrcTable.getD index.toNat 0#16).setWidth 32).setWidth 16

/-- One turn of the loop of `dsa_calculate_crc_t10dif`, on `i` and `crc`. -/
def crcTurn (buffer : ℕ → BitVec 8) (len : BitVec 64) :
    BitVec 32 × BitVec 16 → Turn (BitVec 16) (BitVec 32 × BitVec 16)
  | (i, crc) =>
    if i.setWidth 64 < len then .next (i + 1#32, t10Byte crc (buffer i.toNat)) else .done crc

/-- `dsa_calculate_crc_t10dif`, for so many turns of its loop at most. -/
def dsaCalculateCrcT10difRun (fuel : ℕ) (buffer : ℕ → BitVec 8) (len : BitVec 64)
    (flags : BitVec 32) : Option (BitVec 16) :=
  let crc := if hasFlag flags DIF_INVERT_CRC_SEED then 0xFFFF#16 else 0#16
  (Turns.run (crcTurn buffer len) fuel (0#32, crc)).map fun crc =>
    if hasFlag flags DIF_INVERT_CRC_RESULT then ~~~crc else crc

/-! ### What it is for -/

/-- What the polynomial leaves of the bits, beginning and ending as the flags say. -/
def guardOf (flags : BitVec 32) (bits : List Bool) : BitVec 16 :=
  let crc := Crc.run t10Poly (if hasFlag flags DIF_INVERT_CRC_SEED then 0xFFFF#16 else 0#16) bits
  if hasFlag flags DIF_INVERT_CRC_RESULT then ~~~crc else crc

/-- The buffer with a guard behind it, its high byte first. -/
def appendGuard (buffer : ℕ → BitVec 8) (len : ℕ) (guard : BitVec 16) : ℕ → BitVec 8 :=
  Function.update (Function.update buffer len (guard.extractLsb' 8 8)) (len + 1)
    (guard.extractLsb' 0 8)

/-! ### The loop -/

/-- One byte: what is kept of `int` is what 16 bits give. -/
theorem t10Byte_eq (crc : BitVec 16) (data : BitVec 8) :
    t10Byte crc data = Crc.run t10Poly crc (bitsBE data) := by
  have hhigh : (crc.setWidth 32 >>> 8).setWidth 8 = (crc >>> 8).setWidth 8 := by
    refine BitVec.eq_of_getLsbD_eq fun j hj => ?_
    have hlt : 8 + j < 32 := by omega
    simp [hj, hlt]
  have hindex : ((crc.setWidth 32 >>> 8 ^^^ data.setWidth 32) &&& 0xff#32).toNat =
      ((crc >>> 8).setWidth 8 ^^^ data).toNat := by
    rw [and_ff, toNat_low (by omega), BitVec.setWidth_xor, hhigh,
      BitVec.setWidth_setWidth_of_le _ (by omega), BitVec.setWidth_eq]
  have hkept : ∀ x : BitVec 16,
      (crc.setWidth 32 <<< 8 ^^^ x.setWidth 32).setWidth 16 = crc <<< 8 ^^^ x := by
    intro x
    refine BitVec.eq_of_getLsbD_eq fun j hj => ?_
    simp [hj]
  rw [t10Byte, hindex, t10DifCrcTable_getD, hkept, run_byte (by omega)]
  rfl

variable {buffer : ℕ → BitVec 8} {len : BitVec 64} {crc : BitVec 16}

/-- The state after so many bytes. -/
def crcAt (buffer : ℕ → BitVec 8) (crc : BitVec 16) (i : ℕ) : BitVec 32 × BitVec 16 :=
  (BitVec.ofNat 32 i, Crc.run t10Poly crc (bitsAt true buffer 0 i))

/-- One turn. -/
theorem crcTurn_path (hlen : len.toNat < 2 ^ 32) {i : ℕ} (hi : i < len.toNat) :
    crcTurn buffer len (crcAt buffer crc i) = .next (crcAt buffer crc (i + 1)) := by
  have hidx : (BitVec.ofNat 32 i).toNat = i := by
    rw [toNat_ofNat_of_lt (by omega)]
  have hlt : (BitVec.ofNat 32 i).setWidth 64 < len := by
    rw [BitVec.lt_def, BitVec.toNat_setWidth, hidx]
    omega
  rw [crcAt, crcAt, crcTurn, if_pos hlt, hidx, t10Byte_eq, bitsAt_add, bitsAt_one, Nat.zero_add,
    run_append, BitVec.ofNat_add]
  rfl

/-- The loop ends with what the polynomial leaves of the bits. -/
theorem ends_crcTurn (hlen : len.toNat < 2 ^ 32) (crc : BitVec 16) :
    Ends (crcTurn buffer len) (0#32, crc)
      (Crc.run t10Poly crc (bitsAt true buffer 0 len.toNat)) := by
  have hidx : (BitVec.ofNat 32 len.toNat).toNat = len.toNat := by
    rw [toNat_ofNat_of_lt hlen]
  have hnot : ¬(BitVec.ofNat 32 len.toNat).setWidth 64 < len := by
    rw [BitVec.lt_def, BitVec.toNat_setWidth, hidx]
    omega
  have hpath : ∀ i < len.toNat,
      crcTurn buffer len (crcAt buffer crc i) = .next (crcAt buffer crc (i + 1)) :=
    fun i hi => crcTurn_path hlen hi
  exact ends_of_path hpath (by rw [crcAt, crcTurn, if_neg hnot])

theorem run_eq_guardOf (hlen : len.toNat < 2 ^ 32) (flags : BitVec 32) :
    ∃ fuel, dsaCalculateCrcT10difRun fuel buffer len flags =
      some (guardOf flags (bitsAt true buffer 0 len.toNat)) := by
  obtain ⟨fuel, hrun⟩ := @ends_crcTurn buffer len hlen
    (if hasFlag flags DIF_INVERT_CRC_SEED then 0xFFFF#16 else 0#16)
  exact ⟨fuel, by rw [dsaCalculateCrcT10difRun, hrun]; rfl⟩

/-- So the counter makes no difference to what the device's guard is compared with. -/
theorem run_eq_dsaCalculateCrcT10dif (hlen : len.toNat < 2 ^ 32) (flags : BitVec 32) :
    ∃ fuel, dsaCalculateCrcT10difRun fuel buffer len flags =
      some (dsaCalculateCrcT10dif buffer len.toNat flags) := by
  have hguard : dsaCalculateCrcT10dif buffer len.toNat flags =
      guardOf flags (bitsAt true buffer 0 len.toNat) := by
    rw [dsaCalculateCrcT10dif, guardOf, t10Loop_eq]
  rw [hguard]
  exact run_eq_guardOf hlen flags

/-- No other guard is returned. -/
theorem eq_guardOf (hlen : len.toNat < 2 ^ 32) {flags : BitVec 32} {fuel : ℕ} {guard : BitVec 16}
    (hrun : dsaCalculateCrcT10difRun fuel buffer len flags = some guard) :
    guard = guardOf flags (bitsAt true buffer 0 len.toNat) := by
  obtain ⟨crc, hcrc, rfl⟩ := Option.map_eq_some_iff.mp hrun
  have hends := @ends_crcTurn buffer len hlen
    (if hasFlag flags DIF_INVERT_CRC_SEED then 0xFFFF#16 else 0#16)
  rw [← hends.unique ⟨fuel, hcrc⟩]
  rfl

/-! ### The guard behind the buffer -/

theorem guardOf_zero (bits : List Bool) : guardOf 0#32 bits = Crc.run t10Poly 0#16 bits := rfl

/-- The bits of a buffer that has a guard behind it. -/
theorem bitsAt_appendGuard (buffer : ℕ → BitVec 8) (n : ℕ) (guard : BitVec 16) :
    bitsAt true (appendGuard buffer n guard) 0 (n + 2) =
      bitsAt true buffer 0 n ++ bitsBE guard := by
  have hbefore : bitsAt true (appendGuard buffer n guard) 0 n = bitsAt true buffer 0 n := by
    refine bitsAt_congr true fun i hi => ?_
    rw [appendGuard, Function.update_of_ne (by omega), Function.update_of_ne (by omega)]
  have hhigh : appendGuard buffer n guard n = guard.extractLsb' 8 8 := by
    rw [appendGuard, Function.update_of_ne (by omega), Function.update_self]
  have hlow : appendGuard buffer n guard (n + 1) = guard.extractLsb' 0 8 := by
    rw [appendGuard, Function.update_self]
  have hbytes : guard = guard.extractLsb' 8 8 ++ guard.extractLsb' 0 8 :=
    (@BitVec.extractLsb'_append_extractLsb' 8 8 guard).symm
  have hguard : bitsBE guard =
      bitsBE (guard.extractLsb' 8 8) ++ bitsBE (guard.extractLsb' 0 8) := by
    conv_lhs => rw [hbytes]
    exact bitsBE_append _ _
  rw [bitsAt_add, hbefore, bitsAt_add _ _ _ 1 1, bitsAt_one, bitsAt_one, Nat.zero_add, hhigh, hlow,
    hguard]
  rfl

/-- The function returns what the polynomial leaves of the buffer, with the flags it is
given; and nothing is left of a buffer with its plain guard behind it. -/
theorem dsaCalculateCrcT10difRun_exact (buffer : ℕ → BitVec 8) (len : BitVec 64)
    (flags : BitVec 32) (hlen : len.toNat < 2 ^ 32) :
    (∃ fuel, dsaCalculateCrcT10difRun fuel buffer len flags =
        some (guardOf flags (bitsAt true buffer 0 len.toNat))) ∧
      ((len + 2#64).toNat < 2 ^ 32 → ∀ fuel guard,
        dsaCalculateCrcT10difRun fuel buffer len 0#32 = some guard →
          ∃ fuel', dsaCalculateCrcT10difRun fuel' (appendGuard buffer len.toNat guard)
            (len + 2#64) 0#32 = some 0#16) := by
  refine ⟨run_eq_guardOf hlen flags, fun hlen' fuel guard hrun => ?_⟩
  have hlong : (len + 2#64).toNat = len.toNat + 2 := by
    rw [BitVec.toNat_add, BitVec.toNat_ofNat]
    omega
  obtain ⟨fuel', hrun'⟩ :=
    @run_eq_guardOf (appendGuard buffer len.toNat guard) (len + 2#64) hlen' 0#32
  refine ⟨fuel', ?_⟩
  have hguard := eq_guardOf hlen hrun
  rw [guardOf_zero] at hguard
  rw [hrun', hlong, bitsAt_appendGuard, guardOf_zero, run_append, ← hguard, run_bitsBE_self]

/-- Nine bytes, with both flags, and their plain guard. -/
theorem dsaCalculateCrcT10difRun_exact_nine :
    (∃ fuel, dsaCalculateCrcT10difRun fuel (BitVec.ofNat 8) 9#64 0xc#32 =
        some (guardOf 0xc#32 (bitsAt true (BitVec.ofNat 8) 0 (9#64).toNat))) ∧
      ((9#64 + 2#64).toNat < 2 ^ 32 → ∀ fuel guard,
        dsaCalculateCrcT10difRun fuel (BitVec.ofNat 8) 9#64 0#32 = some guard →
          ∃ fuel', dsaCalculateCrcT10difRun fuel'
            (appendGuard (BitVec.ofNat 8) (9#64).toNat guard) (9#64 + 2#64) 0#32 = some 0#16) :=
  dsaCalculateCrcT10difRun_exact (BitVec.ofNat 8) 9#64 0xc#32 (by decide)

end Accfg
