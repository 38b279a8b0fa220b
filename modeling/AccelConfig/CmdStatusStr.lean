/-
The messages for command statuses.

`get_cmd_status_str` looks a status up in one of two arrays of messages.  A
status beyond an array is an unknown error; but the array for the hardware has
gaps, and where nothing was put there is a null pointer.

* `hasMessage_iff` — exactly which statuses have a message.
-/
import AccelConfig.CLoop
import AccelConfig.Sysfs

open CLoop

namespace Accfg

/-! ### The arrays -/

def ACCFG_CMD_STATUS_MAX : BitVec 32 := 0x45

def IDXD_SCMD_SOFTERR_MASK : BitVec 32 := 0x80000000

def IDXD_SCMD_SOFTERR_SHIFT : ℕ := 16

/-- `SCMD_STAT`. -/
def scmdStat (x : BitVec 32) : BitVec 32 :=
  (x &&& ~~~IDXD_SCMD_SOFTERR_MASK) >>> IDXD_SCMD_SOFTERR_SHIFT

-- What the driver adds to the statuses of the hardware.
def IDXD_SCMD_DEV_DMA_ERR : BitVec 32 := 0x80020000
def IDXD_SCMD_WQ_NO_GRP : BitVec 32 := 0x80030000
def IDXD_SCMD_WQ_NO_NAME : BitVec 32 := 0x80040000
def IDXD_SCMD_WQ_NO_SVM : BitVec 32 := 0x80050000
def IDXD_SCMD_WQ_NO_THRESH : BitVec 32 := 0x80060000
def IDXD_SCMD_WQ_PORTAL_ERR : BitVec 32 := 0x80070000
def IDXD_SCMD_WQ_RES_ALLOC_ERR : BitVec 32 := 0x80080000
def IDXD_SCMD_PERCPU_ERR : BitVec 32 := 0x80090000
def IDXD_SCMD_DMA_CHAN_ERR : BitVec 32 := 0x800a0000
def IDXD_SCMD_CDEV_ERR : BitVec 32 := 0x800b0000
def IDXD_SCMD_WQ_NO_SWQ_SUPPORT : BitVec 32 := 0x800c0000
def IDXD_SCMD_WQ_NONE_CONFIGURED : BitVec 32 := 0x800d0000
def IDXD_SCMD_WQ_NO_SIZE : BitVec 32 := 0x800e0000

/-- An array with designated initialisers, long enough for the last of them; a
null pointer is `none`. -/
def designated (entries : List (ℕ × String)) : List (Option String) :=
  (List.range ((entries.map (·.1 + 1)).foldl max 0)).map fun i => entries.lookup i

/-- `accfg_device_cmd_status`. -/
def accfgDeviceCmdStatus : List (Option String) := designated [
  (0x0, "Successful completion"),
  (0x1, "Invalid command code"),
  (0x2, "Invalid WQ index"),
  (0x3, "Internal or platform hardware error"),
  (0x4, "Non-zero reserved field in command"),
  (0x10, "Device not disabled"),
  (0x11, "Unspecified error in config for device enable"),
  (0x12, "Bus master enable is 0"),
  (0x13, "PRSREQALLOC value unsupported"),
  (0x14, "Sum of WQCFG size fields out of range"),
  (0x15, "Invalid group config: lack of wq or engines"),
  (0x16, "Invalid group config: wq misconfigured"),
  (0x17, "Invalid group config: engine misconfigured"),
  (0x18, "Invalid group config: invalid read buffers config"),
  (0x20, "Device not enabled"),
  (0x21, "WQ is not disabled"),
  (0x22, "WQ size is 0"),
  (0x23, "WQ priority is 0"),
  (0x24, "Invalid WQ mode"),
  (0x25, "Invalid block on fault setting"),
  (0x26, "Invalid value for WQ pasid enable"),
  (0x27, "Invalid WQ max batch size"),
  (0x28, "Invalid WQ max transfer size"),
  (0x2a, "PCIe pasid cap Priv mode enable = 0"),
  (0x2b, "Invalid WQ Occupancy Interrupt table or handle"),
  (0x2c, "WQ ATS config mismatched"),
  (0x31, "Device is not enabled"),
  (0x32, "WQ(s) not enabled"),
  (0x41, "Invalid interrupt table index"),
  (0x42, "No interrupt handle available"),
  (0x43, "No interrupt handles associated with the index"),
  (0x44, "No revoked handles associated with the index"),
  (0x45, "Unknown error")]

/-- `accfg_sw_cmd_status`. -/
def accfgSwCmdStatus : List (Option String) := designated [
  (0x01, "Error reading cmd_status (library error)"),
  ((scmdStat IDXD_SCMD_DEV_DMA_ERR).toNat, "DMA device registration error (driver error)"),
  ((scmdStat IDXD_SCMD_WQ_NO_GRP).toNat, "wq error - group not set"),
  ((scmdStat IDXD_SCMD_WQ_NO_NAME).toNat, "wq error - name not set"),
  ((scmdStat IDXD_SCMD_WQ_NO_SVM).toNat,
    "wq error - no SVM support and needed (platform configuration error)"),
  ((scmdStat IDXD_SCMD_WQ_NO_THRESH).toNat, "wq error - threshold not set"),
  ((scmdStat IDXD_SCMD_WQ_PORTAL_ERR).toNat, "wq portal mapping error (driver error)"),
  ((scmdStat IDXD_SCMD_WQ_RES_ALLOC_ERR).toNat, "wq resource allocation error (driver error)"),
  ((scmdStat IDXD_SCMD_PERCPU_ERR).toNat, "wq percpu counter allocation error (driver error)"),
  ((scmdStat IDXD_SCMD_DMA_CHAN_ERR).toNat, "wq DMA channel registration error (driver error)"),
  ((scmdStat IDXD_SCMD_CDEV_ERR).toNat, "wq char dev registration error (driver error)"),
  ((scmdStat IDXD_SCMD_WQ_NO_SWQ_SUPPORT).toNat,
    "wq error - no shared wq support (platform configuration error)"),
  ((scmdStat IDXD_SCMD_WQ_NONE_CONFIGURED).toNat, "wq error - no wqs configured"),
  ((scmdStat IDXD_SCMD_WQ_NO_SIZE).toNat, "wq error - size not set")]

/-! ### Looking a status up -/

/-- What the end of the function returns; `none` is a read outside the array. -/
def deviceStatusStr (status : BitVec 32) : Option (Option String) :=
  let status := if ACCFG_CMD_STATUS_MAX < status then ACCFG_CMD_STATUS_MAX else status
  accfgDeviceCmdStatus[status.toNat]?

/-- `get_cmd_status_str`. -/
def getCmdStatusStr (status : BitVec 32) : Option (Option String) :=
  if status &&& IDXD_SCMD_SOFTERR_MASK ≠ 0#32 then
    let swStatus := scmdStat status
    if swStatus ≠ 0#32 then
      if accfgSwCmdStatus.length ≤ swStatus.toNat then
        -- `goto ext`
        accfgDeviceCmdStatus[ACCFG_CMD_STATUS_MAX.toNat]?
      else accfgSwCmdStatus[swStatus.toNat]?
    else deviceStatusStr (status &&& ~~~IDXD_SCMD_SOFTERR_MASK)
  else deviceStatusStr status

/-- `accfg_device_get_cmd_status_str`. -/
def accfgDeviceGetCmdStatusStr {κ : Type} (K : Kernel κ) (d : DevId) (s : Sys κ) :
    Option (Option String) × Sys κ :=
  match accfgDeviceGetCmdStatus K d s with
  | (status, s) => (getCmdStatusStr status, s)

/-- The status has a message. -/
def HasMessage (status : BitVec 32) : Prop := ∃ text, getCmdStatusStr status = some (some text)

/-- The numbers below the last at which the array for the hardware has nothing. -/
def Gap (code : ℕ) : Prop :=
  (0x05 ≤ code ∧ code ≤ 0x0f) ∨ (0x19 ≤ code ∧ code ≤ 0x1f) ∨ code = 0x29 ∨
    (0x2d ≤ code ∧ code ≤ 0x30) ∨ (0x33 ≤ code ∧ code ≤ 0x40)

instance (code : ℕ) : Decidable (Gap code) := inferInstanceAs (Decidable (_ ∨ _))

theorem length_accfgDeviceCmdStatus : accfgDeviceCmdStatus.length = 0x46 := by decide

theorem length_accfgSwCmdStatus : accfgSwCmdStatus.length = 0x0f := by decide

/-- Only at the gaps is there no message for the hardware. -/
theorem accfgDeviceCmdStatus_isSome : ∀ code < 0x46,
    (((accfgDeviceCmdStatus[code]?).getD none).isSome = true ↔ ¬Gap code) := by decide +kernel

/-- The array for the software has a gap in front only. -/
theorem accfgSwCmdStatus_isSome : ∀ code < 0x0f, 0 < code →
    ((accfgSwCmdStatus[code]?).getD none).isSome = true := by decide

/-- There is a message at an index iff what is found there is one. -/
theorem exists_message_iff {r : Option (Option String)} :
    (∃ text, r = some (some text)) ↔ (r.getD none).isSome = true := by
  rcases r with _ | _ | text <;> simp

theorem toNat_hardware (status : BitVec 32) :
    (status &&& ~~~IDXD_SCMD_SOFTERR_MASK).toNat = status.toNat % 2 ^ 31 := by
  have hmask : ~~~IDXD_SCMD_SOFTERR_MASK = 0x7fffffff#32 := by decide
  rw [hmask, BitVec.toNat_and]
  exact Nat.and_two_pow_sub_one_eq_mod status.toNat 31

theorem softerr_iff (status : BitVec 32) :
    status &&& IDXD_SCMD_SOFTERR_MASK ≠ 0#32 ↔ 2 ^ 31 ≤ status.toNat := by
  have hbit : IDXD_SCMD_SOFTERR_MASK = 1#32 <<< 31 := by decide
  rw [hbit, and_bit_ne_zero status (by decide), BitVec.getLsbD,
    Nat.testBit_eq_decide_div_mod_eq, decide_eq_true_eq]
  have := status.isLt
  omega

theorem toNat_scmdStat (status : BitVec 32) :
    (scmdStat status).toNat = status.toNat % 2 ^ 31 / 2 ^ 16 := by
  rw [scmdStat, BitVec.toNat_ushiftRight, toNat_hardware, Nat.shiftRight_eq_div_pow]
  rfl

theorem deviceStatusStr_iff (status : BitVec 32) :
    (∃ text, deviceStatusStr status = some (some text)) ↔ ¬Gap status.toNat := by
  rw [exists_message_iff, deviceStatusStr]
  by_cases hlarge : ACCFG_CMD_STATUS_MAX < status
  · have hgt : 0x45 < status.toNat := BitVec.lt_def.mp hlarge
    have hnot : ¬Gap status.toNat := by
      unfold Gap
      omega
    rw [if_pos hlarge]
    exact iff_of_true (by decide) hnot
  · have hle : status.toNat ≤ 0x45 := Nat.not_lt.mp fun h => hlarge (BitVec.lt_def.mpr h)
    rw [if_neg hlarge]
    exact accfgDeviceCmdStatus_isSome status.toNat (by omega)

/-- A status has a message exactly if what the hardware says is not at a gap. -/
theorem hasMessage_iff (status : BitVec 32) :
    HasMessage status ↔ ¬Gap (status &&& ~~~IDXD_SCMD_SOFTERR_MASK).toNat := by
  rw [HasMessage, getCmdStatusStr]
  by_cases hsoft : status &&& IDXD_SCMD_SOFTERR_MASK ≠ 0#32
  · rw [if_pos hsoft]
    dsimp only
    by_cases hsw : scmdStat status ≠ 0#32
    · -- a status of the driver, or of neither
      have hpos : 0 < (scmdStat status).toNat := by
        rw [Nat.pos_iff_ne_zero]
        exact fun hzero => hsw (BitVec.eq_of_toNat_eq hzero)
      have hnot : ¬Gap (status &&& ~~~IDXD_SCMD_SOFTERR_MASK).toNat := by
        rw [toNat_scmdStat] at hpos
        rw [toNat_hardware, Gap]
        omega
      rw [if_pos hsw, length_accfgSwCmdStatus]
      refine iff_of_true ?_ hnot
      rw [exists_message_iff]
      split
      · decide
      · next hlt => exact accfgSwCmdStatus_isSome _ (Nat.not_le.mp hlt) hpos
    · rw [if_neg hsw]
      exact deviceStatusStr_iff _
  · have hhard : (status &&& ~~~IDXD_SCMD_SOFTERR_MASK).toNat = status.toNat := by
      rw [softerr_iff, Nat.not_le] at hsoft
      rw [toNat_hardware, Nat.mod_eq_of_lt hsoft]
    rw [if_neg hsoft, hhard]
    exact deviceStatusStr_iff status

/-- Nothing was put at 5. -/
theorem not_hasMessage : ¬HasMessage 0x5 := by
  rintro ⟨text, htext⟩
  have hnull : getCmdStatusStr 0x5 = some none := by decide
  rw [hnull] at htext
  exact absurd htext (by simp)

end Accfg
