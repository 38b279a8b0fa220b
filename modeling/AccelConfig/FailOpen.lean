/-
Capabilities that cannot be read.

`add_device` stores a negative error code for an attribute it cannot read.  The
decisions that look at a capability take that for a capability there is: a
device is configurable, of a recent version and has a read buffer limit, and
its sizes are bounded by a number near `UINT_MAX`.

* `holdsErrno_of_unreadable` — what is stored;
* `not_failsClosed` — no decision comes out closed.
-/
import AccelConfig.AddObject
import AccelConfig.ConfigAttr
import AccelConfig.SetterTruth

open CNumeral

namespace Accfg

variable {κ : Type} {K : Kernel κ}

/-! ### What is stored -/

/-- The capabilities of a device that decisions depend on. -/
inductive Capability where
  | configurable
  | version
  | readBufferLimit
  | maxWorkQueuesSize
  | maxBatchSize
  | maxTransferSize
  deriving DecidableEq, Repr

def Capability.file : Capability → String
  | configurable => "configurable"
  | version => "version"
  | readBufferLimit => "read_buffer_limit"
  | maxWorkQueuesSize => "max_work_queues_size"
  | maxBatchSize => "max_batch_size"
  | maxTransferSize => "max_transfer_size"

/-- A file that cannot be opened or read, or that is empty; error codes are
those an `int` can hold. -/
def NoContent (K : Kernel κ) (path : Path) : Prop :=
  (∀ k, ∃ e k', K.openFile path .read k = (.error e, k') ∧ (e : ℕ) < 2 ^ 31) ∨
    ∀ k, (∃ k', K.openFile path .read k = (.ok (), k')) ∧
      ((∃ e k', K.read path k = (.error e, k')) ∨ ∃ k', K.read path k = (.ok [], k'))

/-- An attribute that can be read neither under its name nor under its
deprecated one. -/
def Unreadable (K : Kernel κ) (c : Comp) (name : String) : Prop :=
  NoContent K (.attr c name) ∧ ∀ old, deprecatedAttr name = some old → NoContent K (.attr c old)

/-- A negative error code. -/
def IsErrno (v : ℤ) : Prop := ∃ e : ℕ, 0 < e ∧ e < 2 ^ 31 ∧ v = -e

theorem isErrno_neg {e : Errno} (h : (e : ℕ) < 2 ^ 31) : IsErrno (-(e : ℕ)) := ⟨e, e.pos, h, rfl⟩

theorem isErrno_enxio : IsErrno (-( ENXIO : ℤ)) := ⟨6, by decide, by decide, rfl⟩

/-- Opening a file without content fails with an error code, or leads to a
reading that gives nothing. -/
theorem open_noContent {path : Path} (h : NoContent K path) (s : Sys κ) :
    (∃ s', sysCall (K.openFile path .read s.kernel) s = (none, s') ∧ IsErrno (-(s'.errno : ℤ))) ∨
      ∃ s', sysCall (K.openFile path .read s.kernel) s = (some (), s') ∧
        (readParam K path s').1 = none := by
  obtain h | h := h
  · obtain ⟨e, k', hopen, he⟩ := h s.kernel
    refine .inl ⟨{ s with kernel := k', errno := e }, ?_, isErrno_neg he⟩
    rw [hopen]
    rfl
  · obtain ⟨⟨k', hopen⟩, -⟩ := h s.kernel
    refine .inr ⟨{ s with kernel := k' }, ?_, ?_⟩
    · rw [hopen]
      rfl
    · rw [readParam.eq_def]
      obtain ⟨e, k'', hread⟩ | ⟨k'', hread⟩ := (h k').2
      · simp only [hread, sysCall]
      · simp only [hread, sysCall]

theorem readLong_noContent {path : Path} {s : Sys κ} (h : (readParam K path s).1 = none) :
    IsErrno (readLong K path s).1 := by
  rw [readLong]
  generalize readParam K path s = r at h ⊢
  obtain ⟨v, s₁⟩ := r
  obtain rfl : v = none := h
  exact isErrno_enxio

theorem getParamLong_unreadable {c : Comp} {name : String} (h : Unreadable K c name) (s : Sys κ) :
    IsErrno (accfgGetParamLong K c name s).1 := by
  rw [accfgGetParamLong]
  obtain ⟨s₁, hopen, herrno⟩ | ⟨s₁, hopen, hread⟩ := open_noContent h.1 s
  · rw [hopen]
    dsimp only
    split
    · cases hold : deprecatedAttr name with
      | none => exact herrno
      | some old =>
        dsimp only
        obtain ⟨s₂, hopen₂, herrno₂⟩ | ⟨s₂, hopen₂, hread₂⟩ := open_noContent (h.2 old hold) s₁
        · rw [hopen₂]
          exact herrno₂
        · rw [hopen₂]
          exact readLong_noContent hread₂
    · exact herrno
  · rw [hopen]
    exact readLong_noContent hread

theorem getParamUnsignedLlong_unreadable {c : Comp} {name : String} (h : Unreadable K c name)
    (s : Sys κ) :
    ∃ v, IsErrno v ∧ (accfgGetParamUnsignedLlong K c name s).1 = BitVec.ofInt 64 v := by
  rw [accfgGetParamUnsignedLlong]
  obtain ⟨s₁, hopen, herrno⟩ | ⟨s₁, hopen, hread⟩ := open_noContent h.1 s
  · rw [hopen]
    exact ⟨_, herrno, rfl⟩
  · rw [hopen]
    dsimp only
    generalize readParam K (.attr c name) s₁ = r at hread ⊢
    obtain ⟨v, s₂⟩ := r
    obtain rfl : v = none := hread
    exact ⟨_, isErrno_enxio, rfl⟩

/-- The capability holds a negative error code, as its type has it. -/
def Capability.HoldsErrno (dev : DeviceFields) : Capability → Prop
  | configurable => ∃ v, IsErrno v ∧ dev.configurable = BitVec.ofInt 32 v
  | version => ∃ v, IsErrno v ∧ dev.version = BitVec.ofInt 32 v
  | readBufferLimit => ∃ v, IsErrno v ∧ dev.readBufferLimit = BitVec.ofInt 32 v
  | maxWorkQueuesSize => ∃ v, IsErrno v ∧ dev.maxWorkQueuesSize = BitVec.ofInt 32 v
  | maxBatchSize => ∃ v, IsErrno v ∧ dev.maxBatchSize = BitVec.ofInt 32 v
  | maxTransferSize => ∃ v, IsErrno v ∧ dev.maxTransferSize = BitVec.ofInt 64 v

theorem getInt_unreadable {c : Comp} {name : String} (h : Unreadable K c name) (s : Sys κ) :
    ∃ v, IsErrno v ∧ (getInt K c name s).1 = BitVec.ofInt 32 v :=
  ⟨_, getParamLong_unreadable h s, rfl⟩

theorem getUllongInt_unreadable {c : Comp} {name : String} (h : Unreadable K c name) (s : Sys κ) :
    ∃ v, IsErrno v ∧ (getUllongInt K c name s).1 = BitVec.ofInt 32 v := by
  obtain ⟨v, hv, heq⟩ := getParamUnsignedLlong_unreadable h s
  refine ⟨v, hv, ?_⟩
  have hcut : (getUllongInt K c name s).1
      = (accfgGetParamUnsignedLlong K c name s).1.setWidth 32 := rfl
  rw [hcut, heq]
  refine BitVec.eq_of_toNat_eq ?_
  rw [BitVec.toNat_setWidth, BitVec.toNat_ofInt, BitVec.toNat_ofInt]
  omega

/-- The fields of a new device are read one after the other. -/
theorem holdsErrno_readDevice {d : DevId} (cap : Capability)
    (h : Unreadable K (.device d) cap.file) (s : Sys κ) :
    cap.HoldsErrno (readDevice K d s).1 := by
  cases cap with
  | configurable => exact getUllongInt_unreadable h _
  | version => exact getUllongInt_unreadable h _
  | readBufferLimit => exact getInt_unreadable h _
  | maxWorkQueuesSize => exact getInt_unreadable h _
  | maxBatchSize => exact getInt_unreadable h _
  | maxTransferSize => exact getParamUnsignedLlong_unreadable h _

theorem addDevice_object {d : DevId} {s s' : Sys κ} {dev : DeviceFields}
    (h : addDevice K d s = (.object dev, s')) : ∃ s₁, dev = (readDevice K d s₁).1 := by
  rw [addDevice] at h
  generalize sysCall (K.openDir (.device d) s.kernel) s = r at h
  obtain ⟨_ | ⟨⟩, s₁⟩ := r
  · exact absurd (Prod.mk.inj h).1 (by simp)
  dsimp only at h
  generalize accfgGetParamLong K (.device d) "cmd_status" _ = r at h
  obtain ⟨v, s₂⟩ := r
  dsimp only at h
  rcases hread : readDevice K d { s₂ with initCmdStatus := v } with ⟨dev', s₃⟩
  simp only [hread] at h
  generalize sysCall (K.realpath (.attr (.device d) "") s₃.kernel) s₃ = r at h
  obtain ⟨_ | ⟨⟩, s₄⟩ := r
  · exact absurd (Prod.mk.inj h).1 (by simp)
  · refine ⟨{ s₂ with initCmdStatus := v }, ?_⟩
    rw [hread]
    exact (Added.object.inj (Prod.mk.inj h).1).symm

theorem holdsErrno_of_unreadable {d : DevId} {s s' : Sys κ} {dev : DeviceFields}
    (hadd : addDevice K d s = (.object dev, s')) {cap : Capability}
    (h : Unreadable K (.device d) cap.file) : cap.HoldsErrno dev := by
  obtain ⟨s₁, rfl⟩ := addDevice_object hadd
  exact holdsErrno_readDevice cap h s₁

/-! ### The decisions -/

/-- The setters that a device must be configurable for. -/
inductive GatedSetter where
  | threshold
  | maxTransferSize
  | mode
  deriving DecidableEq, Repr

/-- A call of a gated setter. -/
def GatedSetter.setting (c : ChildId) (val : BitVec 64) (text : String) : GatedSetter → Setting
  | threshold => .wq .threshold c (val.setWidth 32)
  | maxTransferSize => .wqMaxTransferSize c val
  | mode => .wqStr .mode c text

/-- The decisions that look at a capability. -/
inductive Decision where
  | setter (g : GatedSetter)
  | configGroupTrafficClass
  | loadTrafficClass
  | loadUseReadBufferLimit
  | configWqSize
  | configWqMaxBatchSize
  | configWqMaxTransferSize
  deriving DecidableEq, Repr

namespace Decision

/-- The capability that is looked at. -/
def capability : Decision → Capability
  | setter _ => .configurable
  | configGroupTrafficClass | loadTrafficClass => .version
  | loadUseReadBufferLimit => .readBufferLimit
  | configWqSize => .maxWorkQueuesSize
  | configWqMaxBatchSize => .maxBatchSize
  | configWqMaxTransferSize => .maxTransferSize

/-- A call that changes no file. -/
def Silent (w : World κ) (r : Exit × World κ) : Prop := r.2.sys.written = w.sys.written

/-- The decision comes out as for a device without the capability, whatever the
kernel, the component and the values. -/
def FailsClosed (dev : DeviceFields) : Decision → Prop
  | setter g => ∀ (κ : Type) (K : Kernel κ) (w : World κ) c val text, w.device c.dev = dev →
    Silent w ((g.setting c val text).call K w)
  | configGroupTrafficClass => ∀ (κ : Type) (K : Kernel κ) (w : World κ) c (p : GroupParam),
    w.device c.dev = dev → p.trafficClassA ≠ INT_MAX ∨ p.trafficClassB ≠ INT_MAX →
    Silent w (accelConfigParseGroupAttribs K c p w)
  | loadTrafficClass => ∀ (group : GroupFields) val,
    groupIsWritable dev group val .trafficClassA = false ∧
      groupIsWritable dev group val .trafficClassB = false
  | loadUseReadBufferLimit => ∀ (group : GroupFields) val,
    groupIsWritable dev group val .useReadBufferLimit = false
  | configWqSize => ∀ p : WqParam, p.wqSize ≠ INT_MAX → p.refused dev = true
  | configWqMaxBatchSize => ∀ p : WqParam, p.maxBatchSize ≠ INT_MAX → p.refused dev = true
  | configWqMaxTransferSize =>
    ∀ p : WqParam, p.maxTransferSize ≠ 0x7fffffff → p.refused dev = true

end Decision

theorem ofInt_ne_zero {v : ℤ} (h : IsErrno v) : BitVec.ofInt 32 v ≠ 0 := by
  obtain ⟨e, hpos, hlt, rfl⟩ := h
  intro heq
  have hnat := congrArg BitVec.toNat heq
  rw [BitVec.toNat_ofInt] at hnat
  simp only [BitVec.ofNat_eq_ofNat, BitVec.toNat_ofNat] at hnat
  omega

/-- As an unsigned number, an error code is at least `2 ^ 31`. -/
theorem toNat_ofInt_errno {v : ℤ} (h : IsErrno v) : 2 ^ 31 < (BitVec.ofInt 32 v).toNat := by
  obtain ⟨e, hpos, hlt, rfl⟩ := h
  rw [BitVec.toNat_ofInt]
  omega

theorem toNat_ofInt_errno_long {v : ℤ} (h : IsErrno v) : 2 ^ 31 < (BitVec.ofInt 64 v).toNat := by
  obtain ⟨e, hpos, hlt, rfl⟩ := h
  rw [BitVec.toNat_ofInt]
  omega

theorem not_lt_version {v : ℤ} (h : IsErrno v) :
    ¬BitVec.ofInt 32 v < ACCFG_DEVICE_VERSION_2 := by
  have hbig := toNat_ofInt_errno h
  have hsmall : ACCFG_DEVICE_VERSION_2.toNat < 2 ^ 31 := by decide
  rw [BitVec.lt_def]
  omega

/-- A world in which every device looks the same and every call succeeds. -/
def uniformWorld (dev : DeviceFields) : World Unit :=
  { Setting.blankWorld with device := fun _ => dev }

def someChild : ChildId := ⟨⟨.dsa, 0⟩, 0⟩

theorem not_silent_setter {dev : DeviceFields} (hdev : dev.configurable ≠ 0) (g : GatedSetter) :
    ¬Decision.Silent (uniformWorld dev)
      ((g.setting someChild 0 "shared").call Setting.grantingKernel (uniformWorld dev)) := by
  rw [Decision.Silent]
  cases g with
  | threshold =>
    have hgate : ¬(((uniformWorld dev).device someChild.dev).configurable = 0 ∧
        WqField.threshold = .threshold) := fun h => hdev h.1
    rw [GatedSetter.setting, Setting.call_wq .threshold someChild _ hgate]
    exact List.cons_ne_nil _ _
  | maxTransferSize =>
    rw [GatedSetter.setting, Setting.call_wqMaxTransferSize someChild _ hdev]
    exact List.cons_ne_nil _ _
  | mode =>
    rw [GatedSetter.setting]
    simp only [Setting.call, accfgWqSetStrField]
    rw [if_neg (by decide), if_neg fun h => hdev h.1]
    exact List.cons_ne_nil _ _

theorem not_silent_configGroup {dev : DeviceFields} (hdev : ¬dev.version < ACCFG_DEVICE_VERSION_2) :
    ¬Decision.Silent (uniformWorld dev)
      (accelConfigParseGroupAttribs Setting.grantingKernel someChild { trafficClassA := 1 }
        (uniformWorld dev)) := by
  have hrefused : GroupParam.refused { trafficClassA := 1 } dev = false := by
    simp only [GroupParam.refused, hdev]
    decide
  rw [Decision.Silent, accelConfigParseGroupAttribs]
  have hdevice : (uniformWorld dev).device someChild.dev = dev := rfl
  rw [hdevice, hrefused]
  exact List.cons_ne_nil _ _

/-- Parameters of which only sizes were given are refused for the sizes only. -/
theorem refused_sizes {dev : DeviceFields} {size batch : BitVec 32} {transfer : BitVec 64}
    (hsize : ¬(dev.maxWorkQueuesSize < size ∧ size ≠ INT_MAX))
    (hbatch : ¬((batch < 1 ∨ dev.maxBatchSize < batch) ∧ batch ≠ INT_MAX))
    (htransfer : ¬((transfer < 1 ∨ dev.maxTransferSize < transfer) ∧ transfer ≠ 0x7fffffff)) :
    WqParam.refused { wqSize := size, maxBatchSize := batch, maxTransferSize := transfer } dev
      = false := by
  have hgroup : ¬(dev.maxGroups.toInt ≤ INT_MAX.toInt ∧ INT_MAX ≠ INT_MAX) := fun h => h.2 rfl
  simp only [WqParam.refused, hsize, hgroup, hbatch, htransfer]
  decide

theorem not_lt_one {n : ℕ} {x : BitVec n} (h : 2 ^ 31 < x.toNat) : ¬x < 1 := by
  intro hlt
  rw [BitVec.lt_def, BitVec.ofNat_eq_ofNat, BitVec.toNat_ofNat] at hlt
  exact absurd (hlt.trans_le (Nat.mod_le 1 _)) (by omega)

/-- No decision comes out closed on a device whose capability cannot be read. -/
theorem not_failsClosed (K : Kernel κ) (d : DevId) (s s' : Sys κ) (dev : DeviceFields)
    (hadd : addDevice K d s = (.object dev, s')) (decision : Decision)
    (h : Unreadable K (.device d) decision.capability.file) : ¬decision.FailsClosed dev := by
  have herrno := holdsErrno_of_unreadable hadd h
  intro hclosed
  cases decision with
  | setter g =>
    obtain ⟨v, hv, heq⟩ := herrno
    refine not_silent_setter (heq ▸ ofInt_ne_zero hv) g ?_
    exact hclosed Unit Setting.grantingKernel (uniformWorld dev) someChild 0 "shared" rfl
  | configGroupTrafficClass =>
    obtain ⟨v, hv, heq⟩ := herrno
    refine not_silent_configGroup (heq ▸ not_lt_version hv) ?_
    exact hclosed Unit Setting.grantingKernel (uniformWorld dev) someChild
      { trafficClassA := 1 } rfl
      (.inl (by decide))
  | loadTrafficClass =>
    obtain ⟨v, hv, heq⟩ := herrno
    have hversion := not_lt_version hv
    rw [← heq] at hversion
    have hwritable := (hclosed (fun _ => 0) 0).1
    simp only [groupIsWritable, hversion] at hwritable
    exact absurd hwritable (by decide)
  | loadUseReadBufferLimit =>
    obtain ⟨v, hv, heq⟩ := herrno
    have hlimit := ofInt_ne_zero hv
    rw [← heq] at hlimit
    have hwritable := hclosed (fun _ => 0) 0
    exact of_decide_eq_false hwritable hlimit
  | configWqSize =>
    obtain ⟨v, hv, heq⟩ := herrno
    have hsize := not_lt_one (heq ▸ toNat_ofInt_errno hv : 2 ^ 31 < dev.maxWorkQueuesSize.toNat)
    have hrefused := hclosed { wqSize := 1 } (by decide)
    rw [refused_sizes (fun h => hsize h.1) (fun h => h.2 rfl) fun h => h.2 rfl] at hrefused
    exact absurd hrefused (by simp)
  | configWqMaxBatchSize =>
    obtain ⟨v, hv, heq⟩ := herrno
    have hbatch := not_lt_one (heq ▸ toNat_ofInt_errno hv : 2 ^ 31 < dev.maxBatchSize.toNat)
    have hrefused := hclosed { maxBatchSize := 1 } (by decide)
    rw [refused_sizes (fun h => h.2 rfl) (fun h => h.1.elim (by decide) hbatch) fun h => h.2 rfl]
      at hrefused
    exact absurd hrefused (by simp)
  | configWqMaxTransferSize =>
    obtain ⟨v, hv, heq⟩ := herrno
    have htransfer :=
      not_lt_one (heq ▸ toNat_ofInt_errno_long hv : 2 ^ 31 < dev.maxTransferSize.toNat)
    have hrefused := hclosed { maxTransferSize := 1 } (by decide)
    rw [refused_sizes (fun h => h.2 rfl) (fun h => h.2 rfl) fun h => h.1.elim (by decide) htransfer]
      at hrefused
    exact absurd hrefused (by simp)

/-! ### A device without attributes -/

/-- A kernel under which no attribute is there. -/
def attributelessKernel : Kernel Unit :=
  { Setting.grantingKernel with openFile := fun _ _ k => (.error .noEntry, k) }

theorem unreadable_attributeless (c : Comp) (name : String) :
    Unreadable attributelessKernel c name :=
  ⟨.inl fun k => ⟨2, k, rfl, by decide⟩, fun _ _ => .inl fun k => ⟨2, k, rfl, by decide⟩⟩

/-- What `add_device` makes of such a device. -/
def attributelessDevice : Added DeviceFields × Sys Unit :=
  addDevice attributelessKernel ⟨.dsa, 0⟩ ⟨(), 0, 0, none, []⟩

def Added.toOption {α : Type} : Added α → Option α
  | object a => some a
  | null | die => none

theorem not_failsClosed_attributeless : ∃ dev, attributelessDevice.1.toOption = some dev ∧
    ¬(Decision.setter .threshold).FailsClosed dev := by
  have hsome : attributelessDevice.1.toOption.isSome = true := by decide
  rcases hadd : attributelessDevice with ⟨_ | _ | _, s'⟩
  · next dev =>
    exact ⟨dev, rfl, not_failsClosed attributelessKernel ⟨.dsa, 0⟩ _ s' dev hadd _
      (unreadable_attributeless _ _)⟩
  · rw [hadd] at hsome
    exact absurd hsome (by simp [Added.toOption])
  · rw [hadd] at hsome
    exact absurd hsome (by simp [Added.toOption])

/-- Its work queues' thresholds are written although it cannot be told whether
it is configurable. -/
theorem not_failsClosed_counterexample : ∃ dev, attributelessDevice.1.toOption = some dev ∧
    dev.configurable = -2 ∧
    ¬Decision.Silent (uniformWorld dev)
      ((GatedSetter.setting someChild 0 "shared" .threshold).call Setting.grantingKernel
        (uniformWorld dev)) := by
  have hvalue : attributelessDevice.1.toOption.map (·.configurable) = some (-2) := by decide
  obtain ⟨dev, hdev, hconf⟩ := Option.map_eq_some_iff.mp hvalue
  refine ⟨dev, hdev, hconf, not_silent_setter ?_ .threshold⟩
  rw [hconf]
  decide

end Accfg
