/-
When a device or work queue may be taken from its driver.

Without force, a component whose clients are counted as more than none is left
alone.  A count that cannot be read comes back as a negative error code, which
is no more than none either: `guarded_iff` says exactly when the guard holds.

* `unbindDriver_written` — disabling writes to the unbind file or nowhere;
* `accfgWqControl_zero` — a work queue's state is what it should be if the
  result is 0.
-/
import AccelConfig.Control

open CNumeral

namespace Accfg

variable {κ : Type} (K : Kernel κ)

/-- The state after the unbind file was looked up. -/
def lookedUp (c : Comp) (bus : String) (s : Sys κ) : Sys κ :=
  (sysCall (K.realpath (.unbind bus c.devname) s.kernel) s).2

/-- The text of the clients attribute, if it can be read. -/
def readClients (c : Comp) (s : Sys κ) : Option (List Char) :=
  match sysCall (K.openFile (.attr c "clients") .read s.kernel) s with
  | (none, _) => none
  | (some (), s) =>
    match sysCall (K.read (.attr c "clients") s.kernel) s with
    | (none, _) => none
    | (some buf, _) => if SYSFS_ATTR_SIZE ≤ buf.length then none else some (chomp buf)

/-- `atoi`. -/
def atoi (buf : List Char) : ℤ := (scanD buf).elim 0 (·.1)

variable {K}

/-- What `sysfs_read_attr` makes of an attribute that can or cannot be read. -/
theorem sysfsReadAttr_clients (c : Comp) (s : Sys κ) :
    (∀ buf, readClients K c s = some buf →
      ∃ s', sysfsReadAttr K (.attr c "clients") s = (0, buf, s')) ∧
    (readClients K c s = none →
      ∃ s', sysfsReadAttr K (.attr c "clients") s = (-s'.errno, [], s')) := by
  rw [readClients, sysfsReadAttr]
  obtain ⟨_ | ⟨⟩, s₁⟩ := sysCall (K.openFile (.attr c "clients") .read s.kernel) s
  · exact ⟨by simp, fun _ => ⟨s₁, rfl⟩⟩
  dsimp only
  obtain ⟨_ | text, s₂⟩ := sysCall (K.read (.attr c "clients") s₁.kernel) s₁
  · exact ⟨by simp, fun _ => ⟨s₂, rfl⟩⟩
  dsimp only
  split
  · exact ⟨by simp, fun _ => ⟨s₂, rfl⟩⟩
  · refine ⟨fun buf h => ?_, by simp⟩
    obtain rfl := Option.some.inj h
    exact ⟨s₂, rfl⟩

theorem getClients_of_some {c : Comp} {s : Sys κ} {buf : List Char}
    (h : readClients K c s = some buf) : (getClients K c s).1 = atoi buf := by
  obtain ⟨s', hread⟩ := (sysfsReadAttr_clients c s).1 buf h
  rw [getClients, hread]
  rfl

/-- A count that cannot be read is not positive. -/
theorem getClients_of_none {c : Comp} {s : Sys κ} (h : readClients K c s = none) :
    (getClients K c s).1 ≤ 0 := by
  obtain ⟨s', hread⟩ := (sysfsReadAttr_clients c s).2 h
  rw [getClients, hread]
  dsimp only
  split
  · omega
  · -- `errno` was 0: an empty text has no number in it
    have hscan : scanD [] = none := by decide
    simp [hscan]

theorem Quiet.getClients {R : Sys κ → Sys κ → Prop} (hR : Quiet K R) (c : Comp) (s : Sys κ) :
    R s (getClients K c s).2 := by
  have h := hR.sysfsReadAttr (.attr c "clients") s
  rw [Accfg.getClients]
  generalize Accfg.sysfsReadAttr K (.attr c "clients") s = r at h ⊢
  obtain ⟨rc, buf, s₁⟩ := r
  dsimp only
  split
  · exact hR.trans h (hR.saveLastError c s₁)
  · exact h

theorem writeAttr_written (path : Path) (buf : List Char) (s : Sys κ) :
    (writeAttr K path buf s).2.written =
      match (writeOutcome K path .write buf s.kernel).1 with
      | .taken n => s.written ++ [(path, buf.take n)]
      | _ => s.written := by
  rw [writeAttr, writeFile_eq]
  generalize writeOutcome K path .write buf s.kernel = r
  obtain ⟨_ | _ | _, k⟩ := r <;> rfl

/-! ### Disabling -/

variable (K)

/-- The unbind file is there. -/
def Bound (c : Comp) (bus : String) (s : Sys κ) : Prop :=
  (sysCall (K.realpath (.unbind bus c.devname) s.kernel) s).1 = some ()

/-- The kernel takes the name that is written to the unbind file once the
clients are counted. -/
def UnbindTaken (c : Comp) (bus : String) (s : Sys κ) : Prop :=
  ∃ n, (writeOutcome K (.unbind bus c.devname) .write c.devname.toList
    (getClients K c (lookedUp K c bus s)).2.kernel).1 = .taken n

variable {K}

theorem unbindDriver_unbound {c : Comp} {bus : String} {s : Sys κ} (h : ¬Bound K c bus s)
    (force : Bool) :
    unbindDriver K c bus force s =
      (-((lookedUp K c bus s).errno : ℤ), lookedUp K c bus s) := by
  rw [unbindDriver, lookedUp]
  rw [Bound] at h
  generalize sysCall (K.realpath (.unbind bus c.devname) s.kernel) s = r at h ⊢
  obtain ⟨_ | ⟨⟩, s₁⟩ := r
  · rfl
  · exact absurd rfl h

theorem unbindDriver_bound {c : Comp} {bus : String} {s : Sys κ} (h : Bound K c bus s)
    (force : Bool) :
    unbindDriver K c bus force s =
      let r := getClients K c (lookedUp K c bus s)
      if r.1 > 0 ∧ force = false then (-(EPERM : ℤ), r.2)
      else
        match writeAttr K (.unbind bus c.devname) c.devname.toList r.2 with
        | (rc, s) => if rc < 0 then (rc, saveLastError K c s) else (0, s) := by
  rw [unbindDriver, lookedUp]
  rw [Bound] at h
  generalize sysCall (K.realpath (.unbind bus c.devname) s.kernel) s = r at h ⊢
  obtain ⟨_ | ⟨⟩, s₁⟩ := r
  · exact absurd h (by simp)
  · rfl

theorem lookedUp_written (c : Comp) (bus : String) (s : Sys κ) :
    (lookedUp K c bus s).written = s.written :=
  (sysCall_readOnly (K.realpath (.unbind bus c.devname) s.kernel) s).written

/-- What is written after the clients were counted. -/
theorem written_after_count (c : Comp) (bus : String) (s : Sys κ) :
    let r := writeAttr K (.unbind bus c.devname) c.devname.toList
      (getClients K c (lookedUp K c bus s)).2
    (if r.1 < 0 then (r.1, saveLastError K c r.2) else ((0 : ℤ), r.2)).2.written =
      match (writeOutcome K (.unbind bus c.devname) .write c.devname.toList
        (getClients K c (lookedUp K c bus s)).2.kernel).1 with
      | .taken n => s.written ++ [(.unbind bus c.devname, c.devname.toList.take n)]
      | _ => s.written := by
  have hcount : (getClients K c (lookedUp K c bus s)).2.written = s.written :=
    (quiet_readOnly.getClients c _).written.trans (lookedUp_written c bus s)
  dsimp only
  rw [← hcount, ← writeAttr_written]
  split
  · exact (quiet_readOnly.saveLastError c _).written
  · rfl

/-- Disabling writes the name to the unbind file, or nothing anywhere. -/
theorem unbindDriver_written (c : Comp) (bus : String) (force : Bool) (s : Sys κ) :
    (unbindDriver K c bus force s).2.written = s.written ∨
      ∃ n, (unbindDriver K c bus force s).2.written
        = s.written ++ [(.unbind bus c.devname, c.devname.toList.take n)] := by
  by_cases hb : Bound K c bus s
  · rw [unbindDriver_bound hb]
    dsimp only
    split
    · exact .inl ((quiet_readOnly.getClients c _).written.trans (lookedUp_written c bus s))
    · have hw := @written_after_count _ K c bus s
      dsimp only at hw
      rw [hw]
      split
      · next n _ => exact .inr ⟨n, rfl⟩
      · exact .inl rfl
  · rw [unbindDriver_unbound hb]
    exact .inl (lookedUp_written c bus s)

theorem unbindDriver_written_ne {c : Comp} {bus : String} {force : Bool} {s : Sys κ} :
    (unbindDriver K c bus force s).2.written ≠ s.written ↔
      Bound K c bus s ∧ UnbindTaken K c bus s ∧
        ¬((getClients K c (lookedUp K c bus s)).1 > 0 ∧ force = false) := by
  by_cases hb : Bound K c bus s
  · rw [unbindDriver_bound hb]
    dsimp only
    split
    · next hrefused =>
      have hw : (getClients K c (lookedUp K c bus s)).2.written = s.written :=
        (quiet_readOnly.getClients c _).written.trans (lookedUp_written c bus s)
      exact ⟨fun h => absurd hw h, fun h => absurd hrefused h.2.2⟩
    · next hpassed =>
      have hw := @written_after_count _ K c bus s
      dsimp only at hw
      rw [hw, UnbindTaken]
      constructor
      · intro hne
        refine ⟨hb, ?_, hpassed⟩
        split at hne
        · next n hn => exact ⟨n, hn⟩
        · exact absurd rfl hne
      · rintro ⟨-, ⟨n, hn⟩, -⟩
        rw [hn]
        simp
  · rw [unbindDriver_unbound hb]
    exact ⟨fun h => absurd (lookedUp_written c bus s) h, fun h => absurd h.1 hb⟩

variable (K)

/-- The guard: without force, something is written only if the clients can be
read and there are none. -/
def Guarded (c : Comp) (bus : String) (s : Sys κ) : Prop :=
  (unbindDriver K c bus false s).2.written ≠ s.written →
    ∃ buf, readClients K c (lookedUp K c bus s) = some buf ∧ atoi buf = 0

/-- A count that is neither unreadable nor negative. -/
def Countable (c : Comp) (bus : String) (s : Sys κ) : Prop :=
  ∃ buf, readClients K c (lookedUp K c bus s) = some buf ∧ 0 ≤ atoi buf

variable {K}

/-- The guard holds where there is nothing to unbind from, or the count makes
sense, or the kernel takes no name. -/
theorem guarded_iff (c : Comp) (bus : String) (s : Sys κ) :
    Guarded K c bus s ↔ ¬Bound K c bus s ∨ Countable K c bus s ∨ ¬UnbindTaken K c bus s := by
  rw [Guarded, unbindDriver_written_ne]
  constructor
  · intro hguard
    by_cases hb : Bound K c bus s
    · refine .inr ?_
      by_cases htaken : UnbindTaken K c bus s
      · refine .inl ?_
        by_cases hcount : (getClients K c (lookedUp K c bus s)).1 > 0
        · cases hread : readClients K c (lookedUp K c bus s) with
          | none => exact absurd (getClients_of_none hread) (by omega)
          | some buf =>
            rw [getClients_of_some hread] at hcount
            exact ⟨buf, hread, by omega⟩
        · obtain ⟨buf, hread, hzero⟩ := hguard ⟨hb, htaken, fun h => hcount h.1⟩
          exact ⟨buf, hread, by omega⟩
      · exact .inr htaken
    · exact .inl hb
  · rintro (hb | ⟨buf, hread, hnonneg⟩ | htaken) ⟨hb', htaken', hpassed⟩
    · exact absurd hb' hb
    · have hcount : ¬(getClients K c (lookedUp K c bus s)).1 > 0 := fun h => hpassed ⟨h, rfl⟩
      rw [getClients_of_some hread] at hcount
      exact ⟨buf, hread, by omega⟩
    · exact absurd htaken' htaken

/-! ### Work queues -/

theorem Quiet.wqGetState {R : Sys κ → Sys κ → Prop} (hR : Quiet K R) (c : ChildId) (s : Sys κ) :
    R s (accfgWqGetState K c s).2 := by
  have h := hR.sysfsReadAttr (.attr (.wq c) "state") s
  rw [accfgWqGetState]
  generalize Accfg.sysfsReadAttr K (.attr (.wq c) "state") s = r at h ⊢
  obtain ⟨rc, buf, s₁⟩ := r
  dsimp only
  split
  · exact hR.trans h (hR.saveLastError _ s₁)
  · split
    · exact h
    · split
      · exact h
      · split
        · exact h
        · split <;> exact h

theorem Quiet.verifyState {R : Sys κ → Sys κ → Prop} (hR : Quiet K R) (c : ChildId)
    (flag : ControlFlag) (s : Sys κ) : R s (verifyState K c flag s).2 := by
  have h := hR.wqGetState c s
  rw [Accfg.verifyState, accfgWqStateExpected]
  generalize accfgWqGetState K c s = r at h ⊢
  obtain ⟨state, s₁⟩ := r
  dsimp only
  cases hstate : decide (state = expectedState flag) with
  | false => exact h
  | true =>
    have h₂ := hR.trans h (hR.query (.openDir (.wq c)) s₁)
    dsimp only
    rw [accfgWqRetrieveCdevMinor]
    generalize sysCall (K.openDir (.wq c) s₁.kernel) s₁ = r at h₂ ⊢
    obtain ⟨_ | ⟨⟩, s₂⟩ := r
    · exact h₂
    · exact hR.trans h₂ (hR.getParamLong _ _ s₂)

/-- The result is 0 only where the state that was read is the right one. -/
theorem verifyState_zero {c : ChildId} {flag : ControlFlag} {s : Sys κ}
    (h : (verifyState K c flag s).1 = 0) : (accfgWqGetState K c s).1 = expectedState flag := by
  rw [verifyState, accfgWqStateExpected] at h
  generalize accfgWqGetState K c s = r at h ⊢
  obtain ⟨state, s₁⟩ := r
  dsimp only at h ⊢
  cases hstate : decide (state = expectedState flag) with
  | true => exact of_decide_eq_true hstate
  | false =>
    rw [hstate] at h
    exact absurd h (show (-( ENXIO : ℤ)) ≠ 0 by decide)

theorem accfgWqControl_zero {compat : Bool} {bus : String} {c : ChildId} {wq : WqFields}
    {flag : ControlFlag} {force : Bool} {s : Sys κ}
    (h : (accfgWqControl K compat bus c wq flag force s).1 = 0) :
    (accfgWqGetState K c (switchWq K compat bus c wq flag force s).2).1 = expectedState flag := by
  rw [accfgWqControl] at h
  generalize switchWq K compat bus c wq flag force s = r at h ⊢
  obtain ⟨rc, s₁⟩ := r
  dsimp only at h ⊢
  split at h
  · next hrc => exact absurd h hrc.ne
  · exact verifyState_zero h

/-- What `accfg_wq_control` writes, its first half writes. -/
theorem accfgWqControl_written (compat : Bool) (bus : String) (c : ChildId) (wq : WqFields)
    (flag : ControlFlag) (force : Bool) (s : Sys κ) :
    (accfgWqControl K compat bus c wq flag force s).2.written =
      (switchWq K compat bus c wq flag force s).2.written := by
  rw [accfgWqControl]
  generalize switchWq K compat bus c wq flag force s = r
  obtain ⟨rc, s₁⟩ := r
  dsimp only
  split
  · rfl
  · exact (quiet_readOnly.verifyState c flag s₁).written

/-! ### Both -/

variable (K)

/-- Disabling one component: without force it is guarded; and nothing but the
unbind file is modified, with or without. -/
structure DisablesOnlyIdle (disable : Bool → Sys κ → ℤ × Sys κ) (c : Comp) (bus : String)
    (s : Sys κ) : Prop where
  guard : (disable false s).2.written ≠ s.written →
    ∃ buf, readClients K c (lookedUp K c bus s) = some buf ∧ atoi buf = 0
  written : ∀ force, (disable force s).2.written = s.written ∨
    ∃ n, (disable force s).2.written
      = s.written ++ [(.unbind bus c.devname, c.devname.toList.take n)]

/-- Disabling a device and a work queue, and what enabling and disabling a work
queue report. -/
structure ControlsSafely (compat : Bool) (node : DeviceNode) (bus : String) (c : ChildId)
    (wq : WqFields) (s : Sys κ) : Prop where
  onDevice : DisablesOnlyIdle K (accfgDeviceDisable K node) (.device node.id) node.bus s
  onWq : DisablesOnlyIdle K (accfgWqDisable K compat bus c wq) (.wq c) bus s
  enabled : (accfgWqEnable K compat bus c wq s).1 = 0 →
    (accfgWqGetState K c (switchWq K compat bus c wq .enable false s).2).1 = .enabled
  disabled : ∀ force, (accfgWqDisable K compat bus c wq force s).1 = 0 →
    (accfgWqGetState K c (switchWq K compat bus c wq .disable force s).2).1 = .disabled

/-- Where the guard of `unbindDriver` holds. -/
def CountsClients (c : Comp) (bus : String) (s : Sys κ) : Prop :=
  ¬Bound K c bus s ∨ Countable K c bus s ∨ ¬UnbindTaken K c bus s

variable {K}

theorem disablesOnlyIdle_iff {disable : Bool → Sys κ → ℤ × Sys κ} {c : Comp} {bus : String}
    {s : Sys κ}
    (h : ∀ force, (disable force s).2.written = (unbindDriver K c bus force s).2.written) :
    DisablesOnlyIdle K disable c bus s ↔ CountsClients K c bus s := by
  rw [CountsClients, ← guarded_iff, Guarded]
  constructor
  · intro hd
    rw [← h]
    exact hd.guard
  · intro hg
    refine ⟨by rwa [h], fun force => ?_⟩
    rw [h]
    exact unbindDriver_written c bus force s

/-- Devices and work queues are controlled safely exactly where their clients
can be counted when it matters. -/
theorem controlsSafely_iff (K : Kernel κ) (compat : Bool) (node : DeviceNode) (bus : String)
    (c : ChildId) (wq : WqFields) (s : Sys κ) :
    ControlsSafely K compat node bus c wq s ↔
      CountsClients K (.device node.id) node.bus s ∧ CountsClients K (.wq c) bus s := by
  have hdevice := @disablesOnlyIdle_iff _ K (accfgDeviceDisable K node) (.device node.id) node.bus s
    fun force => by rw [accfgDeviceDisable_eq]
  have hwq := @disablesOnlyIdle_iff _ K (accfgWqDisable K compat bus c wq) (.wq c) bus s
    fun force => accfgWqControl_written compat bus c wq .disable force s
  constructor
  · intro h
    exact ⟨hdevice.mp h.onDevice, hwq.mp h.onWq⟩
  · rintro ⟨hd, hw⟩
    exact ⟨hdevice.mpr hd, hwq.mpr hw, accfgWqControl_zero, fun _ => accfgWqControl_zero⟩

/-! ### Clients that cannot be counted -/

/-- A kernel on which the clients of devices cannot be read. -/
def clientlessKernel : Kernel Unit where
  access _ k := (.ok (), k)
  openFile path _ k :=
    if path = .attr (.device ⟨.dsa, 0⟩) "clients" then (.error 13, k) else (.ok (), k)
  openDir _ k := (.ok (), k)
  read _ k := (.ok "0\n".toList, k)
  write _ buf k := (.ok buf.length, k)
  lstat _ k := (.ok (), k)
  realpath _ k := (.ok (), k)

/-- The device is disabled although its clients cannot be read. -/
theorem not_controlsSafely_clientless :
    ¬ControlsSafely clientlessKernel false ⟨⟨.dsa, 0⟩, "dsa", [], [], []⟩ "dsa" ⟨⟨.dsa, 0⟩, 0⟩
      ⟨fun _ => 0, 0, fun _ => none, .none⟩ ⟨(), 0, 0, none, []⟩ := by
  intro h
  obtain ⟨buf, hread, -⟩ := h.onDevice.guard (by decide)
  have hnone : readClients clientlessKernel (.device ⟨.dsa, 0⟩)
      (lookedUp clientlessKernel (.device ⟨.dsa, 0⟩) "dsa" ⟨(), 0, 0, none, []⟩) = none := rfl
  exact absurd (hnone.symm.trans hread) (by simp)

end Accfg
