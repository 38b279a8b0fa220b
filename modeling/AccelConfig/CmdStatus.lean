/-
What a device's command status depends on.

`accfg_device_get_cmd_status` hides a value that is the one found when the
devices were enumerated, since clearing it may have failed then.  What was
found is kept in one variable, which each `add_device` overwrites; and a range
error is looked for in `errno`, which is not reset first.  So the answer for a
device depends on the device that was added last, and on earlier calls.

* `initCmdStatus_devicesInit` — what the variable holds after enumeration;
* `cmdStatus_agree_iff` — exactly when two runs agree on a device.
-/
import AccelConfig.EnumerateInv

open CNumeral

namespace Accfg

variable {κ α β : Type} {K : Kernel κ}

/-! ### Who writes the variable -/

/-- A program that leaves `init_cmd_status` alone. -/
def KeepsInit (m : StateM (Sys κ) α) : Prop := ∀ s, (m s).2.initCmdStatus = s.initCmdStatus

theorem KeepsInit.pure (a : α) : KeepsInit (Pure.pure a : StateM (Sys κ) α) := fun _ => rfl

theorem KeepsInit.bind {m : StateM (Sys κ) α} {f : α → StateM (Sys κ) β} (hm : KeepsInit m)
    (hf : ∀ a, KeepsInit (f a)) : KeepsInit (m >>= f) :=
  fun s => (hf (m s).1 (m s).2).trans (hm s)

theorem sysCall_init (r : Except Errno α × κ) (s : Sys κ) :
    (sysCall r s).2.initCmdStatus = s.initCmdStatus := by
  obtain ⟨_ | _, k⟩ := r <;> rfl

theorem quiet_init : Quiet K fun s s' => s'.initCmdStatus = s.initCmdStatus where
  refl _ := rfl
  trans h₁ h₂ := h₂.trans h₁
  query _ s := sysCall_init _ s
  errno _ _ _ := rfl
  errorCtx _ _ := rfl

theorem keepsInit_getInt (c : Comp) (name : String) : KeepsInit (getInt K c name) :=
  fun s => quiet_init.getParamLong c name s

theorem keepsInit_getUllongInt (c : Comp) (name : String) : KeepsInit (getUllongInt K c name) :=
  fun s => quiet_init.getParamUnsignedLlong c name s

theorem keepsInit_getUllong (c : Comp) (name : String) :
    KeepsInit (accfgGetParamUnsignedLlong K c name) :=
  fun s => quiet_init.getParamUnsignedLlong c name s

theorem keepsInit_getStr (c : Comp) (name : String) : KeepsInit (accfgGetParamStr K c name) :=
  fun s => quiet_init.getParamStr c name s

theorem keepsInit_readDevice (d : DevId) : KeepsInit (readDevice K d) := by
  unfold readDevice
  refine (keepsInit_getInt _ _).bind fun _ => (keepsInit_getInt _ _).bind fun _ =>
    (keepsInit_getInt _ _).bind fun _ => (keepsInit_getInt _ _).bind fun _ =>
    (keepsInit_getInt _ _).bind fun _ => (keepsInit_getInt _ _).bind fun _ =>
    (keepsInit_getInt _ _).bind fun _ => (keepsInit_getUllong _ _).bind fun _ =>
    (keepsInit_getUllong _ _).bind fun _ => (keepsInit_getUllongInt _ _).bind fun _ =>
    (keepsInit_getInt _ _).bind fun _ => (keepsInit_getInt _ _).bind fun _ =>
    (keepsInit_getInt _ _).bind fun _ => (keepsInit_getInt _ _).bind fun _ =>
    (keepsInit_getInt _ _).bind fun _ => (keepsInit_getUllongInt _ _).bind fun _ =>
    KeepsInit.pure _

theorem keepsInit_readGroup (c : ChildId) : KeepsInit (readGroup K c) := by
  unfold readGroup
  refine (keepsInit_getStr _ _).bind fun _ => (keepsInit_getStr _ _).bind fun _ =>
    (keepsInit_getInt _ _).bind fun _ => (keepsInit_getInt _ _).bind fun _ =>
    (keepsInit_getInt _ _).bind fun _ => (keepsInit_getInt _ _).bind fun _ =>
    (keepsInit_getInt _ _).bind fun _ => (keepsInit_getInt _ _).bind fun _ =>
    (keepsInit_getInt _ _).bind fun _ => KeepsInit.pure _

theorem keepsInit_addGroup (c : ChildId) : KeepsInit (addGroup K c) := by
  intro s
  have h := sysCall_init (K.openDir (.group c) s.kernel) s
  rw [addGroup]
  generalize sysCall (K.openDir (.group c) s.kernel) s = r at h ⊢
  obtain ⟨_ | ⟨⟩, s₁⟩ := r
  · exact h
  · exact (keepsInit_readGroup c s₁).trans h

variable (K)

/-- The value of `cmd_status` that `add_device` reads, if it can open the
directory. -/
def initialStatus (d : DevId) (s : Sys κ) : Option ℤ :=
  match sysCall (K.openDir (.device d) s.kernel) s with
  | (none, _) => none
  | (some (), s) =>
    let s := (accfgSetParam K (.attr (.device d) "cmd_status") ['1'] s).2
    some (accfgGetParamLong K (.device d) "cmd_status" s).1

variable {K}

theorem addDevice_init (d : DevId) (s : Sys κ) :
    (addDevice K d s).2.initCmdStatus = (initialStatus K d s).getD s.initCmdStatus := by
  have hopen := sysCall_init (K.openDir (.device d) s.kernel) s
  rw [addDevice, initialStatus]
  generalize sysCall (K.openDir (.device d) s.kernel) s = r at hopen ⊢
  obtain ⟨_ | ⟨⟩, s₁⟩ := r
  · exact hopen
  dsimp only
  generalize accfgGetParamLong K (.device d) "cmd_status" _ = r
  obtain ⟨v, s₂⟩ := r
  dsimp only
  have hread := @keepsInit_readDevice _ K d { s₂ with initCmdStatus := v }
  generalize readDevice K d _ = r at hread ⊢
  obtain ⟨dev, s₃⟩ := r
  have hpath := sysCall_init (K.realpath (.attr (.device d) "") s₃.kernel) s₃
  dsimp only at hread ⊢
  generalize sysCall (K.realpath (.attr (.device d) "") s₃.kernel) s₃ = r at hpath ⊢
  obtain ⟨_ | ⟨⟩, s₄⟩ := r <;> exact hpath.trans hread

/-! ### Enumeration -/

variable (K)

/-- The values of `cmd_status` that are read while devices are added. -/
def statusReads : List DevId → Sys κ → List (DevId × ℤ)
  | [], _ => []
  | d :: ds, s =>
    ((initialStatus K d s).map fun v => (d, v)).toList ++ statusReads ds (addDevice K d s).2

/-- The last value read, or what the variable held before. -/
def lastStatus (ds : List DevId) (s : Sys κ) : ℤ :=
  ((statusReads K ds s).getLast?.map (·.2)).getD s.initCmdStatus

variable {K}

theorem lastStatus_cons (d : DevId) (ds : List DevId) (s : Sys κ) :
    lastStatus K (d :: ds) s = lastStatus K ds (addDevice K d s).2 := by
  rw [lastStatus, lastStatus, statusReads, addDevice_init]
  cases initialStatus K d s with
  | none => rfl
  | some v =>
    rw [Option.map_some, Option.toList_some, List.singleton_append, List.getLast?_cons]
    cases (statusReads K ds (addDevice K d s).2).getLast? <;> rfl

theorem hang_sys {σ : Type} {r : Added α × Sys κ} {push : α → σ} {s s' : σ} {sys' : Sys κ}
    (h : hang r push s = some (s', sys')) : sys' = r.2 := by
  obtain ⟨_ | _ | _, sys₁⟩ := r
  · exact (Prod.mk.inj (Option.some.inj h)).2.symm
  · exact (Prod.mk.inj (Option.some.inj h)).2.symm
  · exact absurd h (by simp [hang])

/-- A scan for devices leaves what was read last. -/
theorem initCmdStatus_parse : ∀ (es : List (String × DevId)) (ctx : Context) (s : Sys κ)
    {ctx' : Context} {s' : Sys κ},
    deviceParse (fun e ctx sys => hang (addDevice K e.2 sys) (ctx.pushDevice e) ctx) es ctx s
      = some (ctx', s') →
    s'.initCmdStatus = lastStatus K (es.map (·.2)) s := by
  intro es
  induction es with
  | nil =>
    intro ctx s ctx' s' h
    obtain ⟨-, rfl⟩ := Prod.mk.injEq .. ▸ Option.some.inj h
    rfl
  | cons e es ih =>
    intro ctx s ctx' s' h
    rw [deviceParse_cons] at h
    obtain ⟨⟨ctx₁, s₁⟩, h₁, h₂⟩ := Option.bind_eq_some_iff.mp h
    rw [List.map_cons, lastStatus_cons, ih ctx₁ s₁ h₂, hang_sys h₁]

/-- A scan that leaves the variable alone in each step leaves it alone. -/
theorem deviceParse_init {σ ε : Type} {addDev : ε → σ → Sys κ → Option (σ × Sys κ)}
    (hadd : ∀ e s sys s' sys', addDev e s sys = some (s', sys') →
      sys'.initCmdStatus = sys.initCmdStatus) :
    ∀ (found : List ε) (s : σ) (sys : Sys κ) {s' : σ} {sys' : Sys κ},
      deviceParse addDev found s sys = some (s', sys') →
      sys'.initCmdStatus = sys.initCmdStatus := by
  intro found
  induction found with
  | nil =>
    intro s sys s' sys' h
    obtain ⟨-, rfl⟩ := Prod.mk.injEq .. ▸ Option.some.inj h
    rfl
  | cons e found ih =>
    intro s sys s' sys' h
    rw [deviceParse_cons] at h
    obtain ⟨⟨s₁, sys₁⟩, h₁, h₂⟩ := Option.bind_eq_some_iff.mp h
    rw [ih s₁ sys₁ h₂, hadd e s sys s₁ sys₁ h₁]

theorem groupsInit_init {dirs : Dirs} {d d' : DeviceObj} {sys sys' : Sys κ}
    (h : groupsInit K dirs d sys = some (d', sys')) : sys'.initCmdStatus = sys.initCmdStatus := by
  rw [groupsInit] at h
  split at h
  · obtain ⟨-, rfl⟩ := Prod.mk.injEq .. ▸ Option.some.inj h
    rfl
  · refine deviceParse_init (fun n d sys d' sys' h => ?_) _ _ _ h
    rw [hang_sys h]
    exact keepsInit_addGroup _ sys

/-- After enumeration the variable holds what was read of the last device. -/
theorem initCmdStatus_devicesInit {dirs : Dirs} {ctx' : Context} {sys sys' : Sys κ}
    (h : devicesInit K dirs .new sys = some (ctx', sys')) :
    sys'.initCmdStatus = lastStatus K (dirs.entries.map (·.2)) sys := by
  rw [devicesInit, if_neg (by simp [Context.new])] at h
  split at h
  · exact absurd h (by simp)
  · next ctx₁ sys₁ h₁ =>
    rw [← initCmdStatus_parse _ _ _ h₁]
    refine deviceParse_init (fun i ctx sys ctx' sys' h => ?_) _ _ _ h
    rw [onDevice] at h
    split at h
    · obtain ⟨-, rfl⟩ := Prod.mk.injEq .. ▸ Option.some.inj h
      rfl
    · obtain ⟨⟨d', sys₂⟩, hd, heq⟩ := Option.map_eq_some_iff.mp h
      rw [← (Prod.mk.inj heq).2]
      exact groupsInit_init hd

/-! ### The answer for a device -/

variable (K)

/-- The text in a device's `cmd_status`, if it can be read. -/
def statusFile (d : DevId) (s : Sys κ) : Option (List Char) :=
  match sysfsReadAttr K (.attr (.device d) "cmd_status") s with
  | (rc, buf, _) => if rc ≠ 0 then none else some buf

variable {K}

/-- A text that `strtol` does not accept. -/
def badNumber (buf : List Char) : Prop := strtol buf ≠ strtol0 buf ∨ noDigits buf

instance (buf : List Char) : Decidable (badNumber buf) := by
  unfold badNumber
  infer_instance

/-- A text that says what the given value says, and so is taken for it. -/
def stale (initial : ℤ) (buf : List Char) : Prop := initial ≠ 0 ∧ initial = strtol buf

instance (initial : ℤ) (buf : List Char) : Decidable (stale initial buf) := by
  unfold stale
  infer_instance

/-- The answer that follows from a device's own text and the value found in it
when it was enumerated. -/
def ownStatus (initial : ℤ) : Option (List Char) → BitVec 32
  | none => ACCFG_CMD_STATUS_ERROR
  | some buf =>
    if badNumber buf ∨ stale initial buf then ACCFG_CMD_STATUS_ERROR
    else BitVec.ofInt 32 (strtol buf)

theorem sysfsReadAttr_errno {path : Path} {s s' : Sys κ} {buf : List Char}
    (h : sysfsReadAttr K path s = (0, buf, s')) :
    s'.errno = s.errno ∧ s'.initCmdStatus = s.initCmdStatus := by
  rw [sysfsReadAttr] at h
  rcases hopen : sysCall (K.openFile path .read s.kernel) s with ⟨_ | ⟨⟩, s₁⟩
  · rw [hopen] at h
    have hpos := (sysCall_none hopen).1
    have hzero : (-(s₁.errno : ℤ)) = 0 := (Prod.mk.inj h).1
    omega
  rw [hopen] at h
  have h₁ := (sysCall_some hopen).1
  rcases hread : sysCall (K.read path s₁.kernel) s₁ with ⟨_ | text, s₂⟩
  · simp only [hread] at h
    have hpos := (sysCall_none hread).1
    have hzero : (-(s₂.errno : ℤ)) = 0 := (Prod.mk.inj h).1
    omega
  · simp only [hread] at h
    have h₂ := (sysCall_some hread).1
    have hs' : s' = s₂ := by
      split at h <;> exact (Prod.mk.inj (Prod.mk.inj h).2).2.symm
    rw [hs', h₂, h₁]
    exact ⟨rfl, rfl⟩

theorem strtolCall_errno (buf : List Char) (s : Sys κ) :
    ∃ s', strtolCall buf s = (strtol buf, s') ∧ s'.initCmdStatus = s.initCmdStatus ∧
      (s'.errno = ERANGE ↔ strtol buf ≠ strtol0 buf ∨ s.errno = ERANGE) := by
  rw [strtolCall]
  split
  · next h => exact ⟨s, rfl, rfl, by simp [h]⟩
  · next h => exact ⟨{ s with errno := ERANGE }, rfl, rfl, by simp [h]⟩

/-- The answer, in terms of the text, the variable and `errno`. -/
theorem accfgDeviceGetCmdStatus_eq (d : DevId) (s : Sys κ) :
    (accfgDeviceGetCmdStatus K d s).1 = match statusFile K d s with
      | none => ACCFG_CMD_STATUS_ERROR
      | some buf =>
        if badNumber buf ∨ s.errno = ERANGE ∨ stale s.initCmdStatus buf then ACCFG_CMD_STATUS_ERROR
        else BitVec.ofInt 32 (strtol buf) := by
  rw [accfgDeviceGetCmdStatus, statusFile]
  rcases hread : sysfsReadAttr K (.attr (.device d) "cmd_status") s with ⟨rc, buf, s₁⟩
  by_cases hrc : rc = 0
  · subst hrc
    obtain ⟨herrno, hinit⟩ := sysfsReadAttr_errno hread
    obtain ⟨s₂, hcall, hinit₂, herrno₂⟩ := strtolCall_errno buf s₁
    rw [herrno] at herrno₂
    have hiff : badNumber buf ∨ s.errno = ERANGE ∨ stale s.initCmdStatus buf ↔
        (s₂.errno = ERANGE ∨ noDigits buf) ∨
          (s₂.initCmdStatus ≠ 0 ∧ s₂.initCmdStatus = strtol buf) := by
      rw [herrno₂, hinit₂, hinit, badNumber, stale]
      tauto
    simp only [ne_eq, not_true_eq_false, if_false, hcall]
    by_cases hbad : s₂.errno = ERANGE ∨ noDigits buf
    · rw [if_pos hbad, if_pos (hiff.mpr (.inl hbad))]
    · rw [if_neg hbad]
      by_cases hstale : s₂.initCmdStatus ≠ 0 ∧ s₂.initCmdStatus = strtol buf
      · rw [if_pos hstale, if_pos (hiff.mpr (.inr hstale))]
      · rw [if_neg hstale, if_neg fun h => (hiff.mp h).elim hbad hstale]
  · simp [hrc]

/-! ### Two runs -/

/-- A run up to the moment when a device is asked for its status: the devices
are enumerated, and then anything may happen that adds no device. -/
structure StatusRun (κ : Type) (d : DevId) where
  K : Kernel κ
  dirs : Dirs
  start : Sys κ
  enumerated : Context × Sys κ
  enumerates : devicesInit K dirs .new start = some enumerated
  now : Sys κ
  kept : now.initCmdStatus = enumerated.2.initCmdStatus
  /-- the value found in the device's own `cmd_status` -/
  initial : ℤ
  found : (d, initial) ∈ statusReads K (dirs.entries.map (·.2)) start

namespace StatusRun

variable {d : DevId}

/-- What the run is told. -/
def status (r : StatusRun κ d) : BitVec 32 := (accfgDeviceGetCmdStatus r.K d r.now).1

/-- The value read of the device that was added last. -/
def lastInitial (r : StatusRun κ d) : ℤ := lastStatus r.K (r.dirs.entries.map (·.2)) r.start

/-- Neither an old range error nor the value of another device changes what is
said about the text: it would be said anyway, or they hide what is to be
hidden. -/
def Undisturbed (r : StatusRun κ d) : Prop :=
  ∀ buf, statusFile r.K d r.now = some buf → badNumber buf ∨
    BitVec.ofInt 32 (strtol buf) = ACCFG_CMD_STATUS_ERROR ∨
    (r.now.errno = ERANGE ∨ stale r.lastInitial buf ↔ stale r.initial buf)

theorem status_eq_own_iff (r : StatusRun κ d) :
    r.status = ownStatus r.initial (statusFile r.K d r.now) ↔ r.Undisturbed := by
  have hlast : r.now.initCmdStatus = r.lastInitial := by
    rw [r.kept]
    exact @initCmdStatus_devicesInit _ r.K r.dirs r.enumerated.1 _ _ r.enumerates
  rw [status, accfgDeviceGetCmdStatus_eq, Undisturbed]
  cases statusFile r.K d r.now with
  | none => simp [ownStatus]
  | some buf =>
    simp only [ownStatus, hlast, Option.some.injEq, forall_eq']
    by_cases hbad : badNumber buf
    · simp [hbad]
    · by_cases herror : BitVec.ofInt 32 (strtol buf) = ACCFG_CMD_STATUS_ERROR
      · simp [herror]
      · by_cases hhidden : r.now.errno = ERANGE ∨ stale r.lastInitial buf <;>
          by_cases hown : stale r.initial buf <;>
            simp [hbad, herror, hhidden, hown, Ne.symm herror]

end StatusRun

/-- Two runs agree on a device. -/
def AgreeOn {κ' : Type} {d : DevId} (r₁ : StatusRun κ d) (r₂ : StatusRun κ' d) : Prop :=
  r₁.initial = r₂.initial ∧ statusFile r₁.K d r₁.now = statusFile r₂.K d r₂.now

/-- Two runs that agree on a device are told the same of it, and what follows
from its own values, exactly when neither is disturbed. -/
theorem cmdStatus_agree_iff {κ' : Type} {d : DevId} (r₁ : StatusRun κ d) (r₂ : StatusRun κ' d)
    (h : AgreeOn r₁ r₂) :
    (r₁.status = r₂.status ∧ r₁.status = ownStatus r₁.initial (statusFile r₁.K d r₁.now)) ↔
      r₁.Undisturbed ∧ r₂.Undisturbed := by
  rw [← r₁.status_eq_own_iff, ← r₂.status_eq_own_iff, ← h.1, ← h.2]
  constructor
  · rintro ⟨heq, hown⟩
    exact ⟨hown, heq.symm.trans hown⟩
  · rintro ⟨hown₁, hown₂⟩
    exact ⟨hown₁.trans hown₂.symm, hown₁⟩

/-! ### One device and two -/

/-- A kernel on which the status of `dsa0` is 5 and cannot be cleared. -/
def stuckKernel : Kernel Unit where
  access _ k := (.ok (), k)
  openFile _ mode k := if mode = .readWrite then (.error 30, k) else (.ok (), k)
  openDir _ k := (.ok (), k)
  read path k :=
    (.ok (if path = .attr (.device ⟨.dsa, 0⟩) "cmd_status" then "5\n" else "0\n").toList, k)
  write _ buf k := (.ok buf.length, k)
  lstat _ k := (.ok (), k)
  realpath _ k := (.ok (), k)

/-- The devices with the given numbers, and nothing in them. -/
def bareDirs (nums : List ℕ) (h : nums.Nodup) : Dirs where
  devices bus type := if bus = "dsa" ∧ type = .dsa then nums else []
  children _ _ := []
  devices_nodup bus type := by split <;> simp [h]
  children_nodup _ _ := List.nodup_nil

/-- The state of the process after enumeration. -/
def afterEnumeration (nums : List ℕ) (h : nums.Nodup) : Option (Context × Sys Unit) :=
  devicesInit stuckKernel (bareDirs nums h) .new ⟨(), 0, 0, none, []⟩

/-- `dsa0` is the only device. -/
def aloneRun : StatusRun Unit ⟨.dsa, 0⟩ where
  K := stuckKernel
  dirs := bareDirs [0] (by simp)
  start := ⟨(), 0, 0, none, []⟩
  enumerated := (afterEnumeration [0] (by simp)).get rfl
  enumerates := (@Option.some_get _ (afterEnumeration [0] (by simp)) rfl).symm
  now := ((afterEnumeration [0] (by simp)).get rfl).2
  kept := rfl
  initial := 5
  found := List.mem_singleton_self _

/-- `dsa1` is added after `dsa0`. -/
def besideRun : StatusRun Unit ⟨.dsa, 0⟩ where
  K := stuckKernel
  dirs := bareDirs [0, 1] (by simp)
  start := ⟨(), 0, 0, none, []⟩
  enumerated := (afterEnumeration [0, 1] (by simp)).get rfl
  enumerates := (@Option.some_get _ (afterEnumeration [0, 1] (by simp)) rfl).symm
  now := ((afterEnumeration [0, 1] (by simp)).get rfl).2
  kept := rfl
  initial := 5
  found := List.mem_cons_self

theorem cmdStatus_agree_iff_alone :
    (aloneRun.status = aloneRun.status ∧
      aloneRun.status = ownStatus 5 (statusFile stuckKernel ⟨.dsa, 0⟩ aloneRun.now)) ↔
      aloneRun.Undisturbed ∧ aloneRun.Undisturbed :=
  cmdStatus_agree_iff aloneRun aloneRun ⟨rfl, rfl⟩

/-- The stale value is reported as an error only where no device was added
after it. -/
theorem not_cmdStatus_agree_beside :
    AgreeOn aloneRun besideRun ∧ aloneRun.status = ACCFG_CMD_STATUS_ERROR ∧
      besideRun.status = 5 ∧ aloneRun.status ≠ besideRun.status := by
  have halone : aloneRun.status = ACCFG_CMD_STATUS_ERROR := rfl
  have hbeside : besideRun.status = 5 := rfl
  refine ⟨⟨rfl, rfl⟩, halone, hbeside, ?_⟩
  rw [halone, hbeside]
  decide

end Accfg
