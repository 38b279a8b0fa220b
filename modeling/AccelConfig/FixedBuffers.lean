/-
Texts in buffers of a fixed size.

`scan_device_type_id` and `scan_parent_child_names` let `sscanf` store words of
any length in buffers of `MAX_DEV_LEN` bytes, and the setters of strings format
a value of any length into one of `SYSFS_ATTR_SIZE`.  The scanners are written
here once more, with their buffers; a character stands for a byte.

* `storeDeviceName_of_fit`, `storeChildName_of_fit` — where nothing is overrun, what is
  found is what was said of `parse_device_name` and its relatives;
* `call_die_iff` — which setters overrun their buffer;
* `fits_iff` — exactly which strings fit, by the way they arrive.
-/
import AccelConfig.DefaultSetup
import AccelConfig.ParseNames
import AccelConfig.StepWrites

open CNumeral Scanset

namespace Accfg

/-- `MAX_DEV_LEN`. -/
def MAX_DEV_LEN : ℕ := 64

/-! ### Scanners with their buffers -/

/-- `scan_device_type_id`; `none` if a buffer is overrun. -/
def storeDeviceTypeId (name : String) : Option (Option String) :=
  match scanset isTypeLetter name.toList with
  | none => some none
  | some (type, rest) => do
    store MAX_DEV_LEN type
    if (scanD rest).isNone then return none
    -- `strcpy` to the caller's buffer
    store MAX_DEV_LEN type
    return some (String.ofList type)

/-- `scan_parent_child_names`. -/
def storeParentChildNames (name : String) : Option (Option (String × String)) :=
  match scanset (· ≠ '/') name.toList with
  | none => some none
  | some (parent, rest) => do
    -- the first word is stored before a slash is looked for
    store MAX_DEV_LEN parent
    match rest with
    | [] => return none
    | _ :: rest =>
      match scanWord rest with
      | none => return none
      | some (child, _) =>
        store MAX_DEV_LEN child
        store MAX_DEV_LEN parent
        -- both words are copied to the buffers of the caller
        store MAX_DEV_LEN child
        return some (String.ofList parent, String.ofList child)

/-- `parse_device_name`. -/
def storeDeviceName (ctx : List DeviceNode) (name : String) : Option (Except ℤ DeviceNode) := do
  match (← storeDeviceTypeId name).filter accfgDeviceTypeValidate with
  | none => return .error (-EINVAL)
  | some _ =>
    match accfgCtxDeviceGetByName ctx name with
    | none => return .error (-EINVAL)
    | some node => return .ok node

/-- `parse_wq_name`, `parse_group_name` and `parse_engine_name`. -/
def storeChildName (kind : Kind) (ctx : List DeviceNode) (name : String) :
    Option (Except ℤ (DevId × ℕ)) := do
  match ← storeParentChildNames name with
  | none => return .error (-EINVAL)
  | some (devName, childName) =>
    match ← storeDeviceName ctx devName with
    | .error rc => return .error rc
    | .ok node =>
      match (node.nums kind).find? fun n => (kind.comp ⟨node.id, n⟩).devname = childName with
      | none => return .error (-EINVAL)
      | some n => return .ok (node.id, n)

/-! ### Words of a name -/

/-- The letters in front. -/
def typeWord (name : String) : List Char := name.toList.takeWhile isTypeLetter

/-- What is in front of the first slash. -/
def parentWord (name : String) : List Char := name.toList.takeWhile (· ≠ '/')

/-- The first word behind it. -/
def childWord (name : String) : List Char :=
  (((name.toList.dropWhile (· ≠ '/')).drop 1).dropWhile isBlank).takeWhile fun c => !isBlank c

theorem store_of_lt {size : ℕ} {text : List Char} (h : text.length < size) :
    store size text = some () := store_eq_some_iff.mpr h

theorem store_of_le {size : ℕ} {text : List Char} (h : size ≤ text.length) :
    store size text = none := if_neg (not_lt.mpr h)

theorem storeDeviceTypeId_eq (name : String) : storeDeviceTypeId name =
    if (typeWord name).length < MAX_DEV_LEN then some (scanDeviceTypeId name) else none := by
  rw [storeDeviceTypeId, scanDeviceTypeId_eq, scanset, typeWord]
  cases name.toList.takeWhile isTypeLetter with
  | nil => rfl
  | cons c type =>
    dsimp only
    by_cases hlen : (c :: type).length < MAX_DEV_LEN
    · rw [if_pos hlen, store_of_lt hlen]
      cases scanD (name.toList.dropWhile isTypeLetter) with
      | none => rfl
      | some r => rfl
    · rw [if_neg hlen, store_of_le (not_lt.mp hlen)]
      rfl

/-- The words of a name fit; the second is not looked at if there is no first. -/
def WordsFit (name : String) : Prop :=
  (parentWord name).length < MAX_DEV_LEN ∧
    (parentWord name ≠ [] → (childWord name).length < MAX_DEV_LEN)

instance (name : String) : Decidable (WordsFit name) :=
  inferInstanceAs (Decidable (_ ∧ (¬_ = _ → _)))

theorem storeParentChildNames_of_fit {name : String} (h : WordsFit name) :
    storeParentChildNames name = some (scanParentChildNames name) := by
  obtain ⟨hparent, hchild⟩ := h
  rw [storeParentChildNames, scanParentChildNames_eq, scanset]
  rw [parentWord] at hparent hchild
  rw [childWord] at hchild
  -- the buffers are filled in the order in which the words are scanned
  generalize name.toList.takeWhile (· ≠ '/') = parent at hparent hchild ⊢
  cases parent with
  | nil => rfl
  | cons c parent =>
    have hchild := hchild (List.cons_ne_nil c parent)
    simp only [store_of_lt hparent]
    generalize name.toList.dropWhile (· ≠ '/') = rest at hchild ⊢
    cases rest with
    | nil => rfl
    | cons slash rest =>
      rw [List.drop_one, List.tail_cons] at hchild
      simp only [scanWord, scanset]
      generalize ((rest.dropWhile isBlank).takeWhile fun c => !isBlank c) = child at hchild ⊢
      cases child with
      | nil => rfl
      | cons x child =>
        simp only [store_of_lt hchild]
        rfl

theorem storeParentChildNames_of_not_fit {name : String} (h : ¬WordsFit name) :
    storeParentChildNames name = none := by
  rw [WordsFit, parentWord, childWord] at h
  rw [storeParentChildNames, scanset]
  generalize name.toList.takeWhile (· ≠ '/') = parent at h ⊢
  cases parent with
  | nil => exact absurd ⟨by decide, fun hne => absurd rfl hne⟩ h
  | cons c parent =>
    by_cases hparent : (c :: parent).length < MAX_DEV_LEN
    · simp only [store_of_lt hparent]
      generalize name.toList.dropWhile (· ≠ '/') = rest at h ⊢
      cases rest with
      | nil => exact absurd ⟨hparent, fun _ => by decide⟩ h
      | cons slash rest =>
        rw [List.drop_one, List.tail_cons] at h
        simp only [scanWord, scanset]
        generalize ((rest.dropWhile isBlank).takeWhile fun c => !isBlank c) = child at h ⊢
        cases child with
        | nil => exact absurd ⟨hparent, fun _ => by decide⟩ h
        | cons x child =>
          -- two words, and the second does not fit
          have hchild : ¬(x :: child).length < MAX_DEV_LEN := fun hlt => h ⟨hparent, fun _ => hlt⟩
          simp only [store_of_le (not_lt.mp hchild)]
          rfl
    -- the first word does not fit
    · simp only [store_of_le (not_lt.mp hparent)]
      rfl

/-! ### Names -/

theorem storeDeviceName_of_fit (ctx : List DeviceNode) {name : String}
    (h : (typeWord name).length < MAX_DEV_LEN) :
    storeDeviceName ctx name = some (parseDeviceName ctx name) := by
  rw [storeDeviceName, storeDeviceTypeId_eq, if_pos h, parseDeviceName]
  simp only [Option.bind_eq_bind, Option.bind_some]
  cases (scanDeviceTypeId name).filter accfgDeviceTypeValidate with
  | none => rfl
  | some type =>
    dsimp only
    cases accfgCtxDeviceGetByName ctx name with
    | none => rfl
    | some node => rfl

theorem storeDeviceName_of_not_fit (ctx : List DeviceNode) {name : String}
    (h : ¬(typeWord name).length < MAX_DEV_LEN) : storeDeviceName ctx name = none := by
  rw [storeDeviceName, storeDeviceTypeId_eq, if_neg h]
  rfl

/-- The device's name is a word of the child's, so it fits once that does. -/
theorem typeWord_lt_of_fit {name devName childName : String} (h : WordsFit name)
    (hscan : scanParentChildNames name = some (devName, childName)) :
    (typeWord devName).length < MAX_DEV_LEN := by
  obtain ⟨⟨hne, hslash⟩, -, pad, rest, hname, -, -⟩ := scanParentChildNames_eq_some_iff.mp hscan
  have hparent : parentWord name = devName.toList := by
    rw [parentWord, hname]
    refine takeWhile_run (fun c hc => ?_) (by simp [EndsFor])
    have hne : c ≠ '/' := fun heq => hslash (heq ▸ hc)
    simpa using hne
  have hlen : (parentWord name).length < MAX_DEV_LEN := h.1
  rw [hparent] at hlen
  exact lt_of_le_of_lt (List.takeWhile_sublist _).length_le hlen

theorem storeChildName_of_fit (kind : Kind) (ctx : List DeviceNode) {name : String}
    (h : WordsFit name) : storeChildName kind ctx name = some (parseChildName kind ctx name) := by
  rw [storeChildName, storeParentChildNames_of_fit h, parseChildName]
  simp only [Option.bind_eq_bind, Option.bind_some]
  cases hscan : scanParentChildNames name with
  | none => rfl
  | some names =>
    obtain ⟨devName, childName⟩ := names
    dsimp only
    -- the device is looked for by a word that has been stored before
    rw [storeDeviceName_of_fit ctx (typeWord_lt_of_fit h hscan)]
    simp only [Option.bind_some]
    cases parseDeviceName ctx devName with
    | error rc => rfl
    | ok node =>
      dsimp only
      cases (node.nums kind).find? fun n => (kind.comp ⟨node.id, n⟩).devname = childName with
      | none => rfl
      | some n => rfl

theorem storeChildName_of_not_fit (kind : Kind) (ctx : List DeviceNode) {name : String}
    (h : ¬WordsFit name) : storeChildName kind ctx name = none := by
  rw [storeChildName, storeParentChildNames_of_not_fit h]
  rfl

/-! ### Values -/

namespace Setting

/-- The text does not fit the buffer that the setter formats it into. -/
def Overruns : Setting → Prop
  | wqStr _ _ val | wqType _ val => SYSFS_ATTR_SIZE ≤ val.toList.length
  | _ => False

variable {κ : Type} {K : Kernel κ}

theorem call_wqStr_ne_die (field : WqStrField) (c : ChildId) {val : String}
    (hlen : val.toList.length < SYSFS_ATTR_SIZE) (w : World κ) :
    ((wqStr field c val).call K w).1 ≠ .die := by
  by_cases hgate : (w.device c.dev).configurable = 0 ∧ field = .mode
  · rw [call_wqStr_gated field c hlen hgate]
    exact fun h => (nomatch h)
  · rw [call_wqStr field c hlen hgate]
    obtain ⟨rc, s⟩ := writeFile K .write (.attr (.wq c) field.file) val.toList w.sys
    dsimp only
    split
    -- the code is passed on, but for the driver name where there is no such file
    · split <;> exact fun h => (nomatch h)
    · exact fun h => (nomatch h)

theorem call_wqType_ne_die (c : ChildId) {val : String}
    (hlen : val.toList.length < SYSFS_ATTR_SIZE) (w : World κ) :
    ((wqType c val).call K w).1 ≠ .die := by
  rw [call_wqType c hlen]
  obtain ⟨_ | rc, s⟩ := storeAttr K (.wq c) (.attr (.wq c) "type") val.toList w.sys
  · dsimp only
    cases wqParseType val.toList <;> exact fun h => (nomatch h)
  · exact fun h => (nomatch h)

/-- Exactly the setters of strings can overrun their buffer. -/
theorem call_die_iff (st : Setting) (w : World κ) : (st.call K w).1 = .die ↔ st.Overruns := by
  cases st with
  | wqStr field c val =>
    refine ⟨fun hdie => ?_, call_wqStr_die field c⟩
    by_contra hlen
    exact call_wqStr_ne_die field c (not_le.mp hlen) w hdie
  | wqType c val =>
    refine ⟨fun hdie => ?_, call_wqType_die c⟩
    by_contra hlen
    exact call_wqType_ne_die c (not_le.mp hlen) w hdie
  | wqMode c mode =>
    refine ⟨fun hdie => ?_, fun h => h.elim⟩
    -- the two modes have names that fit, and a third is not written
    cases mode with
    | shared => exact call_wqStr_ne_die .mode c (show "shared".toList.length < _ by decide) w hdie
    | dedicated =>
      exact call_wqStr_ne_die .mode c (show "dedicated".toList.length < _ by decide) w hdie
    | unknown => cases hdie
  | deviceReadBufferLimit | deviceEventLogSize | group | wq | wqMaxTransferSize | wqOpConfigStr
  | wqOpConfig | engineGroupId => exact ⟨fun h => (nomatch h), fun h => h.elim⟩

/-- A type that cannot be made sense of is an error once it is stored. -/
theorem call_wqType_fails (c : ChildId) {val : String} (hlen : val.toList.length < SYSFS_ATTR_SIZE)
    (hparse : wqParseType val.toList = none) (w : World κ) :
    ∃ rc < 0, ∃ w', (wqType c val).call K w = (.ret rc, w') := by
  have hfailed := (storeAttr_attempt K (.wq c) (.attr (.wq c) "type") val.toList w.sys).failed
  rw [call_wqType c hlen, storeAttr, hparse]
  rw [storeAttr] at hfailed
  generalize writeAttr K (.attr (.wq c) "type") val.toList w.sys = r at hfailed ⊢
  obtain ⟨rc, s⟩ := r
  dsimp only at hfailed ⊢
  -- either it is not stored, or it is looked at then
  by_cases hrc : rc < 0
  · rw [if_pos hrc] at hfailed ⊢
    have hne := hfailed _ rfl
    exact ⟨_, by omega, _, rfl⟩
  · rw [if_neg hrc]
    exact ⟨-EINVAL, by decide, _, rfl⟩

end Setting

variable {κ : Type} {K : Kernel κ}

theorem Step.run_ne_die {step : Step} (h : ¬step.setting.Overruns) (w : World κ) :
    (step.run K w).1 ≠ .die := by
  cases step with
  | set st => exact fun hdie => h ((st.call_die_iff w).mp hdie)
  | driverName bus c name =>
    rw [run, setDriverName]
    obtain ⟨_ | _, s⟩ := accessOk K (.bind bus name) w.sys
    · exact Exit.noConfusion
    · exact fun hdie => h ((Setting.call_die_iff _ _).mp hdie)

theorem Step.run_die (hK : Grants K) {step : Step} (h : step.setting.Overruns) (w : World κ) :
    (step.run K w).1 = .die := by
  cases step with
  | set st => exact (st.call_die_iff w).mpr h
  | driverName bus c name =>
    obtain ⟨k, hacc⟩ := accessOk_of_grants hK (.bind bus name) w.sys
    rw [run, setDriverName, hacc]
    exact (Setting.call_die_iff _ _).mpr h

theorem runSteps_ne_die {steps : List Step} (h : ∀ step ∈ steps, ¬step.setting.Overruns)
    (w : World κ) : (runSteps K steps w).1 ≠ .die := by
  induction steps generalizing w with
  | nil => exact Exit.noConfusion
  | cons step steps ih =>
    have hstep := step.run_ne_die (K := K) (h step List.mem_cons_self) w
    rw [runSteps, List.map_cons, inOrder_cons]
    generalize step.run K w = r at hstep ⊢
    obtain ⟨_ | _, w'⟩ := r
    · dsimp only
      split
      · exact Exit.noConfusion
      · exact ih (fun s hs => h s (List.mem_cons_of_mem step hs)) w'
    · exact absurd rfl hstep

/-- Where everything is granted, the first text that does not fit is reached. -/
theorem runSteps_die (hK : Grants K) {before after : List Step} {step : Step} {d : DevId}
    {w : World κ} (hst : ∀ s ∈ before, s.setting.Storable)
    (hdev : ∀ s ∈ before, s.setting.comp.dev = d) (hconf : (w.device d).configurable ≠ 0)
    (h : step.setting.Overruns) : (runSteps K (before ++ step :: after) w).1 = .die := by
  obtain ⟨w', hrun, -⟩ := runSteps_of_grants hK hst hdev fun _ _ _ => hconf
  rw [runSteps] at hrun
  rw [runSteps, List.map_append, inOrder_append_of_ok hrun, List.map_cons]
  exact inOrder_cons_of_die (Step.run_die hK h w')

/-! ### Ways to arrive -/

/-- A string, by the way it arrives: a name or options from the command line,
or a member of a configuration that is loaded, or that is to be the default. -/
inductive Arrival where
  | deviceName (name : String)
  | childName (kind : Kind) (name : String)
  | wqOptions (p : WqParam)
  | wqMember (key : String) (val : Json)
  | defaultMember (key : String) (val : Json)

namespace Arrival

/-- The text and a terminator fit a buffer for values. -/
def ShortValue (text : String) : Prop := text.toList.length < SYSFS_ATTR_SIZE

/-- So do all the names that a default configuration has given. -/
def ShortNames (params : DeviceType → WqParameters) : Prop :=
  ∀ type, ∀ text ∈ (params type).name, ShortValue text

/-- Whatever there is, and whatever the driver does, no buffer is overrun. -/
def Fits : Arrival → Prop
  | deviceName name => ∀ ctx, storeDeviceName ctx name ≠ none
  | childName kind name => ∀ ctx, storeChildName kind ctx name ≠ none
  | wqOptions p => ∀ (κ : Type) (K : Kernel κ) (bus : String) (c : ChildId) (w : World κ),
      (accelConfigParseWqAttribs K bus c p w).1 ≠ .die
  | wqMember key val => ∀ (κ : Type) (K : Kernel κ) (c : ChildId) (w : World κ) (st : Setting),
      (wqJsonSetVal K c (w.wq c) val key w.sys).1 = .set st →
        ∀ w' : World κ, (st.call K w').1 ≠ .die
  | defaultMember key val => ∀ (κ : Type) (K : Kernel κ) (compat : Bool) (c : ChildId)
      (st : LoadState κ), ShortNames st.confDefWqParam → ∀ (nodes : List DeviceNode) (a : Setup κ),
        a.conf = configDefaultFromFile (configDefaultJson c val key st).confDefWqParam →
          ∀ setting w, .set setting w ∈ (configDefaultActivateDevices K compat nodes a).calls →
            (setting.call K w).1 ≠ .die

/-- A device whose limits refuse as little as any. -/
def ample : DeviceFields :=
  { maxGroups := INT_MAX
    maxWorkQueuesSize := UINT_MAX
    maxBatchSize := UINT_MAX
    maxTransferSize := BitVec.allOnes 64
    configurable := 1 }

/-- The strings that fit.  A mode is checked before it is stored; nothing comes
after a type that makes no sense. -/
def Short : Arrival → Prop
  | deviceName name => (typeWord name).length < MAX_DEV_LEN
  | childName _ name => WordsFit name
  | wqOptions p => p.refused ample = true ∨
      (∀ text ∈ p.type, ShortValue text) ∧
        ((∃ text ∈ p.type, wqParseType text.toList = none) ∨
          (∀ text ∈ p.name, ShortValue text) ∧ ∀ text ∈ p.driverName, ShortValue text)
  | wqMember key val => key ∈ ["type", "name", "driver_name", "mode"] → ShortValue val.getString
  | defaultMember key val => key = "name" → ShortValue val.getString

/-- What is refused by such a device is refused by all. -/
theorem refused_of_ample {p : WqParam} (h : p.refused ample = true) (dev : DeviceFields) :
    p.refused dev = true := by
  have hmax : ∀ x : BitVec 32, ¬UINT_MAX < x := by
    intro x
    rw [BitVec.lt_def, not_lt]
    exact Nat.le_sub_one_of_lt x.isLt
  have hmax64 : ∀ x : BitVec 64, ¬BitVec.allOnes 64 < x := by
    intro x
    rw [BitVec.lt_def, not_lt]
    exact Nat.le_sub_one_of_lt x.isLt
  -- the signed bound lets pass what stands for none
  have hint : ∀ x : BitVec 32, INT_MAX.toInt ≤ x.toInt → x = INT_MAX := by
    intro x hx
    have hlt := BitVec.two_mul_toInt_lt (x := x)
    have hval : INT_MAX.toInt = 2 ^ 31 - 1 := by decide
    refine BitVec.eq_of_toInt_eq ?_
    omega
  rw [WqParam.refused, decide_eq_true_eq] at h ⊢
  -- check by check: no bound of another device is larger
  rcases h with hmode | ⟨hsize, -⟩ | ⟨hgroup, hne⟩ | hblock | hprs | ⟨hbatch, hne⟩ |
    ⟨htransfer, hne⟩ | hats
  · exact Or.inl hmode
  · exact absurd hsize (hmax _)
  · exact absurd (hint _ hgroup) hne
  · exact Or.inr (Or.inr (Or.inr (Or.inl hblock)))
  · exact Or.inr (Or.inr (Or.inr (Or.inr (Or.inl hprs))))
  · rcases hbatch with hlow | hhigh
    · exact Or.inr (Or.inr (Or.inr (Or.inr (Or.inr (Or.inl ⟨Or.inl hlow, hne⟩)))))
    · exact absurd hhigh (hmax _)
  · rcases htransfer with hlow | hhigh
    · exact Or.inr (Or.inr (Or.inr (Or.inr (Or.inr (Or.inr (Or.inl ⟨Or.inl hlow, hne⟩))))))
    · exact absurd hhigh (hmax64 _)
  · exact Or.inr (Or.inr (Or.inr (Or.inr (Or.inr (Or.inr (Or.inr hats))))))

/-- A mode that is not refused is short. -/
theorem shortValue_mode {p : WqParam} {dev : DeviceFields} (h : ¬p.refused dev = true) :
    ∀ text ∈ p.mode, ShortValue text := by
  intro text htext
  rw [WqParam.refused, decide_eq_true_eq] at h
  by_cases hmode : text = "shared" ∨ text = "dedicated"
  · rcases hmode with rfl | rfl
    · exact show "shared".toList.length < SYSFS_ATTR_SIZE by decide
    · exact show "dedicated".toList.length < SYSFS_ATTR_SIZE by decide
  · exact absurd (Or.inl ⟨text, htext, not_or.mp hmode⟩) h

theorem not_overruns_wqAfter (c : ChildId) (p : WqParam) :
    ∀ step ∈ ConfigCall.wqAfter c p, ¬step.setting.Overruns := by
  simp only [ConfigCall.wqAfter, List.flatten_cons, List.flatten_nil, List.append_nil,
    List.forall_mem_append, forall_mem_given, forall_mem_givenStr, Step.setting,
    Setting.Overruns, not_false_eq_true, implies_true, and_self]

section WqOptions

variable {κ : Type} {K : Kernel κ} {p : WqParam} {bus : String} {c : ChildId}

/-- All texts are short. -/
theorem ne_die_of_short (hmode : ∀ text ∈ p.mode, ShortValue text)
    (htype : ∀ text ∈ p.type, ShortValue text) (hname : ∀ text ∈ p.name, ShortValue text)
    (hdriver : ∀ text ∈ p.driverName, ShortValue text) (w : World κ) :
    (runSteps K (ConfigCall.wq bus c p).steps w).1 ≠ .die := by
  refine runSteps_ne_die ?_ w
  rw [ConfigCall.steps_wq, List.forall_mem_append, List.forall_mem_append]
  refine ⟨?_, ?_, not_overruns_wqAfter c p⟩
  · simp only [ConfigCall.wqBefore, List.flatten_cons, List.flatten_nil, List.append_nil,
      List.forall_mem_append, forall_mem_givenStr]
    exact ⟨fun text h => not_le.mpr (hmode text h), fun text h => not_le.mpr (htype text h),
      fun text h => not_le.mpr (hname text h)⟩
  · rw [forall_mem_givenStr]
    exact fun text h => not_le.mpr (hdriver text h)

/-- A type that makes no sense is the last that is stored. -/
theorem ne_die_of_type {text : String} (hmode : ∀ text ∈ p.mode, ShortValue text)
    (htype : p.type = some text) (hshort : ShortValue text)
    (hparse : wqParseType text.toList = none)
    (w : World κ) : (runSteps K (ConfigCall.wq bus c p).steps w).1 ≠ .die := by
  have hfails : ∀ fs w, (inOrder ((Step.set (.wqType c text)).run K :: fs) w).1 ≠ .die := by
    intro fs w
    obtain ⟨rc, hrc, w', hcall⟩ := Setting.call_wqType_fails (K := K) c hshort hparse w
    have hrun : (Step.set (.wqType c text)).run K w = (.ret rc, w') := hcall
    rw [inOrder_cons_of_failed hrun hrc]
    exact Exit.noConfusion
  have hsteps : (ConfigCall.wq bus c p).steps
      = givenStr p.mode (fun text => .set (.wqStr .mode c text)) ++ .set (.wqType c text) ::
        (givenStr p.name (fun text => .set (.wqStr .name c text)) ++
          (givenStr p.driverName (.driverName bus c) ++ ConfigCall.wqAfter c p)) := by
    rw [ConfigCall.steps_wq, ConfigCall.wqBefore, htype]
    simp only [givenStr, List.flatten_cons, List.flatten_nil, List.append_nil, List.append_assoc]
    rfl
  rw [runSteps, hsteps, List.map_append, List.map_cons]
  -- a mode may come first, and may fail
  cases hm : p.mode with
  | none => exact hfails _ w
  | some mode =>
    have hshort : ¬(Step.set (.wqStr .mode c mode)).setting.Overruns := not_le.mpr (hmode mode hm)
    have hstep := Step.run_ne_die (K := K) hshort w
    show (inOrder ((Step.set (.wqStr .mode c mode)).run K :: _) w).1 ≠ .die
    rw [inOrder_cons]
    generalize (Step.set (.wqStr .mode c mode)).run K w = r at hstep ⊢
    obtain ⟨_ | _, w'⟩ := r
    · dsimp only
      split
      · exact Exit.noConfusion
      · exact hfails _ w'
    · exact absurd rfl hstep

/-- Where everything is granted, a step whose text is too long is reached if the
ones before it are accepted. -/
theorem die_of_split (hK : Grants K) {w : World κ} (hconf : (w.device c.dev).configurable ≠ 0)
    {before after : List Step} {step : Step}
    (hsteps : (ConfigCall.wq bus c p).steps = before ++ step :: after)
    (hst : ∀ s ∈ before, s.setting.Storable) (hlong : step.setting.Overruns) :
    (runSteps K (ConfigCall.wq bus c p).steps w).1 = .die := by
  have hdev : ∀ s ∈ before, s.setting.comp.dev = c.dev := by
    intro s hs
    have hmem : s ∈ (ConfigCall.wq bus c p).steps := by
      rw [hsteps]
      exact List.mem_append_left _ hs
    exact congrArg Comp.dev (ConfigCall.comp_of_mem_steps _ s hmem)
  rw [hsteps]
  exact runSteps_die hK hst hdev hconf hlong

theorem die_of_long (hK : Grants K) {w : World κ} (hconf : (w.device c.dev).configurable ≠ 0)
    (hmode : ∀ text ∈ p.mode, ShortValue text)
    (hlong : ¬((∀ text ∈ p.type, ShortValue text) ∧
      ((∃ text ∈ p.type, wqParseType text.toList = none) ∨
        (∀ text ∈ p.name, ShortValue text) ∧ ∀ text ∈ p.driverName, ShortValue text))) :
    (runSteps K (ConfigCall.wq bus c p).steps w).1 = .die := by
  have hmodes : ∀ s ∈ givenStr p.mode (fun text => .set (.wqStr .mode c text)),
      s.setting.Storable := by
    rw [forall_mem_givenStr]
    exact hmode
  -- the first that is too long: the type, the name, or the driver name
  by_cases htype : ∀ text ∈ p.type, ShortValue text
  · obtain ⟨hparse, hnames⟩ := not_or.mp fun h => hlong ⟨htype, h⟩
    have htypes : ∀ s ∈ givenStr p.type (fun text => .set (.wqType c text)),
        s.setting.Storable := by
      rw [forall_mem_givenStr]
      exact fun text h => ⟨htype text h, fun hnone => hparse ⟨text, h, hnone⟩⟩
    by_cases hname : ∀ text ∈ p.name, ShortValue text
    · obtain ⟨text, htext, hlen⟩ : ∃ text ∈ p.driverName, ¬ShortValue text := by
        by_contra hall
        exact hnames ⟨hname, fun text h => not_not.mp fun hlen => hall ⟨text, h, hlen⟩⟩
      have hsteps : (ConfigCall.wq bus c p).steps = ConfigCall.wqBefore c p ++
          .driverName bus c text :: ConfigCall.wqAfter c p := by
        rw [ConfigCall.steps_wq, givenStr, Option.mem_def.mp htext]
        rfl
      refine die_of_split hK hconf hsteps ?_ (not_lt.mp hlen)
      simp only [ConfigCall.wqBefore, List.flatten_cons, List.flatten_nil, List.append_nil,
        List.forall_mem_append]
      refine ⟨hmodes, htypes, ?_⟩
      rw [forall_mem_givenStr]
      exact hname
    · obtain ⟨text, htext, hlen⟩ : ∃ text ∈ p.name, ¬ShortValue text := by simpa using hname
      have hsteps : (ConfigCall.wq bus c p).steps
          = (givenStr p.mode (fun text => .set (.wqStr .mode c text)) ++
              givenStr p.type (fun text => .set (.wqType c text))) ++ .set (.wqStr .name c text) ::
            (givenStr p.driverName (.driverName bus c) ++ ConfigCall.wqAfter c p) := by
        rw [ConfigCall.steps_wq, ConfigCall.wqBefore, Option.mem_def.mp htext]
        simp only [givenStr, List.flatten_cons, List.flatten_nil, List.append_nil,
          List.append_assoc]
        rfl
      exact die_of_split hK hconf hsteps (List.forall_mem_append.mpr ⟨hmodes, htypes⟩)
        (not_lt.mp hlen)
  · obtain ⟨text, htext, hlen⟩ : ∃ text ∈ p.type, ¬ShortValue text := by simpa using htype
    have hsteps : (ConfigCall.wq bus c p).steps
        = givenStr p.mode (fun text => .set (.wqStr .mode c text)) ++ .set (.wqType c text) ::
          (givenStr p.name (fun text => .set (.wqStr .name c text)) ++
            (givenStr p.driverName (.driverName bus c) ++ ConfigCall.wqAfter c p)) := by
      rw [ConfigCall.steps_wq, ConfigCall.wqBefore, Option.mem_def.mp htext]
      simp only [givenStr, List.flatten_cons, List.flatten_nil, List.append_nil, List.append_assoc]
      rfl
    exact die_of_split hK hconf hsteps hmodes (not_lt.mp hlen)

end WqOptions

/-! ### Members -/

/-- The setters of strings are those of four members, and of `op_config`. -/
theorem wqTable_overruns {key : String} {setter : ChildId → String → Setting}
    (h : wqTable.lookup key = some (.str setter)) (c : ChildId) (text : String) :
    (setter c text).Overruns ↔
      key ∈ ["type", "name", "driver_name", "mode"] ∧ ¬ShortValue text := by
  have hmem := mem_of_lookup h
  simp only [wqTable, List.mem_cons, Prod.mk.injEq, WqSetter.str.injEq, reduceCtorEq, and_false,
    List.not_mem_nil, false_or, or_false] at hmem
  obtain ⟨rfl, rfl⟩ | ⟨rfl, rfl⟩ | ⟨rfl, rfl⟩ | ⟨rfl, rfl⟩ | ⟨rfl, rfl⟩ := hmem <;>
    simp [Setting.Overruns, ShortValue]

/-- What a member of a work queue leads to overruns its buffer exactly if it is
one of the four, and too long. -/
theorem fits_wqMember_iff (key : String) (val : Json) :
    (wqMember key val).Fits ↔ (wqMember key val).Short := by
  constructor
  · intro hfits hkey
    by_contra hlong
    obtain ⟨setter, hlookup⟩ : ∃ setter, wqTable.lookup key = some (.str setter) := by
      simp only [List.mem_cons, List.not_mem_nil, or_false] at hkey
      rcases hkey with rfl | rfl | rfl | rfl
      · exact ⟨_, rfl⟩
      · exact ⟨_, rfl⟩
      · exact ⟨_, rfl⟩
      · exact ⟨_, rfl⟩
    -- in a world where every write is granted, the setter is reached
    have hset : (wqJsonSetVal Setting.grantingKernel ⟨⟨.dsa, 0⟩, 0⟩
        (Setting.blankWorld.wq ⟨⟨.dsa, 0⟩, 0⟩) val key Setting.blankWorld.sys).1
        = .set (setter ⟨⟨.dsa, 0⟩, 0⟩ val.getString) := by
      rw [wqJsonSetVal, hlookup]
    refine hfits Unit Setting.grantingKernel _ _ _ hset Setting.blankWorld ?_
    exact (Setting.call_die_iff _ _).mpr ((wqTable_overruns hlookup _ _).mpr ⟨hkey, hlong⟩)
  · intro hshort κ K c w st hset w' hdie
    have hover := (Setting.call_die_iff st w').mp hdie
    rw [wqJsonSetVal] at hset
    cases hlookup : wqTable.lookup key with
    | none =>
      rw [hlookup] at hset
      cases hset
    | some entry =>
      rw [hlookup] at hset
      cases entry with
      | str setter =>
        obtain rfl : setter c val.getString = st := SetVal.set.inj hset
        obtain ⟨hkey, hlong⟩ := (wqTable_overruns hlookup c val.getString).mp hover
        exact hlong (hshort hkey)
      -- a number leaves no text to overrun anything with
      | long =>
        dsimp only at hset
        generalize jsonLong val w.sys = r at hset
        obtain ⟨_ | n, s⟩ := r
        · cases hset
        · cases hset
          exact hover
      | int field =>
        dsimp only at hset
        generalize jsonInt val w.sys = r at hset
        obtain ⟨_ | n, s⟩ := r
        · cases hset
        dsimp only at hset
        generalize wqIsWritable K c (w.wq c) n s field = r at hset
        obtain ⟨_ | _ | _, s'⟩ := r
        · cases hset
        · cases hset
        · cases hset
          exact hover

/-! ### Members of a default configuration -/

section Default

/-- No text of the parameters is too long. -/
def FitConf (conf : DeviceType → Option WqDefaults) : Prop :=
  ∀ type, ∀ p ∈ conf type, ∀ c, ∀ st ∈ p.settings c, ¬st.Overruns

variable {κ : Type} {K : Kernel κ} {compat : Bool} {f k : Setup κ → Acted κ}

/-- No setter that is called overruns its buffer, and the parameters still fit. -/
structure Fit (r : Acted κ) : Prop where
  calls : ∀ st w, .set st w ∈ r.calls → ¬st.Overruns
  conf : FitConf r.state.conf

/-- So it is behind a step, if the parameters fit. -/
def KeepsFit (f : Setup κ → Acted κ) : Prop := ∀ a, FitConf a.conf → Fit (f a)

theorem KeepsFit.andThen (hf : KeepsFit f) (hk : KeepsFit k) :
    KeepsFit fun a => (f a).andThen k := by
  intro a ha
  have h := hf a ha
  show Fit ((f a).andThen k)
  rw [Acted.andThen]
  generalize f a = r at h ⊢
  obtain ⟨_ | trap, calls, a₁⟩ := r
  · have h₂ := hk a₁ h.conf
    refine ⟨fun st w hcall => ?_, h₂.conf⟩
    exact (List.mem_append.mp hcall).elim (h.calls st w) (h₂.calls st w)
  · exact h

theorem KeepsFit.forEach {α : Type} {f : α → Setup κ → Acted κ} {xs : List α}
    (hf : ∀ x ∈ xs, KeepsFit (f x)) : KeepsFit (forEach f xs) := by
  induction xs with
  | nil => exact fun a ha => ⟨fun st w h => absurd h List.not_mem_nil, ha⟩
  | cons x xs ih =>
    exact (hf x List.mem_cons_self).andThen (ih fun y hy => hf y (List.mem_cons_of_mem x hy))

theorem keepsFit_callSetting {st : Setting} (h : ¬st.Overruns) : KeepsFit (callSetting K st) := by
  intro a ha
  have hcalls : ∀ st' w, SetupCall.set st' w ∈ [SetupCall.set st a.world] → ¬st'.Overruns := by
    intro st' w hcall
    obtain ⟨rfl, -⟩ := SetupCall.set.inj (List.mem_singleton.mp hcall)
    exact h
  rw [callSetting]
  obtain ⟨_ | _, w⟩ := st.call K a.world
  · exact ⟨hcalls, ha⟩
  · exact ⟨hcalls, ha⟩

theorem keepsFit_setIfWritable (field : WqField) (c : ChildId) (val : BitVec 32) :
    KeepsFit (setIfWritable K field c val) := by
  intro a ha
  rw [setIfWritable]
  obtain ⟨_ | _ | _, s⟩ := wqIsWritable K c (a.world.wq c) val a.world.sys field
  · exact ⟨fun st w h => absurd h List.not_mem_nil, ha⟩
  · exact ⟨fun st w h => absurd h List.not_mem_nil, ha⟩
  · have hno : ¬(Setting.wq field c val).Overruns := id
    exact keepsFit_callSetting hno (a.withSys s) ha

theorem keepsFit_configDefaultWq (c : ChildId) : KeepsFit (configDefaultWq K c) := by
  intro a ha
  rw [configDefaultWq]
  cases hconf : a.conf c.dev.type with
  | none => exact ⟨fun st w h => absurd h List.not_mem_nil, ha⟩
  | some p =>
    have hsettings : KeepsFit (Accfg.forEach (callSetting K) (p.settings c)) :=
      KeepsFit.forEach fun st hst => keepsFit_callSetting (ha _ p hconf c st hst)
    have hno : ¬(Setting.wq .size c p.wqSize).Overruns := id
    have hsizes : KeepsFit (setSizes K p c) :=
      (keepsFit_callSetting hno).andThen (keepsFit_setIfWritable .threshold c p.threshold)
    exact hsettings.andThen (hsizes.andThen ((keepsFit_setIfWritable .prsDisable c _).andThen
      (keepsFit_setIfWritable .atsDisable c _))) a ha

theorem keepsFit_configDefaultEngine (c : ChildId) : KeepsFit (configDefaultEngine K c) := by
  intro a ha
  rw [configDefaultEngine]
  cases a.conf c.dev.type with
  | none => exact ⟨fun st w h => absurd h List.not_mem_nil, ha⟩
  | some p =>
    have hno : ¬(Setting.engineGroupId c p.groupId).Overruns := id
    exact keepsFit_callSetting hno a ha

theorem keepsFit_enableDefault (node : DeviceNode) : KeepsFit (enableDefault K compat node) := by
  have hwq : ∀ n : ℕ, KeepsFit (enableDefaultWq K compat node.bus ⟨node.id, n⟩) :=
    fun n a ha => ⟨fun st w h => by simp [enableDefaultWq] at h, ha⟩
  intro a ha
  have hdevice : ∀ s, Fit (⟨none, [.enableDevice node.id a.world], a.withSys s⟩ : Acted κ) :=
    fun s => ⟨fun st w h => by simp at h, ha⟩
  rw [enableDefault]
  obtain ⟨rc, s⟩ := accfgDeviceEnable K compat node a.world.sys
  dsimp only
  split
  · exact hdevice s
  · exact KeepsFit.andThen (fun _ _ => hdevice s) (KeepsFit.forEach fun n _ => hwq n) a ha

/-- The sizes that are worked out for a device are no texts. -/
theorem settings_of_setOnDev {dev : DeviceFields} {p p' : WqDefaults} {rc : ℤ}
    (h : configDefaultWqSetOnDev dev p = some (rc, p')) (c : ChildId) :
    p'.settings c = p.settings c := by
  rw [configDefaultWqSetOnDev] at h
  obtain ⟨size, -, hset⟩ := Option.map_eq_some_iff.mp h
  split at hset
  · obtain ⟨-, rfl⟩ := Prod.mk.inj hset
    rfl
  · obtain ⟨-, rfl⟩ := Prod.mk.inj hset
    rfl

theorem keepsFit_activateDefault (node : DeviceNode) :
    KeepsFit (activateDefault K compat node) := by
  intro a ha
  rw [activateDefault]
  cases hconf : a.conf node.id.type with
  | none => exact ⟨fun st w h => absurd h List.not_mem_nil, ha⟩
  | some p =>
    obtain ⟨state, s⟩ := accfgDeviceGetState K node.id a.world.sys
    dsimp only
    split
    · exact ⟨fun st w h => absurd h List.not_mem_nil, ha⟩
    cases hset : configDefaultWqSetOnDev (a.world.device node.id) p with
    | none => exact ⟨fun st w h => absurd h List.not_mem_nil, ha⟩
    | some r =>
      obtain ⟨rc, p'⟩ := r
      have hupdated : FitConf (Function.update a.conf node.id.type (some p')) := by
        intro type q hq c st hst
        by_cases htype : type = node.id.type
        · subst htype
          rw [Function.update_self] at hq
          obtain rfl := Option.some.inj hq
          rw [settings_of_setOnDev hset] at hst
          exact ha _ p hconf c st hst
        · rw [Function.update_of_ne htype] at hq
          exact ha type q hq c st hst
      exact ((KeepsFit.forEach fun n _ => keepsFit_configDefaultWq ⟨node.id, n⟩).andThen
        ((KeepsFit.forEach fun n _ => keepsFit_configDefaultEngine ⟨node.id, n⟩).andThen
          (keepsFit_enableDefault node))) { a.withSys s with conf := _ } hupdated

/-- The mode, the type and the driver's name are fixed. -/
theorem fitConf_fromFile {params : DeviceType → WqParameters} (h : ShortNames params) :
    FitConf (configDefaultFromFile params) := by
  intro type p hp c st hst
  obtain ⟨name, hname, rfl⟩ := Option.map_eq_some_iff.mp hp
  simp only [WqDefaults.settings, List.mem_cons, List.not_mem_nil, or_false] at hst
  obtain rfl | rfl | rfl | rfl | rfl | rfl | rfl := hst
  case inr.inr.inr.inr.inr.inl => exact not_le.mpr (h type name hname)
  case inr.inr.inr.inl => exact not_le.mpr (show "shared".toList.length < _ by decide)
  case inr.inr.inr.inr.inl => exact not_le.mpr (show "user".toList.length < _ by decide)
  case inr.inr.inr.inr.inr.inr => exact not_le.mpr (show "user".toList.length < _ by decide)
  all_goals exact id

theorem shortNames_configDefaultJson {c : ChildId} {val : Json} {key : String} {st : LoadState κ}
    (hst : ShortNames st.confDefWqParam) (h : key = "name" → ShortValue val.getString) :
    ShortNames (configDefaultJson c val key st).confDefWqParam := by
  have hput : ∀ p : WqParameters, (∀ text ∈ p.name, ShortValue text) →
      ShortNames (Function.update st.confDefWqParam c.dev.type p) := by
    intro p hp type
    by_cases htype : type = c.dev.type
    · subst htype
      rwa [Function.update_self]
    · rw [Function.update_of_ne htype]
      exact hst type
  unfold configDefaultJson
  dsimp only
  split
  · refine hput _ fun text htext => ?_
    obtain rfl := Option.some.inj htext
    exact h rfl
  all_goals first
    | exact hput _ (hst c.dev.type)
    | exact hst

theorem mem_calls_andThen {call : SetupCall κ} {r : Acted κ} (h : call ∈ r.calls) :
    call ∈ (r.andThen k).calls := by
  rw [Acted.andThen]
  obtain ⟨_ | _, calls, a⟩ := r
  · exact List.mem_append_left _ h
  · exact h

/-- A setter is called if those before it do not end the process. -/
theorem exists_call {before after : List Setting} {st : Setting}
    (h : ∀ s ∈ before, ¬s.Overruns) (a : Setup κ) :
    ∃ w, .set st w ∈ (forEach (callSetting K) (before ++ st :: after) a).calls := by
  induction before generalizing a with
  | nil =>
    refine ⟨a.world, mem_calls_andThen ?_⟩
    rw [callSetting]
    obtain ⟨_ | _, w⟩ := st.call K a.world
    · exact List.mem_singleton_self _
    · exact List.mem_singleton_self _
  | cons s before ih =>
    have hs : (s.call K a.world).1 ≠ .die := fun hdie =>
      h s List.mem_cons_self ((s.call_die_iff a.world).mp hdie)
    show ∃ w, .set st w ∈ ((callSetting K s a).andThen _).calls
    rw [callSetting]
    generalize s.call K a.world = r at hs ⊢
    obtain ⟨_ | _, w'⟩ := r
    · obtain ⟨w, hw⟩ := ih (fun t ht => h t (List.mem_cons_of_mem s ht)) { a with world := w' }
      exact ⟨w, List.mem_append_right _ hw⟩
    · exact absurd rfl hs

/-- The setters of the first work queue are called as far as those before them
do not end the process. -/
theorem exists_call_configDevice {node : DeviceNode} {p : WqDefaults} {n : ℕ} {ns : List ℕ}
    {before after : List Setting} {st : Setting} (hwqs : node.wqs = n :: ns)
    (hsettings : p.settings ⟨node.id, n⟩ = before ++ st :: after)
    (h : ∀ s ∈ before, ¬s.Overruns) (a : Setup κ) :
    ∃ w, .set st w ∈ (configDevice K compat node p a).calls := by
  have hconf : Function.update a.conf node.id.type (some p) node.id.type = some p :=
    Function.update_self ..
  rw [configDevice]
  generalize Function.update a.conf node.id.type (some p) = conf at hconf ⊢
  obtain ⟨w, hw⟩ := @exists_call _ K before after st h { a with conf := conf }
  refine ⟨w, mem_calls_andThen ?_⟩
  rw [hwqs]
  show _ ∈ ((configDefaultWq K ⟨node.id, n⟩ { a with conf := conf }).andThen _).calls
  refine mem_calls_andThen ?_
  rw [configDefaultWq]
  simp only [hconf]
  refine mem_calls_andThen ?_
  rwa [hsettings]

/-- A device with one work queue, which gets all of it. -/
def wholeDevice (params : DeviceType → WqParameters) : Setup Unit where
  world := { Setting.blankWorld with
    device := fun _ => { maxWorkQueues := 1, maxWorkQueuesSize := 8, configurable := 1 } }
  conf := configDefaultFromFile params

/-- The name that was given is set. -/
theorem exists_name_call {params : DeviceType → WqParameters} {name : String}
    (hname : (params .dsa).name = some name) :
    ∃ w, .set (.wqStr .name ⟨⟨.dsa, 0⟩, 0⟩ name) w ∈
      (configDefaultActivateDevices disabledKernel false [⟨⟨.dsa, 0⟩, "dsa", [], [0], []⟩]
        (wholeDevice params)).calls := by
  obtain ⟨p, hp, hpname, hmode, htype⟩ : ∃ p, configDefaultFromFile params .dsa = some p ∧
      p.name = name ∧ p.mode = "shared" ∧ p.type = "user" := by
    rw [configDefaultFromFile, hname]
    exact ⟨_, rfl, rfl, rfl, rfl⟩
  have hshare : getWqSize ((wholeDevice params).world.device ⟨.dsa, 0⟩) = some 8 := by
    show getWqSize { maxWorkQueues := 1, maxWorkQueuesSize := 8, configurable := 1 } = some 8
    decide
  have hstate :
      (accfgDeviceGetState disabledKernel ⟨.dsa, 0⟩ Setting.blankWorld.sys).1 ≠ .enabled := by
    decide
  obtain ⟨hnone, -⟩ | ⟨size, rc, p', -, hset, -, -⟩ :=
    configDefaultWqSetOnDev_cases ((wholeDevice params).world.device ⟨.dsa, 0⟩) p
  · exact absurd (hnone.symm.trans hshare) (by simp)
  -- the mode and the type come before the name
  have hsettings : p'.settings ⟨⟨.dsa, 0⟩, 0⟩ =
      (p.settings ⟨⟨.dsa, 0⟩, 0⟩).take 5 ++ .wqStr .name ⟨⟨.dsa, 0⟩, 0⟩ name ::
        [.wqStr .driverName ⟨⟨.dsa, 0⟩, 0⟩ p.driverName] := by
    rw [settings_of_setOnDev hset, ← hpname]
    rfl
  have hbefore : ∀ st ∈ (p.settings ⟨⟨.dsa, 0⟩, 0⟩).take 5, ¬st.Overruns := by
    intro st hst
    simp only [WqDefaults.settings, hmode, htype, List.take_succ_cons, List.take_zero,
      List.mem_cons, List.not_mem_nil, or_false] at hst
    obtain rfl | rfl | rfl | rfl | rfl := hst
    case inr.inr.inr.inl => exact not_le.mpr (show "shared".toList.length < _ by decide)
    case inr.inr.inr.inr => exact not_le.mpr (show "user".toList.length < _ by decide)
    all_goals exact id
  have hrun : activateDefault disabledKernel false ⟨⟨.dsa, 0⟩, "dsa", [], [0], []⟩
      (wholeDevice params) = configDevice disabledKernel false ⟨⟨.dsa, 0⟩, "dsa", [], [0], []⟩ p'
        ((wholeDevice params).withSys
          (accfgDeviceGetState disabledKernel ⟨.dsa, 0⟩ Setting.blankWorld.sys).2) := by
    have hconf : (wholeDevice params).conf .dsa = some p := hp
    have hsys : (wholeDevice params).world.sys = Setting.blankWorld.sys := rfl
    rw [activateDefault, hconf, hsys]
    dsimp only
    rw [if_neg hstate, hset]
  obtain ⟨w, hw⟩ := @exists_call_configDevice _ disabledKernel false
    ⟨⟨.dsa, 0⟩, "dsa", [], [0], []⟩ p' _ _ _ _ _ rfl hsettings hbefore
    ((wholeDevice params).withSys
      (accfgDeviceGetState disabledKernel ⟨.dsa, 0⟩ Setting.blankWorld.sys).2)
  refine ⟨w, mem_calls_andThen ?_⟩
  rwa [hrun]

theorem fits_defaultMember_iff (key : String) (val : Json) :
    (defaultMember key val).Fits ↔ (defaultMember key val).Short := by
  constructor
  · rintro hfits rfl
    by_contra hlong
    obtain ⟨w, hw⟩ := @exists_name_call (configDefaultJson ⟨⟨.dsa, 0⟩, 0⟩ val "name"
      (LoadState.start Setting.blankWorld)).confDefWqParam val.getString rfl
    refine hfits Unit disabledKernel false ⟨⟨.dsa, 0⟩, 0⟩ (LoadState.start Setting.blankWorld)
      (fun _ text h => nomatch h) _ _ rfl _ w hw ?_
    exact (Setting.call_die_iff _ _).mpr (not_lt.mp hlong)
  · intro hshort κ K compat c st hst nodes a ha setting w hcall hdie
    have hfit : Fit (configDefaultActivateDevices K compat nodes a) := by
      refine KeepsFit.forEach (fun node _ => keepsFit_activateDefault node) a ?_
      rw [ha]
      exact fitConf_fromFile (shortNames_configDefaultJson hst hshort)
    exact hfit.calls setting w hcall ((setting.call_die_iff w).mp hdie)

end Default

/-! ### All ways -/

theorem grants_grantingKernel : Grants Setting.grantingKernel where
  openFile _ _ _ := rfl
  openDir _ _ := rfl
  write _ _ _ := rfl
  access _ _ := rfl

theorem fits_wqOptions_iff (p : WqParam) : (wqOptions p).Fits ↔ (wqOptions p).Short := by
  constructor
  · intro hfits
    by_contra hlong
    obtain ⟨hrefused, hlong⟩ := not_or.mp hlong
    let w : World Unit := { Setting.blankWorld with device := fun _ => ample }
    have hconf : (w.device (⟨⟨.dsa, 0⟩, 0⟩ : ChildId).dev).configurable ≠ 0 := by decide
    refine hfits Unit Setting.grantingKernel "dsa" ⟨⟨.dsa, 0⟩, 0⟩ w ?_
    rw [ConfigCall.accelConfigParseWqAttribs_eq, if_neg hrefused]
    exact die_of_long grants_grantingKernel hconf (shortValue_mode hrefused) hlong
  · intro hshort κ K bus c w
    rw [ConfigCall.accelConfigParseWqAttribs_eq]
    by_cases hrefused : p.refused (w.device c.dev) = true
    · rw [if_pos hrefused]
      exact fun h => (nomatch h)
    rw [if_neg hrefused]
    have hmode := shortValue_mode hrefused
    rcases hshort with hample | ⟨htype, ⟨text, htext, hparse⟩ | ⟨hname, hdriver⟩⟩
    · exact absurd (refused_of_ample hample _) hrefused
    · exact ne_die_of_type hmode (Option.mem_def.mp htext) (htype text htext) hparse w
    · exact ne_die_of_short hmode htype hname hdriver w

/-- Exactly the strings that are short enough fit, by the way they arrive. -/
theorem fits_iff (a : Arrival) : a.Fits ↔ a.Short := by
  cases a with
  | deviceName name =>
    refine ⟨fun hfits => ?_, fun hshort ctx => ?_⟩
    · by_contra hlong
      exact hfits [] (storeDeviceName_of_not_fit [] hlong)
    · rw [storeDeviceName_of_fit ctx hshort]
      exact Option.some_ne_none _
  | childName kind name =>
    refine ⟨fun hfits => ?_, fun hshort ctx => ?_⟩
    · by_contra hlong
      exact hfits [] (storeChildName_of_not_fit kind [] hlong)
    · rw [storeChildName_of_fit kind ctx hshort]
      exact Option.some_ne_none _
  | wqOptions p => exact fits_wqOptions_iff p
  | wqMember key val => exact fits_wqMember_iff key val
  | defaultMember key val => exact fits_defaultMember_iff key val

/-- A name of 64 letters, where there are no devices at all. -/
theorem not_fits_longName : ¬(deviceName (String.ofList (List.replicate 64 'a'))).Fits := by
  intro hfits
  refine hfits [] (storeDeviceName_of_not_fit [] ?_)
  decide

end Arrival

end Accfg
