/-
Setting up the default configuration.

`config_default_activate_devices` configures the work queues and engines of
each device of a configured type that is not enabled, and enables it.  A work
queue's size is its share of the device's; the results of all the calls but one
are dropped.

* `Inside.append` — what is known of two lists of calls holds of both together;
* `insideCapacity_iff` — exactly when a device is set up inside its capacity;
* `eachVisit_iff` — what holds of each visit, said of the loop.
-/
import AccelConfig.Control
import Mathlib.Data.Int.Init

open CNumeral

namespace Accfg

variable {κ : Type}

/-! ### Parameters -/

/-- `struct wq_parameters`, as far as a default configuration sets it, for a
device type that is configured. -/
structure WqDefaults where
  groupId : BitVec 32
  wqSize : BitVec 32 := 0
  threshold : BitVec 32 := 0
  priority : BitVec 32
  blockOnFault : BitVec 32
  atsDisable : BitVec 32
  prsDisable : BitVec 32
  mode : String := "shared"
  type : String := "user"
  name : String
  driverName : String := "user"
  deriving DecidableEq, Repr

/-- `config_default`: what is set without a file, for each device type. -/
def configDefault : DeviceType → Option WqDefaults := fun _ => some {
  priority := 10
  groupId := 0
  blockOnFault := 1
  name := "user_default_wq"
  prsDisable := 1
  atsDisable := 0 }

/-- `config_default_from_file`, once the file was parsed: a type is configured
if a name was given for it. -/
def configDefaultFromFile (confDefWqParam : DeviceType → WqParameters) :
    DeviceType → Option WqDefaults := fun type =>
  let p := confDefWqParam type
  p.name.map fun name => {
    priority := p.priority
    groupId := p.groupId
    blockOnFault := p.blockOnFault
    name := name
    prsDisable := p.prsDisable
    atsDisable := p.atsDisable }

def INT_MIN : BitVec 32 := 0x80000000

def ENOSPC : ℕ := 28

/-- `get_wq_size`.  There is no result where the division faults. -/
def getWqSize (dev : DeviceFields) : Option (BitVec 32) :=
  if dev.maxWorkQueues = 0 ∨ dev.maxWorkQueuesSize = INT_MIN ∧ dev.maxWorkQueues = -1 then none
  else some (dev.maxWorkQueuesSize.sdiv dev.maxWorkQueues)

/-- `config_default_wq_set_on_dev`.  `wq_size` is unsigned. -/
def configDefaultWqSetOnDev (dev : DeviceFields) (p : WqDefaults) : Option (ℤ × WqDefaults) :=
  (getWqSize dev).map fun size =>
    if size.toNat ≤ 0 then (-(ENOSPC : ℤ), { p with wqSize := size })
    else (0, { p with wqSize := size, threshold := size })

/-! ### Calls -/

/-- A call that is made, and the world it is made in. -/
inductive SetupCall (κ : Type) where
  | set (st : Setting) (w : World κ)
  | enableDevice (d : DevId) (w : World κ)
  | enableWq (c : ChildId) (w : World κ)

/-- The device a call is about. -/
def SetupCall.dev : SetupCall κ → DevId
  | set st _ => st.comp.dev
  | enableDevice d _ => d
  | enableWq c _ => c.dev

/-- How a process is stopped. -/
inductive Trap where
  | divide
  | memory
  deriving DecidableEq, Repr

/-- The library's context, and `conf_def_wq_param`. -/
structure Setup (κ : Type) where
  world : World κ
  conf : DeviceType → Option WqDefaults

def Setup.withSys (a : Setup κ) (s : Sys κ) : Setup κ :=
  { a with world := { a.world with sys := s } }

/-- A part of a run: whether it was stopped, the calls, and the state. -/
structure Acted (κ : Type) where
  trap : Option Trap
  calls : List (SetupCall κ)
  state : Setup κ

/-- Go on unless stopped. -/
def Acted.andThen (r : Acted κ) (k : Setup κ → Acted κ) : Acted κ :=
  match r.trap with
  | some _ => r
  | none => ⟨(k r.state).trap, r.calls ++ (k r.state).calls, (k r.state).state⟩

/-- Do something with each element of a list. -/
def forEach {α : Type} (f : α → Setup κ → Acted κ) : List α → Setup κ → Acted κ
  | [], a => ⟨none, [], a⟩
  | x :: xs, a => (f x a).andThen (forEach f xs)

variable (K : Kernel κ)

/-- Call a setter; its return code is dropped. -/
def callSetting (st : Setting) (a : Setup κ) : Acted κ :=
  match st.call K a.world with
  | (.ret _, w) => ⟨none, [.set st a.world], { a with world := w }⟩
  | (.die, w) => ⟨some .memory, [.set st a.world], { a with world := w }⟩

/-- `config_default_wq_set_threshold` and its relatives. -/
def setIfWritable (field : WqField) (c : ChildId) (val : BitVec 32) (a : Setup κ) : Acted κ :=
  match wqIsWritable K c (a.world.wq c) val a.world.sys field with
  | (none, s) => ⟨some .memory, [], a.withSys s⟩
  | (some false, s) => ⟨none, [], a.withSys s⟩
  | (some true, s) => callSetting K (.wq field c val) (a.withSys s)

/-- The attributes that are set before the size. -/
def WqDefaults.settings (p : WqDefaults) (c : ChildId) : List Setting :=
  [.wq .priority c p.priority, .wq .groupId c p.groupId, .wq .blockOnFault c p.blockOnFault,
   .wqStr .mode c p.mode, .wqType c p.type, .wqStr .name c p.name,
   .wqStr .driverName c p.driverName]

/-- The size and the threshold. -/
def setSizes (p : WqDefaults) (c : ChildId) (a : Setup κ) : Acted κ :=
  (callSetting K (.wq .size c p.wqSize) a).andThen (setIfWritable K .threshold c p.threshold)

/-- `config_default_wq`. -/
def configDefaultWq (c : ChildId) (a : Setup κ) : Acted κ :=
  match a.conf c.dev.type with
  | none => ⟨none, [], a⟩
  | some p =>
    (forEach (callSetting K) (p.settings c) a).andThen fun a =>
    (setSizes K p c a).andThen fun a =>
    (setIfWritable K .prsDisable c p.prsDisable a).andThen
    (setIfWritable K .atsDisable c p.atsDisable)

/-- `config_default_engine`; it is only called for configured types. -/
def configDefaultEngine (c : ChildId) (a : Setup κ) : Acted κ :=
  match a.conf c.dev.type with
  | none => ⟨none, [], a⟩
  | some p => callSetting K (.engineGroupId c p.groupId) a

variable (compat : Bool)

/-- A work queue is enabled; the result is only reported. -/
def enableDefaultWq (bus : String) (c : ChildId) (a : Setup κ) : Acted κ :=
  ⟨none, [.enableWq c a.world],
    a.withSys (accfgWqEnable K compat bus c (a.world.wq c) a.world.sys).2⟩

/-- The device is enabled, and if that works its work queues. -/
def enableDefault (node : DeviceNode) (a : Setup κ) : Acted κ :=
  match accfgDeviceEnable K compat node a.world.sys with
  | (rc, s) =>
    if rc ≠ 0 then ⟨none, [.enableDevice node.id a.world], a.withSys s⟩
    else
      (⟨none, [.enableDevice node.id a.world], a.withSys s⟩ : Acted κ).andThen
        (forEach (fun n : ℕ => enableDefaultWq K compat node.bus ⟨node.id, n⟩) node.wqs)

/-- The configuration of a device, with the parameters for it. -/
def configDevice (node : DeviceNode) (p : WqDefaults) (a : Setup κ) : Acted κ :=
  (forEach (fun n : ℕ => configDefaultWq K ⟨node.id, n⟩) node.wqs
    { a with conf := Function.update a.conf node.id.type (some p) }).andThen fun a =>
  (forEach (fun n : ℕ => configDefaultEngine K ⟨node.id, n⟩) node.engines a).andThen
  (enableDefault K compat node)

/-- The loop body of `config_default_activate_devices`. -/
def activateDefault (node : DeviceNode) (a : Setup κ) : Acted κ :=
  match a.conf node.id.type with
  | none => ⟨none, [], a⟩
  | some p =>
    match accfgDeviceGetState K node.id a.world.sys with
    | (state, s) =>
      if state = .enabled then ⟨none, [], a.withSys s⟩
      else
        match configDefaultWqSetOnDev (a.world.device node.id) p with
        | none => ⟨some .divide, [], a.withSys s⟩
        -- the return code is dropped
        | some (_, p) => configDevice K compat node p (a.withSys s)

/-- `config_default_activate_devices`. -/
def configDefaultActivateDevices : List DeviceNode → Setup κ → Acted κ :=
  forEach (activateDefault K compat)

/-! ### What is asked of it -/

/-- The size that a call writes. -/
def SetupCall.size : SetupCall κ → ℤ
  | set (.wq .size _ val) _ => val.toInt
  | _ => 0

/-- Each threshold that is written is one that was written as the size, and so
is the work queue's size if that was taken. -/
def Tied (calls : List (SetupCall κ)) : Prop :=
  ∀ c val w, .set (.wq .threshold c val) w ∈ calls →
    ∃ w', .set (.wq .size c val) w' ∈ calls ∧
      ((Setting.call K (.wq .size c val) w').1 = .ret 0 → (w.wq c).int .size = val)

/-- The share of a work queue is a positive number of type `int`. -/
def HasShare (dev : DeviceFields) : Prop :=
  dev.maxWorkQueues.toInt ≠ 0 ∧
  0 < dev.maxWorkQueuesSize.toInt.tdiv dev.maxWorkQueues.toInt ∧
  dev.maxWorkQueuesSize.toInt.tdiv dev.maxWorkQueues.toInt < 2 ^ 31

instance (dev : DeviceFields) : Decidable (HasShare dev) := by
  unfold HasShare
  infer_instance

/-- The device is of a configured type and not enabled. -/
def Concerned (node : DeviceNode) (a : Setup κ) : Prop :=
  a.conf node.id.type ≠ none ∧ (accfgDeviceGetState K node.id a.world.sys).1 ≠ .enabled

/-- A device is set up inside its capacity. -/
structure InsideCapacity (node : DeviceNode) (a : Setup κ) : Prop where
  noDivide : (activateDefault K compat node a).trap ≠ some .divide
  own : ∀ call ∈ (activateDefault K compat node a).calls, call.dev = node.id
  untouched : ¬Concerned K node a → (activateDefault K compat node a).calls = []
  refused : ¬HasShare (a.world.device node.id) → (activateDefault K compat node a).calls = []
  sum : HasShare (a.world.device node.id) →
    (node.wqs.length : ℤ) ≤ (a.world.device node.id).maxWorkQueues.toInt →
    ((activateDefault K compat node a).calls.map SetupCall.size).sum
      ≤ (a.world.device node.id).maxWorkQueuesSize.toInt
  tied : HasShare (a.world.device node.id) → Tied K (activateDefault K compat node a).calls

/-- Each device that is come to, in the state it is come to in, has the
property. -/
def EachVisit (P : DeviceNode → Setup κ → Prop) : List DeviceNode → Setup κ → Prop
  | [], _ => True
  | node :: nodes, a =>
    P node a ∧ ((activateDefault K compat node a).trap = none →
      EachVisit P nodes (activateDefault K compat node a).state)

/-! ### Lists of calls -/

variable {K} {compat}

/-- Calls that are about one device, write sizes of a given sum at most, and
tie thresholds to sizes. -/
structure Inside (K : Kernel κ) (d : DevId) (m : ℤ) (calls : List (SetupCall κ)) : Prop where
  own : ∀ call ∈ calls, call.dev = d
  sum : (calls.map SetupCall.size).sum ≤ m
  tied : Tied K calls

theorem Tied.append {calls calls' : List (SetupCall κ)} (h : Tied K calls) (h' : Tied K calls') :
    Tied K (calls ++ calls') := by
  intro c val w hcall
  obtain hcall | hcall := List.mem_append.mp hcall
  · obtain ⟨w', hw', htaken⟩ := h c val w hcall
    exact ⟨w', List.mem_append_left _ hw', htaken⟩
  · obtain ⟨w', hw', htaken⟩ := h' c val w hcall
    exact ⟨w', List.mem_append_right _ hw', htaken⟩

theorem Inside.nil (d : DevId) {m : ℤ} (hm : 0 ≤ m) : Inside K d m [] where
  own := by simp
  sum := by simpa using hm
  tied := by
    intro c val w hcall
    exact absurd hcall List.not_mem_nil

theorem Inside.append {d : DevId} {m m' : ℤ} {calls calls' : List (SetupCall κ)}
    (h : Inside K d m calls) (h' : Inside K d m' calls') :
    Inside K d (m + m') (calls ++ calls') where
  own call hcall := (List.mem_append.mp hcall).elim (h.own call) (h'.own call)
  sum := by
    have h₁ := h.sum
    have h₂ := h'.sum
    rw [List.map_append, List.sum_append]
    omega
  tied := h.tied.append h'.tied

/-- The part of a run makes such calls, keeps the parameters and divides
nothing by 0. -/
structure ActedInside (K : Kernel κ) (conf : DeviceType → Option WqDefaults) (d : DevId) (m : ℤ)
    (r : Acted κ) : Prop where
  inside : Inside K d m r.calls
  conf : r.state.conf = conf
  trap : r.trap ≠ some .divide

/-- So does the step, from any state with these parameters. -/
def Acts (K : Kernel κ) (conf : DeviceType → Option WqDefaults) (d : DevId) (m : ℤ)
    (f : Setup κ → Acted κ) : Prop :=
  ∀ a, a.conf = conf → ActedInside K conf d m (f a)

section Acts

variable {conf : DeviceType → Option WqDefaults} {d : DevId} {m m' : ℤ}

theorem Acts.andThen {f k : Setup κ → Acted κ} (hf : Acts K conf d m f) (hk : Acts K conf d m' k)
    (hm' : 0 ≤ m') : Acts K conf d (m + m') fun a => (f a).andThen k := by
  intro a ha
  have h := hf a ha
  show ActedInside K conf d (m + m') ((f a).andThen k)
  rw [Acted.andThen]
  generalize f a = r at h ⊢
  obtain ⟨_ | trap, calls, a₁⟩ := r
  · have h₂ := hk a₁ h.conf
    exact ⟨h.inside.append h₂.inside, h₂.conf, h₂.trap⟩
  · have hi := h.inside
    exact ⟨⟨hi.own, le_add_of_le_of_nonneg hi.sum hm', hi.tied⟩, h.conf, h.trap⟩

/-- What each element may add, all of them may add as often as there are
elements. -/
theorem Acts.forEach {α : Type} {f : α → Setup κ → Acted κ} (hm : 0 ≤ m) {xs : List α}
    (hf : ∀ x ∈ xs, Acts K conf d m (f x)) : Acts K conf d (xs.length * m) (forEach f xs) := by
  induction xs with
  | nil =>
    intro a ha
    exact ⟨Inside.nil d (by simp), ha, by simp [Accfg.forEach]⟩
  | cons x xs ih =>
    have hrest := ih fun y hy => hf y (List.mem_cons_of_mem x hy)
    have h := (hf x List.mem_cons_self).andThen hrest (by positivity)
    rw [List.length_cons, Nat.cast_succ, add_mul, one_mul, add_comm]
    exact h

/-- The call of a setter that writes neither a size nor a threshold. -/
theorem acts_callSetting {st : Setting} (hd : st.comp.dev = d)
    (hsize : ∀ c val, st ≠ .wq .size c val) (hthreshold : ∀ c val, st ≠ .wq .threshold c val) :
    Acts K conf d 0 (callSetting K st) := by
  intro a ha
  have hcalls : Inside K d 0 [.set st a.world] := by
    refine ⟨by simpa [SetupCall.dev] using hd, ?_, ?_⟩
    · have hzero : SetupCall.size (.set st a.world) = 0 := by
        rw [SetupCall.size]
        exact fun c val w h => hsize c val (SetupCall.set.inj h).1
      simp [hzero]
    · intro c val w hcall
      exact absurd (SetupCall.set.inj (List.mem_singleton.mp hcall)).1.symm (hthreshold c val)
  rw [callSetting]
  obtain ⟨_ | _, w⟩ := st.call K a.world
  · exact ⟨hcalls, ha, by simp⟩
  · exact ⟨hcalls, ha, by simp⟩

theorem acts_setIfWritable {field : WqField} {c : ChildId} (val : BitVec 32) (hd : c.dev = d)
    (hsize : field ≠ .size) (hthreshold : field ≠ .threshold) :
    Acts K conf d 0 (setIfWritable K field c val) := by
  intro a ha
  rw [setIfWritable]
  obtain ⟨_ | _ | _, s⟩ := wqIsWritable K c (a.world.wq c) val a.world.sys field
  · exact ⟨Inside.nil d le_rfl, ha, by simp⟩
  · exact ⟨Inside.nil d le_rfl, ha, by simp⟩
  · refine acts_callSetting (show (Setting.wq field c val).comp.dev = d from hd)
      (fun c' val' h => ?_) (fun c' val' h => ?_) (a.withSys s) ha
    · exact hsize (Setting.wq.inj h).1
    · exact hthreshold (Setting.wq.inj h).1

/-- A write that fails sets `errno`, and the setters return it. -/
theorem storeAttr_ne_zero (c : Comp) (path : Path) (buf : List Char) (s : Sys κ) :
    (storeAttr K c path buf s).1 ≠ some 0 := by
  have herrno : ∀ o, (writeResult path buf s o).1 < 0 → 0 < (writeResult path buf s o).2.errno := by
    rintro ⟨e | e | n, k⟩ h
    · exact e.pos
    · exact e.pos
    · simp only [writeResult] at h ⊢
      split at h
      · omega
      · exact absurd h (by simp)
  rw [storeAttr, writeAttr, writeFile_eq]
  have h := herrno (writeOutcome K path .write buf s.kernel)
  generalize writeResult path buf s (writeOutcome K path .write buf s.kernel) = r at h ⊢
  obtain ⟨rc, s₁⟩ := r
  dsimp only at h ⊢
  split
  · next hrc =>
    have hquiet : ReadOnly s₁ (saveLastError K c s₁) := quiet_readOnly.saveLastError c s₁
    have hsave := hquiet.errno (h hrc)
    intro heq
    have := Option.some.inj heq
    omega
  · simp

/-- Where the size is taken, it is the work queue's afterwards. -/
theorem size_of_call {c : ChildId} {val : BitVec 32} {w : World κ}
    (h : ((Setting.wq .size c val).call K w).1 = .ret 0) :
    ((((Setting.wq .size c val).call K w).2).wq c).int .size = val := by
  have hne := @storeAttr_ne_zero _ K (.wq c) (.attr (.wq c) WqField.size.name) (fmtInt val) w.sys
  rw [@Setting.call_wq _ K w .size c val (by simp)] at h ⊢
  generalize storeAttr K (.wq c) (.attr (.wq c) WqField.size.name) (fmtInt val) w.sys = r at h hne ⊢
  obtain ⟨_ | rc, s⟩ := r
  · simp
  · exact absurd (congrArg some (Exit.ret.inj h)) hne

/-- The size, and the threshold that is the same. -/
theorem acts_setSizes {p : WqDefaults} {c : ChildId} (hd : c.dev = d)
    (hp : p.threshold = p.wqSize) : Acts K conf d p.wqSize.toInt (setSizes K p c) := by
  intro a ha
  have hcall : callSetting K (.wq .size c p.wqSize) a =
      ⟨none, [.set (.wq .size c p.wqSize) a.world],
        { a with world := ((Setting.wq .size c p.wqSize).call K a.world).2 }⟩ := rfl
  have htaken := @size_of_call _ K c p.wqSize a.world
  have hsize : Inside K d p.wqSize.toInt [.set (.wq .size c p.wqSize) a.world] := by
    refine ⟨by simpa [SetupCall.dev, Setting.comp, Comp.dev] using hd, by simp [SetupCall.size], ?_⟩
    intro c' val w hmem
    simp at hmem
  rw [setSizes, hcall, hp]
  generalize ((Setting.wq .size c p.wqSize).call K a.world).2 = w₁ at htaken ⊢
  rw [Acted.andThen]
  dsimp only
  rw [setIfWritable]
  dsimp only
  obtain ⟨_ | _ | _, s⟩ := wqIsWritable K c (w₁.wq c) p.wqSize w₁.sys .threshold
  · exact ⟨hsize, ha, by simp⟩
  · exact ⟨hsize, ha, by simp⟩
  · -- the threshold is written right after the size
    refine ⟨⟨?_, ?_, ?_⟩, ha, by simp [callSetting, Setting.call]⟩
    · simpa [callSetting, Setting.call, SetupCall.dev, Setting.comp, Comp.dev] using hd
    · simp [callSetting, Setting.call, SetupCall.size]
    · intro c' val w hmem
      simp only [callSetting, Setting.call, List.cons_append, List.nil_append, List.mem_cons,
        SetupCall.set.injEq, Setting.wq.injEq, reduceCtorEq, false_and, List.not_mem_nil, or_false,
        true_and, false_or] at hmem
      obtain ⟨⟨rfl, rfl⟩, rfl⟩ := hmem
      exact ⟨a.world, List.mem_cons_self, htaken⟩

theorem acts_configDefaultWq {p : WqDefaults} {c : ChildId} (hd : c.dev = d)
    (hconf : conf d.type = some p) (hp : p.threshold = p.wqSize) (hpos : 0 ≤ p.wqSize.toInt) :
    Acts K conf d p.wqSize.toInt (configDefaultWq K c) := by
  have hsettings : Acts K conf d ((p.settings c).length * 0)
      (forEach (callSetting K) (p.settings c)) := by
    refine Acts.forEach le_rfl fun st hst => ?_
    simp only [WqDefaults.settings, List.mem_cons, List.not_mem_nil, or_false] at hst
    obtain rfl | rfl | rfl | rfl | rfl | rfl | rfl := hst <;>
      exact acts_callSetting hd (by simp) (by simp)
  have hall := hsettings.andThen ((@acts_setSizes _ K conf d p c hd hp).andThen
    ((@acts_setIfWritable _ K conf d .prsDisable c p.prsDisable hd (by simp) (by simp)).andThen
      (@acts_setIfWritable _ K conf d .atsDisable c p.atsDisable hd (by simp) (by simp)) le_rfl)
      (by simp)) (by simpa using hpos)
  intro a ha
  have h := hall a ha
  rw [configDefaultWq, ha, hd, hconf]
  simpa using h

theorem acts_configDefaultEngine {p : WqDefaults} {c : ChildId} (hd : c.dev = d)
    (hconf : conf d.type = some p) : Acts K conf d 0 (configDefaultEngine K c) := by
  intro a ha
  have h := @acts_callSetting _ K conf d (.engineGroupId c p.groupId) hd (by simp) (by simp) a ha
  rw [configDefaultEngine, ha, hd, hconf]
  exact h

theorem acts_enableDefault (node : DeviceNode) :
    Acts K conf node.id 0 (enableDefault K compat node) := by
  have hwq : ∀ n : ℕ, Acts K conf node.id 0 (enableDefaultWq K compat node.bus ⟨node.id, n⟩) :=
    fun n a ha => ⟨⟨by simp [enableDefaultWq, SetupCall.dev],
      by simp [enableDefaultWq, SetupCall.size],
      fun c val w h => by simp [enableDefaultWq] at h⟩, ha, by simp [enableDefaultWq]⟩
  have hwqs := Acts.forEach le_rfl fun n (_ : n ∈ node.wqs) => hwq n
  intro a ha
  have hdevice : Inside K node.id 0 [.enableDevice node.id a.world] :=
    ⟨by simp [SetupCall.dev], by simp [SetupCall.size], fun c val w h => by simp at h⟩
  rw [enableDefault]
  obtain ⟨rc, s⟩ := accfgDeviceEnable K compat node a.world.sys
  dsimp only
  split
  · exact ⟨hdevice, ha, by simp⟩
  · have h := hwqs (a.withSys s) ha
    rw [mul_zero] at h
    exact ⟨hdevice.append h.inside, h.conf, h.trap⟩

end Acts

/-! ### A device -/

theorem actedInside_configDevice {node : DeviceNode} {p : WqDefaults} (hp : p.threshold = p.wqSize)
    (hpos : 0 ≤ p.wqSize.toInt) (a : Setup κ) :
    ActedInside K (Function.update a.conf node.id.type (some p)) node.id
      (node.wqs.length * p.wqSize.toInt) (configDevice K compat node p a) := by
  have hconf : Function.update a.conf node.id.type (some p) node.id.type = some p :=
    Function.update_self ..
  have hwqs := Acts.forEach hpos fun (n : ℕ) (_ : n ∈ node.wqs) =>
    @acts_configDefaultWq _ K _ node.id p ⟨node.id, n⟩ rfl hconf hp hpos
  have hengines := Acts.forEach le_rfl fun (n : ℕ) (_ : n ∈ node.engines) =>
    @acts_configDefaultEngine _ K _ node.id p ⟨node.id, n⟩ rfl hconf
  have hall := hwqs.andThen (hengines.andThen (@acts_enableDefault _ K compat _ node) le_rfl)
    (by simp)
  have h := hall { a with conf := Function.update a.conf node.id.type (some p) } rfl
  rw [mul_zero, add_zero, add_zero] at h
  exact h

theorem Acted.calls_andThen {r : Acted κ} {k : Setup κ → Acted κ} (h : r.calls ≠ []) :
    (r.andThen k).calls ≠ [] := by
  rw [Acted.andThen]
  obtain ⟨_ | _, calls, a⟩ := r
  · exact List.append_ne_nil_of_left_ne_nil h _
  · exact h

theorem calls_callSetting (st : Setting) (a : Setup κ) : (callSetting K st a).calls ≠ [] := by
  rw [callSetting]
  obtain ⟨_ | _, w⟩ := st.call K a.world <;> simp

/-- Whatever happens, a device that is configured is touched. -/
theorem calls_configDevice (node : DeviceNode) (p : WqDefaults) (a : Setup κ) :
    (configDevice K compat node p a).calls ≠ [] := by
  have hconf : Function.update a.conf node.id.type (some p) node.id.type = some p :=
    Function.update_self ..
  rw [configDevice]
  generalize Function.update a.conf node.id.type (some p) = conf at hconf ⊢
  cases node.wqs with
  | nil =>
    show ((forEach (fun n : ℕ => configDefaultEngine K ⟨node.id, n⟩) node.engines _).andThen
      _).calls ≠ []
    cases node.engines with
    | nil =>
      show (enableDefault K compat node _).calls ≠ []
      rw [enableDefault]
      obtain ⟨rc, s⟩ := accfgDeviceEnable K compat node a.world.sys
      dsimp only
      split
      · simp
      · exact Acted.calls_andThen (List.cons_ne_nil _ _)
    | cons n ns =>
      refine Acted.calls_andThen (Acted.calls_andThen ?_)
      show (configDefaultEngine K ⟨node.id, n⟩ { a with conf := conf }).calls ≠ []
      rw [configDefaultEngine]
      simp only [hconf]
      exact calls_callSetting _ _
  | cons n ns =>
    refine Acted.calls_andThen (Acted.calls_andThen ?_)
    show (configDefaultWq K ⟨node.id, n⟩ { a with conf := conf }).calls ≠ []
    rw [configDefaultWq]
    simp only [hconf]
    exact Acted.calls_andThen (Acted.calls_andThen (calls_callSetting _ _))

theorem toInt_sdiv_of_getWqSize {dev : DeviceFields} {size : BitVec 32}
    (h : getWqSize dev = some size) :
    dev.maxWorkQueues.toInt ≠ 0 ∧
      size.toInt = dev.maxWorkQueuesSize.toInt.tdiv dev.maxWorkQueues.toInt := by
  rw [getWqSize] at h
  split at h
  · exact absurd h (by simp)
  · next hfaults =>
    obtain ⟨hzero, hoverflow⟩ := not_or.mp hfaults
    refine ⟨fun h => hzero (BitVec.eq_of_toInt_eq h), ?_⟩
    rw [← Option.some.inj h]
    refine BitVec.toInt_sdiv_of_ne_or_ne _ _ ?_
    exact (not_and_or.mp hoverflow)

theorem hasShare_iff (dev : DeviceFields) :
    HasShare dev ↔ ∃ size, getWqSize dev = some size ∧ 0 < size.toInt := by
  constructor
  · rintro ⟨hne, hpos, hlt⟩
    have hzero : dev.maxWorkQueues ≠ 0 := fun h => hne (by rw [h]; rfl)
    have hoverflow : ¬(dev.maxWorkQueuesSize = INT_MIN ∧ dev.maxWorkQueues = -1) := by
      rintro ⟨h₁, h₂⟩
      rw [h₁, h₂] at hlt
      exact absurd hlt (by decide)
    have hsize : getWqSize dev = some (dev.maxWorkQueuesSize.sdiv dev.maxWorkQueues) :=
      if_neg (not_or.mpr ⟨hzero, hoverflow⟩)
    refine ⟨_, hsize, ?_⟩
    rw [(toInt_sdiv_of_getWqSize hsize).2]
    exact hpos
  · rintro ⟨size, hsize, hpos⟩
    obtain ⟨hne, hquot⟩ := toInt_sdiv_of_getWqSize hsize
    have hlt : 2 * size.toInt < 2 ^ 32 := BitVec.two_mul_toInt_lt
    rw [HasShare, ← hquot]
    exact ⟨hne, hpos, by omega⟩

/-- The shares of as many work queues as there may be are not more than there
is. -/
theorem shares_le {dev : DeviceFields} {size : BitVec 32} (h : getWqSize dev = some size)
    (hpos : 0 < size.toInt) {n : ℕ} (hn : (n : ℤ) ≤ dev.maxWorkQueues.toInt) :
    n * size.toInt ≤ dev.maxWorkQueuesSize.toInt := by
  obtain ⟨hne, hsize⟩ := toInt_sdiv_of_getWqSize h
  have hcount : 0 < dev.maxWorkQueues.toInt := by omega
  have htotal : 0 ≤ dev.maxWorkQueuesSize.toInt := by
    -- a negative number has no positive share
    by_contra hneg
    have hquot : 0 ≤ (-dev.maxWorkQueuesSize.toInt).tdiv dev.maxWorkQueues.toInt :=
      Int.tdiv_nonneg (by omega) hcount.le
    rw [Int.neg_tdiv] at hquot
    omega
  calc (n : ℤ) * size.toInt ≤ dev.maxWorkQueues.toInt * size.toInt :=
        mul_le_mul_of_nonneg_right hn hpos.le
    _ ≤ dev.maxWorkQueuesSize.toInt := by
        rw [hsize, Int.tdiv_eq_ediv_of_nonneg htotal]
        exact Int.mul_ediv_self_le hne

/-- What is known of a device that is set up. -/
theorem configDefaultWqSetOnDev_cases (dev : DeviceFields) (p : WqDefaults) :
    (getWqSize dev = none ∧ configDefaultWqSetOnDev dev p = none) ∨
    ∃ size rc p', getWqSize dev = some size ∧ configDefaultWqSetOnDev dev p = some (rc, p') ∧
      p'.wqSize = size ∧ (0 < size.toInt → p'.threshold = size) := by
  rw [configDefaultWqSetOnDev]
  cases getWqSize dev with
  | none => exact .inl ⟨rfl, rfl⟩
  | some size =>
    refine .inr ?_
    rw [Option.map_some]
    split
    · next hzero =>
      refine ⟨size, _, _, rfl, rfl, rfl, fun hpos => ?_⟩
      obtain rfl : size = 0 := BitVec.eq_of_toNat_eq (by simpa using hzero)
      exact absurd hpos (by decide)
    · exact ⟨size, _, _, rfl, rfl, rfl, fun _ => rfl⟩

/-- A device that is not concerned is left alone. -/
theorem activateDefault_unconcerned {node : DeviceNode} {a : Setup κ} (hc : ¬Concerned K node a) :
    (activateDefault K compat node a).calls = [] ∧
      (activateDefault K compat node a).trap = none := by
  rw [activateDefault]
  cases hconf : a.conf node.id.type with
  | none => exact ⟨rfl, rfl⟩
  | some p =>
    have hstate : (accfgDeviceGetState K node.id a.world.sys).1 = .enabled := by
      by_contra hne
      exact hc ⟨by simp [hconf], hne⟩
    dsimp only
    rw [if_pos hstate]
    exact ⟨rfl, rfl⟩

theorem insideCapacity_of_unconcerned {node : DeviceNode} {a : Setup κ}
    (hc : ¬Concerned K node a) : InsideCapacity K compat node a := by
  obtain ⟨hcalls, htrap⟩ := @activateDefault_unconcerned _ K compat _ _ hc
  refine ⟨by simp [htrap], by simp [hcalls], fun _ => hcalls, fun _ => hcalls,
    fun hshare hlen => ?_, fun _ => ?_⟩
  · obtain ⟨size, hsome, hpos⟩ := (hasShare_iff _).mp hshare
    have h := shares_le hsome hpos hlen
    have hn : 0 ≤ (node.wqs.length : ℤ) * size.toInt := by positivity
    rw [hcalls]
    simp
    omega
  · rw [hcalls]
    exact (Inside.nil node.id le_rfl).tied

/-- A device that is concerned is set up with its share, even where that is no more than 0,
or the division faults. -/
theorem activateDefault_concerned {node : DeviceNode} {a : Setup κ} (hc : Concerned K node a) :
    (getWqSize (a.world.device node.id) = none ∧
      (activateDefault K compat node a).trap = some .divide) ∨
    ∃ size p', getWqSize (a.world.device node.id) = some size ∧ p'.wqSize = size ∧
      (0 < size.toInt → p'.threshold = size) ∧
      activateDefault K compat node a = configDevice K compat node p'
        (a.withSys (accfgDeviceGetState K node.id a.world.sys).2) := by
  obtain ⟨p, hp⟩ := Option.ne_none_iff_exists'.mp hc.1
  rw [activateDefault, hp]
  dsimp only
  rw [if_neg hc.2]
  obtain ⟨hnone, hset⟩ | ⟨size, rc, p', hsome, hset, hwqSize, hthreshold⟩ :=
    configDefaultWqSetOnDev_cases (a.world.device node.id) p
  · rw [hset]
    exact .inl ⟨hnone, rfl⟩
  · rw [hset]
    exact .inr ⟨size, p', hsome, hwqSize, hthreshold, rfl⟩

/-- With a share to give it stays inside its capacity. -/
theorem insideCapacity_of_share {node : DeviceNode} {a : Setup κ} {size : BitVec 32}
    {p' : WqDefaults} (hc : Concerned K node a)
    (hsome : getWqSize (a.world.device node.id) = some size) (hpos : 0 < size.toInt)
    (hwqSize : p'.wqSize = size) (hthreshold : p'.threshold = size)
    (hrun : activateDefault K compat node a = configDevice K compat node p'
      (a.withSys (accfgDeviceGetState K node.id a.world.sys).2)) :
    InsideCapacity K compat node a := by
  have hshare : HasShare (a.world.device node.id) := (hasShare_iff _).mpr ⟨size, hsome, hpos⟩
  have hacts := @actedInside_configDevice _ K compat node p'
    (hthreshold.trans hwqSize.symm) (hwqSize ▸ hpos.le)
    (a.withSys (accfgDeviceGetState K node.id a.world.sys).2)
  rw [← hrun] at hacts
  refine ⟨hacts.trap, hacts.inside.own, fun h => absurd hc h, fun hno => absurd hshare hno,
    fun _ hlen => ?_, fun _ => hacts.inside.tied⟩
  calc ((activateDefault K compat node a).calls.map SetupCall.size).sum
      ≤ node.wqs.length * p'.wqSize.toInt := hacts.inside.sum
    _ ≤ (a.world.device node.id).maxWorkQueuesSize.toInt := by
      rw [hwqSize]
      exact shares_le hsome hpos hlen

/-- A device is set up inside its capacity exactly if it is not concerned or has
a share to give. -/
theorem insideCapacity_iff (node : DeviceNode) (a : Setup κ) :
    InsideCapacity K compat node a ↔
      (Concerned K node a → HasShare (a.world.device node.id)) := by
  by_cases hc : Concerned K node a
  · obtain ⟨hnone, hdivide⟩ | ⟨size, p', hsome, hwqSize, hthreshold, hrun⟩ :=
      @activateDefault_concerned _ K compat _ _ hc
    · constructor
      · intro h
        exact absurd hdivide h.noDivide
      · intro h
        obtain ⟨size, hsome, -⟩ := (hasShare_iff _).mp (h hc)
        exact absurd (hnone.symm.trans hsome) (by simp)
    · have hshare : HasShare (a.world.device node.id) ↔ 0 < size.toInt := by
        rw [hasShare_iff, hsome]
        simp
      constructor
      · intro h _
        by_contra hno
        have hnil := h.refused hno
        rw [hrun] at hnil
        exact calls_configDevice node p' _ hnil
      · intro h
        have hpos := hshare.mp (h hc)
        exact insideCapacity_of_share hc hsome hpos hwqSize (hthreshold hpos) hrun
  · exact iff_of_true (insideCapacity_of_unconcerned hc) fun h => absurd h hc

theorem Acted.trap_andThen {r : Acted κ} {k : Setup κ → Acted κ} :
    (r.andThen k).trap = none ↔ r.trap = none ∧ (k r.state).trap = none := by
  rw [Acted.andThen]
  obtain ⟨_ | trap, calls, a⟩ := r
  · exact (and_iff_right rfl).symm
  · exact iff_of_false (Option.some_ne_none _) fun h => Option.some_ne_none _ h.1

theorem Acted.state_andThen {r : Acted κ} {k : Setup κ → Acted κ} (h : r.trap = none) :
    (r.andThen k).state = (k r.state).state := by
  rw [Acted.andThen, h]

/-- The loop comes to a device in the state that it left behind the devices
before, unless it was stopped there. -/
theorem eachVisit_iff {P : DeviceNode → Setup κ → Prop} {nodes : List DeviceNode} {a : Setup κ} :
    EachVisit K compat P nodes a ↔ ∀ before node after, nodes = before ++ node :: after →
      (configDefaultActivateDevices K compat before a).trap = none →
        P node (configDefaultActivateDevices K compat before a).state := by
  induction nodes generalizing a with
  | nil => exact iff_of_true trivial fun before node after h => absurd h.symm (by simp)
  | cons m ms ih =>
    have hstate : ∀ before, (activateDefault K compat m a).trap = none →
        (configDefaultActivateDevices K compat (m :: before) a).state =
          (configDefaultActivateDevices K compat before
            (activateDefault K compat m a).state).state := fun _ h => Acted.state_andThen h
    rw [EachVisit, ih]
    constructor
    · rintro ⟨hP, hrest⟩ before node after hnodes htrap
      cases before with
      | nil =>
        obtain ⟨rfl, -⟩ := List.cons.inj hnodes
        exact hP
      | cons x before =>
        obtain ⟨rfl, hms⟩ := List.cons.inj hnodes
        obtain ⟨hfirst, hbefore⟩ := Acted.trap_andThen.mp htrap
        rw [hstate before hfirst]
        exact hrest hfirst before node after hms hbefore
    · intro h
      refine ⟨h [] m ms rfl rfl, fun hfirst before node after hms hbefore => ?_⟩
      rw [← hstate before hfirst]
      exact h (m :: before) node after (congrArg (m :: ·) hms)
        (Acted.trap_andThen.mpr ⟨hfirst, hbefore⟩)

/-- Every device of a run is set up inside its capacity exactly if each that is
concerned, where it is come to, has a share to give. -/
theorem setup_insideCapacity_iff (K : Kernel κ) (compat : Bool) (nodes : List DeviceNode)
    (a : Setup κ) :
    EachVisit K compat (InsideCapacity K compat) nodes a ↔
      EachVisit K compat (fun node a => Concerned K node a → HasShare (a.world.device node.id))
        nodes a := by
  induction nodes generalizing a with
  | nil => exact Iff.rfl
  | cons node nodes ih =>
    rw [EachVisit, EachVisit, insideCapacity_iff, ih]

/-! ### A device without a share -/

/-- A kernel on which every file says that the component is disabled. -/
def disabledKernel : Kernel Unit where
  access _ k := (.ok (), k)
  openFile _ _ k := (.ok (), k)
  openDir _ k := (.ok (), k)
  read _ k := (.ok "disabled\n".toList, k)
  write _ buf k := (.ok buf.length, k)
  lstat _ k := (.ok (), k)
  realpath _ k := (.ok (), k)

/-- A device with one work queue, whose number of work queues could not be
read. -/
def unreadableDevice : Setup Unit where
  world := {
    sys := ⟨(), 0, 0, none, []⟩
    device _ := { maxWorkQueues := -2, maxWorkQueuesSize := 128, configurable := 1 }
    group _ _ := 0
    wq _ := ⟨fun _ => 0, 0, fun _ => none, .none⟩
    engine _ := ⟨0⟩ }
  conf := configDefault

/-- A size of -64 is written and the device is enabled. -/
theorem not_insideCapacity_unreadable :
    ¬EachVisit disabledKernel false (InsideCapacity disabledKernel false)
      [⟨⟨.dsa, 0⟩, "dsa", [], [0], []⟩] unreadableDevice := by
  rintro ⟨h, -⟩
  have hconcerned : Concerned disabledKernel ⟨⟨.dsa, 0⟩, "dsa", [], [0], []⟩ unreadableDevice :=
    ⟨by simp [unreadableDevice, configDefault], by decide⟩
  exact absurd ((insideCapacity_iff _ _).mp h hconcerned) (by decide)

end Accfg
