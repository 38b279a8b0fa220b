/-
Which component a loaded value goes to.

An entry under a device is taken for one of its children by the second number
that is scanned from it; the first number is read and never compared, and
nothing asks whether the string is the child's name.  `SpelledOut` is what a
config has to say for the values to go where it says:

* `attributed_parseConfig` — while every string that leads to a child is the
  child's name, every setter is called on the component named last.
-/
import AccelConfig.LoadTrace
import AccelConfig.SetterTruth
import AccelConfig.WalkComplete

open CNumeral StopAtFailure

namespace Accfg

/-- Every setter is called on the component that the last `dev` string names,
a part of the device found last. -/
def Attributed (log : List Event) : Prop :=
  ∀ pre setting post, log = pre ++ .set setting :: post →
    (view pre).name = some setting.comp.devname ∧
      ∃ state, (view pre).device = some (setting.comp.dev, state)

/-- If the string in force scans as a child of the device found last, then it
is the child's name. -/
def SpelledOut (ctx : List DeviceNode) (v : View) : Prop :=
  ∀ name d state kind num, v.name = some name → v.device = some (d, state) → NoDevice name →
    (∃ node ∈ ctx, node.id = d ∧ num ∈ node.nums kind) → Scans name kind num →
    name = (kind.comp ⟨d, num⟩).devname

variable {ctx : List DeviceNode} {opts : Options}

theorem LeadsTo.devname {v : View} {kind : Kind} {c : ChildId} (h : LeadsTo ctx opts v kind c)
    (hspell : SpelledOut ctx v) : v.name = some (kind.comp c).devname ∧
      ∃ state, v.device = some (c.dev, state) := by
  obtain ⟨⟨name, hname, hno, hscan⟩, hchild, ⟨state, hdev, -⟩, -⟩ := h
  rw [hname, hspell name c.dev state kind c.num hname hdev hno hchild hscan]
  exact ⟨rfl, state, hdev⟩

theorem Lawful.attributed {log : List Event} (h : Lawful ctx opts log)
    (hspell : ∀ pre post, log = pre ++ post → SpelledOut ctx (view pre)) : Attributed log := by
  intro pre setting post heq
  have hlead := h pre setting post heq
  have hpre := hspell pre _ heq
  cases hc : setting.comp with
  | device d =>
    rw [hc] at hlead
    obtain ⟨hname, state, hdev, -⟩ := hlead
    exact ⟨hname, state, hdev⟩
  | group c =>
    rw [hc] at hlead
    exact LeadsTo.devname hlead hpre
  | wq c =>
    rw [hc] at hlead
    exact LeadsTo.devname hlead hpre
  | engine c =>
    rw [hc] at hlead
    exact LeadsTo.devname hlead hpre

/-! ### Strings that lead nowhere -/

variable {κ : Type} {K : Kernel κ}

/-- The string is taken for no child of the device, and for no device. -/
def Foreign (node : DeviceNode) (name : String) : Prop :=
  NoDevice name ∧ ∀ kind num, num ∈ node.nums kind → ¬Scans name kind num

/-- An entry fails, or any attribute that follows it does. -/
def Rejected (K : Kernel κ) (ctx : List DeviceNode) (opts : Options) (name : String)
    (st : LoadState κ) : Prop :=
  (configureJsonValue K ctx opts (.string name) (some "dev") st).1 ≠ .ret 0 ∨
    ∀ val key, key ≠ "dev" → (configureJsonValue K ctx opts val (some key)
      (configureJsonValue K ctx opts (.string name) (some "dev") st).2).1 ≠ .ret 0

theorem Foreign.entryChild {node : DeviceNode} {name : String} (h : Foreign node name)
    (kind : Kind) : entryChild kind name node = .ok none ∨
      ∃ rc, entryChild kind name node = .error rc ∧ rc ≠ 0 := by
  cases hchild : Accfg.entryChild kind name node with
  | ok r =>
    cases r with
    | none => exact Or.inl rfl
    | some c =>
      obtain ⟨-, hmem, hscan⟩ := entryChild_eq_some hchild
      exact absurd hscan (h.2 kind c.num hmem)
  | error rc => exact Or.inr ⟨rc, rfl, entryChild_error hchild⟩

theorem deviceEntry_of_noDevice {name : String} (h : NoDevice name) (st : LoadState κ) :
    deviceEntry K ctx opts name st = (none, st) := by
  have hnone : ((accfgBasenames.head?.toList ++ accfgBasenames).find?
      fun t => strstr name t.str) = none := by
    rw [List.find?_eq_none]
    intro t ht
    have hmem : t ∈ accfgBasenames := by
      revert ht
      cases t <;> decide
    simpa using h t hmem
  rw [deviceEntry, hnone]

theorem Foreign.rejected {node : DeviceNode} {name : String} {st : LoadState κ}
    (h : Foreign node name) (hp : st.parent = some node) : Rejected K ctx opts name st := by
  rw [Rejected]
  have hdev : configureJsonValue K ctx opts (.string name) (some "dev") st
      = configureDev K ctx opts name (st.note (.visit (.string name) (some "dev"))) := rfl
  rw [hdev, configureDev, deviceEntry_of_noDevice h.1, orReturn, childEntries]
  have hp' : (st.note (.visit (.string name) (some "dev"))).parent = some node := hp
  simp only [hp', wqEntry, engineEntry, groupEntry]
  -- the first part that finds its kind in the string fails
  obtain hwq | ⟨rc, hwq, hrc⟩ := h.entryChild .wq
  · obtain heng | ⟨rc, heng, hrc⟩ := h.entryChild .engine
    · obtain hgrp | ⟨rc, hgrp, hrc⟩ := h.entryChild .group
      · right
        intro val key hkey
        simp only [hwq, heng, hgrp, orReturn, configureJsonValue, if_neg hkey, configureAttr,
          LoadState.note]
        simp [EINVAL]
      · left
        simp [hwq, heng, hgrp, orReturn, hrc]
    · left
      simp [hwq, heng, orReturn, hrc]
  · left
    simp [hwq, orReturn, hrc]

/-! ### Whole loads -/

/-- While every string that leads to a child is the child's name, every setter
of a load is called on the component named last; and a string that leads
nowhere is rejected in any state. -/
theorem attributed_parseConfig (K : Kernel κ) (ctx : List DeviceNode) (opts : Options)
    (w : World κ) (buf : Option (Option Json))
    (h : ∀ pre post,
      (parseConfig (configureJsonValue K ctx opts) buf (LoadState.start w)).2.log = pre ++ post →
        SpelledOut ctx (view pre)) :
    Attributed (parseConfig (configureJsonValue K ctx opts) buf (LoadState.start w)).2.log ∧
      ∀ (st : LoadState κ) node name, st.parent = some node → Foreign node name →
        Rejected K ctx opts name st :=
  ⟨(lawful_parseConfig K ctx opts w buf).attributed h, fun _ _ _ hp hf => hf.rejected hp⟩

/-! ### One work queue -/

/-- A kernel under which everything is disabled and every call succeeds. -/
def idleKernel : Kernel Unit :=
  { Setting.grantingKernel with read := fun _ k => (.ok "disabled\n".toList, k) }

/-- A device with one work queue. -/
def oneWqNode : DeviceNode := ⟨⟨.dsa, 0⟩, "dsa", [], [0], []⟩

def plainOptions : Options := ⟨false, false, false⟩

/-- A config for the device and for what it calls its work queue. -/
def oneWqConfig (name : String) : Json :=
  .array [.object [("dev", .string "dsa0")],
    .object [("dev", .string name), ("size", .int 4)]]

theorem parseConfig_oneWqConfig {σ : Type} (configure : Json → Option String → σ → Exit × σ)
    (name : String) (st : σ) : parseConfig configure (some (some (oneWqConfig name))) st =
      let r := runAll (fun c => configure c.1 c.2)
        [(.string "dsa0", some "dev"), (.string name, some "dev"), (.int 4, some "size")] st
      (parseResult r.1, r.2) := by
  rw [oneWqConfig, parseConfig_array _ (by simp), jsonItems_eq_runAll]
  · simp [itemScalars, scalars, memberScalars, Json.isScalar]
  · simp [isObject]
  · simp [EveryObject, EveryMember, ConfigShape]
  · simp [EveryObject, EveryMember, NoObjectMember, isObject]

def oneWqLoad (name : String) : Exit × LoadState Unit :=
  parseConfig (configureJsonValue idleKernel [oneWqNode] plainOptions)
    (some (some (oneWqConfig name))) (LoadState.start Setting.blankWorld)

/-- What the load does up to the setter. -/
def oneWqEvents (name : String) : List Event :=
  [.visit (.string "dsa0") (some "dev"), .device ⟨.dsa, 0⟩ .disabled,
    .visit (.string name) (some "dev"), .wq ⟨⟨.dsa, 0⟩, 0⟩ .disabled,
    .visit (.int 4) (some "size")]

def oneWqSetting : Setting := .wq .size ⟨⟨.dsa, 0⟩, 0⟩ 4

theorem log_foreignWq : (oneWqLoad "wq1.0").2.log =
    oneWqEvents "wq1.0" ++ [.set oneWqSetting] := by
  rw [oneWqLoad, parseConfig_oneWqConfig]
  rfl

theorem log_ownWq : (oneWqLoad "wq0.0").2.log =
    oneWqEvents "wq0.0" ++ [.set oneWqSetting] := by
  rw [oneWqLoad, parseConfig_oneWqConfig]
  rfl

/-- A config that names the work queue of another device changes the one of
this device. -/
theorem not_attributed_foreignWq : ¬Attributed (oneWqLoad "wq1.0").2.log := by
  intro h
  obtain ⟨hname, -⟩ := h _ _ [] log_foreignWq
  exact absurd (Option.some.inj hname) (by decide)

/-- The work queue's own name is the only string that is taken for it. -/
theorem spelledOut_ownWq {v : View} (hname : v.name ∈ [none, some "dsa0", some "wq0.0"])
    (hdev : v.device ∈ [none, some (⟨.dsa, 0⟩, .disabled)]) : SpelledOut [oneWqNode] v := by
  intro name d state kind num hn hd hno _ hscan
  rw [hn] at hname
  rw [hd] at hdev
  obtain ⟨rfl, rfl⟩ : d = ⟨.dsa, 0⟩ ∧ state = .disabled := by simpa using hdev
  obtain rfl | rfl : name = "dsa0" ∨ name = "wq0.0" := by simpa using hname
  · exact absurd (hno .dsa (by decide)) (by decide)
  · obtain ⟨hstr, devId, hpair⟩ := hscan
    cases kind with
    | group => exact absurd hstr (by decide)
    | engine => exact absurd hstr (by decide)
    | wq =>
      have hnum : scanPair ("wq0.0".toList.drop 2) = some (0, 0) := by decide
      have h0 : (num : ℤ) = 0 := congrArg Prod.snd (Option.some.inj (hpair.symm.trans hnum))
      obtain rfl := Int.natCast_eq_zero.mp h0
      rfl

theorem attributed_parseConfig_ownWq : Attributed (oneWqLoad "wq0.0").2.log := by
  refine (attributed_parseConfig idleKernel [oneWqNode] plainOptions Setting.blankWorld _ ?_).1
  intro pre post heq
  have hmem : view pre ∈ (oneWqLoad "wq0.0").2.log.inits.map view :=
    List.mem_map_of_mem ((List.mem_inits _ _).mpr ⟨post, heq.symm⟩)
  rw [log_ownWq] at hmem
  have hviews : ∀ v : View,
      v ∈ (oneWqEvents "wq0.0" ++ [Event.set oneWqSetting]).inits.map view →
      v.name ∈ [none, some "dsa0", some "wq0.0"] ∧
        v.device ∈ [none, some (⟨.dsa, 0⟩, .disabled)] := by decide
  obtain ⟨hname, hdev⟩ := hviews _ hmem
  exact spelledOut_ownWq hname hdev

end Accfg
