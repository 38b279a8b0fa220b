/-
Active components are skipped.

A device that is enabled when its entry is met leaves the load without a
device: its attributes, and its children's, are passed over.  A work queue
that is enabled or locked leaves it with a device and nothing else: its first
attribute finds no component, and the load fails.

* `sparesActive_parseConfig` — no setter is called on either;
* `skips_parseConfig` — where no attribute of an active work queue is met, the
  load does what it would do without the attributes of skipped components.
-/
import AccelConfig.LoadAttribution

open CNumeral StopAtFailure

namespace Accfg

/-! ### No setter on an active component -/

/-- A setter is called only on a part of a device that was not enabled when
its entry was met, and on a work queue only if it was not active then. -/
def SparesActive (log : List Event) : Prop :=
  ∀ pre setting post, log = pre ++ .set setting :: post →
    (∃ state, (view pre).device = some (setting.comp.dev, state) ∧ state ≠ .enabled) ∧
      ∀ c, setting.comp = .wq c →
        ∃ state, (view pre).wq = some (c, state) ∧ state.active = false

variable {ctx : List DeviceNode} {opts : Options}

theorem LeadsTo.spares {v : View} {kind : Kind} {c : ChildId} (h : LeadsTo ctx opts v kind c)
    (hf : opts.forced = false) : ∃ state, v.device = some (c.dev, state) ∧ state ≠ .enabled := by
  obtain ⟨-, -, ⟨state, hdev, hne⟩, -⟩ := h
  exact ⟨state, hdev, hne hf⟩

theorem Lawful.sparesActive {log : List Event} (h : Lawful ctx opts log)
    (hf : opts.forced = false) : SparesActive log := by
  intro pre setting post heq
  have hlead := h pre setting post heq
  cases hc : setting.comp with
  | device d =>
    rw [hc] at hlead
    obtain ⟨-, state, hdev, hne⟩ := hlead
    exact ⟨⟨state, hdev, hne hf⟩, fun _ hwq => nomatch hwq⟩
  | group c =>
    rw [hc] at hlead
    exact ⟨LeadsTo.spares hlead hf, fun _ hwq => nomatch hwq⟩
  | engine c =>
    rw [hc] at hlead
    exact ⟨LeadsTo.spares hlead hf, fun _ hwq => nomatch hwq⟩
  | wq c =>
    rw [hc] at hlead
    refine ⟨LeadsTo.spares hlead hf, fun c' hwq => ?_⟩
    obtain rfl := Comp.wq.inj hwq
    obtain ⟨-, -, -, hstate⟩ := hlead
    exact hstate rfl

/-! ### Logs only grow -/

variable {κ : Type} {K : Kernel κ}

theorem log_deviceEntry (name : String) (st : LoadState κ) :
    st.log <+: (deviceEntry K ctx opts name st).2.log := by
  rw [deviceEntry]
  split
  · exact List.prefix_refl _
  split
  · exact List.prefix_refl _
  split
  · exact List.prefix_refl _
  next node _ =>
  obtain ⟨state, s⟩ := accfgDeviceGetState K node.id st.world.sys
  dsimp only
  split
  · exact List.prefix_append _ _
  split
  · obtain ⟨rc, s'⟩ := accfgDeviceDisable K node true s
    dsimp only
    split <;> exact List.prefix_append _ _
  · exact List.prefix_append _ _

theorem log_wqEntry (name : String) (parent : DeviceNode) (st : LoadState κ) :
    st.log <+: (wqEntry K opts name parent st).2.log := by
  rw [wqEntry]
  split
  · exact List.prefix_refl _
  · exact List.prefix_refl _
  next c _ =>
  obtain ⟨state, s⟩ := accfgWqGetState K c st.world.sys
  dsimp only
  split <;> exact List.prefix_append _ _

theorem log_engineEntry (name : String) (parent : DeviceNode) (st : LoadState κ) :
    (engineEntry name parent st).2.log = st.log := by
  rw [engineEntry]
  split <;> rfl

theorem log_groupEntry (name : String) (parent : DeviceNode) (st : LoadState κ) :
    (groupEntry name parent st).2.log = st.log := by
  rw [groupEntry]
  split <;> rfl

theorem log_orReturn {log : List Event} {r : Option Exit × LoadState κ}
    {k : LoadState κ → Exit × LoadState κ} (hr : log <+: r.2.log)
    (hk : ∀ st, log <+: st.log → log <+: (k st).2.log) : log <+: (orReturn r k).2.log :=
  @orReturn_inv _ (fun st => log <+: st.log) (fun st => log <+: st.log) r k hr (fun _ h => h)
    fun _ => hk

theorem log_childEntries (name : String) (st : LoadState κ) :
    st.log <+: (childEntries K opts name st).2.log := by
  rw [childEntries]
  cases st.parent with
  | none => exact List.prefix_refl _
  | some parent =>
    refine log_orReturn (log_wqEntry name parent st) fun st₁ h₁ => ?_
    refine log_orReturn (by rwa [log_engineEntry]) fun st₂ h₂ => ?_
    exact log_orReturn (by rwa [log_groupEntry]) fun _ h => h

theorem log_configureDev (name : String) (st : LoadState κ) :
    st.log <+: (configureDev K ctx opts name st).2.log :=
  log_orReturn (log_deviceEntry name
    { st with dev := none, group := none, wq := none, engine := none })
    fun st' h => h.trans (log_childEntries name st')

theorem log_configureAttr (val : Json) (key : String) (st : LoadState κ) :
    st.log <+: (configureAttr K opts val key st).2.log := by
  have hperform : ∀ r : SetVal × Sys κ, st.log <+: (perform K st r).2.log := by
    rintro ⟨_ | _ | setting, s⟩
    · exact List.prefix_refl _
    · exact List.prefix_refl _
    · rw [perform]
      obtain ⟨e, w⟩ := setting.call K (st.withSys s).world
      exact List.prefix_append _ _
  rw [configureAttr]
  split
  · exact List.prefix_refl _
  split
  · unfold configDefaultJson
    dsimp only
    split <;> exact List.prefix_refl _
  split
  · exact hperform _
  · exact hperform _
  · exact hperform _
  · exact hperform _
  · exact List.prefix_refl _

/-- A member is recorded before anything else happens. -/
theorem log_configureJsonValue (val : Json) (key : Option String) (st : LoadState κ) :
    st.log ++ [.visit val key] <+: (configureJsonValue K ctx opts val key st).2.log := by
  unfold configureJsonValue
  cases key with
  | none => exact List.prefix_refl _
  | some key =>
    show _ <+: (if key = "dev" then _ else _ : Exit × LoadState κ).2.log
    split
    · exact log_configureDev val.getString (st.note _)
    · exact log_configureAttr val key (st.note _)

/-! ### The load without the attributes of skipped components -/

/-- The entry in force is one of a skipped device or work queue. -/
def View.skipping (v : View) : Bool :=
  v.device.any (fun r => r.2 = .enabled) || v.wq.any (fun r => r.2.active)

/-- `configure_json_value`, were the attributes of skipped components absent.
They are recorded all the same, so that the logs can be compared. -/
def configureWithout (K : Kernel κ) (ctx : List DeviceNode) (opts : Options) (val : Json)
    (key : Option String) (st : LoadState κ) : Exit × LoadState κ :=
  if (∃ k ∈ key, k ≠ "dev") ∧ (view st.log).skipping then (.ret 0, st.note (.visit val key))
  else configureJsonValue K ctx opts val key st

/-- No attribute is met under the entry of an active work queue. -/
def NoActiveWqAttr (log : List Event) : Prop :=
  ∀ pre val key post, log = pre ++ .visit val (some key) :: post → key ≠ "dev" →
    ∀ c state, (view pre).wq = some (c, state) → state.active = false

theorem NoActiveWqAttr.of_prefix {log log' : List Event} (h : NoActiveWqAttr log')
    (hp : log <+: log') : NoActiveWqAttr log := by
  intro pre val key post heq
  obtain ⟨rest, rfl⟩ := hp
  exact h pre val key (post ++ rest) (by rw [heq, List.append_assoc, List.cons_append])

/-- Under a skipped device there is no parent, and an attribute is passed
over. -/
theorem configureJsonValue_of_skipping {st : LoadState κ} (ht : Tracks ctx opts st)
    (hf : opts.forced = false) {val : Json} {key : String} (hkey : key ≠ "dev")
    (hskip : (view st.log).skipping = true)
    (hend : NoActiveWqAttr (configureJsonValue K ctx opts val (some key) st).2.log) :
    configureJsonValue K ctx opts val (some key) st
      = (.ret 0, st.note (.visit val (some key))) := by
  have hwq : ∀ c state, (view st.log).wq = some (c, state) → state.active = false :=
    (hend.of_prefix (log_configureJsonValue val (some key) st)) st.log val key [] rfl hkey
  have hparent : st.parent = none := by
    cases hp : st.parent with
    | none => rfl
    | some p =>
      obtain ⟨-, state, hdev, hne⟩ := ht.parent p hp
      rw [View.skipping, hdev] at hskip
      cases hw : (view st.log).wq with
      | none => simp [hw, hne hf] at hskip
      | some r =>
        have := hwq r.1 r.2 hw
        simp [hw, hne hf, this] at hskip
  unfold configureJsonValue
  simp only [if_neg hkey, configureAttr]
  exact if_pos hparent

theorem configure_eq_without {st : LoadState κ} (ht : Tracks ctx opts st)
    (hf : opts.forced = false) (val : Json) (key : Option String)
    (hend : NoActiveWqAttr (configureJsonValue K ctx opts val key st).2.log) :
    configureJsonValue K ctx opts val key st = configureWithout K ctx opts val key st := by
  rw [configureWithout]
  split
  · next h =>
    obtain ⟨⟨k, hk, hne⟩, hskip⟩ := h
    obtain rfl := Option.mem_def.mp hk
    exact configureJsonValue_of_skipping ht hf hne hskip hend
  · rfl

/-! ### Whole loads -/

theorem sparesActive_parseConfig (K : Kernel κ) (ctx : List DeviceNode) {opts : Options}
    (hf : opts.forced = false) (w : World κ) (buf : Option (Option Json)) :
    SparesActive (parseConfig (configureJsonValue K ctx opts) buf (LoadState.start w)).2.log :=
  (lawful_parseConfig K ctx opts w buf).sparesActive hf

theorem parseConfig_eq_without (K : Kernel κ) (ctx : List DeviceNode) {opts : Options}
    (hf : opts.forced = false) (w : World κ) (buf : Option (Option Json))
    (h : NoActiveWqAttr
      (parseConfig (configureJsonValue K ctx opts) buf (LoadState.start w)).2.log) :
    parseConfig (configureJsonValue K ctx opts) buf (LoadState.start w)
      = parseConfig (configureWithout K ctx opts) buf (LoadState.start w) := by
  match buf with
  | none | some none => rfl
  | some (some jobj) =>
    have hend : NoActiveWqAttr
        (jsonParseArray (configureJsonValue K ctx opts) jobj none (LoadState.start w)).2.log := h
    have hrun : jsonParseArray (configureJsonValue K ctx opts) jobj none (LoadState.start w)
        = jsonParseArray (configureWithout K ctx opts) jobj none (LoadState.start w) := by
      rw [jsonParseArray_eq_run] at hend
      rw [jsonParseArray_eq_run, jsonParseArray_eq_run]
      refine @Plan.run_congr_of_end _ _ _ (Tracks ctx opts) (fun st => NoActiveWqAttr st.log) _
        (fun val key st hs => tracks_configureJsonValue hs val key) (fun val key st _ hq => ?_)
        (fun val key st hs hq => configure_eq_without hs hf val key hq) _ (tracks_start w) hend
      exact hq.of_prefix ((List.prefix_append _ _).trans (log_configureJsonValue val key st))
    show (parseResult _, _) = (parseResult _, _)
    rw [hrun]

/-- No setter is called on an active component; and where no attribute of an
active work queue is met, the load does what it would do without the
attributes of skipped components. -/
theorem skips_parseConfig (K : Kernel κ) (ctx : List DeviceNode) {opts : Options}
    (hf : opts.forced = false) (w : World κ) (buf : Option (Option Json)) :
    SparesActive (parseConfig (configureJsonValue K ctx opts) buf (LoadState.start w)).2.log ∧
      (NoActiveWqAttr
          (parseConfig (configureJsonValue K ctx opts) buf (LoadState.start w)).2.log →
        parseConfig (configureJsonValue K ctx opts) buf (LoadState.start w)
          = parseConfig (configureWithout K ctx opts) buf (LoadState.start w)) :=
  ⟨sparesActive_parseConfig K ctx hf w buf, parseConfig_eq_without K ctx hf w buf⟩

/-! ### One device, one work queue -/

/-- A kernel under which every device is enabled. -/
def enabledKernel : Kernel Unit :=
  { Setting.grantingKernel with read := fun _ k => (.ok "enabled\n".toList, k) }

/-- A kernel under which devices are disabled and work queues enabled. -/
def activeWqKernel : Kernel Unit :=
  { Setting.grantingKernel with
    read := fun
      | .attr (.wq _) _, k => (.ok "enabled\n".toList, k)
      | _, k => (.ok "disabled\n".toList, k) }

/-- What a load does under an enabled device. -/
def skippedEvents : List Event :=
  [.visit (.string "dsa0") (some "dev"), .device ⟨.dsa, 0⟩ .enabled,
    .visit (.string "wq0.0") (some "dev"), .visit (.int 4) (some "size")]

/-- Nothing is done under the enabled device, and the load succeeds. -/
theorem skips_parseConfig_enabled :
    parseConfig (configureJsonValue enabledKernel [oneWqNode] plainOptions)
        (some (some (oneWqConfig "wq0.0"))) (LoadState.start Setting.blankWorld)
      = parseConfig (configureWithout enabledKernel [oneWqNode] plainOptions)
        (some (some (oneWqConfig "wq0.0"))) (LoadState.start Setting.blankWorld) := by
  refine (skips_parseConfig enabledKernel [oneWqNode] (rfl : plainOptions.forced = false)
    Setting.blankWorld _).2 ?_
  have hlog : (parseConfig (configureJsonValue enabledKernel [oneWqNode] plainOptions)
      (some (some (oneWqConfig "wq0.0"))) (LoadState.start Setting.blankWorld)).2.log =
      skippedEvents := by
    rw [parseConfig_oneWqConfig]
    rfl
  intro pre val key post heq _ c state hwq
  rw [hlog] at heq
  have hmem : view pre ∈ skippedEvents.inits.map view :=
    List.mem_map_of_mem ((List.mem_inits pre _).mpr ⟨_, heq.symm⟩)
  have hviews : ∀ v : View, v ∈ skippedEvents.inits.map view → v.wq = none := by decide
  rw [hviews _ hmem] at hwq
  cases hwq

/-- The attribute of the active work queue fails the load; were it absent, the
load would succeed. -/
theorem not_skips_activeWq :
    parseConfig (configureJsonValue activeWqKernel [oneWqNode] plainOptions)
        (some (some (oneWqConfig "wq0.0"))) (LoadState.start Setting.blankWorld)
      ≠ parseConfig (configureWithout activeWqKernel [oneWqNode] plainOptions)
        (some (some (oneWqConfig "wq0.0"))) (LoadState.start Setting.blankWorld) := by
  intro h
  have hexit := congrArg Prod.fst h
  rw [parseConfig_oneWqConfig, parseConfig_oneWqConfig] at hexit
  have hfail : (runAll (fun c => configureJsonValue activeWqKernel [oneWqNode] plainOptions c.1 c.2)
      [(.string "dsa0", some "dev"), (.string "wq0.0", some "dev"), (.int 4, some "size")]
      (LoadState.start Setting.blankWorld)).1 = .ret (-1) := rfl
  have hok : (runAll (fun c => configureWithout activeWqKernel [oneWqNode] plainOptions c.1 c.2)
      [(.string "dsa0", some "dev"), (.string "wq0.0", some "dev"), (.int 4, some "size")]
      (LoadState.start Setting.blankWorld)).1 = .ret 0 := rfl
  simp only [hfail, hok] at hexit
  exact absurd hexit (by decide)

end Accfg
