/-
What a config command writes is what its options ask for.

An option that is not given stands in the parameter block as a value that could
be given as well, and `config-engine` has no such value at all.  An unsigned value
is printed as an `int`.

* `each_adds` — with any driver, what a command writes at most;
* `each_of_grants`, `settable_of_each` — where the driver grants everything, what
  it writes, and when it succeeds;
* `onlyAsked_iff` — exactly when that is what was asked for.
-/
import AccelConfig.ConfigOptions

namespace Accfg

variable {κ : Type} {K : Kernel κ}

/-! ### What a command writes -/

/-- With any driver, what a call writes at most. -/
theorem ConfigCall.run_adds (call : ConfigCall) (w : World κ) :
    ∃ new, (call.run K w).2.sys.written = w.sys.written ++ new ∧
      ∀ e ∈ new, ∃ step ∈ call.steps, step.MayLeave e := by
  rw [call.run_eq w]
  split
  · exact ⟨[], (List.append_nil _).symm, fun e he => (List.not_mem_nil he).elim⟩
  · exact runSteps_adds call.steps w

/-- A call leaves the limits of the devices as they are. -/
theorem ConfigCall.run_limits (call : ConfigCall) (w : World κ) :
    SameLimits w (call.run K w).2 := by
  rw [call.run_eq w]
  split
  · exact SameLimits.refl w
  · exact runSteps_limits call.steps w

/-- What a call needs of its device, where the driver grants everything: no
value is refused, each can be stored, and where a setter looks at it the device
can be configured. -/
structure ConfigCall.Settable (call : ConfigCall) (dev : DeviceFields) : Prop where
  passes : call.refused dev = false
  storable : ∀ step ∈ call.steps, step.setting.Storable
  configurable : ∀ step ∈ call.steps, step.setting.Gated → dev.configurable ≠ 0

theorem ConfigCall.Settable.of_limits {call : ConfigCall} {dev dev' : DeviceFields}
    (h : call.Settable dev) (hlimits : dev'.limits = dev.limits) : call.Settable dev' where
  passes := by
    rw [← call.refused_limits, hlimits, call.refused_limits]
    exact h.passes
  storable := h.storable
  configurable step hstep hgated := by
    have hlimit := congrArg DeviceFields.configurable hlimits
    have hsame : dev'.configurable = dev.configurable := hlimit
    rw [hsame]
    exact h.configurable step hstep hgated

theorem ConfigCall.dev_of_mem_steps (call : ConfigCall) :
    ∀ step ∈ call.steps, step.setting.comp.dev = call.comp.dev := fun step hstep =>
  congrArg Comp.dev (call.comp_of_mem_steps step hstep)

theorem ConfigCall.limits_of_run (call : ConfigCall) {w w' : World κ} {e : Exit}
    (h : call.run K w = (e, w')) : SameLimits w w' := by
  have hsame := call.run_limits (K := K) w
  rwa [h] at hsame

/-- Where everything is granted, a call writes what its steps are for. -/
theorem ConfigCall.run_of_grants (hK : Grants K) {call : ConfigCall} {w : World κ}
    (h : call.Settable (w.device call.comp.dev)) :
    ∃ w', call.run K w = (.ret 0, w') ∧
      w'.sys.written = w.sys.written ++ call.steps.map (·.setting.entry) ∧
      w'.sys.errno = w.sys.errno := by
  obtain ⟨w', hrun, hwr⟩ := runSteps_of_grants hK h.storable call.dev_of_mem_steps h.configurable
  refine ⟨w', ?_, hwr⟩
  rw [call.run_eq w, h.passes, if_neg Bool.false_ne_true]
  exact hrun

/-- Where everything is granted and there was an error before, a call succeeds
only if it has what it needs. -/
theorem ConfigCall.settable_of_run (hK : Grants K) {call : ConfigCall} {w w' : World κ}
    (hst : ∀ step ∈ call.steps, step.setting.Storable) (herrno : 0 < w.sys.errno)
    (h : call.run K w = (.ret 0, w')) : call.Settable (w.device call.comp.dev) := by
  rw [call.run_eq w] at h
  split at h
  · have hcode := Exit.ret.inj (congrArg Prod.fst h)
    exact absurd hcode (by decide)
  next hpasses =>
  exact ⟨Bool.eq_false_iff.mpr hpasses, hst,
    configurable_of_runSteps hK hst call.dev_of_mem_steps herrno h⟩

namespace ConfigCmd

variable {cmd : ConfigCmd} {ctx : List DeviceNode}

variable (cmd ctx) in
/-- With any driver, what a command writes at most. -/
theorem each_adds (names : List String) (w : World κ) :
    ∃ new, (cmd.each K ctx names w).2.sys.written = w.sys.written ++ new ∧
      ∀ e ∈ new, ∃ call ∈ names.filterMap (cmd.callFor ctx), ∃ step ∈ call.steps,
        step.MayLeave e := by
  induction names generalizing w with
  | nil => exact ⟨[], (List.append_nil _).symm, fun e he => (List.not_mem_nil he).elim⟩
  | cons name names ih =>
    cases hfound : cmd.callFor ctx name with
    | none =>
      rw [each_cons_of_none hfound, List.filterMap_cons_none hfound]
      exact ih w
    | some call =>
      rw [List.filterMap_cons_some hfound]
      obtain ⟨new₁, hwr₁, hnew₁⟩ := call.run_adds (K := K) w
      have hlast : ∀ e ∈ new₁, ∃ call' ∈ call :: names.filterMap (cmd.callFor ctx),
          ∃ step ∈ call'.steps, step.MayLeave e :=
        fun e he => ⟨call, List.mem_cons_self, hnew₁ e he⟩
      -- the loop goes on only after a success
      rcases call.run_cases (K := K) w with ⟨w₁, hrun⟩ | ⟨rc, hrc, w₁, hrun⟩ | ⟨w₁, hrun⟩
      · rw [hrun] at hwr₁
        rw [each_cons_of_ok hfound hrun]
        obtain ⟨new₂, hwr₂, hnew₂⟩ := ih w₁
        refine ⟨new₁ ++ new₂, by rw [hwr₂, hwr₁, List.append_assoc], fun e he => ?_⟩
        rcases List.mem_append.mp he with he | he
        · exact hlast e he
        · obtain ⟨call', hmem, hleft⟩ := hnew₂ e he
          exact ⟨call', List.mem_cons_of_mem call hmem, hleft⟩
      · rw [hrun] at hwr₁
        rw [each_cons_of_failed hfound hrun hrc]
        exact ⟨new₁, hwr₁, hlast⟩
      · rw [hrun] at hwr₁
        rw [each_cons_of_die hfound hrun]
        exact ⟨new₁, hwr₁, hlast⟩

/-- Where everything is granted, a command writes what the steps of its calls
are for. -/
theorem each_of_grants (hK : Grants K) {names : List String} {w : World κ}
    (h : ∀ call ∈ names.filterMap (cmd.callFor ctx), call.Settable (w.device call.comp.dev)) :
    ∃ w', cmd.each K ctx names w = (.ret 0, w') ∧ w'.sys.written = w.sys.written ++
      (names.filterMap (cmd.callFor ctx)).flatMap fun call =>
        call.steps.map (·.setting.entry) := by
  induction names generalizing w with
  | nil => exact ⟨w, rfl, (List.append_nil _).symm⟩
  | cons name names ih =>
    cases hfound : cmd.callFor ctx name with
    | none =>
      rw [List.filterMap_cons_none hfound] at h ⊢
      rw [each_cons_of_none hfound]
      exact ih h
    | some call =>
      rw [List.filterMap_cons_some hfound] at h ⊢
      obtain ⟨w₁, hrun, hwr₁, -⟩ := ConfigCall.run_of_grants hK (h call List.mem_cons_self)
      have hlimits := call.limits_of_run hrun
      -- what the later calls need, they still have
      obtain ⟨w₂, hrest, hwr₂⟩ := ih (w := w₁) fun call' hmem =>
        (h call' (List.mem_cons_of_mem call hmem)).of_limits (hlimits _)
      refine ⟨w₂, by rw [each_cons_of_ok hfound hrun, hrest], ?_⟩
      rw [hwr₂, hwr₁, List.flatMap_cons, List.append_assoc]

/-- With such a driver, and with an error before, a command succeeds only if
each of its calls has what it needs. -/
theorem settable_of_each (hK : Grants K) {names : List String} {w w' : World κ}
    (hst : ∀ call ∈ names.filterMap (cmd.callFor ctx), ∀ step ∈ call.steps, step.setting.Storable)
    (herrno : 0 < w.sys.errno) (h : cmd.each K ctx names w = (.ret 0, w')) :
    ∀ call ∈ names.filterMap (cmd.callFor ctx), call.Settable (w.device call.comp.dev) := by
  induction names generalizing w with
  | nil => exact fun call hmem => (List.not_mem_nil hmem).elim
  | cons name names ih =>
    cases hfound : cmd.callFor ctx name with
    | none =>
      rw [List.filterMap_cons_none hfound] at hst ⊢
      rw [each_cons_of_none hfound] at h
      exact ih hst herrno h
    | some call =>
      rw [List.filterMap_cons_some hfound] at hst ⊢
      have hown := hst call List.mem_cons_self
      rcases call.run_cases (K := K) w with ⟨w₁, hrun⟩ | ⟨rc, hrc, w₁, hrun⟩ | ⟨w₁, hrun⟩
      · have hsettable := ConfigCall.settable_of_run hK hown herrno hrun
        obtain ⟨w₂, hrun₂, -, herrno₂⟩ := ConfigCall.run_of_grants hK hsettable
        obtain rfl : w₁ = w₂ := congrArg Prod.snd (hrun.symm.trans hrun₂)
        rw [each_cons_of_ok hfound hrun] at h
        intro call' hmem
        rcases List.mem_cons.mp hmem with rfl | hmem
        · exact hsettable
        · have hlater := ih (fun c hc => hst c (List.mem_cons_of_mem call hc))
            (herrno₂ ▸ herrno) h call' hmem
          exact hlater.of_limits (call.limits_of_run hrun _).symm
      · -- it ends with the code of the call
        rw [each_cons_of_failed hfound hrun hrc] at h
        have hcode := Exit.ret.inj (congrArg Prod.fst h)
        omega
      · rw [each_cons_of_die hfound hrun] at h
        exact nomatch congrArg Prod.fst h

end ConfigCmd

namespace ConfigOptions

variable (o : ConfigOptions) (ctx : List DeviceNode) (argv : List String)

/-- The calls of a command, one for each argument that is found. -/
def calls : List ConfigCall := (EnableCmd.arguments argv).filterMap (o.cmd.callFor ctx)

/-- The components that its arguments name. -/
def targets : List Comp := (o.calls ctx argv).map (·.comp)

/-- On machines with these devices: whatever the driver does, a command writes
no more than a part of a value that was given, to the file of its attribute of a
target; and where the driver grants everything, it succeeds and writes just the
values that were given. -/
structure OnlyAsked (fields : DevId → DeviceFields) : Prop where
  sound : ∀ {κ : Type} (K : Kernel κ) (w : World κ), w.device = fields →
    ∃ new, (o.cmd.run K ctx argv w).2.sys.written = w.sys.written ++ new ∧
      ∀ e ∈ new, ∃ t ∈ o.targets ctx argv, ∃ st ∈ o.asks t, ∃ f n, st.MayWrite f ∧
        e = (.attr t f, st.givenText.take n)
  complete : ∀ {κ : Type} {K : Kernel κ}, Grants K → ∀ w : World κ, w.device = fields →
    ∃ w' new, o.cmd.run K ctx argv w = (.ret 0, w') ∧ w'.sys.written = w.sys.written ++ new ∧
      ∀ e, e ∈ new ↔
        ∃ t ∈ o.targets ctx argv, ∃ st ∈ o.asks t, e = (.attr t st.file, st.givenText)

variable {o ctx argv}

theorem serves_of_mem_calls {call : ConfigCall} (h : call ∈ o.calls ctx argv) :
    o.Serves call := by
  obtain ⟨name, -, hfound⟩ := List.mem_filterMap.mp h
  exact serves_of_callFor hfound

theorem exists_targets {P : Comp → Prop} :
    (∃ t ∈ o.targets ctx argv, P t) ↔ ∃ call ∈ o.calls ctx argv, P call.comp := by
  simp only [targets, List.mem_map, exists_exists_and_eq_and]

section Ranges

variable {fields : DevId → DeviceFields} {size : ChildId → BitVec 32}

/-- The steps of its calls are for what was asked. -/
theorem steps_of_mem_calls (hrange : ∀ t ∈ o.targets ctx argv, o.InRange fields size t)
    (htold : o.Told) {call : ConfigCall} (hmem : call ∈ o.calls ctx argv) :
    call.steps.map Step.setting = o.asks call.comp :=
  setting_steps_eq (serves_of_mem_calls hmem) (hrange _ (List.mem_map_of_mem hmem)) htold

/-- What a step of a call leaves is what was given. -/
theorem entry_of_mem_asks (hrange : ∀ t ∈ o.targets ctx argv, o.InRange fields size t)
    (htold : o.Told) {t : Comp} (ht : t ∈ o.targets ctx argv) {st : Setting}
    (hst : st ∈ o.asks t) : st.entry = (.attr t st.file, st.givenText) := by
  rw [Setting.entry, o.comp_of_mem_asks t st hst, givenText_eq (hrange t ht) htold st hst]

theorem onlyAsked_of_told (hrange : ∀ t ∈ o.targets ctx argv, o.InRange fields size t)
    (htold : o.Told) (hconf : ∀ t ∈ o.targets ctx argv, o.Configurable fields t) :
    o.OnlyAsked ctx argv fields := by
  have hsettable : ∀ call ∈ o.calls ctx argv, call.Settable (fields call.comp.dev) := by
    intro call hmem
    have hserves := serves_of_mem_calls hmem
    have htarget := hrange _ (List.mem_map_of_mem hmem)
    refine ⟨refused_eq_false hserves htarget htold, storable_of_inRange hserves htarget, ?_⟩
    intro step hstep
    refine hconf _ (List.mem_map_of_mem hmem) step.setting ?_
    rw [← steps_of_mem_calls hrange htold hmem]
    exact List.mem_map_of_mem hstep
  constructor
  · intro κ K w _
    obtain ⟨new, hwr, hnew⟩ := ConfigCmd.each_adds (K := K) o.cmd ctx (EnableCmd.arguments argv) w
    refine ⟨new, hwr, fun e he => exists_targets.mpr ?_⟩
    obtain ⟨call, hmem, step, hstep, f, n, hf, rfl⟩ := hnew e he
    have hst : step.setting ∈ o.asks call.comp := by
      rw [← steps_of_mem_calls hrange htold hmem]
      exact List.mem_map_of_mem hstep
    refine ⟨call, hmem, step.setting, hst, f, n, hf, ?_⟩
    rw [o.comp_of_mem_asks _ _ hst,
      givenText_eq (hrange _ (List.mem_map_of_mem hmem)) htold _ hst]
  · intro κ K hK w hw
    obtain ⟨w', hrun, hwr⟩ := ConfigCmd.each_of_grants hK (hw ▸ hsettable)
    refine ⟨w', _, hrun, hwr, fun e => ?_⟩
    rw [exists_targets, List.mem_flatMap]
    constructor
    · rintro ⟨call, hmem, he⟩
      obtain ⟨step, hstep, rfl⟩ := List.mem_map.mp he
      have hst : step.setting ∈ o.asks call.comp := by
        rw [← steps_of_mem_calls hrange htold hmem]
        exact List.mem_map_of_mem hstep
      exact ⟨call, hmem, step.setting, hst,
        entry_of_mem_asks hrange htold (List.mem_map_of_mem hmem) hst⟩
    · rintro ⟨call, hmem, st, hst, rfl⟩
      rw [← entry_of_mem_asks hrange htold (List.mem_map_of_mem hmem) hst]
      rw [← steps_of_mem_calls hrange htold hmem] at hst
      obtain ⟨step, hstep, rfl⟩ := List.mem_map.mp hst
      exact ⟨call, hmem, List.mem_map_of_mem hstep⟩

/-- Where nothing is found, nothing is written. -/
theorem onlyAsked_of_nil (h : o.targets ctx argv = []) : o.OnlyAsked ctx argv fields := by
  have hcalls : o.calls ctx argv = [] := List.map_eq_nil_iff.mp h
  rw [calls] at hcalls
  constructor
  · intro κ K w _
    obtain ⟨new, hwr, hnew⟩ := ConfigCmd.each_adds (K := K) o.cmd ctx (EnableCmd.arguments argv) w
    refine ⟨new, hwr, fun e he => ?_⟩
    obtain ⟨call, hmem, -⟩ := hnew e he
    rw [hcalls] at hmem
    cases hmem
  · intro κ K hK w _
    have hsettable : ∀ call ∈ (EnableCmd.arguments argv).filterMap (o.cmd.callFor ctx),
        call.Settable (w.device call.comp.dev) := by
      rw [hcalls]
      exact fun call hmem => (List.not_mem_nil hmem).elim
    obtain ⟨w', hrun, hwr⟩ := ConfigCmd.each_of_grants hK hsettable
    rw [hcalls] at hwr
    refine ⟨w', [], hrun, hwr, fun e => ?_⟩
    rw [h]
    simp

/-- Where a command does what was asked, and an error was left before, each of
its calls has what it needs. -/
theorem settable_of_onlyAsked (hrange : ∀ t ∈ o.targets ctx argv, o.InRange fields size t)
    (h : o.OnlyAsked ctx argv fields) :
    ∀ call ∈ o.calls ctx argv, call.Settable (fields call.comp.dev) := by
  let w : World Unit :=
    { Setting.blankWorld with sys := ⟨(), EINVAL, 0, none, []⟩, device := fields }
  obtain ⟨w', new, hrun, -⟩ := h.complete Arrival.grants_grantingKernel w rfl
  refine ConfigCmd.settable_of_each Arrival.grants_grantingKernel (fun call hmem => ?_)
    (show 0 < EINVAL by decide) hrun
  exact storable_of_inRange (serves_of_mem_calls hmem) (hrange _ (List.mem_map_of_mem hmem))

theorem told_of_onlyAsked (hrange : ∀ t ∈ o.targets ctx argv, o.InRange fields size t)
    (hne : o.targets ctx argv ≠ []) (h : o.OnlyAsked ctx argv fields) : o.Told := by
  by_contra htold
  let w : World Unit := { Setting.blankWorld with device := fields }
  obtain ⟨w₁, new, hrun₁, hwr₁, hnew⟩ := h.complete Arrival.grants_grantingKernel w rfl
  obtain ⟨w₂, hrun₂, hwr₂⟩ := ConfigCmd.each_of_grants Arrival.grants_grantingKernel (w := w)
    (settable_of_onlyAsked hrange h)
  -- so the run is the one that writes what its steps are for
  obtain rfl : w₁ = w₂ := congrArg Prod.snd (hrun₁.symm.trans hrun₂)
  obtain rfl := List.append_cancel_left (hwr₁.symm.trans hwr₂)
  obtain ⟨call, hmem⟩ := List.exists_mem_of_ne_nil _ fun hnil => hne (List.map_eq_nil_iff.mpr hnil)
  have hserves := serves_of_mem_calls hmem
  simp only [List.mem_flatMap] at hnew
  rcases exists_missed hserves htold with ⟨o', rfl, hnone⟩ | ⟨st, hst, hmissed⟩
  · -- an engine is put into the group 0
    cases hserves with
    | engine o c =>
      have hsteps : (ConfigCall.engine c o'.param).steps = [.set (.engineGroupId c 0)] := by
        rw [ConfigCall.steps, EngineOptions.param, hnone]
        rfl
      obtain ⟨t, -, st, hst, -⟩ := (hnew (Setting.engineGroupId c 0).entry).mp
        ⟨_, hmem, by rw [hsteps]; exact List.mem_cons_self⟩
      cases t <;> simp [asks, asked, hnone] at hst
  · -- what was asked is written, and no step is for it
    obtain ⟨call', hmem', he⟩ := (hnew _).mpr
      (exists_targets.mpr ⟨call, hmem, st, hst, rfl⟩)
    obtain ⟨step, hstep, heq⟩ := List.mem_map.mp he
    refine hmissed call' (serves_of_mem_calls hmem') step hstep ?_
    injection heq with hpath htext
    injection hpath with _ hfile
    exact ⟨hfile, htext⟩

theorem configurable_of_onlyAsked (hrange : ∀ t ∈ o.targets ctx argv, o.InRange fields size t)
    (htold : o.Told) (h : o.OnlyAsked ctx argv fields) :
    ∀ t ∈ o.targets ctx argv, o.Configurable fields t := by
  intro t ht st hst
  obtain ⟨call, hmem, rfl⟩ := List.mem_map.mp ht
  rw [← steps_of_mem_calls hrange htold hmem] at hst
  obtain ⟨step, hstep, rfl⟩ := List.mem_map.mp hst
  exact (settable_of_onlyAsked hrange h call hmem).configurable step hstep

end Ranges

/-- Exactly when a command does what was asked and nothing else, given values
in their ranges. -/
theorem onlyAsked_iff (o : ConfigOptions) (ctx : List DeviceNode) (argv : List String)
    (fields : DevId → DeviceFields) (size : ChildId → BitVec 32)
    (hrange : ∀ t ∈ o.targets ctx argv, o.InRange fields size t) :
    o.OnlyAsked ctx argv fields ↔
      o.targets ctx argv = [] ∨ (o.Told ∧ ∀ t ∈ o.targets ctx argv, o.Configurable fields t) := by
  constructor
  · intro h
    by_cases hne : o.targets ctx argv = []
    · exact Or.inl hne
    · have htold := told_of_onlyAsked hrange hne h
      exact Or.inr ⟨htold, configurable_of_onlyAsked hrange htold h⟩
  · rintro (hnil | ⟨htold, hconf⟩)
    · exact onlyAsked_of_nil hnil
    · exact onlyAsked_of_told hrange htold hconf

/-- A device with a work queue and an engine. -/
def smallNode : DeviceNode := ⟨⟨.dsa, 0⟩, "dsa", [0], [0], [0]⟩

/-- Four groups, and room for work queues. -/
def smallDevice : DeviceFields := { maxGroups := 4, maxWorkQueuesSize := 128, configurable := 1 }

/-- A size and a mode for a work queue are written, and nothing else. -/
theorem onlyAsked_size : (wq { wqSize := some 16, mode := some "shared" }).OnlyAsked [smallNode]
    ["dsa0/wq0.0"] fun _ => smallDevice := by
  have htargets : (wq { wqSize := some 16, mode := some "shared" }).targets [smallNode]
      ["dsa0/wq0.0"] = [.wq ⟨⟨.dsa, 0⟩, 0⟩] := by decide
  refine (onlyAsked_iff _ _ _ _ (fun _ => 0) fun t ht => ?_).mpr (Or.inr ?_)
  · rw [htargets] at ht
    obtain rfl := List.mem_singleton.mp ht
    exact {
      groupId := fun v hv => (nomatch hv)
      wqSize := fun v hv => by
        obtain rfl := Option.mem_some_iff.mp hv
        decide
      priority := fun v hv => (nomatch hv)
      blockOnFault := fun v hv => (nomatch hv)
      prsDisable := fun v hv => (nomatch hv)
      threshold := fun v hv => (nomatch hv)
      type := fun v hv => (nomatch hv)
      name := fun v hv => (nomatch hv)
      driverName := fun v hv => (nomatch hv)
      mode := fun text htext => Or.inl (Option.mem_some_iff.mp htext).symm
      maxBatchSize := fun v hv => (nomatch hv)
      maxTransferSize := fun v hv => (nomatch hv)
      atsDisable := fun v hv => (nomatch hv) }
  · refine ⟨⟨fun v hv => ?_, fun v hv => (nomatch hv), fun v hv => (nomatch hv), by decide⟩,
      fun t _ st _ _ => ?_⟩
    · obtain rfl := Option.mem_some_iff.mp hv
      decide
    · show smallDevice.configurable ≠ 0
      decide

/-- Without an option, nothing is asked of an engine, and it is put into the
group 0. -/
theorem not_onlyAsked_engine : ¬(engine {}).OnlyAsked [smallNode] ["dsa0/engine0.0"]
    fun _ => smallDevice := by
  have htargets : (engine {}).targets [smallNode] ["dsa0/engine0.0"]
      = [.engine ⟨⟨.dsa, 0⟩, 0⟩] := by decide
  have hrange : ∀ t ∈ (engine {}).targets [smallNode] ["dsa0/engine0.0"],
      (engine {}).InRange (fun _ => smallDevice) (fun _ => 0) t := by
    rw [htargets]
    intro t ht
    obtain rfl := List.mem_singleton.mp ht
    exact ⟨fun v hv => (nomatch hv)⟩
  exact fun h => told_of_onlyAsked hrange (by rw [htargets]; simp) h rfl

end ConfigOptions

end Accfg
