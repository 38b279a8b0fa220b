/-
Values are checked before anything is written, but for one.

The functions of `config_attr.c` make their checks and then call the setters.
Whether there is a driver of the name that was given is found out between two
setters: the mode, the type and the name of the queue are written by then.

* `run_stopped` — a setter that fails ends the call;
* `wqBefore_of_takes` — what is written before the name of the driver is looked
  for;
* `validatesFirst_iff` — exactly which calls make all their checks first.
-/
import AccelConfig.ConfigCmd
import AccelConfig.FailOpen
import AccelConfig.FixedBuffers

namespace Accfg

variable {κ : Type} {K : Kernel κ}

/-! ### Runs that succeed -/

/-- Where a run succeeds, no step of it failed. -/
theorem runSteps_ok_mem {steps : List Step} {w w' : World κ}
    (h : runSteps K steps w = (.ret 0, w')) :
    ∀ step ∈ steps, ∃ w₁ rc w₂, step.run K w₁ = (.ret rc, w₂) ∧ 0 ≤ rc := by
  induction steps generalizing w with
  | nil => exact fun step hmem => (List.not_mem_nil hmem).elim
  | cons step steps ih =>
    rw [runSteps, List.map_cons, inOrder_cons] at h
    generalize hrun : step.run K w = r at h
    obtain ⟨_ | _, w₁⟩ := r
    · next rc =>
      dsimp only at h
      by_cases hrc : rc < 0
      · rw [if_pos hrc] at h
        injection h with hret
        injection hret with hzero
        omega
      · rw [if_neg hrc] at h
        intro s hs
        rcases List.mem_cons.mp hs with rfl | hs
        · exact ⟨w, rc, w₁, hrun, not_lt.mp hrc⟩
        · exact ih h s hs
    · cases h

/-- A step that fails is the last. -/
theorem runSteps_stopped {before after : List Step} {step : Step} {w w₁ w₂ : World κ} {rc : ℤ}
    (hbefore : runSteps K before w = (.ret 0, w₁)) (hstep : step.run K w₁ = (.ret rc, w₂))
    (hrc : rc < 0) : runSteps K (before ++ step :: after) w = (.ret rc, w₂) := by
  rw [runSteps] at hbefore
  rw [runSteps, List.map_append, inOrder_append_of_ok hbefore, List.map_cons]
  exact inOrder_cons_of_failed hstep hrc

namespace ConfigCall

/-! ### Checks -/

variable (K) in
/-- A value that was given is refused: by one of the checks that come first, or
because there is no driver of its name when that is looked for. -/
def Rejected (call : ConfigCall) (w : World κ) : Prop :=
  call.refused (w.device call.comp.dev) = true ∨
    match call with
    | wq bus c p => ∃ name ∈ p.driverName, ∃ w', runSteps K (wqBefore c p) w = (.ret 0, w') ∧
        (accessOk K (.bind bus name) w'.sys).1 = false
    | _ => False

variable (K) in
/-- If a value is refused, nothing was written, and the call fails.  A setter
that fails is the last one called; its code is that of the call, and of the
command whatever arguments are left. -/
structure ValidatesFirst (call : ConfigCall) (w : World κ) : Prop where
  rejected : call.Rejected K w → ∃ rc < 0, ∃ w', call.run K w = (.ret rc, w') ∧
    w'.sys.written = w.sys.written
  stopped : ∀ {before after : List Step} {step : Step} {w₁ w₂ : World κ} {rc : ℤ},
    call.refused (w.device call.comp.dev) = false → call.steps = before ++ step :: after →
    runSteps K before w = (.ret 0, w₁) → step.run K w₁ = (.ret rc, w₂) → rc < 0 →
    call.run K w = (.ret rc, w₂)
  returned : ∀ {cmd : ConfigCmd} {ctx : List DeviceNode} {name : String} {names : List String}
    {w' : World κ} {rc : ℤ}, cmd.callFor ctx name = some call → call.run K w = (.ret rc, w') →
    rc < 0 → cmd.each K ctx (name :: names) w = (.ret rc, w')

/-- Something can be written before the name of a driver is looked for: it is
given and a type or a name of the queue too, or a mode that can be set, and none
of them ends the call. -/
def WritesFirst (call : ConfigCall) (dev : DeviceFields) : Prop :=
  match call with
  | wq _ _ p => p.refused dev = false ∧ p.driverName ≠ none ∧
      (∀ text ∈ p.type, Arrival.ShortValue text ∧ wqParseType text.toList ≠ none) ∧
      (∀ text ∈ p.name, Arrival.ShortValue text) ∧
      ((p.mode ≠ none ∧ dev.configurable ≠ 0) ∨ p.type ≠ none ∨ p.name ≠ none)
  | _ => False

theorem run_stopped {call : ConfigCall} {before after : List Step} {step : Step}
    {w w₁ w₂ : World κ} {rc : ℤ} (hrefused : call.refused (w.device call.comp.dev) = false)
    (hsteps : call.steps = before ++ step :: after) (hbefore : runSteps K before w = (.ret 0, w₁))
    (hstep : step.run K w₁ = (.ret rc, w₂)) (hrc : rc < 0) : call.run K w = (.ret rc, w₂) := by
  rw [run_eq, hrefused, if_neg Bool.false_ne_true, hsteps]
  exact runSteps_stopped hbefore hstep hrc

theorem run_refused {call : ConfigCall} {w : World κ}
    (h : call.refused (w.device call.comp.dev) = true) : call.run K w = (.ret (-EINVAL), w) := by
  rw [run_eq, if_pos h]

/-- What has come before a successful run of the steps up to the name of the
driver. -/
theorem short_of_before {c : ChildId} {p : WqParam} {w w' : World κ}
    (h : runSteps K (wqBefore c p) w = (.ret 0, w')) :
    (∀ text ∈ p.type, Arrival.ShortValue text ∧ wqParseType text.toList ≠ none) ∧
      ∀ text ∈ p.name, Arrival.ShortValue text := by
  have hok := runSteps_ok_mem h
  simp only [wqBefore, List.flatten_cons, List.flatten_nil, List.append_nil,
    List.forall_mem_append, forall_mem_givenStr] at hok
  obtain ⟨-, htype, hname⟩ := hok
  -- a text that is too long ends the process
  have hshort : ∀ {st : Setting} {w₁ w₂ : World κ} {rc : ℤ},
      (Step.set st).run K w₁ = (.ret rc, w₂) → ¬st.Overruns := by
    intro st w₁ w₂ rc hrun hover
    have hdie := (st.call_die_iff (K := K) w₁).mpr hover
    rw [Step.run] at hrun
    rw [hrun] at hdie
    cases hdie
  refine ⟨fun text htext => ?_, fun text htext => ?_⟩
  · obtain ⟨w₁, rc, w₂, hrun, hrc⟩ := htype text htext
    have hlen : Arrival.ShortValue text := not_le.mp (hshort hrun)
    -- a type that makes no sense fails once it is stored
    refine ⟨hlen, fun hparse => ?_⟩
    obtain ⟨rc', hneg, w₃, hfails⟩ := Setting.call_wqType_fails (K := K) c hlen hparse w₁
    rw [Step.run, hfails] at hrun
    injection hrun with hret
    injection hret with hcode
    omega
  · obtain ⟨w₁, rc, w₂, hrun, -⟩ := hname text htext
    exact not_le.mp (hshort hrun)

/-- Where nothing can be written first, nothing is. -/
theorem written_before {bus : String} {c : ChildId} {p : WqParam} {w w' : World κ}
    (hfirst : ¬(wq bus c p).WritesFirst (w.device c.dev))
    (hrefused : p.refused (w.device c.dev) = false) (hname : p.driverName ≠ none)
    (h : runSteps K (wqBefore c p) w = (.ret 0, w')) :
    w'.sys.written = w.sys.written := by
  obtain ⟨htypes, hnames⟩ := short_of_before h
  obtain ⟨hmode, hnothing⟩ := not_or.mp fun hany =>
    hfirst ⟨hrefused, hname, htypes, hnames, hany⟩
  obtain ⟨htype, hqueue⟩ := not_or.mp hnothing
  rw [wqBefore, not_not.mp htype, not_not.mp hqueue] at h
  cases hm : p.mode with
  | none =>
    rw [hm] at h
    obtain ⟨-, rfl⟩ := Prod.mk.inj h
    rfl
  | some text =>
    have hconf : (w.device c.dev).configurable = 0 := by
      by_contra hconf
      exact hmode ⟨by rw [hm]; exact Option.some_ne_none text, hconf⟩
    have hshort : Arrival.ShortValue text :=
      Arrival.shortValue_mode (by rw [hrefused]; exact Bool.false_ne_true) text hm
    -- the setter of the mode gives up at once
    have hgated := Setting.call_wqStr_gated (K := K) (w := w) .mode c hshort ⟨hconf, rfl⟩
    rw [hm] at h
    have hrun : (runSteps K [.set (.wqStr .mode c text)] w).2 = w := by
      rcases runSteps_cons_cases (K := K) (.set (.wqStr .mode c text)) [] w with hlast | hmore
      · rw [hlast, Step.run, hgated]
      · rw [hmore, Step.run, hgated]
        rfl
    have hw' : w = w' := hrun.symm.trans (congrArg Prod.snd h)
    rw [hw']

theorem validatesFirst_of_not_writesFirst {call : ConfigCall} {w : World κ}
    (h : ¬call.WritesFirst (w.device call.comp.dev)) : call.ValidatesFirst K w where
  rejected := by
    -- one of the checks in front, or the one of the driver
    rintro (hrefused | hdriver)
    · exact ⟨-EINVAL, by decide, w, run_refused hrefused, rfl⟩
    by_cases hrefused : call.refused (w.device call.comp.dev) = true
    · exact ⟨-EINVAL, by decide, w, run_refused hrefused, rfl⟩
    cases call with
    | device | group | engine => exact hdriver.elim
    | wq bus c p =>
      obtain ⟨name, hname, w₁, hbefore, haccess⟩ := hdriver
      have hgiven : p.driverName ≠ none := by
        rw [Option.mem_def.mp hname]
        exact Option.some_ne_none name
      -- the steps before have written nothing, and looking for a file does not
      have hwritten := written_before h (Bool.eq_false_iff.mpr hrefused) hgiven hbefore
      have hread := quiet_readOnly.accessOk (K := K) (.bind bus name) w₁.sys
      generalize hacc : accessOk K (.bind bus name) w₁.sys = r at haccess hread
      obtain ⟨ok, s⟩ := r
      obtain rfl : ok = false := haccess
      have hstep : (Step.driverName bus c name).run K w₁
          = (.ret (-(ENOENT : ℤ)), { w₁ with sys := s }) := by
        rw [Step.run, setDriverName, hacc]
      have hsteps : (wq bus c p).steps
          = wqBefore c p ++ .driverName bus c name :: wqAfter c p := by
        rw [steps_wq, Option.mem_def.mp hname]
        rfl
      exact ⟨_, by decide, _,
        run_stopped (Bool.eq_false_iff.mpr hrefused) hsteps hbefore hstep (by decide),
        hread.written.trans hwritten⟩
  stopped := run_stopped
  returned hfound hrun hrc := ConfigCmd.each_cons_of_failed hfound hrun hrc _

/-! ### Something written first -/

variable (K) in
/-- From a state without an error the steps succeed, and they write something
if `P`. -/
def Grows (d : DevId) (conf : BitVec 32) (steps : List Step) (P : Prop) : Prop :=
  ∀ w : World κ, w.sys.errno = 0 → (w.device d).configurable = conf →
    ∃ w' new, runSteps K steps w = (.ret 0, w') ∧ w'.sys.errno = 0 ∧
      w'.sys.written = w.sys.written ++ new ∧ (P → new ≠ [])

theorem Grows.append {d : DevId} {conf : BitVec 32} {steps₁ steps₂ : List Step} {P Q : Prop}
    (h₁ : Grows K d conf steps₁ P) (h₂ : Grows K d conf steps₂ Q) :
    Grows K d conf (steps₁ ++ steps₂) (P ∨ Q) := by
  intro w herrno hconf
  obtain ⟨w₁, new₁, hrun₁, herrno₁, hwr₁, hgrow₁⟩ := h₁ w herrno hconf
  have hlimits : SameLimits w w₁ := by
    have hsame := runSteps_limits (K := K) steps₁ w
    rwa [hrun₁] at hsame
  have hconf₁ := (hlimits.configurable d).trans hconf
  obtain ⟨w₂, new₂, hrun₂, herrno₂, hwr₂, hgrow₂⟩ := h₂ w₁ herrno₁ hconf₁
  refine ⟨w₂, new₁ ++ new₂, ?_, herrno₂, ?_, ?_⟩
  · rw [runSteps, List.map_append, inOrder_append_of_ok hrun₁]
    exact hrun₂
  · rw [hwr₂, hwr₁, List.append_assoc]
  · rintro (hp | hq) hnil
    · exact hgrow₁ hp (List.append_eq_nil_iff.mp hnil).1
    · exact hgrow₂ hq (List.append_eq_nil_iff.mp hnil).2

/-- A string that was not given is no step; one that was is written. -/
theorem Grows.givenStr {d : DevId} {conf : BitVec 32} {val : Option String}
    {setting : String → Setting} {P : Prop}
    (h : ∀ text ∈ val, ∀ w : World κ, w.sys.errno = 0 → (w.device d).configurable = conf →
      ∃ w' new, (setting text).call K w = (.ret 0, w') ∧ w'.sys.errno = 0 ∧
        w'.sys.written = w.sys.written ++ new ∧ (P → new ≠ [])) :
    Grows K d conf (givenStr val fun text => .set (setting text)) (val ≠ none ∧ P) := by
  intro w herrno hconf
  cases val with
  | none => exact ⟨w, [], rfl, herrno, (List.append_nil _).symm, fun hp => absurd rfl hp.1⟩
  | some text =>
    obtain ⟨w', new, hcall, herrno', hwr, hgrow⟩ := h text rfl w herrno hconf
    exact ⟨w', new, runSteps_one_of_ok hcall, herrno', hwr, fun hp => hgrow hp.2⟩

/-- What is written before the name of the driver is looked for, if the kernel
takes every text. -/
theorem wqBefore_of_takes (hK : Takes K) {c : ChildId} {p : WqParam} {conf : BitVec 32}
    (hmode : ∀ text ∈ p.mode, Arrival.ShortValue text)
    (htype : ∀ text ∈ p.type, Arrival.ShortValue text ∧ wqParseType text.toList ≠ none)
    (hname : ∀ text ∈ p.name, Arrival.ShortValue text) :
    Grows K c.dev conf (wqBefore c p)
      ((p.mode ≠ none ∧ conf ≠ 0) ∨ (p.type ≠ none ∧ True) ∨ (p.name ≠ none ∧ True)) := by
  rw [wqBefore, List.flatten_cons, List.flatten_cons, List.flatten_cons, List.flatten_nil,
    List.append_nil]
  refine .append (.givenStr fun text htext w herrno hconf => ?_)
    (.append (.givenStr fun text htext w herrno hconf => ?_)
      (.givenStr fun text htext w herrno hconf => ?_))
  · by_cases hgate : (w.device c.dev).configurable = 0
    · -- the setter gives up, with the error there is not
      refine ⟨w, [], ?_, herrno, (List.append_nil _).symm, fun hne => ?_⟩
      · rw [Setting.call_wqStr_gated .mode c (hmode text htext) ⟨hgate, rfl⟩, herrno]
        rfl
      · exact absurd (hconf.symm.trans hgate) hne
    · obtain ⟨w', hcall, hwrote⟩ :=
        Setting.call_wqStr_of_takes hK .mode c (hmode text htext) fun h => hgate h.1
      exact ⟨w', _, hcall, hwrote.errno.trans herrno, hwrote.written, fun _ => List.cons_ne_nil _ _⟩
  · obtain ⟨hlen, hparse⟩ := htype text htext
    obtain ⟨w', hcall, hwrote⟩ := Setting.call_wqType_of_takes (w := w) hK c hlen hparse
    exact ⟨w', _, hcall, hwrote.errno.trans herrno, hwrote.written, fun _ => List.cons_ne_nil _ _⟩
  · obtain ⟨w', hcall, hwrote⟩ := Setting.call_wqStr_of_takes (w := w) hK .name c
      (hname text htext) fun h => absurd h.2 (by decide)
    exact ⟨w', _, hcall, hwrote.errno.trans herrno, hwrote.written, fun _ => List.cons_ne_nil _ _⟩

/-- A kernel that takes every text, and has no driver. -/
def noDriverKernel : Kernel Unit :=
  { Setting.grantingKernel with access := fun _ k => (.error .noEntry, k) }

theorem takes_noDriverKernel : Takes noDriverKernel where
  openFile _ _ _ := rfl
  openDir _ _ := rfl
  write _ _ _ := rfl

/-- Where something can be written first, it is if there is no driver. -/
theorem not_validatesFirst {call : ConfigCall} {dev : DeviceFields} (h : call.WritesFirst dev) :
    ¬call.ValidatesFirst noDriverKernel (uniformWorld dev) := by
  cases call with
  | device | group | engine => exact h.elim
  | wq bus c p =>
    obtain ⟨hrefused, hdriver, htype, hname, hany⟩ := h
    obtain ⟨name, hgiven⟩ := Option.ne_none_iff_exists'.mp hdriver
    have hmode : ∀ text ∈ p.mode, Arrival.ShortValue text :=
      Arrival.shortValue_mode (by rw [hrefused]; exact Bool.false_ne_true)
    have hconf : ((uniformWorld dev).device c.dev).configurable = dev.configurable := rfl
    obtain ⟨w', new, hbefore, -, hwr, hgrow⟩ :=
      wqBefore_of_takes takes_noDriverKernel hmode htype hname (uniformWorld dev) rfl hconf
    have hnew : new ≠ [] := by
      refine hgrow ?_
      rcases hany with hset | hset | hset
      · exact Or.inl hset
      · exact Or.inr (Or.inl ⟨hset, trivial⟩)
      · exact Or.inr (Or.inr ⟨hset, trivial⟩)
    intro hfirst
    -- the driver is refused behind what was written
    obtain ⟨rc, hrc, w'', hrun, hnothing⟩ :=
      hfirst.rejected (Or.inr ⟨name, hgiven, w', hbefore, rfl⟩)
    have hstep : (Step.driverName bus c name).run noDriverKernel w'
        = (.ret (-(ENOENT : ℤ)), { w' with sys := (accessOk noDriverKernel (.bind bus name)
          w'.sys).2 }) := rfl
    have hsteps : (wq bus c p).steps
        = wqBefore c p ++ .driverName bus c name :: wqAfter c p := by
      rw [steps_wq, hgiven]
      rfl
    have hpassed : (wq bus c p).refused ((uniformWorld dev).device (wq bus c p).comp.dev) = false :=
      hrefused
    have hend := run_stopped hpassed hsteps hbefore hstep (by decide)
    obtain rfl : _ = w'' := congrArg Prod.snd (hend.symm.trans hrun)
    exact hnew (List.append_right_eq_self.mp (hwr.symm.trans hnothing))

/-- Exactly the calls that make all their checks before they write. -/
theorem validatesFirst_iff (call : ConfigCall) (dev : DeviceFields) :
    (∀ (κ : Type) (K : Kernel κ) (w : World κ), w.device call.comp.dev = dev →
      call.ValidatesFirst K w) ↔ ¬call.WritesFirst dev := by
  constructor
  · exact fun h hwrites => not_validatesFirst hwrites (h Unit noDriverKernel (uniformWorld dev) rfl)
  · intro h κ K w hdev
    refine validatesFirst_of_not_writesFirst ?_
    rw [hdev]
    exact h

/-- A name and the name of a driver that is not there. -/
theorem not_validatesFirst_name :
    ¬(wq "dsa" someChild { name := some "app", driverName := some "nodriver" }).ValidatesFirst
      noDriverKernel (uniformWorld {}) := by
  refine not_validatesFirst ⟨by decide, Option.some_ne_none _, ?_, ?_, Or.inr (Or.inr ?_)⟩
  · exact fun text htext => (nomatch htext)
  · intro text htext
    obtain rfl : "app" = text := Option.some_inj.mp htext
    exact show "app".toList.length < SYSFS_ATTR_SIZE by decide
  · exact Option.some_ne_none _

end ConfigCall

end Accfg
