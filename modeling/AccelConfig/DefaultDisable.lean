/-
Taking down the default configuration.

`config_default_disable` disables the work queues with the name it is given,
and then each enabled device on which it met no other work queue that was not
disabled.  It does not look at what became of its own work queues: their
disable operations are called and their results dropped.

* `namedPass` — one pass over the work queues of a device;
* `tearsDown_iff` — exactly when a run takes no device from under a work queue.
-/
import AccelConfig.Steady

open CNumeral

namespace Accfg

variable {κ : Type} (K : Kernel κ)

/-! ### The command -/

/-- An operation that is called, and the state it is called in. -/
inductive DisableCall (κ : Type) where
  | wq (c : ChildId) (s : Sys κ)
  | device (node : DeviceNode) (s : Sys κ)

/-- A part of a run; without a result the process has ended. -/
structure Ran (κ α : Type) where
  result : Option α
  calls : List (DisableCall κ)
  sys : Sys κ

def CONFIG_DEFAULT_WQ_NAME : String := "user_default_wq"

variable (compat : Bool) (fields : ChildId → WqFields) (name : String)

/-- The loop body for a work queue: whether it is in use under another name.  A
name that could not be read is a null pointer, which `strcmp` does not take. -/
def disableNamedWq (bus : String) (c : ChildId) (s : Sys κ) : Ran κ Bool :=
  match accfgWqGetState K c s with
  | (state, s) =>
    if state = .disabled then ⟨some false, [], s⟩
    else
      match (fields c).str .name with
      | none => ⟨none, [], s⟩
      | some wqName =>
        if wqName = name then
          ⟨some false, [.wq c s], (accfgWqDisable K compat bus c (fields c) true s).2⟩
        else ⟨some true, [], s⟩

/-- The loop over the work queues of a device. -/
def disableNamedWqs (node : DeviceNode) : List ℕ → Sys κ → Ran κ Bool
  | [], s => ⟨some false, [], s⟩
  | n :: ns, s =>
    let r := disableNamedWq K compat fields name node.bus ⟨node.id, n⟩ s
    match r.result with
    | none => r
    | some other =>
      let rest := disableNamedWqs node ns r.sys
      ⟨rest.result.map (other || ·), r.calls ++ rest.calls, rest.sys⟩

/-- The loop body for a device. -/
def disableNamedDevice (node : DeviceNode) (s : Sys κ) : Ran κ Unit :=
  let r := disableNamedWqs K compat fields name node node.wqs s
  match r.result with
  | none => ⟨none, r.calls, r.sys⟩
  | some nonDefaultWqEnabled =>
    match accfgDeviceGetState K node.id r.sys with
    | (state, s) =>
      if state = .enabled ∧ nonDefaultWqEnabled = false then
        ⟨some (), r.calls ++ [.device node s], (accfgDeviceDisable K node true s).2⟩
      else ⟨some (), r.calls, s⟩

/-- The loop over the devices. -/
def disableNamed : List DeviceNode → Sys κ → Ran κ Unit
  | [], s => ⟨some (), [], s⟩
  | node :: nodes, s =>
    let r := disableNamedDevice K compat fields name node s
    match r.result with
    | none => r
    | some () =>
      let rest := disableNamed nodes r.sys
      ⟨rest.result, r.calls ++ rest.calls, rest.sys⟩

/-- `config_default_disable`. -/
def configDefaultDisable (userDefaultWqName : Option String) (nodes : List DeviceNode)
    (s : Sys κ) : Ran κ Unit :=
  disableNamed K compat fields (userDefaultWqName.getD CONFIG_DEFAULT_WQ_NAME) nodes s

/-! ### What is asked of it -/

/-- The work queue is not disabled. -/
def InUse (node : DeviceNode) (n : ℕ) (s : Sys κ) : Prop :=
  wqStateOf K ⟨node.id, n⟩ s.kernel ≠ .disabled

/-- The operation left the work queue disabled. -/
def Works (bus : String) (c : ChildId) (s : Sys κ) : Prop :=
  wqStateOf K c (accfgWqDisable K compat bus c (fields c) true s).2.kernel = .disabled

/-- The unbind of a device is written. -/
def Unbinds (node : DeviceNode) (s : Sys κ) : Prop :=
  (accfgDeviceDisable K node true s).2.written ≠ s.written

/-- A run of the command, as it should be. -/
structure TearsDown (nodes : List DeviceNode) (s : Sys κ) (r : Ran κ Unit) : Prop where
  returns : r.result = some ()
  /-- no work queue of another name is disabled -/
  onlyNamed : ∀ c s', .wq c s' ∈ r.calls → (fields c).str .name = some name
  /-- all of the name are -/
  allNamed : ∀ node ∈ nodes, ∀ n ∈ node.wqs, (fields ⟨node.id, n⟩).str .name = some name →
    InUse K node n s → ∃ s', .wq ⟨node.id, n⟩ s' ∈ r.calls
  /-- no device is unbound while a work queue of it is not disabled -/
  idle : ∀ node s', .device node s' ∈ r.calls → Unbinds K node s' →
    ∀ n ∈ node.wqs, ¬InUse K node n s'

/-- The code goes on to unbind the device: all its work queues that are not
disabled have the name, the device is enabled then, and the kernel takes its
name. -/
def Goes (node : DeviceNode) (s : Sys κ) : Prop :=
  (∀ n ∈ node.wqs, InUse K node n s → (fields ⟨node.id, n⟩).str .name = some name) ∧
  let r := accfgDeviceGetState K node.id (disableNamedWqs K compat fields name node node.wqs s).sys
  r.1 = .enabled ∧ Unbinds K node r.2

/-- The device does not go before its work queues: those in use have a name,
and if the device is going to be unbound, each disable operation on a work
queue of it works. -/
structure ClearsDevice (node : DeviceNode) (s : Sys κ) : Prop where
  named : ∀ n ∈ node.wqs, InUse K node n s → (fields ⟨node.id, n⟩).str .name ≠ none
  works : Goes K compat fields name node s →
    ∀ c s', .wq c s' ∈ (disableNamedWqs K compat fields name node node.wqs s).calls →
      Works K compat fields node.bus c s'

/-- Each device, in the state it is come to, has the property. -/
def EachDevice (P : DeviceNode → Sys κ → Prop) : List DeviceNode → Sys κ → Prop
  | [], _ => True
  | node :: nodes, s =>
    P node s ∧ EachDevice P nodes (disableNamedDevice K compat fields name node s).sys

variable {K} {compat} {fields} {name}

/-! ### The work queues of one device -/

/-- What the loop body does, in each case. -/
theorem disableNamedWq_cases (bus : String) (c : ChildId) (s : Sys κ) :
    let r := disableNamedWq K compat fields name bus c s
    let s₁ := (accfgWqGetState K c s).2
    (wqStateOf K c s.kernel = .disabled ∧ r = ⟨some false, [], s₁⟩) ∨
    (wqStateOf K c s.kernel ≠ .disabled ∧ (fields c).str .name = none ∧ r = ⟨none, [], s₁⟩) ∨
    (wqStateOf K c s.kernel ≠ .disabled ∧ (fields c).str .name = some name ∧
      r = ⟨some false, [.wq c s₁], (accfgWqDisable K compat bus c (fields c) true s₁).2⟩) ∨
    (wqStateOf K c s.kernel ≠ .disabled ∧ (fields c).str .name ≠ none ∧
      (fields c).str .name ≠ some name ∧ r = ⟨some true, [], s₁⟩) := by
  rw [← wqStateOf_eq]
  simp only [disableNamedWq]
  generalize accfgWqGetState K c s = r
  obtain ⟨state, s₁⟩ := r
  dsimp only
  by_cases hstate : state = .disabled
  · exact .inl ⟨hstate, if_pos hstate⟩
  rw [if_neg hstate]
  refine .inr ?_
  cases hname : (fields c).str .name with
  | none => exact .inl ⟨hstate, rfl, rfl⟩
  | some wqName =>
    dsimp only
    by_cases heq : wqName = name
    · rw [if_pos heq, heq]
      exact .inr (.inl ⟨hstate, rfl, rfl⟩)
    · rw [if_neg heq]
      exact .inr (.inr ⟨hstate, by simp, by simpa using heq, rfl⟩)

theorem disableNamedWqs_cons (node : DeviceNode) (n : ℕ) (ns : List ℕ) (s : Sys κ) :
    disableNamedWqs K compat fields name node (n :: ns) s =
      let r := disableNamedWq K compat fields name node.bus ⟨node.id, n⟩ s
      match r.result with
      | none => r
      | some other =>
        let rest := disableNamedWqs K compat fields name node ns r.sys
        ⟨rest.result.map (other || ·), r.calls ++ rest.calls, rest.sys⟩ := rfl

section Frame

variable {nodes : List DeviceNode} (hs : Steady K nodes) (hp : Population nodes)
  {node node' : DeviceNode} (hnode : node ∈ nodes) (hnode' : node' ∈ nodes)
include hs hp hnode hnode'

/-- Disabling a work queue leaves the others alone. -/
theorem sameState_wqDisable {n n' : ℕ} (hn' : n' ∈ node'.wqs)
    (hne : (⟨node.id, n⟩ : ChildId) ≠ ⟨node'.id, n'⟩) (wq : WqFields) (s : Sys κ) :
    SameState K ⟨node'.id, n'⟩ s (accfgWqDisable K compat node.bus ⟨node.id, n⟩ wq true s).2 := by
  refine (hs.quiet _).wqDisable (fun s => hs.write hnode' hn' ?_ _ s) compat wq true s
  rintro ⟨hbus, hname | hname⟩
  · obtain ⟨hid, hnum⟩ := name_injective hname
    obtain rfl := hp.unique node hnode node' hnode' hbus hid
    exact hne (congrArg (ChildId.mk node.id) hnum)
  · exact devname_wq_ne_device _ _ hname

/-- So does disabling another device. -/
theorem sameState_deviceDisable {n' : ℕ} (hn' : n' ∈ node'.wqs) (hne : node ≠ node')
    (s : Sys κ) : SameState K ⟨node'.id, n'⟩ s (accfgDeviceDisable K node true s).2 := by
  rw [accfgDeviceDisable_eq]
  refine (hs.quiet _).unbindDriver (fun s => hs.write hnode' hn' ?_ _ s) true s
  rintro ⟨hbus, hname | hname⟩
  · exact devname_wq_ne_device _ _ hname.symm
  · exact hne (hp.unique node hnode node' hnode' hbus
      (congrArg DevId.id (devname_device_injective hname)))

theorem sameState_disableNamedWq {n n' : ℕ} (hn' : n' ∈ node'.wqs)
    (hne : (⟨node.id, n⟩ : ChildId) ≠ ⟨node'.id, n'⟩) (s : Sys κ) :
    SameState K ⟨node'.id, n'⟩ s
      (disableNamedWq K compat fields name node.bus ⟨node.id, n⟩ s).sys := by
  have hread := (hs.quiet ⟨node'.id, n'⟩).wqGetState ⟨node.id, n⟩ s
  obtain ⟨-, h⟩ | ⟨-, -, h⟩ | ⟨-, -, h⟩ | ⟨-, -, -, h⟩ :=
    @disableNamedWq_cases _ K compat fields name node.bus ⟨node.id, n⟩ s
  · rwa [h]
  · rwa [h]
  · rw [h]
    exact (hs.quiet _).trans hread (sameState_wqDisable hs hp hnode hnode' hn' hne _ _)
  · rwa [h]

theorem sameState_disableNamedWqs {n' : ℕ} (hn' : n' ∈ node'.wqs) : ∀ (ns : List ℕ) (s : Sys κ),
    (∀ n ∈ ns, (⟨node.id, n⟩ : ChildId) ≠ ⟨node'.id, n'⟩) →
    SameState K ⟨node'.id, n'⟩ s (disableNamedWqs K compat fields name node ns s).sys := by
  intro ns
  induction ns with
  | nil => exact fun s _ => rfl
  | cons n ns ih =>
    intro s hne
    have hhead := @sameState_disableNamedWq _ K compat fields name _ hs hp _ _ hnode hnode' n n' hn'
      (hne n List.mem_cons_self) s
    rw [disableNamedWqs_cons]
    generalize disableNamedWq K compat fields name node.bus ⟨node.id, n⟩ s = r at hhead ⊢
    obtain ⟨_ | other, calls, s₁⟩ := r
    · exact hhead
    · exact (hs.quiet _).trans hhead (ih s₁ fun m hm => hne m (List.mem_cons_of_mem n hm))

end Frame

variable (K) (compat) (fields) (name)

/-- What a pass over some work queues of a device does. -/
structure NamedPass (node : DeviceNode) (ns : List ℕ) (s : Sys κ) (r : Ran κ Bool) : Prop where
  crashes : r.result = none ↔ ∃ n ∈ ns, InUse K node n s ∧ (fields ⟨node.id, n⟩).str .name = none
  other : r.result ≠ none → (r.result = some false ↔
    ∀ n ∈ ns, InUse K node n s → (fields ⟨node.id, n⟩).str .name = some name)
  called : r.result ≠ none → ∀ n ∈ ns, InUse K node n s →
    (fields ⟨node.id, n⟩).str .name = some name → ∃ s', .wq ⟨node.id, n⟩ s' ∈ r.calls
  calls : ∀ call ∈ r.calls, ∃ n ∈ ns, ∃ s', call = .wq ⟨node.id, n⟩ s' ∧
    (fields ⟨node.id, n⟩).str .name = some name
  idle : r.result = some false → ((∀ n ∈ ns, ¬InUse K node n r.sys) ↔
    ∀ c s', .wq c s' ∈ r.calls → Works K compat fields node.bus c s')

variable {K} {compat} {fields} {name}

theorem namedPass_single (hs : Steady K nodes) (node : DeviceNode) (n : ℕ) (s : Sys κ) :
    NamedPass K compat fields name node [n] s
      (disableNamedWq K compat fields name node.bus ⟨node.id, n⟩ s) := by
  have hread : SameState K ⟨node.id, n⟩ s (accfgWqGetState K ⟨node.id, n⟩ s).2 :=
    (hs.quiet _).wqGetState _ s
  obtain ⟨hstate, h⟩ | ⟨hstate, hname, h⟩ | ⟨hstate, hname, h⟩ | ⟨hstate, hsome, hname, h⟩ :=
    @disableNamedWq_cases _ K compat fields name node.bus ⟨node.id, n⟩ s
  -- disabled already: reading its state has not changed that
  · have hidle : ¬InUse K node n s := fun h => h hstate
    have hidle' : ¬InUse K node n (accfgWqGetState K ⟨node.id, n⟩ s).2 := by
      rw [InUse, hread]
      exact hidle
    rw [h]
    exact ⟨by simp [hidle], by simp [hidle], by simp [hidle], by simp, by simp [hidle']⟩
  -- in use without a name: `strcmp` takes no null pointer
  · have hin : InUse K node n s := hstate
    rw [h]
    exact ⟨by simp [hname, hin], by simp, by simp, by simp, by simp⟩
  -- in use under the name: disabled, and the result dropped
  · rw [h]
    refine ⟨by simp [hname], by simp [hname], ?_, by simp [hname], ?_⟩
    · rintro - m hm - -
      obtain rfl := List.mem_singleton.mp hm
      exact ⟨_, List.mem_singleton_self _⟩
    · rintro -
      constructor
      · intro hidle c s' hcall
        obtain ⟨rfl, rfl⟩ := DisableCall.wq.inj (List.mem_singleton.mp hcall)
        exact not_not.mp (hidle n (List.mem_singleton_self n))
      · intro hworks m hm
        obtain rfl := List.mem_singleton.mp hm
        exact not_not.mpr (hworks _ _ (List.mem_singleton_self _))
  -- in use under another name: the device has to stay
  · have hin : InUse K node n s := hstate
    rw [h]
    exact ⟨by simp [hsome], by simp [hname, hin], by simp [hname], by simp, by simp⟩

/-- A null pointer ends the pass. -/
theorem NamedPass.crash {node : DeviceNode} {n : ℕ} {s s₁ : Sys κ} {calls : List (DisableCall κ)}
    (h : NamedPass K compat fields name node [n] s ⟨none, calls, s₁⟩) (ns : List ℕ) :
    NamedPass K compat fields name node (n :: ns) s ⟨none, calls, s₁⟩ where
  crashes := by
    obtain ⟨m, hm, hin, hname⟩ := h.crashes.mp rfl
    obtain rfl := List.mem_singleton.mp hm
    exact ⟨fun _ => ⟨m, List.mem_cons_self, hin, hname⟩, fun _ => rfl⟩
  other hne := absurd rfl hne
  called hne := absurd rfl hne
  calls call hcall := by
    obtain ⟨m, hm, hrest⟩ := h.calls call hcall
    obtain rfl := List.mem_singleton.mp hm
    exact ⟨m, List.mem_cons_self, hrest⟩
  idle hother := absurd hother (by simp)

/-- One work queue, and then the others. -/
theorem NamedPass.cons {node : DeviceNode} {n : ℕ} {ns : List ℕ} {s s₁ : Sys κ} {other : Bool}
    {calls : List (DisableCall κ)} {rest : Ran κ Bool}
    (h : NamedPass K compat fields name node [n] s ⟨some other, calls, s₁⟩)
    (hrest : NamedPass K compat fields name node ns s₁ rest)
    (hsame : ∀ m ∈ ns, (InUse K node m s₁ ↔ InUse K node m s))
    (hkept : InUse K node n rest.sys ↔ InUse K node n s₁) :
    NamedPass K compat fields name node (n :: ns) s
      ⟨rest.result.map (other || ·), calls ++ rest.calls, rest.sys⟩ := by
  have hhead : ¬(InUse K node n s ∧ (fields ⟨node.id, n⟩).str .name = none) := by
    intro hcrash
    have hnone := h.crashes.mpr ⟨n, List.mem_singleton_self n, hcrash⟩
    exact absurd hnone (by simp)
  have hother : other = false ↔
      (InUse K node n s → (fields ⟨node.id, n⟩).str .name = some name) := by
    have := h.other (by simp)
    simpa using this
  refine ⟨?_, ?_, ?_, ?_, ?_⟩
  -- crashes: only among the others, as the first did not
  · rw [Option.map_eq_none_iff, hrest.crashes]
    constructor
    · rintro ⟨m, hm, hin, hname⟩
      exact ⟨m, List.mem_cons_of_mem n hm, (hsame m hm).mp hin, hname⟩
    · rintro ⟨m, hm, hin, hname⟩
      obtain rfl | hm := List.mem_cons.mp hm
      · exact absurd ⟨hin, hname⟩ hhead
      · exact ⟨m, hm, (hsame m hm).mpr hin, hname⟩
  -- other: the flag is the disjunction of the two
  · intro hne
    have hne' : rest.result ≠ none := fun h => hne (by simp [h])
    have hsplit : rest.result.map (other || ·) = some false ↔
        other = false ∧ rest.result = some false := by
      cases rest.result <;> simp
    rw [hsplit, hother, hrest.other hne', List.forall_mem_cons]
    refine and_congr Iff.rfl (forall₂_congr fun m hm => ?_)
    rw [hsame m hm]
  -- called: by whichever part the work queue is in
  · intro hne m hm hin hname
    have hne' : rest.result ≠ none := fun h => hne (by simp [h])
    obtain rfl | hm := List.mem_cons.mp hm
    · obtain ⟨s', hs'⟩ := h.called (by simp) m (List.mem_singleton_self m) hin hname
      exact ⟨s', List.mem_append_left _ hs'⟩
    · obtain ⟨s', hs'⟩ := hrest.called hne' m hm ((hsame m hm).mpr hin) hname
      exact ⟨s', List.mem_append_right _ hs'⟩
  -- calls: likewise
  · intro call hcall
    obtain hcall | hcall := List.mem_append.mp hcall
    · obtain ⟨m, hm, hm'⟩ := h.calls call hcall
      obtain rfl := List.mem_singleton.mp hm
      exact ⟨m, List.mem_cons_self, hm'⟩
    · obtain ⟨m, hm, hm'⟩ := hrest.calls call hcall
      exact ⟨m, List.mem_cons_of_mem n hm, hm'⟩
  -- idle: the others leave the first as it was left
  · intro hfalse
    have hsplit : other = false ∧ rest.result = some false := by
      generalize rest.result = res at hfalse
      cases res with
      | none => exact absurd hfalse (by simp)
      | some b => simpa using hfalse
    have hn := h.idle (congrArg some hsplit.1)
    simp only [List.mem_singleton, forall_eq] at hn
    rw [List.forall_mem_cons, hrest.idle hsplit.2, not_congr hkept, hn]
    constructor
    · rintro ⟨h₁, h₂⟩ c s' hcall
      exact (List.mem_append.mp hcall).elim (h₁ c s') (h₂ c s')
    · intro hall
      exact ⟨fun c s' hc => hall c s' (List.mem_append_left _ hc),
        fun c s' hc => hall c s' (List.mem_append_right _ hc)⟩

theorem namedPass (hs : Steady K nodes) (hp : Population nodes) {node : DeviceNode}
    (hnode : node ∈ nodes) : ∀ (ns : List ℕ) (s : Sys κ), ns ⊆ node.wqs → ns.Nodup →
    NamedPass K compat fields name node ns s
      (disableNamedWqs K compat fields name node ns s) := by
  intro ns
  induction ns with
  | nil =>
    intro s _ _
    exact ⟨by simp [disableNamedWqs], by simp [disableNamedWqs], by simp,
      by simp [disableNamedWqs], by simp [disableNamedWqs]⟩
  | cons n ns ih =>
    intro s hsub hnodup
    obtain ⟨hn, hnodup'⟩ := List.nodup_cons.mp hnodup
    have hchild : ∀ m ∈ ns, (⟨node.id, n⟩ : ChildId) ≠ ⟨node.id, m⟩ := by
      rintro m hm heq
      exact hn ((ChildId.mk.inj heq).2 ▸ hm)
    have hhead := @namedPass_single _ K compat fields name _ hs node n s
    -- the head leaves the states of the others, the others leave that of the head
    have hlater : ∀ m ∈ ns, SameState K ⟨node.id, m⟩ s
        (disableNamedWq K compat fields name node.bus ⟨node.id, n⟩ s).sys := fun m hm =>
      sameState_disableNamedWq hs hp hnode hnode (hsub (List.mem_cons_of_mem n hm)) (hchild m hm) s
    rw [disableNamedWqs_cons]
    generalize disableNamedWq K compat fields name node.bus ⟨node.id, n⟩ s = r at hhead hlater ⊢
    obtain ⟨_ | other, calls, s₁⟩ := r
    · exact hhead.crash ns
    · have hrest := ih s₁ (fun m hm => hsub (List.mem_cons_of_mem n hm)) hnodup'
      have hkept := @sameState_disableNamedWqs _ K compat fields name _ hs hp _ _ hnode hnode n
        (hsub List.mem_cons_self) ns s₁ fun m hm => (hchild m hm).symm
      have hsame : ∀ m ∈ ns, (InUse K node m s₁ ↔ InUse K node m s) := fun m hm => by
        rw [InUse, InUse, hlater m hm]
      exact hhead.cons hrest hsame (by rw [InUse, InUse, hkept])

/-! ### One device -/

theorem Quiet.deviceGetState {R : Sys κ → Sys κ → Prop} (hR : Quiet K R) (d : DevId) (s : Sys κ) :
    R s (accfgDeviceGetState K d s).2 := by
  have h := hR.sysfsReadAttr (.attr (.device d) "state") s
  rw [accfgDeviceGetState]
  generalize Accfg.sysfsReadAttr K (.attr (.device d) "state") s = r at h ⊢
  obtain ⟨rc, buf, s₁⟩ := r
  dsimp only
  split
  · exact hR.trans h (hR.saveLastError _ s₁)
  · split
    · exact h
    · split <;> exact h

/-- What the loop body does for a device, in each case. -/
theorem disableNamedDevice_cases (node : DeviceNode) (s : Sys κ) :
    let r := disableNamedWqs K compat fields name node node.wqs s
    let q := accfgDeviceGetState K node.id r.sys
    let r' := disableNamedDevice K compat fields name node s
    (r.result = none ∧ r' = ⟨none, r.calls, r.sys⟩) ∨
    (r.result ≠ none ∧ ¬(r.result = some false ∧ q.1 = .enabled) ∧ r' = ⟨some (), r.calls, q.2⟩) ∨
    (r.result = some false ∧ q.1 = .enabled ∧
      r' = ⟨some (), r.calls ++ [.device node q.2], (accfgDeviceDisable K node true q.2).2⟩) := by
  simp only [disableNamedDevice]
  generalize disableNamedWqs K compat fields name node node.wqs s = r
  obtain ⟨_ | other, calls, s₁⟩ := r
  · exact .inl ⟨rfl, rfl⟩
  dsimp only
  generalize accfgDeviceGetState K node.id s₁ = q
  obtain ⟨state, s₂⟩ := q
  dsimp only
  refine .inr ?_
  by_cases hgo : state = .enabled ∧ other = false
  -- enabled, and nothing else in use
  · rw [if_pos hgo]
    exact .inr ⟨congrArg some hgo.2, hgo.1, rfl⟩
  · rw [if_neg hgo]
    exact .inl ⟨by simp, fun h => hgo ⟨h.2, Option.some.inj h.1⟩, rfl⟩

/-- Whether the code goes on to unbind the device, once the loop over its work
queues has ended. -/
theorem goes_iff {node : DeviceNode} {s : Sys κ}
    (hpass : NamedPass K compat fields name node node.wqs s
      (disableNamedWqs K compat fields name node node.wqs s))
    (hsome : (disableNamedWqs K compat fields name node node.wqs s).result ≠ none) :
    let r := disableNamedWqs K compat fields name node node.wqs s
    let q := accfgDeviceGetState K node.id r.sys
    Goes K compat fields name node s ↔
      (r.result = some false ∧ q.1 = .enabled) ∧ Unbinds K node q.2 := by
  dsimp only
  rw [Goes, hpass.other hsome, and_assoc]

section Pass

variable {node : DeviceNode} {ns : List ℕ} {s : Sys κ} {r : Ran κ Bool}

/-- A pass calls for work queues of the name alone. -/
theorem NamedPass.only (h : NamedPass K compat fields name node ns s r) {c : ChildId} {s' : Sys κ}
    (hcall : .wq c s' ∈ r.calls) : (fields c).str .name = some name := by
  obtain ⟨n, -, s₁, heq, hname⟩ := h.calls _ hcall
  rwa [(DisableCall.wq.inj heq).1]

theorem NamedPass.not_device (h : NamedPass K compat fields name node ns s r) (node' : DeviceNode)
    (s' : Sys κ) : .device node' s' ∉ r.calls := by
  intro hcall
  obtain ⟨n, -, s₁, heq, -⟩ := h.calls _ hcall
  exact absurd heq (by simp)

/-- If it ends, everything that is in use has a name. -/
theorem NamedPass.named (h : NamedPass K compat fields name node ns s r) (hsome : r.result ≠ none) :
    ∀ n ∈ ns, InUse K node n s → (fields ⟨node.id, n⟩).str .name ≠ none :=
  fun n hn hin hname => hsome (h.crashes.mpr ⟨n, hn, hin, hname⟩)

end Pass

/-- A device is taken down as it should be exactly if it is cleared first. -/
theorem tearsDown_single_iff (hs : Steady K nodes) (hp : Population nodes) {node : DeviceNode}
    (hnode : node ∈ nodes) (s : Sys κ) :
    TearsDown K fields name [node] s (disableNamedDevice K compat fields name node s) ↔
      ClearsDevice K compat fields name node s := by
  have hpass := @namedPass _ K compat fields name _ hs hp _ hnode node.wqs s (List.Subset.refl _)
    (hp.wqs_nodup node hnode)
  have hread : ∀ n, InUse K node n (accfgDeviceGetState K node.id
        (disableNamedWqs K compat fields name node node.wqs s).sys).2 ↔
      InUse K node n (disableNamedWqs K compat fields name node node.wqs s).sys :=
    fun n => by rw [InUse, InUse, (hs.quiet _).deviceGetState node.id]
  obtain ⟨hcrash, h⟩ | ⟨hsome, hstay, h⟩ | ⟨hfalse, hstate, h⟩ :=
    @disableNamedDevice_cases _ K compat fields name node s
  · -- a null pointer was compared
    obtain ⟨n, hn, hin, hname⟩ := hpass.crashes.mp hcrash
    rw [h]
    constructor
    · intro htears
      exact absurd htears.returns (by simp)
    · rintro ⟨hnamed, -⟩
      exact absurd hname (hnamed n hn hin)
  · -- the device stays
    have hgoes := goes_iff hpass hsome
    rw [h]
    constructor
    · intro _
      exact ⟨hpass.named hsome, fun hgo => absurd (hgoes.mp hgo).1 hstay⟩
    · intro _
      refine ⟨rfl, fun c s' hcall => hpass.only hcall, fun node' hnode' n hn hname hin => ?_,
        fun node' s' hcall => ?_⟩
      · obtain rfl := List.mem_singleton.mp hnode'
        exact hpass.called hsome n hn hin hname
      · exact absurd hcall (hpass.not_device node' s')
  · -- the device is asked to go
    have hsome : (disableNamedWqs K compat fields name node node.wqs s).result ≠ none := by
      simp [hfalse]
    have hgoes := goes_iff hpass hsome
    rw [h]
    constructor
    · intro htears
      refine ⟨hpass.named hsome, fun hgo => ?_⟩
      refine (hpass.idle hfalse).mp fun n hn => ?_
      rw [← hread n]
      exact htears.idle node _ (List.mem_append_right _ (List.mem_singleton_self _))
        (hgoes.mp hgo).2 n hn
    · rintro ⟨-, hworks⟩
      refine ⟨rfl, fun c s' hcall => ?_, fun node' hnode' n hn hname hin => ?_,
        fun node' s' hcall hunbinds n hn => ?_⟩
      · obtain hcall | hcall := List.mem_append.mp hcall
        · exact hpass.only hcall
        · exact absurd (List.mem_singleton.mp hcall) (by simp)
      · obtain rfl := List.mem_singleton.mp hnode'
        obtain ⟨s', hs'⟩ := hpass.called hsome n hn hin hname
        exact ⟨s', List.mem_append_left _ hs'⟩
      · obtain hcall | hcall := List.mem_append.mp hcall
        · exact absurd hcall (hpass.not_device node' s')
        · obtain ⟨rfl, rfl⟩ := DisableCall.device.inj (List.mem_singleton.mp hcall)
          rw [hread n]
          exact (hpass.idle hfalse).mpr (hworks (hgoes.mpr ⟨⟨hfalse, hstate⟩, hunbinds⟩)) n hn

/-! ### All devices -/

theorem sameState_disableNamedDevice (hs : Steady K nodes) (hp : Population nodes)
    {node node' : DeviceNode} (hnode : node ∈ nodes) (hnode' : node' ∈ nodes) (hne : node ≠ node')
    {n' : ℕ} (hn' : n' ∈ node'.wqs) (s : Sys κ) :
    SameState K ⟨node'.id, n'⟩ s (disableNamedDevice K compat fields name node s).sys := by
  have hchild : ∀ n, (⟨node.id, n⟩ : ChildId) ≠ ⟨node'.id, n'⟩ := fun n heq =>
    hne (List.inj_on_of_nodup_map hp.nodup hnode hnode' (ChildId.mk.inj heq).1)
  have hwqs := @sameState_disableNamedWqs _ K compat fields name _ hs hp _ _ hnode hnode' n' hn'
    node.wqs s fun n _ => hchild n
  have hread := (hs.quiet _).trans hwqs ((hs.quiet ⟨node'.id, n'⟩).deviceGetState node.id _)
  obtain ⟨-, h⟩ | ⟨-, -, h⟩ | ⟨-, -, h⟩ :=
    @disableNamedDevice_cases _ K compat fields name node s
  · rwa [h]
  · rwa [h]
  · rw [h]
    exact (hs.quiet _).trans hread (sameState_deviceDisable hs hp hnode hnode' hn' hne _)

/-- Only work queues of the device are disabled for it. -/
theorem dev_of_mem_calls (hs : Steady K nodes) (hp : Population nodes) {node : DeviceNode}
    (hnode : node ∈ nodes) {s s' : Sys κ} {c : ChildId}
    (h : .wq c s' ∈ (disableNamedDevice K compat fields name node s).calls) : c.dev = node.id := by
  have hpass := @namedPass _ K compat fields name _ hs hp _ hnode node.wqs s (List.Subset.refl _)
    (hp.wqs_nodup node hnode)
  have hmem : .wq c s' ∈ (disableNamedWqs K compat fields name node node.wqs s).calls := by
    obtain ⟨-, heq⟩ | ⟨-, -, heq⟩ | ⟨-, -, heq⟩ :=
      @disableNamedDevice_cases _ K compat fields name node s
    · rwa [heq] at h
    · rwa [heq] at h
    · rw [heq] at h
      exact (List.mem_append.mp h).resolve_right fun h =>
        absurd (List.mem_singleton.mp h) (by simp)
  obtain ⟨n, -, s₁, heq, -⟩ := hpass.calls _ hmem
  rw [(DisableCall.wq.inj heq).1]

theorem disableNamed_cons (node : DeviceNode) (ns : List DeviceNode) (s : Sys κ) :
    disableNamed K compat fields name (node :: ns) s =
      let r := disableNamedDevice K compat fields name node s
      match r.result with
      | none => r
      | some () =>
        let rest := disableNamed K compat fields name ns r.sys
        ⟨rest.result, r.calls ++ rest.calls, rest.sys⟩ := rfl

theorem dev_mem_of_mem_calls (hs : Steady K nodes) (hp : Population nodes) :
    ∀ (ns : List DeviceNode) (s : Sys κ) {s' : Sys κ} {c : ChildId}, ns ⊆ nodes →
      .wq c s' ∈ (disableNamed K compat fields name ns s).calls → c.dev ∈ ns.map (·.id) := by
  intro ns
  induction ns with
  | nil =>
    intro s s' c _ h
    exact absurd h List.not_mem_nil
  | cons node ns ih =>
    intro s s' c hsub h
    have hown := @dev_of_mem_calls _ K compat fields name _ hs hp _ (hsub List.mem_cons_self) s s' c
    rw [disableNamed_cons] at h
    generalize disableNamedDevice K compat fields name node s = r at hown h
    obtain ⟨_ | ⟨⟩, calls, s₁⟩ := r
    · rw [List.map_cons, hown h]
      exact List.mem_cons_self
    · rw [List.map_cons]
      obtain h | h := List.mem_append.mp h
      · rw [hown h]
        exact List.mem_cons_self
      · exact List.mem_cons_of_mem _ (ih s₁ (fun m hm => hsub (List.mem_cons_of_mem node hm)) h)

/-- A run over a device and the others is as it should be if both parts are. -/
theorem tearsDown_cons {node : DeviceNode} {ns : List DeviceNode} {s s₁ : Sys κ}
    {calls : List (DisableCall κ)} {rest : Ran κ Unit} (hnode : node.id ∉ ns.map (·.id))
    (hcalls : ∀ c s', .wq c s' ∈ calls → c.dev = node.id)
    (hrest : ∀ c s', .wq c s' ∈ rest.calls → c.dev ∈ ns.map (·.id))
    (hsame : ∀ node' ∈ ns, ∀ n ∈ node'.wqs, (InUse K node' n s₁ ↔ InUse K node' n s)) :
    TearsDown K fields name (node :: ns) s ⟨rest.result, calls ++ rest.calls, rest.sys⟩ ↔
      TearsDown K fields name [node] s ⟨some (), calls, s₁⟩ ∧
        TearsDown K fields name ns s₁ rest := by
  constructor
  · intro h
    refine ⟨⟨rfl, fun c s' hc => h.onlyNamed c s' (List.mem_append_left _ hc), ?_,
        fun node' s' hc => h.idle node' s' (List.mem_append_left _ hc)⟩,
      ⟨h.returns, fun c s' hc => h.onlyNamed c s' (List.mem_append_right _ hc), ?_,
        fun node' s' hc => h.idle node' s' (List.mem_append_right _ hc)⟩⟩
    -- a work queue of this device is not among the calls of the rest
    · intro node' hnode' n hn hname hin
      obtain rfl := List.mem_singleton.mp hnode'
      obtain ⟨s', hs'⟩ := h.allNamed node' List.mem_cons_self n hn hname hin
      exact ⟨s', (List.mem_append.mp hs').resolve_right fun hs' => hnode (hrest _ _ hs')⟩
    -- and one of the rest not among the calls of this device
    · intro node' hnode' n hn hname hin
      obtain ⟨s', hs'⟩ := h.allNamed node' (List.mem_cons_of_mem node hnode') n hn hname
        ((hsame node' hnode' n hn).mp hin)
      refine ⟨s', (List.mem_append.mp hs').resolve_left fun hs' => hnode ?_⟩
      rw [← hcalls _ _ hs']
      exact List.mem_map_of_mem hnode'
  · rintro ⟨h, h'⟩
    refine ⟨h'.returns, fun c s' hc => ?_, fun node' hnode' n hn hname hin => ?_,
      fun node' s' hc => ?_⟩
    · exact (List.mem_append.mp hc).elim (h.onlyNamed c s') (h'.onlyNamed c s')
    · obtain rfl | hnode' := List.mem_cons.mp hnode'
      · obtain ⟨s', hs'⟩ := h.allNamed node' (List.mem_singleton_self _) n hn hname hin
        exact ⟨s', List.mem_append_left _ hs'⟩
      · obtain ⟨s', hs'⟩ := h'.allNamed node' hnode' n hn hname ((hsame node' hnode' n hn).mpr hin)
        exact ⟨s', List.mem_append_right _ hs'⟩
    · exact (List.mem_append.mp hc).elim (h.idle node' s') (h'.idle node' s')

/-- The run lemma: over some of the devices. -/
theorem tearsDown_disableNamed_iff (hs : Steady K nodes) (hp : Population nodes) :
    ∀ (ns : List DeviceNode) (s : Sys κ), ns ⊆ nodes → (ns.map (·.id)).Nodup →
      (TearsDown K fields name ns s (disableNamed K compat fields name ns s) ↔
        EachDevice K compat fields name (ClearsDevice K compat fields name) ns s) := by
  intro ns
  induction ns with
  | nil =>
    intro s _ _
    exact ⟨fun _ => trivial,
      fun _ => ⟨rfl, by simp [disableNamed], by simp, by simp [disableNamed]⟩⟩
  | cons node ns ih =>
    intro s hsub hnodup
    have hsub' : ns ⊆ nodes := fun m hm => hsub (List.mem_cons_of_mem node hm)
    obtain ⟨hnotin, hnodup'⟩ := List.nodup_cons.mp hnodup
    have hnode := hsub (List.mem_cons_self (a := node))
    have hsingle := @tearsDown_single_iff _ K compat fields name _ hs hp _ hnode s
    have hown := @dev_of_mem_calls _ K compat fields name _ hs hp _ hnode s
    have hsame : ∀ node' ∈ ns, ∀ n ∈ node'.wqs, SameState K ⟨node'.id, n⟩ s
        (disableNamedDevice K compat fields name node s).sys := by
      intro node' hnode' n hn
      refine sameState_disableNamedDevice hs hp hnode (hsub' hnode') ?_ hn s
      rintro rfl
      exact hnotin (List.mem_map_of_mem hnode')
    rw [EachDevice, ← hsingle, disableNamed_cons]
    have hrest := ih (disableNamedDevice K compat fields name node s).sys hsub' hnodup'
    rw [← hrest]
    generalize disableNamedDevice K compat fields name node s = r at hown hsame ⊢
    obtain ⟨_ | ⟨⟩, calls, s₁⟩ := r
    -- the process ended here
    · constructor
      · intro h
        exact absurd h.returns (by simp)
      · rintro ⟨h, -⟩
        exact absurd h.returns (by simp)
    -- it went on, and the other devices are as they were
    · refine tearsDown_cons hnotin (fun c s' hc => hown hc)
        (fun c s' hc => dev_mem_of_mem_calls hs hp ns s₁ hsub' hc) fun node' hnode' n hn => ?_
      rw [InUse, InUse, hsame node' hnode' n hn]

/-- A run takes no device from under a work queue exactly if each device it
comes to is cleared. -/
theorem tearsDown_iff (K : Kernel κ) (compat : Bool) (fields : ChildId → WqFields)
    (nodes : List DeviceNode) (hs : Steady K nodes) (hp : Population nodes)
    (userDefaultWqName : Option String) (s : Sys κ) :
    TearsDown K fields (userDefaultWqName.getD CONFIG_DEFAULT_WQ_NAME) nodes s
        (configDefaultDisable K compat fields userDefaultWqName nodes s) ↔
      EachDevice K compat fields (userDefaultWqName.getD CONFIG_DEFAULT_WQ_NAME)
        (ClearsDevice K compat fields (userDefaultWqName.getD CONFIG_DEFAULT_WQ_NAME)) nodes s :=
  tearsDown_disableNamed_iff hs hp nodes s (List.Subset.refl _) hp.nodup

/-! ### One work queue -/

/-- The work queue `wq0.0`. -/
def theWq : ChildId := ⟨⟨.dsa, 0⟩, 0⟩

def theNode : DeviceNode := ⟨⟨.dsa, 0⟩, "dsa", [], [0], []⟩

/-- A kernel under which everything is enabled, and `wq0.0` until it is unbound,
if that works. -/
def oneWqKernel (works : Bool) : Kernel Bool where
  access _ k := (.ok (), k)
  openFile _ _ k := (.ok (), k)
  openDir _ k := (.ok (), k)
  read path k :=
    (.ok
      (if path = .attr (.wq theWq) "state" ∧ k = false then "disabled\n" else "enabled\n").toList,
      k)
  write path buf k := (.ok buf.length,
    if works = true ∧ path = .unbind "dsa" (Comp.wq theWq).devname then false else k)
  lstat _ k := (.ok (), k)
  realpath _ k := (.ok (), k)

/-- Another device, with `wq1.0`. -/
def otherNode : DeviceNode := ⟨⟨.dsa, 1⟩, "dsa", [], [0], []⟩

theorem state_otherNode (works k : Bool) :
    wqStateOf (oneWqKernel works) ⟨otherNode.id, 0⟩ k = .enabled := by
  cases works <;> cases k <;> rfl

theorem steady_oneWqKernel (works : Bool) : Steady (oneWqKernel works) [theNode, otherNode] where
  query := by
    intro c α call hcall k
    refine congrArg (wqStateOf _ c) ?_
    cases hcall <;> rfl
  unbind := by
    intro node hnode n hn bus dev buf k hne
    obtain rfl | hother := List.mem_cons.mp hnode
    · obtain rfl := List.mem_singleton.mp hn
      have hpath :
          ¬(works = true ∧ Path.unbind bus dev = .unbind "dsa" (Comp.wq theWq).devname) := by
        rintro ⟨-, heq⟩
        obtain ⟨rfl, rfl⟩ := Path.unbind.inj heq
        exact hne ⟨rfl, .inl rfl⟩
      have hkept : ((oneWqKernel works).write (.unbind bus dev) buf k).2 = k := if_neg hpath
      rw [hkept]
    · obtain rfl := List.mem_singleton.mp hother
      obtain rfl := List.mem_singleton.mp hn
      rw [state_otherNode, state_otherNode]

theorem population_twoNodes : Population [theNode, otherNode] where
  nodup := by decide
  wqs_nodup := by decide
  unique := by
    intro node hnode node' hnode' _ hid
    simp only [List.mem_cons, List.not_mem_nil, or_false] at hnode hnode'
    obtain rfl | rfl := hnode <;> obtain rfl | rfl := hnode'
    all_goals first
      | rfl
      | exact absurd hid (by decide)

/-- `wq0.0` has the default name. -/
def defaultNamed : ChildId → WqFields := fun _ =>
  ⟨fun _ => 0, 0, fun f => if f = .name then some CONFIG_DEFAULT_WQ_NAME else none, .user⟩

def allEnabled : Sys Bool := ⟨true, 0, 0, none, []⟩

/-- Only `wq0.0` has it. -/
def oneNamed (c : ChildId) : WqFields :=
  ⟨fun _ => 0, 0,
    fun f => if f = .name then some (if c = theWq then CONFIG_DEFAULT_WQ_NAME else "app") else none,
    .user⟩

/-- `dsa0` goes with its work queue, and `dsa1` stays. -/
theorem tearsDown_iff_twoDevices :
    TearsDown (oneWqKernel true) oneNamed CONFIG_DEFAULT_WQ_NAME [theNode, otherNode] allEnabled
      (configDefaultDisable (oneWqKernel true) false oneNamed none [theNode, otherNode]
        allEnabled) := by
  refine (tearsDown_iff _ false oneNamed _ (steady_oneWqKernel true) population_twoNodes none
    allEnabled).mpr ⟨⟨fun n _ _ => by simp [oneNamed], fun _ c s' hcall => ?_⟩,
      ⟨fun n _ _ => by simp [oneNamed], fun _ c s' hcall => ?_⟩, trivial⟩
  · have hcalls : (disableNamedWqs (oneWqKernel true) false oneNamed CONFIG_DEFAULT_WQ_NAME
        theNode [0] allEnabled).calls = [.wq theWq allEnabled] := rfl
    obtain ⟨rfl, rfl⟩ := DisableCall.wq.inj (List.mem_singleton.mp (hcalls ▸ hcall))
    rfl
  · have hcalls : (disableNamedWqs (oneWqKernel true) false oneNamed CONFIG_DEFAULT_WQ_NAME
        otherNode [0] (disableNamedDevice (oneWqKernel true) false oneNamed
          CONFIG_DEFAULT_WQ_NAME theNode allEnabled).sys).calls = [] := rfl
    exact absurd (hcalls ▸ hcall) List.not_mem_nil

/-- The device goes although its work queue could not be disabled. -/
theorem not_tearsDown_oneWq :
    ¬TearsDown (oneWqKernel false) defaultNamed CONFIG_DEFAULT_WQ_NAME [theNode] allEnabled
      (configDefaultDisable (oneWqKernel false) false defaultNamed none [theNode] allEnabled) := by
  intro h
  refine h.idle theNode _ (List.mem_cons_of_mem _ List.mem_cons_self) ?_ 0
    (List.mem_singleton_self 0) ?_
  · rw [Unbinds]
    decide
  · rw [InUse]
    decide

end Accfg
