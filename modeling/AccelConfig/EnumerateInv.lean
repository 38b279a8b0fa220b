/-
Invariants of enumeration.

A property of devices that a new device gets when its groups are scanned, and
that every later scan and regrouping of the device keeps, holds of all devices
in every state that a sequence of calls leads to (`Settled.runCalls`).  And
an object stays where it is, whatever is called (`grows_call`).

* `deviceParse_inv`, `deviceParse_ids` — what a scan keeps, and what it adds.
-/
import AccelConfig.Enumerate

namespace Accfg

variable {κ σ ε α : Type}

/-! ### Scans -/

section Parse

variable {addDev : ε → σ → Sys κ → Option (σ × Sys κ)} {s s' : σ} {sys sys' : Sys κ}

theorem hang_cases {r : Added α × Sys κ} {push : α → σ} (h : hang r push s = some (s', sys')) :
    s' = s ∨ ∃ a, s' = push a := by
  obtain ⟨a | _ | _, sys₁⟩ := r
  · simp only [hang, Option.some.injEq, Prod.mk.injEq] at h
    exact .inr ⟨a, h.1.symm⟩
  · simp only [hang, Option.some.injEq, Prod.mk.injEq] at h
    exact .inl h.1.symm
  · exact absurd h (by simp [hang])

theorem deviceParse_cons (e : ε) (found : List ε) :
    deviceParse addDev (e :: found) s sys =
      (addDev e s sys).bind fun st => deviceParse addDev found st.1 st.2 := rfl

/-- What adding one directory keeps, a scan keeps. -/
theorem deviceParse_inv (P : σ → Prop)
    (hadd : ∀ e s sys s' sys', P s → addDev e s sys = some (s', sys') → P s') :
    ∀ {found : List ε} {s : σ} {sys : Sys κ}, P s →
      deviceParse addDev found s sys = some (s', sys') → P s' := by
  intro found
  induction found with
  | nil =>
    intro s sys hP h
    obtain rfl : s = s' := (Prod.mk.injEq .. ▸ Option.some.inj h).1
    exact hP
  | cons e found ih =>
    intro s sys hP h
    rw [deviceParse_cons] at h
    obtain ⟨⟨s₁, sys₁⟩, h₁, h₂⟩ := Option.bind_eq_some_iff.mp h
    exact ih (hadd e s sys s₁ sys₁ hP h₁) h₂

/-- A scan adds some of what it finds, in the order it is found. -/
theorem deviceParse_sublist (P : σ → Prop) (ids : σ → List ε)
    (hadd : ∀ e s sys s' sys', P s → addDev e s sys = some (s', sys') →
      P s' ∧ (ids s' = ids s ∨ ids s' = ids s ++ [e])) :
    ∀ {found : List ε} {s : σ} {sys : Sys κ}, P s →
      deviceParse addDev found s sys = some (s', sys') →
      P s' ∧ ∃ l, l.Sublist found ∧ ids s' = ids s ++ l := by
  intro found
  induction found with
  | nil =>
    intro s sys hP h
    obtain rfl : s = s' := (Prod.mk.injEq .. ▸ Option.some.inj h).1
    exact ⟨hP, [], List.Sublist.refl _, (List.append_nil _).symm⟩
  | cons e found ih =>
    intro s sys hP h
    rw [deviceParse_cons] at h
    obtain ⟨⟨s₁, sys₁⟩, h₁, h₂⟩ := Option.bind_eq_some_iff.mp h
    obtain ⟨hP₁, hids⟩ := hadd e s sys s₁ sys₁ hP h₁
    obtain ⟨hP', l, hl, hids'⟩ := ih hP₁ h₂
    refine ⟨hP', ?_⟩
    obtain hids | hids := hids
    · exact ⟨l, hl.cons e, by rw [hids', hids]⟩
    · exact ⟨e :: l, hl.cons_cons e, by rw [hids', hids, List.append_assoc, List.singleton_append]⟩

/-- A scan whose steps succeed succeeds, and what it adds is what its steps
add. -/
theorem deviceParse_ids (P : σ → Prop) (ids : σ → List ε) (readable : ε → Bool) :
    ∀ (found : List ε), (∀ e ∈ found, ∀ s sys, P s → ∃ s' sys',
        addDev e s sys = some (s', sys') ∧ P s' ∧
          ids s' = ids s ++ if readable e then [e] else []) →
      ∀ (s : σ) (sys : Sys κ), P s → ∃ s' sys', deviceParse addDev found s sys = some (s', sys') ∧
        P s' ∧ ids s' = ids s ++ found.filter readable := by
  intro found
  induction found with
  | nil =>
    intro _ s sys hP
    exact ⟨s, sys, rfl, hP, by simp⟩
  | cons e found ih =>
    intro hadd s sys hP
    obtain ⟨s₁, sys₁, h₁, hP₁, hids₁⟩ := hadd e List.mem_cons_self s sys hP
    obtain ⟨s₂, sys₂, h₂, hP₂, hids₂⟩ :=
      ih (fun x hx => hadd x (List.mem_cons_of_mem e hx)) s₁ sys₁ hP₁
    refine ⟨s₂, sys₂, ?_, hP₂, ?_⟩
    · rw [deviceParse_cons, h₁]
      exact h₂
    · rw [hids₂, hids₁, List.append_assoc]
      cases hr : readable e <;> simp [hr]

end Parse

/-! ### The group that a device points at -/

namespace DeviceObj

variable {d : DeviceObj}

theorem length_groups_onGroup (f : GroupObj → GroupObj) :
    (d.onGroup f).groups.length = d.groups.length := by
  show (d.group.elim d.groups fun g => d.groups.modify g f).length = d.groups.length
  cases d.group with
  | none => rfl
  | some g => exact List.length_modify f d.groups g

theorem ids_onGroup (f : GroupObj → GroupObj) (hf : ∀ g, (f g).id = g.id) (kind : Kind) :
    (d.onGroup f).ids kind = d.ids kind := by
  cases kind with
  | wq | engine => rfl
  | group =>
    show (d.group.elim d.groups fun g => d.groups.modify g f).map (·.id) = d.groups.map (·.id)
    cases d.group with
    | none => rfl
    | some g =>
      refine List.ext_getElem? fun j => ?_
      simp only [Option.elim_some, List.getElem?_map, List.getElem?_modify]
      cases d.groups[j]? with
      | none => rfl
      | some x =>
        show some (if g = j then f x else x).id = some x.id
        split
        · rw [hf x]
        · rfl

end DeviceObj

/-! ### Devices that stay settled -/

variable {K : Kernel κ} {dirs : Dirs}

/-- All devices have the property, and there are none before the first scan. -/
structure Settled (S : DeviceObj → Prop) (ctx : Context) : Prop where
  devices : ∀ d ∈ ctx.devices, S d
  new : ctx.devicesInit = false → ctx.devices = []

/-- A property that devices get with their groups and then keep; scanning a
device for children of a kind may need a condition. -/
structure Stable (K : Kernel κ) (dirs : Dirs) (C : Kind → DeviceObj → Prop)
    (S : DeviceObj → Prop) : Prop where
  group : ∀ d, C .group d
  new : ∀ id bus fields sys d' sys',
    groupsInit K dirs (.new id bus fields) sys = some (d', sys') → S d'
  children : ∀ kind d sys d' sys', S d → C kind d →
    childrenInit K dirs kind d sys = some (d', sys') → S d'
  wqSetGroupId : ∀ j val d sys d' sys', S d → wqSetGroupId K j val d sys = some (d', sys') → S d'
  engineSetGroupId : ∀ j val d sys d' sys', S d →
    engineSetGroupId K j val d sys = some (d', sys') → S d'

/-- The condition of a call: the one of the scan it may make. -/
def LibCall.Meets (C : Kind → DeviceObj → Prop) (ctx : Context) : LibCall → Prop
  | getFirst kind i | getById kind i _ => ∀ d, ctx.devices[i]? = some d → C kind d
  | _ => True

variable {C : Kind → DeviceObj → Prop} {S : DeviceObj → Prop} {ctx ctx' : Context}
  {sys sys' : Sys κ}

/-- Work on one device changes that device only. -/
theorem onDevice_cases {i : ℕ} {f : DeviceObj → Sys κ → Option (DeviceObj × Sys κ)}
    (h : onDevice i f ctx sys = some (ctx', sys')) :
    (ctx.devices[i]? = none ∧ ctx' = ctx) ∨
      ∃ d d', ctx.devices[i]? = some d ∧ f d sys = some (d', sys') ∧
        ctx' = { ctx with devices := ctx.devices.set i d' } := by
  rw [onDevice] at h
  cases hd : ctx.devices[i]? with
  | none =>
    simp only [hd, Option.some.injEq, Prod.mk.injEq] at h
    exact .inl ⟨rfl, h.1.symm⟩
  | some d =>
    simp only [hd] at h
    obtain ⟨⟨d', sys₁⟩, hf, heq⟩ := Option.map_eq_some_iff.mp h
    simp only [Prod.mk.injEq] at heq
    obtain ⟨rfl, rfl⟩ := heq
    exact .inr ⟨d, d', rfl, hf, rfl⟩

theorem Settled.onDevice {i : ℕ} {f : DeviceObj → Sys κ → Option (DeviceObj × Sys κ)}
    (hctx : Settled S ctx)
    (hf : ∀ d d', ctx.devices[i]? = some d → S d → f d sys = some (d', sys') → S d')
    (h : onDevice i f ctx sys = some (ctx', sys')) : Settled S ctx' := by
  obtain ⟨-, rfl⟩ | ⟨d, d', hd, hd', rfl⟩ := onDevice_cases h
  · exact hctx
  · have hmem : d ∈ ctx.devices := List.mem_of_getElem? hd
    refine ⟨fun x hx => ?_, fun hi => ?_⟩
    · obtain hx | rfl := List.mem_or_eq_of_mem_set hx
      · exact hctx.devices x hx
      · exact hf d x hd (hctx.devices d hmem) hd'
    · exact absurd (hctx.new hi) (List.ne_nil_of_mem hmem)

/-- A device as `add_device` makes it. -/
def DeviceObj.Fresh (d : DeviceObj) : Prop := ∃ id bus fields, d = .new id bus fields

/-- Where the groups of the places in `is` are scanned, the devices at these
places are settled afterwards. -/
theorem groupsInit_places (hS : Stable K dirs C S) :
    ∀ (is : List ℕ) (ctx : Context) (sys : Sys κ) (done : ℕ → Prop),
      (∀ j d, ctx.devices[j]? = some d → S d ∨ d.Fresh ∧ ¬done j) →
      deviceParse (fun i ctx sys => onDevice i (groupsInit K dirs) ctx sys) is ctx sys
        = some (ctx', sys') →
      ctx'.devicesInit = ctx.devicesInit ∧ ctx'.devices.length = ctx.devices.length ∧
        ∀ j d, ctx'.devices[j]? = some d → S d ∨ d.Fresh ∧ ¬done j ∧ j ∉ is := by
  intro is
  induction is with
  | nil =>
    intro ctx sys done hctx h
    obtain rfl : ctx = ctx' := (Prod.mk.injEq .. ▸ Option.some.inj h).1
    exact ⟨rfl, rfl, fun j d hd => (hctx j d hd).imp_right fun h => ⟨h.1, h.2, List.not_mem_nil⟩⟩
  | cons i is ih =>
    intro ctx sys done hctx h
    rw [deviceParse_cons] at h
    obtain ⟨⟨ctx₁, sys₁⟩, h₁, h₂⟩ := Option.bind_eq_some_iff.mp h
    -- after the step, place `i` is done
    have hstep : ctx₁.devicesInit = ctx.devicesInit ∧
        ctx₁.devices.length = ctx.devices.length ∧
        ∀ j d, ctx₁.devices[j]? = some d → S d ∨ d.Fresh ∧ ¬(done j ∨ j = i) := by
      obtain ⟨hnone, rfl⟩ | ⟨d, d', hd, hd', rfl⟩ := onDevice_cases h₁
      · refine ⟨rfl, rfl, fun j x hx => (hctx j x hx).imp_right fun h => ⟨h.1, ?_⟩⟩
        rintro (hj | rfl)
        · exact h.2 hj
        · rw [hnone] at hx
          exact absurd hx (by simp)
      · refine ⟨rfl, List.length_set, fun j x hx => ?_⟩
        rw [List.getElem?_set] at hx
        split at hx
        · split at hx
          · obtain rfl := Option.some.inj hx
            refine .inl ?_
            obtain hSd | ⟨⟨id, bus, fields, rfl⟩, -⟩ := hctx i d hd
            · exact hS.children .group d sys _ sys₁ hSd (hS.group d) hd'
            · exact hS.new id bus fields sys _ sys₁ hd'
          · exact absurd hx (by simp)
        · next hne =>
          refine (hctx j x hx).imp_right fun h => ⟨h.1, ?_⟩
          rintro (hj | rfl)
          · exact h.2 hj
          · exact hne rfl
    obtain ⟨hinit, hlen, hplaces⟩ := ih ctx₁ sys₁ (fun j => done j ∨ j = i) hstep.2.2 h₂
    refine ⟨hinit.trans hstep.1, hlen.trans hstep.2.1, fun j d hd => ?_⟩
    refine (hplaces j d hd).imp_right fun ⟨hf, hdone, hmem⟩ => ⟨hf, fun h => hdone (.inl h), ?_⟩
    rw [List.mem_cons]
    rintro (rfl | h)
    · exact hdone (.inr rfl)
    · exact hmem h

theorem Settled.devicesInit (hS : Stable K dirs C S) (hctx : Settled S ctx)
    (h : devicesInit K dirs ctx sys = some (ctx', sys')) : Settled S ctx' := by
  rw [Accfg.devicesInit] at h
  split at h
  · obtain ⟨rfl, -⟩ := Prod.mk.injEq .. ▸ Option.some.inj h
    exact hctx
  · next hinit =>
    split at h
    · exact absurd h (by simp)
    · next ctx₁ sys₁ h₁ =>
      have hempty : ctx.devices = [] := hctx.new (by simpa using hinit)
      have hfresh : ctx₁.devicesInit = true ∧ ∀ d ∈ ctx₁.devices, d.Fresh := by
        refine deviceParse_inv (fun c : Context => c.devicesInit = true ∧ ∀ d ∈ c.devices, d.Fresh)
          ?_ ⟨rfl, by simp [hempty]⟩ h₁
        rintro e c sys c' sys' ⟨hc, hd⟩ h
        obtain rfl | ⟨dev, rfl⟩ := hang_cases h
        · exact ⟨hc, hd⟩
        · refine ⟨hc, fun d hmem => ?_⟩
          obtain hmem | hmem := List.mem_append.mp hmem
          · exact hd d hmem
          · rw [List.mem_singleton] at hmem
            exact ⟨_, _, _, hmem⟩
      obtain ⟨hinit', hlen, hplaces⟩ := groupsInit_places hS (List.range ctx₁.devices.length) ctx₁
        sys₁ (fun _ => False)
        (fun j d hd => .inr ⟨hfresh.2 d (List.mem_of_getElem? hd), id⟩) h
      refine ⟨fun d hd => ?_, fun hi => ?_⟩
      · obtain ⟨j, hj, rfl⟩ := List.getElem_of_mem hd
        obtain hSd | ⟨-, -, hmem⟩ := hplaces j _ (List.getElem?_eq_getElem hj)
        · exact hSd
        · exact absurd (List.mem_range.mpr (hlen ▸ hj)) hmem
      · rw [hinit', hfresh.1] at hi
        exact absurd hi (by simp)

/-- One call keeps the devices settled. -/
theorem Settled.call (hS : Stable K dirs C S) (hctx : Settled S ctx) {call : LibCall}
    (hcall : call.Meets C ctx) (h : call.run K dirs ctx sys = some (ctx', sys')) :
    Settled S ctx' := by
  cases call with
  | deviceGetFirst => exact hctx.devicesInit hS h
  | deviceGetById id => exact hctx.devicesInit hS h
  | deviceGetByName name => exact hctx.devicesInit hS h
  | deviceGetNext i | getNext kind i j =>
    obtain ⟨rfl, -⟩ := Prod.mk.injEq .. ▸ Option.some.inj h
    exact hctx
  | getFirst kind i | getById kind i id =>
    exact hctx.onDevice (fun d d' hd hSd => hS.children kind d sys d' sys' hSd (hcall d hd)) h
  | wqSetGroupId i j val =>
    exact hctx.onDevice (fun d d' _ hSd => hS.wqSetGroupId j val d sys d' sys' hSd) h
  | engineSetGroupId i j val =>
    exact hctx.onDevice (fun d d' _ hSd => hS.engineSetGroupId j val d sys d' sys' hSd) h

theorem Settled.start : Settled S Context.new := ⟨by simp [Context.new], fun _ => rfl⟩

theorem runCalls_cons (call : LibCall) (calls : List LibCall) :
    runCalls K dirs (call :: calls) ctx sys =
      (call.run K dirs ctx sys).bind fun st => runCalls K dirs calls st.1 st.2 := rfl

/-- Where no scan needs a condition, any sequence of calls keeps the devices
settled. -/
theorem Settled.runCalls (hS : Stable K dirs (fun _ _ => True) S) :
    ∀ {calls : List LibCall} {ctx : Context} {sys : Sys κ}, Settled S ctx →
      runCalls K dirs calls ctx sys = some (ctx', sys') → Settled S ctx' := by
  intro calls
  induction calls with
  | nil =>
    intro ctx sys hctx h
    obtain rfl : ctx = ctx' := (Prod.mk.injEq .. ▸ Option.some.inj h).1
    exact hctx
  | cons call calls ih =>
    intro ctx sys hctx h
    rw [runCalls_cons] at h
    obtain ⟨⟨ctx₁, sys₁⟩, h₁, h₂⟩ := Option.bind_eq_some_iff.mp h
    refine ih (hctx.call hS ?_ h₁) h₂
    cases call <;> simp [LibCall.Meets]

/-! ### Objects stay -/

theorem map_id_set {φ : Type} (l : List (Member φ)) {j : ℕ} {m m' : Member φ} (hm : l[j]? = some m)
    (hid : m'.id = m.id) : (l.set j m').map (·.id) = l.map (·.id) := by
  obtain ⟨hlt, rfl⟩ := List.getElem?_eq_some_iff.mp hm
  rw [List.map_set, hid]
  refine List.ext_getElem? fun k => ?_
  rw [List.getElem?_set, List.getElem?_map]
  split
  · next hjk =>
    subst hjk
    simp [hlt]
  · rfl

namespace DeviceObj

/-- The device is the same, and its lists only got longer. -/
structure Grows (d d' : DeviceObj) : Prop where
  id : d'.id = d.id
  bus : d'.bus = d.bus
  ids : ∀ kind, d.ids kind <+: d'.ids kind

theorem Grows.refl (d : DeviceObj) : d.Grows d := ⟨rfl, rfl, fun _ => List.prefix_rfl⟩

theorem Grows.trans {d₁ d₂ d₃ : DeviceObj} (h : d₁.Grows d₂) (h' : d₂.Grows d₃) : d₁.Grows d₃ :=
  ⟨h'.id.trans h.id, h'.bus.trans h.bus, fun kind => (h.ids kind).trans (h'.ids kind)⟩

variable {d d' : DeviceObj}

theorem grows_pushGroup (n : ℕ) (g : GroupFields) : d.Grows (d.pushGroup n g) := by
  refine ⟨rfl, rfl, fun kind => ?_⟩
  cases kind with
  | group => simp [pushGroup, ids]
  | wq | engine => exact List.prefix_rfl

theorem grows_pushWq (n : ℕ) (q : WqFields) : d.Grows (d.pushWq n q) := by
  refine ⟨rfl, rfl, fun kind => ?_⟩
  cases kind with
  | wq => simp [pushWq, ids]
  | group | engine => exact List.prefix_rfl

theorem grows_pushEngine (n : ℕ) (e : EngineFields) : d.Grows (d.pushEngine n e) := by
  refine ⟨rfl, rfl, fun kind => ?_⟩
  cases kind with
  | engine => simp [pushEngine, ids]
  | group | wq => exact List.prefix_rfl

theorem grows_onGroup (f : GroupObj → GroupObj) (hf : ∀ g, (f g).id = g.id) :
    d.Grows (d.onGroup f) :=
  ⟨rfl, rfl, fun kind => (ids_onGroup f hf kind).symm ▸ List.prefix_rfl⟩

/-- A scan whose objects only add to a device lets the device grow. -/
theorem grows_deviceParse {addDev : ℕ → DeviceObj → Sys κ → Option (DeviceObj × Sys κ)}
    {d₀ : DeviceObj} (hadd : ∀ n d sys d' sys', addDev n d sys = some (d', sys') → d.Grows d')
    (hd : d₀.Grows d) {found : List ℕ}
    (h : deviceParse addDev found d sys = some (d', sys')) : d₀.Grows d' :=
  deviceParse_inv (fun x => d₀.Grows x)
    (fun n d sys d' sys' hd h => hd.trans (hadd n d sys d' sys' h)) hd h

theorem grows_membersInit {done : GroupObj → Bool} (mark : GroupObj → GroupObj)
    (hmark : ∀ g, (mark g).id = g.id)
    {addDev : ℕ → DeviceObj → Sys κ → Option (DeviceObj × Sys κ)}
    (hadd : ∀ n d sys d' sys', addDev n d sys = some (d', sys') → d.Grows d') {found : List ℕ}
    (h : membersInit done mark addDev found d sys = some (d', sys')) : d.Grows d' := by
  rw [membersInit] at h
  split at h
  · obtain ⟨rfl, -⟩ := Prod.mk.injEq .. ▸ Option.some.inj h
    exact Grows.refl d
  · exact grows_deviceParse hadd (grows_onGroup mark hmark) h

theorem grows_childrenInit {kind : Kind} (h : childrenInit K dirs kind d sys = some (d', sys')) :
    d.Grows d' := by
  cases kind with
  | group =>
    rw [childrenInit, groupsInit] at h
    split at h
    · obtain ⟨rfl, -⟩ := Prod.mk.injEq .. ▸ Option.some.inj h
      exact Grows.refl d
    · have hstart : d.Grows { d with groupInit := true } :=
        ⟨rfl, rfl, fun kind => by cases kind <;> exact List.prefix_rfl⟩
      refine grows_deviceParse (fun n d sys d' sys' h => ?_) hstart h
      obtain rfl | ⟨g, rfl⟩ := hang_cases h
      · exact Grows.refl _
      · exact grows_pushGroup n g
  | wq =>
    refine grows_membersInit (fun g => { g with wqsInit := true }) (fun _ => rfl)
      (fun n d sys d' sys' h => ?_) h
    obtain rfl | ⟨q, rfl⟩ := hang_cases h
    · exact Grows.refl _
    · exact grows_pushWq n q
  | engine =>
    refine grows_membersInit (fun g => { g with enginesInit := true }) (fun _ => rfl)
      (fun n d sys d' sys' h => ?_) h
    obtain rfl | ⟨e, rfl⟩ := hang_cases h
    · exact Grows.refl _
    · exact grows_pushEngine n e

end DeviceObj

theorem wqSetGroupId_eq (K : Kernel κ) (j : ℕ) (val : BitVec 32) (d : DeviceObj) (sys : Sys κ) :
    ∃ d' sys', wqSetGroupId K j val d sys = some (d', sys') ∧ d'.id = d.id ∧ d'.bus = d.bus ∧
      d'.groupInit = d.groupInit ∧ d'.group = d.group ∧ d'.groups = d.groups ∧
      ∀ kind, d'.ids kind = d.ids kind := by
  rw [wqSetGroupId]
  cases hq : d.wqs[j]? with
  | none => exact ⟨d, sys, rfl, rfl, rfl, rfl, rfl, rfl, fun _ => rfl⟩
  | some q =>
    refine ⟨_, _, rfl, rfl, rfl, rfl, rfl, rfl, fun kind => ?_⟩
    cases kind with
    | wq => exact map_id_set d.wqs hq rfl
    | group | engine => rfl

theorem engineSetGroupId_eq (K : Kernel κ) (j : ℕ) (val : BitVec 32) (d : DeviceObj) (sys : Sys κ) :
    ∃ d' sys', engineSetGroupId K j val d sys = some (d', sys') ∧ d'.id = d.id ∧ d'.bus = d.bus ∧
      d'.groupInit = d.groupInit ∧ d'.group = d.group ∧ d'.groups = d.groups ∧
      ∀ kind, d'.ids kind = d.ids kind := by
  rw [engineSetGroupId]
  cases he : d.engines[j]? with
  | none => exact ⟨d, sys, rfl, rfl, rfl, rfl, rfl, rfl, fun _ => rfl⟩
  | some e =>
    refine ⟨_, _, rfl, rfl, rfl, rfl, rfl, rfl, fun kind => ?_⟩
    cases kind with
    | engine => exact map_id_set d.engines he rfl
    | group | wq => rfl

theorem grows_wqSetGroupId {j : ℕ} {val : BitVec 32} {d d' : DeviceObj} {sys sys' : Sys κ}
    (h : wqSetGroupId K j val d sys = some (d', sys')) : d.Grows d' := by
  obtain ⟨d₁, sys₁, h₁, hid, hbus, -, -, -, hids⟩ := wqSetGroupId_eq K j val d sys
  obtain ⟨rfl, -⟩ := Prod.mk.injEq .. ▸ Option.some.inj (h₁.symm.trans h)
  exact ⟨hid, hbus, fun kind => (hids kind).symm ▸ List.prefix_rfl⟩

theorem grows_engineSetGroupId {j : ℕ} {val : BitVec 32} {d d' : DeviceObj} {sys sys' : Sys κ}
    (h : engineSetGroupId K j val d sys = some (d', sys')) : d.Grows d' := by
  obtain ⟨d₁, sys₁, h₁, hid, hbus, -, -, -, hids⟩ := engineSetGroupId_eq K j val d sys
  obtain ⟨rfl, -⟩ := Prod.mk.injEq .. ▸ Option.some.inj (h₁.symm.trans h)
  exact ⟨hid, hbus, fun kind => (hids kind).symm ▸ List.prefix_rfl⟩

/-- Every device is still at its place, and has grown. -/
def Context.Grows (ctx ctx' : Context) : Prop :=
  ∀ (i : ℕ) (d : DeviceObj), ctx.devices[i]? = some d →
    ∃ d', ctx'.devices[i]? = some d' ∧ d.Grows d'

theorem Context.Grows.refl (ctx : Context) : ctx.Grows ctx := fun _ d hd => ⟨d, hd, .refl d⟩

theorem Context.Grows.trans {ctx₁ ctx₂ ctx₃ : Context} (h : ctx₁.Grows ctx₂)
    (h' : ctx₂.Grows ctx₃) : ctx₁.Grows ctx₃ := by
  intro i d hd
  obtain ⟨d₂, hd₂, hg₂⟩ := h i d hd
  obtain ⟨d₃, hd₃, hg₃⟩ := h' i d₂ hd₂
  exact ⟨d₃, hd₃, hg₂.trans hg₃⟩

/-- An object stands for the same directory as before. -/
theorem Context.Grows.comp (h : ctx.Grows ctx') {handle : Handle} {c : Comp}
    (hc : ctx.comp handle = some c) : ctx'.comp handle = some c := by
  cases handle with
  | device i =>
    obtain ⟨d, hd, rfl⟩ := Option.map_eq_some_iff.mp hc
    obtain ⟨d', hd', hg⟩ := h i d hd
    rw [Context.comp, hd', Option.map_some, hg.id]
  | child kind i j =>
    obtain ⟨d, hd, hc⟩ := Option.bind_eq_some_iff.mp hc
    obtain ⟨n, hn, rfl⟩ := Option.map_eq_some_iff.mp hc
    obtain ⟨d', hd', hg⟩ := h i d hd
    obtain ⟨l, hl⟩ := hg.ids kind
    have hlt := (List.getElem?_eq_some_iff.mp hn).1
    rw [Context.comp, hd', Option.bind_some, hg.id, ← hl, List.getElem?_append_left hlt, hn]
    rfl

theorem grows_onDevice {i : ℕ} {f : DeviceObj → Sys κ → Option (DeviceObj × Sys κ)}
    (hf : ∀ d sys d' sys', f d sys = some (d', sys') → d.Grows d')
    (h : onDevice i f ctx sys = some (ctx', sys')) : ctx.Grows ctx' := by
  obtain ⟨-, rfl⟩ | ⟨d, d', hd, hd', rfl⟩ := onDevice_cases h
  · exact .refl _
  · intro j x hx
    have hlt := (List.getElem?_eq_some_iff.mp hx).1
    by_cases hij : i = j
    · subst hij
      obtain rfl := Option.some.inj (hd.symm.trans hx)
      exact ⟨d', List.getElem?_set_self hlt, hf _ sys d' sys' hd'⟩
    · exact ⟨x, (List.getElem?_set_ne hij).trans hx, .refl x⟩

theorem grows_devicesInit (h : devicesInit K dirs ctx sys = some (ctx', sys')) :
    ctx.Grows ctx' := by
  rw [devicesInit] at h
  split at h
  · obtain ⟨rfl, -⟩ := Prod.mk.injEq .. ▸ Option.some.inj h
    exact .refl _
  · split at h
    · exact absurd h (by simp)
    · next ctx₁ sys₁ h₁ =>
      have hdevices : ctx.Grows ctx₁ := by
        refine deviceParse_inv (fun c => ctx.Grows c) (fun e c sys c' sys' hc h => ?_) ?_ h₁
        · obtain rfl | ⟨dev, rfl⟩ := hang_cases h
          · exact hc
          · intro i d hd
            obtain ⟨d', hd', hg⟩ := hc i d hd
            have hlt := (List.getElem?_eq_some_iff.mp hd').1
            exact ⟨d', (List.getElem?_append_left hlt).trans hd', hg⟩
        · exact fun i d hd => ⟨d, hd, .refl d⟩
      refine deviceParse_inv (fun c => ctx.Grows c) (fun i c sys c' sys' hc h => ?_) hdevices h
      refine hc.trans (grows_onDevice (fun d sys d' sys' h => ?_) h)
      exact @DeviceObj.grows_childrenInit _ K dirs _ _ _ _ .group h

/-- A call lets every list grow at its end only. -/
theorem grows_call {call : LibCall} (h : call.run K dirs ctx sys = some (ctx', sys')) :
    ctx.Grows ctx' := by
  cases call with
  | deviceGetFirst | deviceGetById id | deviceGetByName name => exact grows_devicesInit h
  | deviceGetNext i | getNext kind i j =>
    obtain ⟨rfl, -⟩ := Prod.mk.injEq .. ▸ Option.some.inj h
    exact .refl _
  | getFirst kind i | getById kind i id =>
    exact grows_onDevice (fun d sys d' sys' h => DeviceObj.grows_childrenInit h) h
  | wqSetGroupId i j val => exact grows_onDevice (fun _ _ _ _ => grows_wqSetGroupId) h
  | engineSetGroupId i j val => exact grows_onDevice (fun _ _ _ _ => grows_engineSetGroupId) h

end Accfg
