/-
Every directory that can be read has one object.

On a tree that does not change, a list that has been asked for holds each
directory that can be read exactly once, as long as no work queues or engines
are asked for twice on a device without a group (`enumerated_once`).  There the
flag has no place to be in, and the list is scanned again.
-/
import AccelConfig.EnumerateInv

namespace Accfg

variable {κ σ ε α : Type}

/-! ### A tree that does not change -/

/-- Which directories can be opened, which paths of devices can be resolved,
and which work queues have a type. -/
structure Access where
  opens : Comp → Bool
  resolves : DevId → Bool
  typed : ChildId → Bool

/-- The directories that can be read. -/
def Access.readable (R : Access) : Comp → Bool
  | .device d => R.opens (.device d) && R.resolves d
  | c => R.opens c

/-- A kernel whose answers do not depend on its state where directories are
concerned. -/
structure Static (K : Kernel κ) (R : Access) : Prop where
  openDir : ∀ c k, (∃ k', K.openDir c k = (.ok (), k')) ↔ R.opens c
  realpath : ∀ d k, (∃ k', K.realpath (.attr (.device d) "") k = (.ok (), k')) ↔ R.resolves d
  type : ∀ c (s : Sys κ), (accfgGetParamStr K (.wq c) "type" s).1.isSome = R.typed c

/-- Whether there is an object; `none` at the end of the process. -/
def Added.made : Added α → Option Bool
  | object _ => some true
  | null => some false
  | die => none

theorem sysCall_isSome {r : Except Errno Unit × κ} {b : Bool} {s : Sys κ}
    (h : (∃ k', r = (.ok (), k')) ↔ b) : (sysCall r s).1.isSome = b := by
  obtain ⟨_ | ⟨⟩, k⟩ := r
  · cases b with
    | true => exact absurd (h.mpr rfl) (by simp)
    | false => rfl
  · cases b with
    | true => rfl
    | false => exact absurd (h.mp ⟨k, rfl⟩) (by simp)

variable {K : Kernel κ} {R : Access}

theorem addDevice_made (hK : Static K R) (d : DevId) (s : Sys κ) :
    (addDevice K d s).1.made = some (R.readable (.device d)) := by
  have hopen := sysCall_isSome (s := s) (hK.openDir (.device d) s.kernel)
  rw [addDevice, Access.readable, ← hopen]
  obtain ⟨_ | ⟨⟩, s₁⟩ := sysCall (K.openDir (.device d) s.kernel) s
  · rfl
  dsimp only
  generalize accfgGetParamLong K (.device d) "cmd_status" _ = r
  obtain ⟨v, s₂⟩ := r
  dsimp only
  generalize readDevice K d _ = r
  obtain ⟨dev, s₃⟩ := r
  have hpath := sysCall_isSome (s := s₃) (hK.realpath d s₃.kernel)
  rw [← hpath]
  dsimp only
  obtain ⟨_ | ⟨⟩, s₄⟩ := sysCall (K.realpath (.attr (.device d) "") s₃.kernel) s₃ <;> rfl

theorem addGroup_made (hK : Static K R) (c : ChildId) (s : Sys κ) :
    (addGroup K c s).1.made = some (R.readable (.group c)) := by
  have hopen := sysCall_isSome (s := s) (hK.openDir (.group c) s.kernel)
  rw [addGroup, Access.readable, ← hopen]
  · obtain ⟨_ | ⟨⟩, s₁⟩ := sysCall (K.openDir (.group c) s.kernel) s <;> rfl
  · simp

theorem addEngine_made (hK : Static K R) (c : ChildId) (s : Sys κ) :
    (addEngine K c s).1.made = some (R.readable (.engine c)) := by
  have hopen := sysCall_isSome (s := s) (hK.openDir (.engine c) s.kernel)
  rw [addEngine, Access.readable, ← hopen]
  · obtain ⟨_ | ⟨⟩, s₁⟩ := sysCall (K.openDir (.engine c) s.kernel) s <;> rfl
  · simp

theorem readWq_isSome (hK : Static K R) (c : ChildId) (s : Sys κ) :
    (readWq K c s).1.isSome = R.typed c := by
  show (Option.map _ (accfgGetParamStr K (.wq c) "type" _).1).isSome = R.typed c
  rw [Option.isSome_map]
  exact hK.type c _

theorem addWq_made (hK : Static K R) (c : ChildId) (s : Sys κ)
    (htyped : R.opens (.wq c) → R.typed c) :
    (addWq K c s).1.made = some (R.readable (.wq c)) := by
  have hopen := sysCall_isSome (s := s) (hK.openDir (.wq c) s.kernel)
  rw [addWq, Access.readable, ← hopen]
  · rw [← hopen] at htyped
    generalize sysCall (K.openDir (.wq c) s.kernel) s = r at htyped ⊢
    obtain ⟨_ | ⟨⟩, s₁⟩ := r
    · rfl
    · have hsome := (readWq_isSome hK c s₁).trans (htyped rfl)
      dsimp only
      generalize readWq K c s₁ = r at hsome ⊢
      obtain ⟨_ | q, s₂⟩ := r
      · exact absurd hsome (by simp)
      · rfl
  · simp

theorem hang_made {s : σ} {r : Added α × Sys κ} {push : α → σ} {b : Bool}
    (P : σ → Prop) (ids : σ → List ε) (e : ε) (hr : r.1.made = some b) (hs : P s)
    (hpush : ∀ a, P (push a) ∧ ids (push a) = ids s ++ [e]) :
    ∃ s' sys', hang r push s = some (s', sys') ∧ P s' ∧
      ids s' = ids s ++ if b then [e] else [] := by
  obtain ⟨a | _ | _, sys'⟩ := r
  · obtain rfl : true = b := Option.some.inj hr
    exact ⟨push a, sys', rfl, (hpush a).1, (hpush a).2⟩
  · obtain rfl : false = b := Option.some.inj hr
    exact ⟨s, sys', rfl, hs, (List.append_nil _).symm⟩
  · exact absurd hr (by simp [Added.made])

/-! ### The scans of one device -/

/-- The flag that belongs to a kind. -/
def GroupObj.init : Kind → GroupObj → Bool
  | .wq => (·.wqsInit)
  | .engine => (·.enginesInit)
  | .group => fun _ => true

namespace DeviceObj

/-- The children of a kind that can be read. -/
def listing (dirs : Dirs) (R : Access) (d : DevId) (kind : Kind) : List ℕ :=
  (dirs.children d kind).filter fun n => R.readable (kind.comp ⟨d, n⟩)

/-- The members of a kind are those that can be read if the flag is set.  If
not, there are none, or there is no group to set the flag in. -/
def Made (dirs : Dirs) (R : Access) (kind : Kind) (d : DeviceObj) : Prop :=
  if d.flag (GroupObj.init kind) then d.ids kind = listing dirs R d.id kind
  else d.ids kind = [] ∨ d.group = none ∧ d.ids kind = listing dirs R d.id kind

/-- A device whose groups were scanned, and its members at most once where it
has a group. -/
structure Once (dirs : Dirs) (R : Access) (d : DeviceObj) : Prop where
  groupInit : d.groupInit = true
  groups : d.ids .group = listing dirs R d.id .group
  pointer : ∀ g, d.group = some g → g < d.groups.length
  members : ∀ kind, kind ≠ .group → d.Made dirs R kind

/-- What a scan for members of a kind needs: a group to hold the flag, unless
none were found yet, and a type for each work queue. -/
def ScanOk (dirs : Dirs) (R : Access) (kind : Kind) (d : DeviceObj) : Prop :=
  (kind = .group ∨ d.group.isSome ∨ d.ids kind = []) ∧
    (kind = .wq → ∀ n ∈ dirs.children d.id .wq, R.opens (.wq ⟨d.id, n⟩) → R.typed ⟨d.id, n⟩)

/-- The second state differs from the first in the members of a kind only. -/
structure SameBut (kind : Kind) (d d' : DeviceObj) : Prop where
  id : d'.id = d.id
  bus : d'.bus = d.bus
  groupInit : d'.groupInit = d.groupInit
  group : d'.group = d.group
  groups : d'.groups = d.groups
  ids : ∀ k, k ≠ kind → d'.ids k = d.ids k

theorem SameBut.refl (kind : Kind) (d : DeviceObj) : SameBut kind d d :=
  ⟨rfl, rfl, rfl, rfl, rfl, fun _ _ => rfl⟩

variable {dirs : Dirs} {d d' : DeviceObj}

theorem flag_onGroup_of_some {f : GroupObj → GroupObj} {done : GroupObj → Bool}
    (hf : ∀ g, done (f g) = true) {g : ℕ} (hg : d.group = some g) (hlt : g < d.groups.length) :
    (d.onGroup f).flag done = true := by
  simp [flag, onGroup, hg, hlt, hf]

theorem flag_onGroup_of_eq {f : GroupObj → GroupObj} {done : GroupObj → Bool}
    (hf : ∀ g, done (f g) = done g) : (d.onGroup f).flag done = d.flag done := by
  simp only [flag, onGroup]
  cases d.group with
  | none => rfl
  | some g =>
    simp only [Option.elim_some, Option.bind_some, List.getElem?_modify, if_true]
    cases d.groups[g]? with
    | none => rfl
    | some x => exact hf x

theorem SameBut.flag {kind : Kind} (h : SameBut kind d d') (done : GroupObj → Bool) :
    d'.flag done = d.flag done := by
  simp only [DeviceObj.flag, h.group, h.groups]

/-- A scan for members of a kind that finds those that can be read. -/
def Finds (dirs : Dirs) (R : Access) (kind : Kind)
    (scan : DeviceObj → Sys κ → Option (DeviceObj × Sys κ)) (id : DevId) : Prop :=
  ∀ d sys, d.id = id → ∃ d' sys', scan d sys = some (d', sys') ∧ SameBut kind d d' ∧
    d'.ids kind = d.ids kind ++ listing dirs R id kind

theorem finds_wqs (hK : Static K R) (id : DevId)
    (htyped : ∀ n ∈ dirs.children id .wq, R.opens (.wq ⟨id, n⟩) → R.typed ⟨id, n⟩) :
    Finds dirs R .wq (deviceParse
      (fun n d sys => hang (addWq K ⟨d.id, n⟩ sys) (d.pushWq n) d) (dirs.children id .wq)) id := by
  intro d sys hid
  refine deviceParse_ids (SameBut .wq d) (·.ids .wq) (fun n => R.readable (.wq ⟨id, n⟩))
    (dirs.children id .wq) ?_ d sys (SameBut.refl .wq d)
  intro n hn d' sys hd'
  have hmade : (addWq K ⟨d'.id, n⟩ sys).1.made = some (R.readable (.wq ⟨id, n⟩)) := by
    rw [hd'.id, hid]
    exact addWq_made hK ⟨id, n⟩ sys (htyped n hn)
  refine hang_made (SameBut .wq d) (·.ids .wq) n hmade hd' fun q => ⟨?_, by simp [pushWq, ids]⟩
  refine ⟨hd'.id, hd'.bus, hd'.groupInit, hd'.group, hd'.groups, fun k hk => ?_⟩
  rw [← hd'.ids k hk]
  cases k with
  | wq => exact absurd rfl hk
  | group | engine => rfl

theorem finds_engines (hK : Static K R) (id : DevId) :
    Finds dirs R .engine (deviceParse
      (fun n d sys => hang (addEngine K ⟨d.id, n⟩ sys) (d.pushEngine n) d)
      (dirs.children id .engine)) id := by
  intro d sys hid
  refine deviceParse_ids (SameBut .engine d) (·.ids .engine)
    (fun n => R.readable (.engine ⟨id, n⟩)) (dirs.children id .engine) ?_ d sys
    (SameBut.refl .engine d)
  intro n _ d' sys hd'
  have hmade : (addEngine K ⟨d'.id, n⟩ sys).1.made = some (R.readable (.engine ⟨id, n⟩)) := by
    rw [hd'.id, hid]
    exact addEngine_made hK ⟨id, n⟩ sys
  refine hang_made (SameBut .engine d) (·.ids .engine) n hmade hd' fun e =>
    ⟨?_, by simp [pushEngine, ids]⟩
  refine ⟨hd'.id, hd'.bus, hd'.groupInit, hd'.group, hd'.groups, fun k hk => ?_⟩
  rw [← hd'.ids k hk]
  cases k with
  | engine => exact absurd rfl hk
  | group | wq => rfl

/-- `membersInit` on a device that meets the condition leaves exactly the
members that can be read. -/
theorem once_membersInit {kind : Kind} (mark : GroupObj → GroupObj) (hkind : kind ≠ .group)
    (hid : ∀ g, (mark g).id = g.id) (hmark : ∀ g, GroupObj.init kind (mark g) = true)
    (hother : ∀ k g, k ≠ kind → GroupObj.init k (mark g) = GroupObj.init k g)
    {addDev : ℕ → DeviceObj → Sys κ → Option (DeviceObj × Sys κ)} {found : List ℕ}
    (hfinds : Finds dirs R kind (deviceParse addDev found) d.id) (hd : d.Once dirs R)
    (hscan : d.group.isSome ∨ d.ids kind = []) (sys : Sys κ) :
    ∃ d' sys', membersInit (GroupObj.init kind) mark addDev found d sys = some (d', sys') ∧
      d'.Once dirs R ∧ d'.ids kind = listing dirs R d.id kind := by
  have hmade := hd.members kind hkind
  rw [Made] at hmade
  rw [membersInit]
  cases hflag : d.flag (GroupObj.init kind) with
  | true =>
    rw [hflag, if_pos rfl] at hmade
    exact ⟨d, sys, by simp, hd, hmade⟩
  | false =>
    rw [hflag, if_neg (by simp)] at hmade
    -- nothing was found before: without a group, by the condition
    have hempty : d.ids kind = [] := by
      obtain hempty | ⟨hnone, -⟩ := hmade
      · exact hempty
      · obtain hsome | hempty := hscan
        · exact absurd hsome (by simp [hnone])
        · exact hempty
    obtain ⟨d', sys', hparse, hsame, hids⟩ := hfinds (d.onGroup mark) sys rfl
    have hids' : ∀ k, (d.onGroup mark).ids k = d.ids k := ids_onGroup mark hid
    rw [hids', hempty, List.nil_append] at hids
    refine ⟨d', sys', by simpa using hparse, ?_, hids⟩
    have hid' : d'.id = d.id := hsame.id
    have hgroup' : d'.group = d.group := hsame.group
    refine ⟨hsame.groupInit.trans hd.groupInit, ?_, fun g hg => ?_, fun k hk => ?_⟩
    · rw [hsame.ids .group hkind.symm, hids', hid']
      exact hd.groups
    · rw [hsame.groups, length_groups_onGroup]
      exact hd.pointer g (hgroup' ▸ hg)
    · rw [Made, hsame.flag, hid', hgroup']
      by_cases hkk : k = kind
      · subst hkk
        cases hg : d.group with
        | some g =>
          rw [flag_onGroup_of_some hmark hg (hd.pointer g hg), if_pos rfl]
          exact hids
        | none =>
          split
          · exact hids
          · exact .inr ⟨rfl, hids⟩
      · rw [flag_onGroup_of_eq fun g => hother k g hkk, hsame.ids k hkk, hids']
        exact hd.members k hk

/-- A new device while its groups are scanned. -/
structure Scanning (id : DevId) (bus : String) (d : DeviceObj) : Prop where
  id : d.id = id
  bus : d.bus = bus
  groupInit : d.groupInit = true
  pointer : ∀ g, d.group = some g → g < d.groups.length
  unmarked : ∀ g ∈ d.groups, ∀ kind, kind ≠ .group → GroupObj.init kind g = false
  members : ∀ kind, kind ≠ .group → d.ids kind = []

theorem Scanning.pushGroup {id : DevId} {bus : String} (h : Scanning id bus d) (n : ℕ)
    (g : GroupFields) : Scanning id bus (d.pushGroup n g) where
  id := h.id
  bus := h.bus
  groupInit := h.groupInit
  pointer := by simp [DeviceObj.pushGroup]
  unmarked x hx kind hkind := by
    obtain hx | hx := List.mem_append.mp hx
    · exact h.unmarked x hx kind hkind
    · obtain rfl := List.mem_singleton.mp hx
      cases kind with
      | group => exact absurd rfl hkind
      | wq | engine => rfl
  members kind hkind := by
    rw [← h.members kind hkind]
    cases kind with
    | group => exact absurd rfl hkind
    | wq | engine => rfl

theorem Scanning.flag {id : DevId} {bus : String} (h : Scanning id bus d) {kind : Kind}
    (hkind : kind ≠ .group) : d.flag (GroupObj.init kind) = false := by
  rw [DeviceObj.flag]
  cases hg : d.group with
  | none => rfl
  | some g =>
    have hlt := h.pointer g hg
    rw [Option.bind_some, List.getElem?_eq_getElem hlt]
    exact h.unmarked _ (List.getElem_mem hlt) kind hkind

theorem once_groupsInit_new (hK : Static K R) (id : DevId) (bus : String) (fields : DeviceFields)
    (sys : Sys κ) : ∃ d' sys', groupsInit K dirs (.new id bus fields) sys = some (d', sys') ∧
      d'.Once dirs R ∧ d'.id = id ∧ d'.bus = bus := by
  rw [groupsInit, if_neg (by simp [DeviceObj.new])]
  have hstart : Scanning id bus { DeviceObj.new id bus fields with groupInit := true } := by
    refine ⟨rfl, rfl, rfl, by simp [DeviceObj.new], by simp [DeviceObj.new], fun kind hkind => ?_⟩
    cases kind with
    | group => exact absurd rfl hkind
    | wq | engine => rfl
  have hadd : ∀ n ∈ dirs.children id .group, ∀ (d : DeviceObj) (sys : Sys κ), Scanning id bus d →
      ∃ d' sys', hang (addGroup K ⟨d.id, n⟩ sys) (d.pushGroup n) d = some (d', sys') ∧
        Scanning id bus d' ∧
          d'.ids .group = d.ids .group ++ if R.readable (.group ⟨id, n⟩) then [n] else [] := by
    intro n _ d sys hd
    have hmade : (addGroup K ⟨d.id, n⟩ sys).1.made = some (R.readable (.group ⟨id, n⟩)) := by
      rw [hd.id]
      exact addGroup_made hK ⟨id, n⟩ sys
    exact hang_made (Scanning id bus) (fun d => d.ids .group) n hmade hd fun g =>
      ⟨hd.pushGroup n g, by simp [DeviceObj.pushGroup, ids]⟩
  obtain ⟨d', sys', h, hd', hids⟩ := deviceParse_ids (Scanning id bus) (fun d => d.ids .group)
    (fun n => R.readable (.group ⟨id, n⟩)) (dirs.children id .group) hadd _ sys hstart
  refine ⟨d', sys', h, ⟨hd'.groupInit, ?_, hd'.pointer, fun kind hkind => ?_⟩, hd'.id, hd'.bus⟩
  · rw [hids, hd'.id]
    rfl
  · rw [Made, hd'.flag hkind, if_neg (by simp)]
    exact .inl (hd'.members kind hkind)

/-- A scan on a device that meets the condition gives each child that can be
read one object. -/
theorem once_childrenInit (hK : Static K R) {kind : Kind} (hd : d.Once dirs R)
    (hscan : d.ScanOk dirs R kind) (sys : Sys κ) :
    ∃ d' sys', childrenInit K dirs kind d sys = some (d', sys') ∧ d'.Once dirs R ∧
      d'.ids kind = listing dirs R d.id kind := by
  cases kind with
  | group =>
    refine ⟨d, sys, ?_, hd, hd.groups⟩
    rw [childrenInit, groupsInit, if_pos hd.groupInit]
  | wq =>
    refine once_membersInit (fun g => { g with wqsInit := true }) (by simp) (fun _ => rfl)
      (fun _ => rfl) (fun k g hk => ?_) (finds_wqs hK d.id (hscan.2 rfl)) hd
      (hscan.1.resolve_left (by simp)) sys
    cases k with
    | wq => exact absurd rfl hk
    | group | engine => rfl
  | engine =>
    refine once_membersInit (fun g => { g with enginesInit := true }) (by simp) (fun _ => rfl)
      (fun _ => rfl) (fun k g hk => ?_) (finds_engines hK d.id) hd
      (hscan.1.resolve_left (by simp)) sys
    cases k with
    | engine => exact absurd rfl hk
    | group | wq => rfl

/-- The same device, with the same children. -/
theorem Once.of_ids (hd : d.Once dirs R) (hid : d'.id = d.id) (hinit : d'.groupInit = d.groupInit)
    (hgroup : d'.group = d.group) (hgroups : d'.groups = d.groups)
    (hids : ∀ kind, d'.ids kind = d.ids kind) : d'.Once dirs R := by
  refine ⟨hinit.trans hd.groupInit, ?_, ?_, fun kind hkind => ?_⟩
  · rw [hids, hid]
    exact hd.groups
  · rw [hgroup, hgroups]
    exact hd.pointer
  · have hmade := hd.members kind hkind
    rw [Made, DeviceObj.flag] at hmade ⊢
    rw [hgroup, hgroups, hid, hids]
    exact hmade

end DeviceObj

/-! ### All devices -/

variable {dirs : Dirs} {ctx ctx' : Context} {sys sys' : Sys κ}

theorem stable_once (hK : Static K R) :
    Stable K dirs (DeviceObj.ScanOk dirs R) (DeviceObj.Once dirs R) where
  group d := ⟨.inl rfl, by simp⟩
  new id bus fields sys d' sys' h := by
    obtain ⟨d₁, sys₁, h₁, hd₁, -⟩ := @DeviceObj.once_groupsInit_new _ K R dirs hK id bus fields sys
    obtain ⟨rfl, -⟩ := Prod.mk.injEq .. ▸ Option.some.inj (h₁.symm.trans h)
    exact hd₁
  children kind d sys d' sys' hd hscan h := by
    obtain ⟨d₁, sys₁, h₁, hd₁, -⟩ := DeviceObj.once_childrenInit hK hd hscan sys
    obtain ⟨rfl, -⟩ := Prod.mk.injEq .. ▸ Option.some.inj (h₁.symm.trans h)
    exact hd₁
  wqSetGroupId j val d sys d' sys' hd h := by
    obtain ⟨d₁, sys₁, h₁, hid, -, hinit, hgroup, hgroups, hids⟩ := wqSetGroupId_eq K j val d sys
    obtain ⟨rfl, -⟩ := Prod.mk.injEq .. ▸ Option.some.inj (h₁.symm.trans h)
    exact hd.of_ids hid hinit hgroup hgroups hids
  engineSetGroupId j val d sys d' sys' hd h := by
    obtain ⟨d₁, sys₁, h₁, hid, -, hinit, hgroup, hgroups, hids⟩ := engineSetGroupId_eq K j val d sys
    obtain ⟨rfl, -⟩ := Prod.mk.injEq .. ▸ Option.some.inj (h₁.symm.trans h)
    exact hd.of_ids hid hinit hgroup hgroups hids

/-- The directory of a device: its bus, its type and its number. -/
def DeviceObj.dir (d : DeviceObj) : String × DevId := (d.bus, d.id)

/-- The directories of devices that can be read. -/
def deviceListing (dirs : Dirs) (R : Access) : List (String × DevId) :=
  dirs.entries.filter fun e => R.readable (.device e.2)

/-- Every device is settled, and the devices are those that can be read, once
they were scanned. -/
structure Context.Once (dirs : Dirs) (R : Access) (ctx : Context) : Prop where
  settled : Settled (DeviceObj.Once dirs R) ctx
  devices : ctx.devicesInit = true → ctx.devices.map DeviceObj.dir = deviceListing dirs R

theorem Context.Once.new : Context.new.Once dirs R := ⟨Settled.start, by simp [Context.new]⟩

/-- Work that keeps a device where it is keeps the list of devices. -/
theorem map_dir_onDevice {i : ℕ} {f : DeviceObj → Sys κ → Option (DeviceObj × Sys κ)}
    (hf : ∀ d sys d' sys', f d sys = some (d', sys') → d.Grows d')
    (h : onDevice i f ctx sys = some (ctx', sys')) :
    ctx'.devicesInit = ctx.devicesInit ∧
      ctx'.devices.map DeviceObj.dir = ctx.devices.map DeviceObj.dir := by
  obtain ⟨-, rfl⟩ | ⟨d, d', hd, hd', rfl⟩ := onDevice_cases h
  · exact ⟨rfl, rfl⟩
  · refine ⟨rfl, List.ext_getElem? fun j => ?_⟩
    have hg := hf d sys d' sys' hd'
    rw [List.getElem?_map, List.getElem?_map, List.getElem?_set]
    split
    · next hij =>
      subst hij
      rw [hd, if_pos (List.getElem?_eq_some_iff.mp hd).1, Option.map_some, Option.map_some,
        DeviceObj.dir, hg.id, hg.bus, DeviceObj.dir]
    · rfl

theorem onDevice_total {i : ℕ} {f : DeviceObj → Sys κ → Option (DeviceObj × Sys κ)}
    (hf : ∀ d, ctx.devices[i]? = some d → ∃ d' sys', f d sys = some (d', sys')) :
    ∃ ctx' sys', onDevice i f ctx sys = some (ctx', sys') := by
  rw [onDevice]
  cases hd : ctx.devices[i]? with
  | none => exact ⟨ctx, sys, rfl⟩
  | some d =>
    obtain ⟨d', sys', h⟩ := hf d hd
    exact ⟨{ ctx with devices := ctx.devices.set i d' }, sys', by simp only [h, Option.map_some]⟩

/-- A scan for groups never ends the process. -/
theorem groupsInit_total (hK : Static K R) (d : DeviceObj) (sys : Sys κ) :
    ∃ d' sys', groupsInit K dirs d sys = some (d', sys') := by
  rw [groupsInit]
  split
  · exact ⟨d, sys, rfl⟩
  · have hadd : ∀ n ∈ dirs.children d.id .group, ∀ (x : DeviceObj) (sys : Sys κ), x.id = d.id →
        ∃ d' sys', hang (addGroup K ⟨x.id, n⟩ sys) (x.pushGroup n) x = some (d', sys') ∧
          d'.id = d.id ∧
            d'.ids .group = x.ids .group ++ if R.readable (.group ⟨d.id, n⟩) then [n] else [] := by
      intro n _ x sys hx
      have hmade : (addGroup K ⟨x.id, n⟩ sys).1.made = some (R.readable (.group ⟨d.id, n⟩)) := by
        rw [hx]
        exact addGroup_made hK ⟨d.id, n⟩ sys
      exact hang_made (fun y : DeviceObj => y.id = d.id) (fun y => y.ids .group) n hmade hx fun g =>
        ⟨hx, by simp [DeviceObj.pushGroup, DeviceObj.ids]⟩
    obtain ⟨d', sys', h, -⟩ := deviceParse_ids (fun x : DeviceObj => x.id = d.id)
      (fun x => x.ids .group) (fun n => R.readable (.group ⟨d.id, n⟩)) _ hadd
      { d with groupInit := true } sys rfl
    exact ⟨d', sys', h⟩

/-- The scan of the buses finds the devices that can be read. -/
theorem finds_devices (hK : Static K R) {ctx : Context} (hempty : ctx.devices = [])
    (sys : Sys κ) : ∃ ctx' sys',
      deviceParse (fun e ctx sys => hang (addDevice K e.2 sys) (ctx.pushDevice e) ctx) dirs.entries
        { ctx with devicesInit := true } sys = some (ctx', sys') ∧
      ctx'.devices.map DeviceObj.dir = deviceListing dirs R := by
  have hadd : ∀ e ∈ dirs.entries, ∀ (c : Context) (sys : Sys κ), True →
      ∃ c' sys', hang (addDevice K e.2 sys) (c.pushDevice e) c = some (c', sys') ∧ True ∧
        c'.devices.map DeviceObj.dir
          = c.devices.map DeviceObj.dir ++ if R.readable (.device e.2) then [e] else [] := by
    intro e _ c sys _
    exact hang_made (fun _ => True) (fun c : Context => c.devices.map DeviceObj.dir) e
      (addDevice_made hK e.2 sys) trivial
      fun dev => ⟨trivial, by simp [Context.pushDevice, DeviceObj.dir, DeviceObj.new]⟩
  obtain ⟨ctx', sys', h, -, hdirs⟩ := deviceParse_ids (fun _ => True)
    (fun c : Context => c.devices.map DeviceObj.dir) (fun e => R.readable (.device e.2))
    dirs.entries hadd { ctx with devicesInit := true } sys trivial
  refine ⟨ctx', sys', h, ?_⟩
  rw [hdirs]
  simp [hempty, deviceListing]

/-- Scanning groups leaves the list of devices as it is. -/
theorem keeps_devices (hK : Static K R) (is : List ℕ) (ctx : Context) (sys : Sys κ) :
    ∃ ctx' sys', deviceParse (fun i ctx sys => onDevice i (groupsInit K dirs) ctx sys) is ctx sys
        = some (ctx', sys') ∧
      ctx'.devices.map DeviceObj.dir = ctx.devices.map DeviceObj.dir := by
  have hadd : ∀ i ∈ is, ∀ (c : Context) (sys : Sys κ),
      c.devices.map DeviceObj.dir = ctx.devices.map DeviceObj.dir →
      ∃ c' sys', onDevice i (groupsInit K dirs) c sys = some (c', sys') ∧
        c'.devices.map DeviceObj.dir = ctx.devices.map DeviceObj.dir ∧
          ([] : List ℕ) = [] ++ if false then [i] else [] := by
    intro i _ c sys hc
    obtain ⟨c', sys', h⟩ := onDevice_total fun d _ => @groupsInit_total _ K R dirs hK d sys
    have hgrows : ∀ (d : DeviceObj) sys d' sys', groupsInit K dirs d sys = some (d', sys') →
        d.Grows d' :=
      fun d sys d' sys' h => @DeviceObj.grows_childrenInit _ K dirs sys sys' d d' .group h
    exact ⟨c', sys', h, (map_dir_onDevice hgrows h).2.trans hc, rfl⟩
  obtain ⟨ctx', sys', h, hdirs, -⟩ := deviceParse_ids
    (fun c : Context => c.devices.map DeviceObj.dir = ctx.devices.map DeviceObj.dir)
    (fun _ => ([] : List ℕ)) (fun _ => false) is hadd ctx sys rfl
  exact ⟨ctx', sys', h, hdirs⟩

theorem once_devicesInit (hK : Static K R) (hctx : ctx.Once dirs R) (sys : Sys κ) :
    ∃ ctx' sys', devicesInit K dirs ctx sys = some (ctx', sys') ∧ ctx'.Once dirs R ∧
      ctx'.devices.map DeviceObj.dir = deviceListing dirs R := by
  cases hinit : ctx.devicesInit with
  | true => exact ⟨ctx, sys, by rw [devicesInit, if_pos hinit], hctx, hctx.devices hinit⟩
  | false =>
    obtain ⟨ctx₁, sys₁, h₁, hdirs₁⟩ := finds_devices hK (hctx.settled.new hinit) sys
    obtain ⟨ctx₂, sys₂, h₂, hdirs₂⟩ :=
      @keeps_devices _ K R dirs hK (List.range ctx₁.devices.length) ctx₁ sys₁
    have h : devicesInit K dirs ctx sys = some (ctx₂, sys₂) := by
      rw [devicesInit, if_neg (by simp [hinit]), h₁]
      exact h₂
    have hdirs := hdirs₂.trans hdirs₁
    exact ⟨ctx₂, sys₂, h, ⟨hctx.settled.devicesInit (stable_once hK) h, fun _ => hdirs⟩, hdirs⟩

/-! ### Runs -/

/-- The list that a call asks for is complete. -/
def LibCall.Complete (dirs : Dirs) (R : Access) (ctx : Context) : LibCall → Prop
  | deviceGetFirst | deviceGetById _ | deviceGetByName _ =>
    ctx.devices.map DeviceObj.dir = deviceListing dirs R
  | getFirst kind i | getById kind i _ =>
    ∀ d, ctx.devices[i]? = some d → d.ids kind = DeviceObj.listing dirs R d.id kind
  | _ => True

/-- Work on one device that goes through keeps the invariant. -/
theorem once_onDevice (hK : Static K R) (hctx : ctx.Once dirs R) {call : LibCall} {i : ℕ}
    {f : DeviceObj → Sys κ → Option (DeviceObj × Sys κ)}
    (hrun : call.run K dirs ctx sys = onDevice i f ctx sys)
    (hcall : call.Meets (DeviceObj.ScanOk dirs R) ctx)
    (hgrows : ∀ d sys d' sys', f d sys = some (d', sys') → d.Grows d')
    (hf : ∀ d ∈ ctx.devices, ctx.devices[i]? = some d → ∃ d' sys', f d sys = some (d', sys')) :
    ∃ ctx' sys', call.run K dirs ctx sys = some (ctx', sys') ∧ ctx'.Once dirs R := by
  obtain ⟨ctx', sys', h⟩ := onDevice_total fun d hd => hf d (List.mem_of_getElem? hd) hd
  obtain ⟨hinit, hdirs⟩ := map_dir_onDevice hgrows h
  rw [hrun]
  refine ⟨ctx', sys', h, hctx.settled.call (stable_once hK) hcall (hrun.trans h), fun hi => ?_⟩
  rw [hdirs]
  exact hctx.devices (hinit ▸ hi)

/-- A call that meets its condition goes through, and completes its list. -/
theorem once_call (hK : Static K R) (hctx : ctx.Once dirs R) (call : LibCall)
    (hcall : call.Meets (DeviceObj.ScanOk dirs R) ctx) (sys : Sys κ) :
    ∃ ctx' sys', call.run K dirs ctx sys = some (ctx', sys') ∧ ctx'.Once dirs R ∧
      call.Complete dirs R ctx' := by
  cases call with
  | deviceGetFirst | deviceGetById id | deviceGetByName name => exact once_devicesInit hK hctx sys
  | deviceGetNext i | getNext kind i j => exact ⟨ctx, sys, rfl, hctx, trivial⟩
  | getFirst kind i | getById kind i id =>
    have hscan : ∀ d ∈ ctx.devices, ctx.devices[i]? = some d → ∃ d' sys',
        childrenInit K dirs kind d sys = some (d', sys') := fun d hmem hd => by
      obtain ⟨d', sys', h, -⟩ :=
        DeviceObj.once_childrenInit hK (hctx.settled.devices d hmem) (hcall d hd) sys
      exact ⟨d', sys', h⟩
    obtain ⟨ctx', sys', h, hctx'⟩ := once_onDevice hK hctx rfl hcall
      (fun d sys d' sys' => DeviceObj.grows_childrenInit) hscan
    refine ⟨ctx', sys', h, hctx', fun d hd => ?_⟩
    obtain ⟨hnone, rfl⟩ | ⟨d₁, d₂, hd₁, hd₂, rfl⟩ := onDevice_cases h
    · rw [hnone] at hd
      exact absurd hd (by simp)
    · have hlt := (List.getElem?_eq_some_iff.mp hd₁).1
      obtain rfl : d₂ = d := Option.some.inj ((List.getElem?_set_self hlt).symm.trans hd)
      obtain ⟨d₃, sys₃, h₃, -, hids⟩ := DeviceObj.once_childrenInit hK
        (hctx.settled.devices d₁ (List.mem_of_getElem? hd₁)) (hcall d₁ hd₁) sys
      obtain ⟨rfl, -⟩ := Prod.mk.injEq .. ▸ Option.some.inj (h₃.symm.trans hd₂)
      rw [hids, (DeviceObj.grows_childrenInit hd₂).id]
  | wqSetGroupId i j val =>
    obtain ⟨ctx', sys', h, hctx'⟩ := @once_onDevice _ K R dirs ctx sys hK hctx
      (.wqSetGroupId i j val) i _ rfl hcall
      (fun d sys d' sys' h => grows_wqSetGroupId h) fun d _ _ => by
        obtain ⟨d', sys', h, -⟩ := wqSetGroupId_eq K j val d sys
        exact ⟨d', sys', h⟩
    exact ⟨ctx', sys', h, hctx', trivial⟩
  | engineSetGroupId i j val =>
    obtain ⟨ctx', sys', h, hctx'⟩ := @once_onDevice _ K R dirs ctx sys hK hctx
      (.engineSetGroupId i j val) i _ rfl hcall
      (fun d sys d' sys' h => grows_engineSetGroupId h) fun d _ _ => by
        obtain ⟨d', sys', h, -⟩ := engineSetGroupId_eq K j val d sys
        exact ⟨d', sys', h⟩
    exact ⟨ctx', sys', h, hctx', trivial⟩

theorem Dirs.nodup_entries (dirs : Dirs) : dirs.entries.Nodup := by
  have hbus : ∀ bus, (accfgBasenames.flatMap fun type =>
      (dirs.devices bus type).map fun n => (bus, (⟨type, n⟩ : DevId))).Nodup := by
    intro bus
    refine List.nodup_flatMap.mpr ⟨fun type _ => ?_, ?_⟩
    · refine (dirs.devices_nodup bus type).map fun m n h => ?_
      simpa using h
    · rw [accfgBasenames, List.pairwise_pair]
      intro e he he'
      obtain ⟨m, -, rfl⟩ := List.mem_map.mp he
      obtain ⟨n, -, heq⟩ := List.mem_map.mp he'
      simp at heq
  refine List.nodup_flatMap.mpr ⟨fun bus _ => hbus bus, ?_⟩
  rw [accfgBusTypes, List.pairwise_pair]
  intro e he he'
  obtain ⟨type, -, he⟩ := List.mem_flatMap.mp he
  obtain ⟨type', -, he'⟩ := List.mem_flatMap.mp he'
  obtain ⟨m, -, rfl⟩ := List.mem_map.mp he
  obtain ⟨n, -, heq⟩ := List.mem_map.mp he'
  simp at heq

theorem count_filter_of_nodup [BEq ε] [LawfulBEq ε] {l : List ε} (h : l.Nodup) (p : ε → Bool)
    (e : ε) :
    (l.filter p).count e = if e ∈ l ∧ p e then 1 else 0 := by
  have hnodup : (l.filter p).Nodup := h.filter p
  split
  · next hmem => exact List.count_eq_one_of_mem hnodup (List.mem_filter.mpr hmem)
  · next hmem => exact List.count_eq_zero_of_not_mem fun hmem' => hmem (List.mem_filter.mp hmem')

/-- Each child of a kind that can be read has one object, and nothing else has
any. -/
def DeviceObj.OneEach (dirs : Dirs) (R : Access) (kind : Kind) (d : DeviceObj) : Prop :=
  ∀ n, (d.ids kind).count n =
    if n ∈ dirs.children d.id kind ∧ R.readable (kind.comp ⟨d.id, n⟩) then 1 else 0

theorem DeviceObj.oneEach_of_listing {d : DeviceObj} {kind : Kind}
    (h : d.ids kind = listing dirs R d.id kind) : d.OneEach dirs R kind := by
  intro n
  rw [h, listing]
  exact count_filter_of_nodup (dirs.children_nodup d.id kind) _ n

/-- The lists that a call asked for, in a later state: each directory that can
be read has exactly one object. -/
def LibCall.Represented (dirs : Dirs) (R : Access) (ctx ctx' : Context) : LibCall → Prop
  | deviceGetFirst | deviceGetById _ | deviceGetByName _ =>
    (∀ e, (ctx'.devices.map DeviceObj.dir).count e =
      if e ∈ dirs.entries ∧ R.readable (.device e.2) then 1 else 0) ∧
    ∀ d ∈ ctx'.devices, d.OneEach dirs R .group
  | getFirst kind i | getById kind i _ => ∀ d, ctx.devices[i]? = some d →
    ∃ d', ctx'.devices[i]? = some d' ∧ d'.id = d.id ∧ d'.OneEach dirs R kind
  | _ => True

/-- A list that was complete still is. -/
theorem represented_of_complete (hctx' : ctx'.Once dirs R) (hgrows : ctx.Grows ctx')
    {call : LibCall} (h : call.Complete dirs R ctx) : call.Represented dirs R ctx ctx' := by
  have hdevices : ctx.devices.map DeviceObj.dir = deviceListing dirs R →
      (∀ e, (ctx'.devices.map DeviceObj.dir).count e =
        if e ∈ dirs.entries ∧ R.readable (.device e.2) then 1 else 0) ∧
      ∀ d ∈ ctx'.devices, d.OneEach dirs R .group := by
    intro hdirs
    have hdirs' : ctx'.devices.map DeviceObj.dir = deviceListing dirs R := by
      cases hinit : ctx'.devicesInit with
      | true => exact hctx'.devices hinit
      | false =>
        have hempty := hctx'.settled.new hinit
        have hnil : ctx.devices = [] := List.eq_nil_iff_forall_not_mem.mpr fun d hd => by
          obtain ⟨i, hlt, rfl⟩ := List.getElem_of_mem hd
          obtain ⟨d', hd', -⟩ := hgrows i _ (List.getElem?_eq_getElem hlt)
          simp [hempty] at hd'
        rw [← hdirs, hempty, hnil]
    refine ⟨fun e => ?_, fun d hd => ?_⟩
    · rw [hdirs', deviceListing]
      exact count_filter_of_nodup dirs.nodup_entries _ e
    · exact DeviceObj.oneEach_of_listing (hctx'.settled.devices d hd).groups
  have hchildren : ∀ (kind : Kind) (i : ℕ), (∀ d, ctx.devices[i]? = some d →
      d.ids kind = DeviceObj.listing dirs R d.id kind) → ∀ d, ctx.devices[i]? = some d →
      ∃ d', ctx'.devices[i]? = some d' ∧ d'.id = d.id ∧ d'.OneEach dirs R kind := by
    intro kind i hlist d hd
    obtain ⟨d', hd', hg⟩ := hgrows i d hd
    have honce := hctx'.settled.devices d' (List.mem_of_getElem? hd')
    have hprefix := hg.ids kind
    rw [hlist d hd, ← hg.id] at hprefix
    refine ⟨d', hd', hg.id, DeviceObj.oneEach_of_listing ?_⟩
    cases hkind : decide (kind = .group) with
    | true =>
      obtain rfl := of_decide_eq_true hkind
      exact honce.groups
    | false =>
      -- the list is empty or complete, and it has grown from a complete one
      have hmade := honce.members kind (of_decide_eq_false hkind)
      rw [DeviceObj.Made] at hmade
      split at hmade
      · exact hmade
      · obtain hempty | ⟨-, hids⟩ := hmade
        · rw [hempty, List.prefix_nil] at hprefix
          rw [hempty, hprefix]
        · exact hids
  cases call with
  | deviceGetFirst | deviceGetById id | deviceGetByName name => exact hdevices h
  | getFirst kind i | getById kind i id => exact hchildren kind i h
  | deviceGetNext i | getNext kind i j => trivial
  | wqSetGroupId i j val | engineSetGroupId i j val => trivial

/-- Every call of a run meets its condition. -/
def RunOk (K : Kernel κ) (dirs : Dirs) (C : Kind → DeviceObj → Prop) :
    List LibCall → Context → Sys κ → Prop
  | [], _, _ => True
  | call :: calls, ctx, sys => call.Meets C ctx ∧
    ∀ ctx' sys', call.run K dirs ctx sys = some (ctx', sys') → RunOk K dirs C calls ctx' sys'

theorem once_runCalls (hK : Static K R) (later : List LibCall) :
    ∀ (calls : List LibCall) (ctx : Context) (sys : Sys κ), ctx.Once dirs R →
      RunOk K dirs (DeviceObj.ScanOk dirs R) (calls ++ later) ctx sys →
      ∃ ctx' sys', runCalls K dirs calls ctx sys = some (ctx', sys') ∧ ctx'.Once dirs R ∧
        ctx.Grows ctx' ∧ RunOk K dirs (DeviceObj.ScanOk dirs R) later ctx' sys' := by
  intro calls
  induction calls with
  | nil =>
    intro ctx sys hctx hok
    exact ⟨ctx, sys, rfl, hctx, .refl ctx, hok⟩
  | cons call calls ih =>
    intro ctx sys hctx hok
    obtain ⟨ctx₁, sys₁, h₁, hctx₁, -⟩ := once_call hK hctx call hok.1 sys
    obtain ⟨ctx₂, sys₂, h₂, hctx₂, hgrows₂, hok₂⟩ := ih ctx₁ sys₁ hctx₁ (hok.2 ctx₁ sys₁ h₁)
    refine ⟨ctx₂, sys₂, ?_, hctx₂, (grows_call h₁).trans hgrows₂, hok₂⟩
    rw [runCalls_cons, h₁]
    exact h₂

/-- The object that a call returns is in its list. -/
theorem result_comp {call : LibCall} {handle : Handle} (h : call.result ctx = some handle) :
    ∃ c, ctx.comp handle = some c := by
  have hdevice : ∀ i, i < ctx.devices.length → ∃ c, ctx.comp (.device i) = some c := by
    intro i hlt
    exact ⟨_, by rw [Context.comp, List.getElem?_eq_getElem hlt, Option.map_some]⟩
  have hchild : ∀ (kind : Kind) (i j : ℕ) (d : DeviceObj), ctx.devices[i]? = some d →
      j < (d.ids kind).length → ∃ c, ctx.comp (.child kind i j) = some c := by
    intro kind i j d hd hlt
    exact ⟨_, by rw [Context.comp, hd, Option.bind_some, List.getElem?_eq_getElem hlt,
      Option.map_some]⟩
  cases call with
  | deviceGetFirst =>
    simp only [LibCall.result, Option.ite_none_left_eq_some] at h
    obtain ⟨hne, hh⟩ := h
    obtain rfl := Option.some.inj hh
    exact hdevice 0 (List.length_pos_iff.mpr hne)
  | deviceGetNext i =>
    simp only [LibCall.result, Option.ite_none_right_eq_some] at h
    obtain ⟨hlt, hh⟩ := h
    obtain rfl := Option.some.inj hh
    exact hdevice (i + 1) hlt
  | deviceGetById id | deviceGetByName name =>
    obtain ⟨i, hi, rfl⟩ := Option.map_eq_some_iff.mp h
    exact hdevice i (List.findIdx?_eq_some_iff_getElem.mp hi).1
  | getFirst kind i =>
    obtain ⟨d, hd, h⟩ := Option.bind_eq_some_iff.mp h
    rw [Option.ite_none_left_eq_some] at h
    obtain ⟨hne, hh⟩ := h
    obtain rfl := Option.some.inj hh
    exact hchild kind i 0 d hd (List.length_pos_iff.mpr hne)
  | getNext kind i j =>
    obtain ⟨d, hd, h⟩ := Option.bind_eq_some_iff.mp h
    rw [Option.ite_none_right_eq_some] at h
    obtain ⟨hlt, hh⟩ := h
    obtain rfl := Option.some.inj hh
    exact hchild kind i (j + 1) d hd hlt
  | getById kind i id =>
    obtain ⟨d, hd, h⟩ := Option.bind_eq_some_iff.mp h
    obtain ⟨j, hj, rfl⟩ := Option.map_eq_some_iff.mp h
    exact hchild kind i j d hd (List.findIdx?_eq_some_iff_getElem.mp hj).1
  | wqSetGroupId i j val | engineSetGroupId i j val => exact absurd h (by simp [LibCall.result])

/-- In a run whose calls all meet their condition, the process goes on, the
lists that were asked for hold each directory that can be read once, and an
object that was returned stays where it is. -/
theorem enumerated_once (K : Kernel κ) (dirs : Dirs) (R : Access) (hK : Static K R)
    (before after : List LibCall) (call : LibCall) (sys : Sys κ)
    (hok : RunOk K dirs (DeviceObj.ScanOk dirs R) (before ++ call :: after) .new sys) :
    ∃ ctx₁ sys₁ ctx₂ sys₂ ctx₃ sys₃, runCalls K dirs before .new sys = some (ctx₁, sys₁) ∧
      call.run K dirs ctx₁ sys₁ = some (ctx₂, sys₂) ∧
      runCalls K dirs after ctx₂ sys₂ = some (ctx₃, sys₃) ∧
      call.Represented dirs R ctx₂ ctx₃ ∧
      ∀ handle, call.result ctx₂ = some handle →
        ∃ c, ctx₂.comp handle = some c ∧ ctx₃.comp handle = some c := by
  obtain ⟨ctx₁, sys₁, h₁, hctx₁, -, hok₁⟩ := once_runCalls hK _ before .new sys Context.Once.new hok
  obtain ⟨ctx₂, sys₂, h₂, hctx₂, hcomplete⟩ := once_call hK hctx₁ call hok₁.1 sys₁
  have hok₂ := hok₁.2 ctx₂ sys₂ h₂
  rw [← List.append_nil after] at hok₂
  obtain ⟨ctx₃, sys₃, h₃, hctx₃, hgrows, -⟩ := once_runCalls hK [] after ctx₂ sys₂ hctx₂ hok₂
  refine ⟨ctx₁, sys₁, ctx₂, sys₂, ctx₃, sys₃, h₁, h₂, h₃,
    represented_of_complete hctx₃ hgrows hcomplete, fun handle hh => ?_⟩
  obtain ⟨c, hc⟩ := result_comp hh
  exact ⟨c, hc, hgrows.comp hc⟩

/-! ### With and without a group -/

/-- A kernel under which every attribute reads 0. -/
def zeroKernel : Kernel Unit where
  access _ k := (.ok (), k)
  openFile _ _ k := (.ok (), k)
  openDir _ k := (.ok (), k)
  read _ k := (.ok "0\n".toList, k)
  write _ buf k := (.ok buf.length, k)
  lstat _ k := (.ok (), k)
  realpath _ k := (.ok (), k)

def blankSys : Sys Unit := ⟨(), 0, 0, none, []⟩

/-- One device with the given groups and a work queue. -/
def oneWqDirs (groups : List ℕ) (h : groups.Nodup) : Dirs where
  devices bus type := if bus = "dsa" ∧ type = .dsa then [0] else []
  children _ kind := match kind with
    | .group => groups
    | .wq => [0]
    | .engine => []
  devices_nodup bus type := by split <;> simp
  children_nodup _ kind := by cases kind <;> simp [h]

/-- Everything can be read. -/
def everything : Access := ⟨fun _ => true, fun _ => true, fun _ => true⟩

theorem static_zeroKernel : Static zeroKernel everything where
  openDir _ k := ⟨fun _ => rfl, fun _ => ⟨k, rfl⟩⟩
  realpath _ k := ⟨fun _ => rfl, fun _ => ⟨k, rfl⟩⟩
  type _ _ := rfl

/-- The work queues of the device are asked for twice. -/
def askTwice : List LibCall := [.deviceGetFirst, .getFirst .wq 0, .getFirst .wq 0]

theorem scanOk_of_grouped (d : DeviceObj) (kind : Kind) (h : d.group.isSome) :
    d.ScanOk (oneWqDirs [0] (by simp)) everything kind :=
  ⟨.inr (.inl h), fun _ _ _ _ => rfl⟩

/-- The first device has a group after the given calls. -/
theorem grouped_of_all {calls : List LibCall} {d : DeviceObj} {sys : Sys Unit}
    (hall : (runCalls zeroKernel (oneWqDirs [0] (by simp)) calls .new blankSys).map
      (fun st => st.1.devices.all fun d => d.group.isSome) = some true)
    (h : runCalls zeroKernel (oneWqDirs [0] (by simp)) calls .new blankSys
      = some (ctx, sys)) (hd : ctx.devices[0]? = some d) : d.group.isSome := by
  rw [h, Option.map_some, Option.some.injEq] at hall
  exact List.all_eq_true.mp hall d (List.mem_of_getElem? hd)

/-- On a device with a group the second time finds nothing new. -/
theorem runOk_askTwice : RunOk zeroKernel (oneWqDirs [0] (by simp))
    (DeviceObj.ScanOk (oneWqDirs [0] (by simp)) everything) askTwice .new blankSys := by
  refine ⟨trivial, fun ctx₁ sys₁ h₁ => ⟨fun d hd => ?_, fun ctx₂ sys₂ h₂ => ⟨fun d hd => ?_,
    fun _ _ _ => trivial⟩⟩⟩
  · have hrun : runCalls zeroKernel (oneWqDirs [0] (by simp)) [.deviceGetFirst] .new blankSys
        = some (ctx₁, sys₁) := by
      rw [runCalls_cons, h₁]
      rfl
    exact scanOk_of_grouped d .wq (grouped_of_all rfl hrun hd)
  · have hrun : runCalls zeroKernel (oneWqDirs [0] (by simp)) [.deviceGetFirst, .getFirst .wq 0]
        .new blankSys = some (ctx₂, sys₂) := by
      rw [runCalls_cons, h₁, Option.bind_some, runCalls_cons, h₂]
      rfl
    exact scanOk_of_grouped d .wq (grouped_of_all rfl hrun hd)

theorem enumerated_once_grouped : ∃ ctx₁ sys₁ ctx₂ sys₂ ctx₃ sys₃,
    runCalls zeroKernel (oneWqDirs [0] (by simp)) [.deviceGetFirst] .new blankSys
      = some (ctx₁, sys₁) ∧
    LibCall.run zeroKernel (oneWqDirs [0] (by simp)) (.getFirst .wq 0) ctx₁ sys₁
      = some (ctx₂, sys₂) ∧
    runCalls zeroKernel (oneWqDirs [0] (by simp)) [.getFirst .wq 0] ctx₂ sys₂
      = some (ctx₃, sys₃) ∧
    LibCall.Represented (oneWqDirs [0] (by simp)) everything ctx₂ ctx₃ (.getFirst .wq 0) ∧
    ∀ handle, LibCall.result ctx₂ (.getFirst .wq 0) = some handle →
      ∃ c, ctx₂.comp handle = some c ∧ ctx₃.comp handle = some c :=
  enumerated_once zeroKernel (oneWqDirs [0] (by simp)) everything static_zeroKernel
    [.deviceGetFirst] [.getFirst .wq 0] (.getFirst .wq 0) blankSys runOk_askTwice

/-- On a device without a group the second time finds the work queue again. -/
theorem not_enumerated_once_groupless :
    ∃ st, runCalls zeroKernel (oneWqDirs [] (by simp)) askTwice .new blankSys = some st ∧
      ∃ d ∈ st.1.devices, ¬d.OneEach (oneWqDirs [] (by simp)) everything .wq := by
  have hcount : (runCalls zeroKernel (oneWqDirs [] (by simp)) askTwice .new blankSys).map
      (fun st => st.1.devices.map fun d => (d.ids .wq).count 0) = some [2] := rfl
  obtain ⟨st, hst, hcounts⟩ := Option.map_eq_some_iff.mp hcount
  have hmem : 2 ∈ st.1.devices.map fun d => (d.ids .wq).count 0 := by
    rw [hcounts]
    exact List.mem_singleton_self _
  obtain ⟨d, hd, htwo⟩ := List.mem_map.mp hmem
  refine ⟨st, hst, d, hd, fun hone => ?_⟩
  have hle : (d.ids .wq).count 0 ≤ 1 := by
    rw [hone 0]
    split <;> omega
  omega

end Accfg
