/-
The group that a work queue or an engine is linked to.

`accfg_wq_get_group` returns a pointer that `add_wq` copied from the device,
where it is the group added last.  No setter of `group_id` moves it.  So the
pointer and the id agree for a member of a device without groups, and for one
whose current id is that of the last group, and for no other.
-/
import AccelConfig.EnumerateOnce

namespace Accfg

/-- `accfg_wq_get_group`. -/
def accfgWqGetGroup (q : Member WqFields) : Option ℕ := q.group

/-- `accfg_engine_get_group`. -/
def accfgEngineGetGroup (e : Member EngineFields) : Option ℕ := e.group

namespace DeviceObj

/-- The place of the group whose `accfg_group_get_id` is the given one. -/
def groupWithId (d : DeviceObj) (id : BitVec 32) : Option ℕ :=
  d.groups.findIdx? fun g => (g.id : ℤ) = id.toInt

/-- The group added last, if there is one, has the given id. -/
def LastGroupHas (d : DeviceObj) (id : BitVec 32) : Prop :=
  ∀ g, d.groups.getLast? = some g → (g.id : ℤ) = id.toInt

/-- The device points at its last group, which all its members are linked to. -/
structure Linked (dirs : Dirs) (d : DeviceObj) : Prop where
  groupInit : d.groupInit = true
  group : d.group = if d.groups = [] then none else some (d.groups.length - 1)
  ids : (d.ids .group).Sublist (dirs.children d.id .group)
  wqs : ∀ q ∈ d.wqs, q.group = d.group
  engines : ∀ e ∈ d.engines, e.group = d.group

variable {κ : Type} {K : Kernel κ} {dirs : Dirs} {d : DeviceObj}

/-- A link to the last group is the right one for a member of that group. -/
theorem Linked.group_eq_iff (h : d.Linked dirs) (id : BitVec 32) :
    d.group = d.groupWithId id ↔ d.LastGroupHas id := by
  have hnodup : (d.groups.map (·.id)).Nodup := h.ids.nodup (dirs.children_nodup _ _)
  rw [h.group, groupWithId, LastGroupHas]
  obtain hnil | ⟨init, g, hgroups⟩ := List.eq_nil_or_concat d.groups
  · rw [hnil]
    simp
  rw [List.concat_eq_append] at hgroups
  rw [hgroups, List.map_append, List.map_singleton, List.nodup_append] at hnodup
  have hlast : (init ++ [g]).getLast? = some g := List.getLast?_concat
  rw [hgroups, if_neg (by simp), List.length_append, List.length_singleton, Nat.add_sub_cancel,
    List.findIdx?_append, hlast]
  by_cases hg : (g.id : ℤ) = id.toInt
  · -- the ids differ, so that no earlier group has this one
    have hinit : init.findIdx? (fun x => decide ((x.id : ℤ) = id.toInt)) = none := by
      rw [List.findIdx?_eq_none_iff]
      intro x hx
      rw [decide_eq_false_iff_not]
      intro hxid
      have hne := hnodup.2.2 x.id (List.mem_map_of_mem hx) g.id (List.mem_singleton_self _)
      omega
    rw [hinit]
    simp [hg]
  · constructor
    · intro heq
      have hsingle : [g].findIdx? (fun x => decide ((x.id : ℤ) = id.toInt)) = none := by simp [hg]
      rw [hsingle, Option.map_none, Option.or_none] at heq
      have hlt := (List.findIdx?_eq_some_iff_getElem.mp heq.symm).1
      exact absurd hlt (lt_irrefl _)
    · intro hall
      exact absurd (hall g rfl) hg

/-! ### What keeps the links -/

theorem linked_onGroup (f : GroupObj → GroupObj) (hf : ∀ g, (f g).id = g.id)
    (h : d.Linked dirs) : (d.onGroup f).Linked dirs := by
  have hids : (d.onGroup f).ids .group = d.ids .group := ids_onGroup f hf .group
  refine ⟨h.groupInit, ?_, hids ▸ h.ids, h.wqs, h.engines⟩
  show d.group = _
  rw [h.group]
  simp only [← List.length_eq_zero_iff, length_groups_onGroup f]

theorem linked_groupsInit_new {id : DevId} {bus : String} {fields : DeviceFields}
    {sys sys' : Sys κ} {d' : DeviceObj}
    (h : groupsInit K dirs (.new id bus fields) sys = some (d', sys')) : d'.Linked dirs := by
  rw [groupsInit, if_neg (by simp [DeviceObj.new])] at h
  have hP := deviceParse_sublist
    (fun d : DeviceObj => d.id = id ∧ d.groupInit = true ∧
      d.group = (if d.groups = [] then none else some (d.groups.length - 1)) ∧
      d.wqs = [] ∧ d.engines = [])
    (fun d => d.ids .group) ?_ ⟨rfl, rfl, rfl, rfl, rfl⟩ h
  · obtain ⟨⟨hid, hinit, hgroup, hwqs, hengines⟩, l, hl, hids⟩ := hP
    refine ⟨hinit, hgroup, ?_, by simp [hwqs], by simp [hengines]⟩
    rw [hids, hid]
    exact hl
  · rintro n d sys d' sys' ⟨hid, hinit, hgroup, hwqs, hengines⟩ h
    obtain rfl | ⟨g, rfl⟩ := hang_cases h
    · exact ⟨⟨hid, hinit, hgroup, hwqs, hengines⟩, .inl rfl⟩
    · refine ⟨⟨hid, hinit, ?_, hwqs, hengines⟩, .inr ?_⟩
      · simp [pushGroup]
      · simp [pushGroup, ids]

theorem linked_pushWq (n : ℕ) (q : WqFields) (hd : d.Linked dirs) : (d.pushWq n q).Linked dirs := by
  refine ⟨hd.groupInit, hd.group, hd.ids, fun x hx => ?_, hd.engines⟩
  obtain hx | hx := List.mem_append.mp hx
  · exact hd.wqs x hx
  · obtain rfl := List.mem_singleton.mp hx
    rfl

theorem linked_pushEngine (n : ℕ) (e : EngineFields) (hd : d.Linked dirs) :
    (d.pushEngine n e).Linked dirs := by
  refine ⟨hd.groupInit, hd.group, hd.ids, hd.wqs, fun x hx => ?_⟩
  obtain hx | hx := List.mem_append.mp hx
  · exact hd.engines x hx
  · obtain rfl := List.mem_singleton.mp hx
    rfl

/-- What hangs each member right keeps the links over a scan. -/
theorem linked_membersInit {α : Type} {done : GroupObj → Bool} {mark : GroupObj → GroupObj}
    {add : DeviceObj → ℕ → Sys κ → Added α × Sys κ} {push : DeviceObj → ℕ → α → DeviceObj}
    {found : List ℕ} {sys sys' : Sys κ} {d' : DeviceObj} (hd : d.Linked dirs)
    (h : membersInit done mark (fun n d sys => hang (add d n sys) (push d n) d) found d sys
      = some (d', sys')) (hids : ∀ g, (mark g).id = g.id)
    (hpush : ∀ (d : DeviceObj) n a, d.Linked dirs → (push d n a).Linked dirs) : d'.Linked dirs := by
  rw [membersInit] at h
  split at h
  · obtain ⟨rfl, -⟩ := Prod.mk.injEq .. ▸ Option.some.inj h
    exact hd
  · refine deviceParse_inv (Linked dirs) ?_ (linked_onGroup mark hids hd) h
    rintro n d sys d' sys' hd h
    obtain rfl | ⟨a, rfl⟩ := hang_cases h
    · exact hd
    · exact hpush d n a hd

theorem stable_linked (K : Kernel κ) (dirs : Dirs) :
    Stable K dirs (fun _ _ => True) (Linked dirs) where
  group _ := trivial
  new _ _ _ _ _ _ h := linked_groupsInit_new h
  children kind d sys d' sys' hd _ h := by
    cases kind with
    | group =>
      rw [childrenInit, groupsInit, if_pos hd.groupInit] at h
      obtain ⟨rfl, -⟩ := Prod.mk.injEq .. ▸ Option.some.inj h
      exact hd
    | wq =>
      rw [childrenInit, wqsInit] at h
      exact linked_membersInit hd h (fun _ => rfl) fun _ n q => linked_pushWq n q
    | engine =>
      rw [childrenInit, enginesInit] at h
      exact linked_membersInit hd h (fun _ => rfl) fun _ n e => linked_pushEngine n e
  wqSetGroupId j val d sys d' sys' hd h := by
    rw [wqSetGroupId] at h
    split at h
    · obtain ⟨rfl, -⟩ := Prod.mk.injEq .. ▸ Option.some.inj h
      exact hd
    · next q hq =>
      obtain ⟨rfl, -⟩ := Prod.mk.injEq .. ▸ Option.some.inj h
      refine ⟨hd.groupInit, hd.group, hd.ids, fun x hx => ?_, hd.engines⟩
      obtain hx | rfl := List.mem_or_eq_of_mem_set hx
      · exact hd.wqs x hx
      · exact hd.wqs q (List.mem_of_getElem? hq)
  engineSetGroupId j val d sys d' sys' hd h := by
    rw [engineSetGroupId] at h
    split at h
    · obtain ⟨rfl, -⟩ := Prod.mk.injEq .. ▸ Option.some.inj h
      exact hd
    · next e he =>
      obtain ⟨rfl, -⟩ := Prod.mk.injEq .. ▸ Option.some.inj h
      refine ⟨hd.groupInit, hd.group, hd.ids, hd.wqs, fun x hx => ?_⟩
      obtain hx | rfl := List.mem_or_eq_of_mem_set hx
      · exact hd.engines x hx
      · exact hd.engines e (List.mem_of_getElem? he)

end DeviceObj

variable {κ : Type} (K : Kernel κ) (dirs : Dirs)

/-- Whatever is called on a new context, a member's link is to the group with
its current id exactly when that is the id of the last group, or there are no
groups. -/
theorem groupLink_iff (calls : List LibCall) (sys sys' : Sys κ) (ctx : Context)
    (h : runCalls K dirs calls .new sys = some (ctx, sys')) :
    ∀ d ∈ ctx.devices,
      (∀ q ∈ d.wqs, accfgWqGetGroup q = d.groupWithId (q.fields.int .groupId) ↔
        d.LastGroupHas (q.fields.int .groupId)) ∧
      ∀ e ∈ d.engines, accfgEngineGetGroup e = d.groupWithId e.fields.groupId ↔
        d.LastGroupHas e.fields.groupId := by
  intro d hmem
  have hlinked : d.Linked dirs :=
    (Settled.start.runCalls (DeviceObj.stable_linked K dirs) h).devices d hmem
  refine ⟨fun q hq => ?_, fun e he => ?_⟩
  · rw [accfgWqGetGroup, hlinked.wqs q hq]
    exact hlinked.group_eq_iff _
  · rw [accfgEngineGetGroup, hlinked.engines e he]
    exact hlinked.group_eq_iff _

/-! ### Two groups -/

theorem nodup_twoGroups : [0, 1].Nodup := by simp

/-- One device with the groups 0 and 1 and a work queue. -/
def twoGroups : Dirs := oneWqDirs [0, 1] nodup_twoGroups

/-- The work queue is enumerated, and then moved to a group. -/
def regroup (val : BitVec 32) : Option (Context × Sys Unit) :=
  runCalls zeroKernel twoGroups
    [.deviceGetFirst, .getFirst .wq 0, .wqSetGroupId 0 0 val] .new blankSys

/-- The links of the work queues there are, and where they should lead. -/
def wqLinks (ctx : Context) : List (Option ℕ × Option ℕ) :=
  ctx.devices.flatMap fun d =>
    d.wqs.map fun q => (accfgWqGetGroup q, d.groupWithId (q.fields.int .groupId))

theorem wqLinks_regroup_one :
    (regroup 1).map (fun st => wqLinks st.1) = some [(some 1, some 1)] := rfl

theorem wqLinks_regroup_zero :
    (regroup 0).map (fun st => wqLinks st.1) = some [(some 1, some 0)] := rfl

theorem groupLink_iff_regroup : ∃ st, regroup 1 = some st ∧ wqLinks st.1 = [(some 1, some 1)] ∧
    ∀ d ∈ st.1.devices, ∀ q ∈ d.wqs,
      accfgWqGetGroup q = d.groupWithId (q.fields.int .groupId) ↔
        d.LastGroupHas (q.fields.int .groupId) := by
  obtain ⟨st, hst, hlinks⟩ := Option.map_eq_some_iff.mp wqLinks_regroup_one
  refine ⟨st, hst, hlinks, fun d hd => ?_⟩
  exact (groupLink_iff zeroKernel twoGroups _ blankSys st.2 st.1 hst d hd).1

/-- After the work queue is moved from group 1 to group 0, its link still leads
to group 1. -/
theorem not_groupLink_regroup : ∃ st, regroup 0 = some st ∧
    ∃ d ∈ st.1.devices, ∃ q ∈ d.wqs,
      accfgWqGetGroup q ≠ d.groupWithId (q.fields.int .groupId) := by
  obtain ⟨st, hst, hlinks⟩ := Option.map_eq_some_iff.mp wqLinks_regroup_zero
  have hmem : ((some 1, some 0) : Option ℕ × Option ℕ) ∈ wqLinks st.1 := by
    rw [hlinks]
    exact List.mem_singleton_self _
  obtain ⟨d, hd, hq⟩ := List.mem_flatMap.mp hmem
  obtain ⟨q, hq, heq⟩ := List.mem_map.mp hq
  rw [Prod.mk.injEq] at heq
  refine ⟨st, hst, d, hd, q, hq, ?_⟩
  rw [heq.1, heq.2]
  decide

end Accfg
