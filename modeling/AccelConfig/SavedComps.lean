/-
The components that save-config writes.

On devices that are populated as they may be, the object of a group has the work
queues and engines that have the id of the group cached, and no component is
written twice.

* `childComps_eq` — the children in the object of a device;
* `mem_childComps` — each is a child of the device;
* `nodup_savedComps` — what is written is written once.
-/
import AccelConfig.SaveConfig

namespace Accfg

section Children

variable {κ : Type} (w : World κ) (r : Readings) (node : DeviceNode) (start : ℕ)

/-- The work queues that are shown and have the id of the group. -/
def groupedWqs (g : ℕ) : List ChildId :=
  (shownWqs r.toMachine false selectAll node).filter fun c =>
    (w.wq c).int .groupId = accfgGroupGetId ⟨node.id, g⟩

/-- The engines that have the id of the group. -/
def groupedEngines (g : ℕ) : List ChildId :=
  (visitedEngines selectAll node).filter fun c =>
    (w.engine c).groupId = accfgGroupGetId ⟨node.id, g⟩

/-- The engines whose id is that of no slot. -/
def looseEngines : List ChildId :=
  (visitedEngines selectAll node).filter fun c => ∀ i < maxGroups w node.id,
    (w.engine c).groupId ≠ (withGroups w node.id start node.groups).jgroupId i

/-- A group, and what is in it. -/
def groupWithin (g : ℕ) : List Comp :=
  .group ⟨node.id, g⟩ :: ((groupedWqs w r node g).map .wq ++ (groupedEngines w node g).map .engine)

variable {w r node start} {ctx : List DeviceNode}

/-- The array of the slot that a group was given. -/
theorem attached_placed {jc : JsonContainer} {d : DevId} {nums : List ℕ} {g : ℕ}
    (hassigned : jc.jgroupAssigned = (withGroups w d start nums).jgroupAssigned)
    (hlen : nums.length ≤ maxGroups w d) (hnodup : nums.Nodup) (hg : g ∈ nums)
    (groupId : ChildId → BitVec 32) (rest : Bool) (cs : List ChildId) :
    attached jc (maxGroups w d) (placed (withGroups w d start nums).jgroupId (maxGroups w d)
      groupId rest cs) ⟨d, g⟩
      = arrayOf (cs.filter fun c => groupId c = accfgGroupGetId ⟨d, g⟩) := by
  obtain ⟨i, hi, hgiven, hid⟩ := slot_of_visited (w := w) (d := d) start hlen hg
  have hfind : ((List.range (maxGroups w d)).find? fun i => jc.jgroupAssigned i = some ⟨d, g⟩)
      = some i := by
    rw [hassigned]
    cases hfind : (List.range (maxGroups w d)).find? fun i =>
        (withGroups w d start nums).jgroupAssigned i = some ⟨d, g⟩ with
    | none =>
      have hnot := List.find?_eq_none.mp hfind i (List.mem_range.mpr hi)
      exact absurd hgiven (by simpa using hnot)
    | some j =>
      have hj : (withGroups w d start nums).jgroupAssigned j = some ⟨d, g⟩ := by
        simpa using List.find?_some hfind
      rw [slot_unique hlen hnodup hgiven hj]
  rw [attached, hfind]
  show (placed _ _ _ _ _).group i = _
  rw [placed]
  simp only [hi, hid, true_and]

/-- The container of a device that save-config makes. -/
theorem container_everything : containerOf w r.toMachine false selectAll start node =
    { withGroups w node.id start node.groups with
      wqs := placed (withGroups w node.id start node.groups).jgroupId (maxGroups w node.id)
        (fun c => (w.wq c).int .groupId) false (shownWqs r.toMachine false selectAll node)
      engines := placed (withGroups w node.id start node.groups).jgroupId (maxGroups w node.id)
        (fun c => (w.engine c).groupId) true (visitedEngines selectAll node) } := by
  rw [containerOf_eq, show visited selectAll.group node.groups = node.groups from visited_none _]

/-- The children in the object of a device: its groups with what is in them, and
the engines that are in none. -/
theorem childComps_eq (hctx : Populated w ctx) (hnode : node ∈ ctx) :
    childComps w (containerOf w r.toMachine false selectAll start node)
      = node.groups.flatMap (groupWithin w r node) ++ (looseEngines w node start).map .engine := by
  have hnodup : node.groups.Nodup := hctx.children node hnode .group
  have hlen := hctx.groups_le node hnode
  have hdev : (containerOf w r.toMachine false selectAll start node).device = node.id :=
    containerOf_device
  have hgroups : (containerOf w r.toMachine false selectAll start node).jgroups
      = arrayOf (node.groups.map (ChildId.mk node.id)) := by
    rw [container_everything]
    exact jgroups_withGroups _ _ _
  have hgiven : (containerOf w r.toMachine false selectAll start node).jgroupAssigned
      = (withGroups w node.id start node.groups).jgroupAssigned := by
    rw [container_everything]
  have hloose : ((containerOf w r.toMachine false selectAll start node).engines.ungroup.getD [])
      = looseEngines w node start := by
    rw [container_everything]
    simp only [placed, getD_arrayOf, looseEngines, true_and]
  have hrest : ((containerOf w r.toMachine false selectAll start node).wqs.ungroup.getD [])
      = [] := by
    rw [container_everything, placed]
    simp
  rw [childComps, hgroups, hloose, hrest, getD_arrayOf, List.map_nil, List.nil_append,
    List.flatMap_map]
  congr 1
  refine List.flatMap_congr fun g hg => ?_
  have hwqs : (attached (containerOf w r.toMachine false selectAll start node) (maxGroups w node.id)
      (containerOf w r.toMachine false selectAll start node).wqs ⟨node.id, g⟩).getD []
      = groupedWqs w r node g := by
    rw [show (containerOf w r.toMachine false selectAll start node).wqs = placed _ _ _ _ _ from
      congrArg JsonContainer.wqs container_everything, attached_placed hgiven hlen hnodup hg,
      getD_arrayOf]
    rfl
  have hengines : (attached (containerOf w r.toMachine false selectAll start node)
      (maxGroups w node.id) (containerOf w r.toMachine false selectAll start node).engines
      ⟨node.id, g⟩).getD [] = groupedEngines w node g := by
    rw [show (containerOf w r.toMachine false selectAll start node).engines = placed _ _ _ _ _ from
      congrArg JsonContainer.engines container_everything, attached_placed hgiven hlen hnodup hg,
      getD_arrayOf]
    rfl
  rw [groupComps, hdev, hwqs, hengines, groupWithin]

/-- A component is a child of the device. -/
def ChildOf (node : DeviceNode) (c : Comp) : Prop :=
  ∃ kind, ∃ n ∈ node.nums kind, c = kind.comp ⟨node.id, n⟩

theorem mem_shownWqs {c : ChildId} (h : c ∈ shownWqs r.toMachine false selectAll node) :
    ChildOf node (.wq c) := by
  obtain ⟨n, hn, rfl⟩ := List.mem_map.mp h
  exact ⟨.wq, n, (visited_sublist _ _).subset (List.mem_of_mem_filter hn), rfl⟩

theorem mem_visitedEngines {c : ChildId} (h : c ∈ visitedEngines selectAll node) :
    ChildOf node (.engine c) := by
  obtain ⟨n, hn, rfl⟩ := List.mem_map.mp h
  exact ⟨.engine, n, (visited_sublist _ _).subset hn, rfl⟩

theorem mem_groupWithin {g : ℕ} (hg : g ∈ node.groups) :
    ∀ c ∈ groupWithin w r node g, ChildOf node c := by
  intro c hc
  rw [groupWithin, List.mem_cons, List.mem_append, List.mem_map, List.mem_map] at hc
  rcases hc with rfl | ⟨q, hq, rfl⟩ | ⟨e, he, rfl⟩
  · exact ⟨.group, g, hg, rfl⟩
  · exact mem_shownWqs (List.mem_of_mem_filter hq)
  · exact mem_visitedEngines (List.mem_of_mem_filter he)

theorem mem_childComps (hctx : Populated w ctx) (hnode : node ∈ ctx) :
    ∀ c ∈ childComps w (containerOf w r.toMachine false selectAll start node),
      ChildOf node c := by
  intro c hc
  rw [childComps_eq hctx hnode, List.mem_append, List.mem_flatMap, List.mem_map] at hc
  rcases hc with ⟨g, hg, hin⟩ | ⟨e, he, rfl⟩
  · exact mem_groupWithin hg c hin
  · exact mem_visitedEngines (List.mem_of_mem_filter he)

/-! ### No component is written twice -/

theorem nodup_map_wq {cs : List ChildId} (h : cs.Nodup) : (cs.map Comp.wq).Nodup :=
  h.map fun _ _ => Comp.wq.inj

theorem nodup_map_engine {cs : List ChildId} (h : cs.Nodup) : (cs.map Comp.engine).Nodup :=
  h.map fun _ _ => Comp.engine.inj

theorem nodup_groupWithin (hctx : Populated w ctx) (hnode : node ∈ ctx) (g : ℕ) :
    (groupWithin w r node g).Nodup := by
  rw [groupWithin, List.nodup_cons, List.nodup_append]
  refine ⟨by simp, nodup_map_wq ((hctx.wqs_nodup hnode).filter _),
    nodup_map_engine ((hctx.engines_nodup hnode).filter _), ?_⟩
  intro c hc c' hc'
  obtain ⟨q, -, rfl⟩ := List.mem_map.mp hc
  obtain ⟨e, -, rfl⟩ := List.mem_map.mp hc'
  exact Comp.noConfusion

/-- What is in one group is not in another. -/
theorem disjoint_groupWithin (hctx : Populated w ctx) (hnode : node ∈ ctx) {g g' : ℕ}
    (hg : g ∈ node.groups) (hg' : g' ∈ node.groups) (hne : g ≠ g') :
    List.Disjoint (groupWithin w r node g) (groupWithin w r node g') := by
  have hids : accfgGroupGetId ⟨node.id, g⟩ ≠ accfgGroupGetId ⟨node.id, g'⟩ :=
    fun heq => hne (List.inj_on_of_nodup_map (hctx.ids node hnode) hg hg' heq)
  intro c hc hc'
  rw [groupWithin, List.mem_cons, List.mem_append, List.mem_map, List.mem_map] at hc hc'
  rcases hc with rfl | ⟨q, hq, rfl⟩ | ⟨e, he, rfl⟩
  · rcases hc' with heq | ⟨q, -, heq⟩ | ⟨e, -, heq⟩
    · exact hne (ChildId.mk.inj (Comp.group.inj heq)).2
    · cases heq
    · cases heq
  · rcases hc' with heq | ⟨q', hq', heq⟩ | ⟨e, -, heq⟩
    · cases heq
    · obtain rfl := Comp.wq.inj heq
      exact hids ((of_decide_eq_true (List.mem_filter.mp hq).2).symm.trans
        (of_decide_eq_true (List.mem_filter.mp hq').2))
    · cases heq
  · rcases hc' with heq | ⟨q', -, heq⟩ | ⟨e', he', heq⟩
    · cases heq
    · cases heq
    · obtain rfl := Comp.engine.inj heq
      exact hids ((of_decide_eq_true (List.mem_filter.mp he).2).symm.trans
        (of_decide_eq_true (List.mem_filter.mp he').2))

theorem nodup_childComps (hctx : Populated w ctx) (hnode : node ∈ ctx) :
    (childComps w (containerOf w r.toMachine false selectAll start node)).Nodup := by
  have hgroups : node.groups.Nodup := hctx.children node hnode .group
  rw [childComps_eq hctx hnode, List.nodup_append, List.nodup_flatMap]
  refine ⟨⟨fun g _ => nodup_groupWithin hctx hnode g, ?_⟩,
    nodup_map_engine ((hctx.engines_nodup hnode).filter _), ?_⟩
  · refine hgroups.imp_of_mem fun hg hg' hne => ?_
    exact disjoint_groupWithin hctx hnode hg hg' hne
  · intro c hc c' hc' heq
    subst heq
    obtain ⟨e, he, rfl⟩ := List.mem_map.mp hc'
    obtain ⟨g, hg, hin⟩ := List.mem_flatMap.mp hc
    rw [groupWithin, List.mem_cons, List.mem_append, List.mem_map, List.mem_map] at hin
    -- the id of the engine would be that of the group's slot
    rcases hin with hgroup | ⟨q, -, hq⟩ | ⟨e', he', heq⟩
    · cases hgroup
    · cases hq
    · obtain rfl := Comp.engine.inj heq
      obtain ⟨i, hi, -, hid⟩ :=
        slot_of_visited (w := w) (d := node.id) start (hctx.groups_le node hnode) hg
      have hloose := of_decide_eq_true (List.mem_filter.mp he).2
      exact hloose i hi ((of_decide_eq_true (List.mem_filter.mp he').2).trans hid.symm)

/-- The components that are written, in document order. -/
def savedComps (w : World κ) (r : Readings) (ctx : List DeviceNode) : List Comp :=
  (savedContainers w r ctx).flatMap fun jc => .device jc.device :: childComps w jc

/-- Each container is that of a device that is enabled. -/
theorem exists_of_mem_savedContainers {jc : JsonContainer} (h : jc ∈ savedContainers w r ctx) :
    ∃ node ∈ ctx, ∃ start, jc = containerOf w r.toMachine false selectAll start node :=
  exists_of_mem_containers h

theorem dev_of_mem {jc : JsonContainer} (hctx : Populated w ctx)
    (h : jc ∈ savedContainers w r ctx) :
    ∀ c ∈ Comp.device jc.device :: childComps w jc, c.dev = jc.device := by
  obtain ⟨node, hnode, start, rfl⟩ := exists_of_mem_savedContainers h
  intro c hc
  rcases List.mem_cons.mp hc with rfl | hchild
  · rfl
  · obtain ⟨kind, n, -, rfl⟩ := mem_childComps hctx hnode c hchild
    rw [containerOf_device]
    cases kind <;> rfl

theorem nodup_savedComps (hctx : Populated w ctx) : (savedComps w r ctx).Nodup := by
  have hdevices : ((savedContainers w r ctx).map (·.device)).Nodup := by
    rw [savedContainers, containers_device]
    exact hctx.nodup.sublist (List.filter_sublist.map _)
  rw [savedComps, List.nodup_flatMap]
  constructor
  · intro jc hjc
    obtain ⟨node, hnode, start, rfl⟩ := exists_of_mem_savedContainers hjc
    refine List.nodup_cons.mpr ⟨fun hmem => ?_, nodup_childComps hctx hnode⟩
    obtain ⟨kind, n, -, heq⟩ := mem_childComps hctx hnode _ hmem
    cases kind <;> cases heq
  · refine (List.pairwise_map.mp hdevices).imp_of_mem fun hjc hjc' hne => ?_
    intro c hc hc'
    exact hne ((dev_of_mem hctx hjc c hc).symm.trans (dev_of_mem hctx hjc' c hc'))

end Children

end Accfg
