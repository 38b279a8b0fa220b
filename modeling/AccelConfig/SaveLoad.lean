/-
Loading what was saved.

Where the components that were saved are idle, and their attributes can be set,
a load of the file that save-config wrote sets every attribute in it to what it
was, and leaves all else alone.

* `passes_deviceObject` — the object of one device, with all that is in it;
* `load_saved` — the whole file.
-/
import AccelConfig.SavedSettings

open CNumeral StopAtFailure

namespace Accfg

section

variable {κ : Type} {w : World κ} {r : Readings} {w' : World Tree} {ctx : List DeviceNode}
  {opts : Options} {node : DeviceNode}

/-! ### Slots -/

/-- No two members of the file set the same. -/
theorem nodup_savedSlots (hctx : Populated w ctx) :
    ((savedComps w r ctx).flatMap memberSlots).Nodup := by
  refine List.nodup_flatMap.mpr ⟨fun c _ => nodup_memberSlots c, ?_⟩
  refine (nodup_savedComps hctx).imp fun hne slot hslot hslot' => hne ?_
  rw [← comp_memberSlots slot hslot, comp_memberSlots slot hslot']

theorem slots_restores (hopts : opts.configDefaultFile = false) {c : Comp}
    (hload : Loadable w r w' c) :
    ((restores w r w' c).map Setting.slot).Sublist (memberSlots c) := by
  have hleads : Leads [] opts w' ⟨c.dev, "", [], [], []⟩ c (limitOf w c.dev) (attributes w r c)
      (memberSlots c) (restores w r w' c) := by
    refine leads_restores hopts hload fun g hg => ?_
    rw [hg]
    exact List.Subset.refl _
  exact hleads.sets

/-- What loading the objects of some components sets. -/
def restored (w : World κ) (r : Readings) (w' : World Tree) (cs : List Comp) : List Setting :=
  cs.flatMap (restores w r w')

theorem restored_concat (cs : List Comp) (c : Comp) :
    restored w r w' (cs ++ [c]) = restored w r w' cs ++ restores w r w' c := by
  rw [restored, List.flatMap_append, List.flatMap_singleton, restored]

theorem restored_subset_append (cs cs' : List Comp) :
    restored w r w' cs ⊆ restored w r w' (cs ++ cs') := by
  rw [restored, restored, List.flatMap_append]
  exact List.subset_append_left _ _

theorem slots_restored {cs : List Comp}
    (h : ∀ c ∈ cs, ((restores w r w' c).map Setting.slot).Sublist (memberSlots c)) :
    ((restored w r w' cs).map Setting.slot).Sublist (cs.flatMap memberSlots) := by
  induction cs with
  | nil => exact List.Sublist.refl _
  | cons c cs ih =>
    rw [restored, List.flatMap_cons, List.flatMap_cons, List.map_append]
    exact (h c List.mem_cons_self).append (ih fun c hc => h c (List.mem_cons_of_mem _ hc))

end

/-! ### Objects -/

section Load

variable {κ : Type} {w : World κ} {r : Readings} {w' : World Tree} {ctx : List DeviceNode}
  {opts : Options} {node : DeviceNode} {before after : List Comp} {c : Comp}
  (hctx : Populated w ctx) (hopts : opts.configDefaultFile = false)
  (hload : ∀ c ∈ savedComps w r ctx, Loadable w r w' c)

include hctx hopts hload

/-- The setters of what comes before a component, and those of its own. -/
theorem nodup_slots (hcs : savedComps w r ctx = before ++ c :: after) :
    ((restored w r w' before).map Setting.slot ++ memberSlots c).Nodup := by
  have hall := nodup_savedSlots (w := w) (r := r) hctx
  rw [hcs, List.flatMap_append, List.flatMap_cons, ← List.append_assoc] at hall
  refine (List.nodup_append.mp hall).1.sublist (List.Sublist.append ?_ (List.Sublist.refl _))
  exact slots_restored fun c hc => slots_restores hopts (hload c (hcs ▸ List.mem_append_left _ hc))

/-- The attributes of one component. -/
theorem passes_attributes (hcs : savedComps w r ctx = before ++ c :: after)
    (hlimit : ∀ g, c = .group g → limitOf w g.dev ⊆ restored w r w' before) :
    Passes (loadCall ctx opts) (AtComp w' node c (restored w r w' before))
      (callsOf (attributes w r c)) (AtComp w' node c (restored w r w' (before ++ [c]))) := by
  have hc : Loadable w r w' c := hload c (by simp [hcs])
  have hleads : Leads ctx opts w' node c (restored w r w' before) (attributes w r c)
      (memberSlots c) (restores w r w' c) := leads_restores hopts hc hlimit
  rw [restored_concat]
  exact hleads.passes _ (List.Subset.refl _) (nodup_slots hctx hopts hload hcs) hc.accepts

/-- The members of a device itself. -/
theorem passes_deviceMembers (hnode : node ∈ ctx)
    (hcs : savedComps w r ctx = before ++ .device node.id :: after) :
    Passes (loadCall ctx opts) (Loaded w' (restored w r w' before))
      (memberCalls w r (.device node.id))
      (WithParent w' node (restored w r w' (before ++ [.device node.id]))) := by
  have hd : Loadable w r w' (.device node.id) := hload _ (by simp [hcs])
  have hattrs : Passes (loadCall ctx opts)
      (AtComp w' node (.device node.id) (restored w r w' before))
      (callsOf (attributes w r (.device node.id)))
      (AtComp w' node (.device node.id) (restored w r w' (before ++ [.device node.id]))) :=
    passes_attributes hctx hopts hload hcs fun _ hg => nomatch hg
  rw [memberCalls, members_eq]
  exact ((passes_device hctx.nodup hnode hd.idle).append hattrs).weaken (fun _ h => h)
    fun _ h => h.toWithParent

/-- The members of one child. -/
theorem passes_childMembers (hchild : ChildOf node c)
    (hcs : savedComps w r ctx = before ++ c :: after)
    (hlimit : limitOf w node.id ⊆ restored w r w' before) :
    Passes (loadCall ctx opts) (WithParent w' node (restored w r w' before))
      (memberCalls w r c) (WithParent w' node (restored w r w' (before ++ [c]))) := by
  obtain ⟨kind, n, hn, rfl⟩ := hchild
  have hc : Loadable w r w' (kind.comp ⟨node.id, n⟩) := hload _ (by simp [hcs])
  have hgroup : ∀ g, kind.comp ⟨node.id, n⟩ = .group g →
      limitOf w g.dev ⊆ restored w r w' before := by
    intro g hg
    cases kind with
    | group =>
      obtain rfl := Comp.group.inj hg
      exact hlimit
    | wq => cases hg
    | engine => cases hg
  have hattrs : Passes (loadCall ctx opts)
      (AtComp w' node (kind.comp ⟨node.id, n⟩) (restored w r w' before))
      (callsOf (attributes w r (kind.comp ⟨node.id, n⟩))) (AtComp w' node (kind.comp ⟨node.id, n⟩)
        (restored w r w' (before ++ [kind.comp ⟨node.id, n⟩]))) :=
    passes_attributes hctx hopts hload hcs hgroup
  rw [memberCalls, members_eq]
  exact ((passes_child hn (hc.num kind _ rfl) hc.idle).append hattrs).weaken (fun _ h => h)
    fun _ h => h.toWithParent

/-- The members of the object of one device, with all that is in it. -/
theorem passes_deviceObject (hnode : node ∈ ctx) {jc : JsonContainer} (hdev : jc.device = node.id)
    (hchildren : ∀ c ∈ childComps w jc, ChildOf node c)
    (hcs : savedComps w r ctx = before ++ .device node.id :: (childComps w jc ++ after)) :
    Passes (loadCall ctx opts) (Loaded w' (restored w r w' before))
      (scalars (deviceObject w r jc))
      (Loaded w' (restored w r w' (before ++ .device node.id :: childComps w jc))) := by
  have hlimit : limitOf w node.id ⊆ restored w r w' (before ++ [.device node.id]) := by
    intro set hset
    rw [restored_concat]
    exact List.mem_append_right _ (List.mem_append_left _ hset)
  -- the children, one after the other
  have hrest : Passes (loadCall ctx opts)
      (WithParent w' node (restored w r w' (before ++ [.device node.id] ++ [])))
      ((childComps w jc).flatMap (memberCalls w r))
      (WithParent w' node (restored w r w' (before ++ [.device node.id] ++ childComps w jc))) := by
    refine Passes.flatMap (I := fun pre =>
      WithParent w' node (restored w r w' (before ++ [.device node.id] ++ pre)))
      fun pre c post hsplit => ?_
    have hpre : before ++ [Comp.device node.id] ++ (pre ++ [c])
        = before ++ [Comp.device node.id] ++ pre ++ [c] := (List.append_assoc _ _ _).symm
    have hcs' : savedComps w r ctx
        = (before ++ [.device node.id] ++ pre) ++ c :: (post ++ after) := by
      rw [hcs, hsplit]
      simp only [List.append_assoc, List.nil_append, List.cons_append]
    rw [hpre]
    exact passes_childMembers hctx hopts hload (hchildren c (by simp [hsplit])) hcs'
      (List.Subset.trans hlimit (restored_subset_append _ _))
  rw [List.append_nil, List.append_assoc, List.singleton_append] at hrest
  rw [scalars_deviceObject, hdev]
  exact ((passes_deviceMembers hctx hopts hload hnode hcs).append hrest).weaken (fun _ h => h)
    fun _ h => h.toLoaded

/-- The members of all objects. -/
theorem passes_objects : Passes (loadCall ctx opts) (Loaded w' [])
    (itemScalars ((savedContainers w r ctx).map (deviceObject w r)))
    (Loaded w' (restored w r w' (savedComps w r ctx))) := by
  have hall : Passes (loadCall ctx opts)
      (Loaded w' (restored w r w'
        (List.flatMap (fun jc => .device jc.device :: childComps w jc) [])))
      ((savedContainers w r ctx).flatMap fun jc => scalars (deviceObject w r jc))
      (Loaded w' (restored w r w' (savedComps w r ctx))) := by
    refine Passes.flatMap (I := fun pre => Loaded w' (restored w r w'
      (pre.flatMap fun jc => .device jc.device :: childComps w jc))) fun pre jc post hsplit => ?_
    obtain ⟨node, hnode, start, rfl⟩ :=
      exists_of_mem_savedContainers (show jc ∈ savedContainers w r ctx by simp [hsplit])
    have hcs : savedComps w r ctx = pre.flatMap (fun jc => .device jc.device :: childComps w jc) ++
        .device node.id :: (childComps w (containerOf w r.toMachine false selectAll start node) ++
          post.flatMap fun jc => .device jc.device :: childComps w jc) := by
      rw [savedComps, hsplit, List.flatMap_append, List.flatMap_cons, containerOf_device,
        List.cons_append]
    rw [List.flatMap_append, List.flatMap_singleton, containerOf_device]
    exact passes_deviceObject hctx hopts hload hnode containerOf_device
      (mem_childComps hctx hnode) hcs
  rw [itemScalars_map]
  exact hall

end Load

/-- The load of the objects of a file. -/
theorem parseConfig_saved {κ : Type} {w : World κ} {r : Readings} {w' : World Tree}
    {ctx : List DeviceNode} {opts : Options} (hctx : Populated w ctx)
    (hopts : opts.configDefaultFile = false) (hsome : savedComps w r ctx ≠ [])
    (hload : ∀ c ∈ savedComps w r ctx, Loadable w r w' c) :
    ∃ st, parseConfig (configureJsonValue storeKernel ctx opts)
        (some (some (.array ((savedContainers w r ctx).map (deviceObject w r)))))
        (LoadState.start w') = (.ret 0, st) ∧
      Loaded w' (restored w r w' (savedComps w r ctx)) st := by
  have hne : (savedContainers w r ctx).map (deviceObject w r) ≠ [] := by
    rw [Ne, List.map_eq_nil_iff]
    intro hnil
    rw [savedComps, hnil] at hsome
    exact hsome rfl
  have hwalk : ∀ v ∈ (savedContainers w r ctx).map (deviceObject w r), Walkable v := walkable_saved
  obtain ⟨st, hrun, hloaded⟩ := passes_objects hctx hopts hload (LoadState.start w')
    ⟨rfl, Progress.start w'⟩
  refine ⟨st, ?_, hloaded⟩
  rw [parseConfig_array _ hne, jsonItems_eq_runAll _ _ (fun v hv => (hwalk v hv).object)
    (fun v hv => (hwalk v hv).shape) fun v hv => (hwalk v hv).flat]
  have hrun' : runAll (fun c => configureJsonValue storeKernel ctx opts c.1 c.2)
      (itemScalars ((savedContainers w r ctx).map (deviceObject w r))) (LoadState.start w')
      = (.ret 0, st) := hrun
  rw [hrun']
  rfl

/-- A load of what was saved succeeds, and its setters are those of what was
saved: after it they are all in force, and what none of them sets is as it was. -/
theorem load_saved {κ : Type} {w : World κ} {r : Readings} {w' : World Tree}
    {ctx : List DeviceNode} {opts : Options} (hctx : Populated w ctx)
    (hopts : opts.configDefaultFile = false) (hsome : savedComps w r ctx ≠ [])
    (hload : ∀ c ∈ savedComps w r ctx, Loadable w r w' c) :
    ∃ saved st, cmdSave w r ctx = .ok saved ∧
      parseConfig (configureJsonValue storeKernel ctx opts) (some (some (.array saved)))
        (LoadState.start w') = (.ret 0, st) ∧
      settings st.log = restored w r w' (savedComps w r ctx) ∧
      Progress w' (restored w r w' (savedComps w r ctx)) st.world := by
  obtain ⟨st, hparse, hloaded⟩ := parseConfig_saved hctx hopts hsome hload
  exact ⟨_, st, cmdSave_eq hctx, hparse, hloaded.log, hloaded.progress⟩

/-! ### One component of each kind -/

/-- `dsa0` with a group, a work queue and an engine. -/
def oneOfEach : List DeviceNode := [⟨⟨.dsa, 0⟩, "dsa", [0], [0], [0]⟩]

/-- The device has a limit of read buffers, and the work queue a name. -/
def oneOfEachWorld : World Unit :=
  { Setting.blankWorld with
    device := fun d => { maxGroups := 1, readBufferLimit := if d = ⟨.dsa, 0⟩ then 4 else 0 }
    wq := fun c => if c = ⟨⟨.dsa, 0⟩, 0⟩ then ⟨fun _ => 0, 4096, fun _ => some "app", .user⟩
      else ⟨fun _ => 0, 0, fun _ => none, .none⟩ }

def oneOfEachReadings : Readings :=
  { everythingOn with mode := fun _ => .shared, opConfig := fun _ => some fun _ => 1 }

/-- Every attribute is there, and nothing is enabled. -/
def idleTree : Tree where
  file
    | .attr _ "(null)" => none
    | .attr _ _ => some "disabled".toList
    | _ => none
  noNull _ := rfl

/-- The same device, before it is configured. -/
def idleWorld : World Tree where
  sys := ⟨idleTree, 0, 0, none, []⟩
  device _ := { maxGroups := 1, configurable := 1 }
  group _ _ := 0
  wq _ := ⟨fun _ => 0, 0, fun _ => none, .none⟩
  engine _ := ⟨0⟩

theorem populated_oneOfEach : Populated oneOfEachWorld oneOfEach where
  nodup := by decide
  children := by
    intro node hnode kind
    rw [List.mem_singleton.mp hnode]
    cases kind <;> decide
  groups_le := by
    intro node hnode
    rw [List.mem_singleton.mp hnode]
    exact Nat.le_refl 1
  ids := by decide

theorem savedComps_oneOfEach : savedComps oneOfEachWorld oneOfEachReadings oneOfEach
    = [.device ⟨.dsa, 0⟩, .group ⟨⟨.dsa, 0⟩, 0⟩, .wq ⟨⟨.dsa, 0⟩, 0⟩, .engine ⟨⟨.dsa, 0⟩, 0⟩] := by
  rfl

theorem isSome_fileOf_idleTree (slot : Slot) : (idleTree.fileOf slot).isSome := by
  cases slot with
  | group field c => cases field <;> rfl
  | wq field c => cases field <;> rfl
  | wqStr field c => cases field <;> rfl
  | _ => rfl

theorem permitted_oneOfEach : ∀ c ∈ savedComps oneOfEachWorld oneOfEachReadings oneOfEach,
    ∀ set ∈ restores oneOfEachWorld oneOfEachReadings idleWorld c,
      set.Permitted (idleWorld.device set.comp.dev) := by
  rw [savedComps_oneOfEach]
  decide

theorem loadable_oneOfEach : ∀ c ∈ savedComps oneOfEachWorld oneOfEachReadings oneOfEach,
    Loadable oneOfEachWorld oneOfEachReadings idleWorld c := by
  intro c hc
  refine ⟨fun set hset => ⟨isSome_fileOf_idleTree _, permitted_oneOfEach c hc set hset⟩, ?_, ?_,
    fun _ _ _ _ _ => Int.le_refl 0, fun _ _ => WqMode.noConfusion, ?_⟩
  · cases c with
    | device d => exact fun h => absurd (Option.some.inj h) (by decide)
    | wq c =>
      exact ⟨fun h => absurd (Option.some.inj h) (by decide),
        fun h => absurd (Option.some.inj h) (by decide)⟩
    | _ => trivial
  · intro kind g hg
    subst hg
    rw [savedComps_oneOfEach] at hc
    have hnum : g.num = 0 := by
      cases kind <;> simp [Kind.comp] at hc <;> rw [hc]
    rw [hnum]
    decide
  · rintro q rfl
    rw [savedComps_oneOfEach] at hc
    obtain rfl : q = ⟨⟨.dsa, 0⟩, 0⟩ := by simpa using hc
    rfl

theorem load_saved_oneOfEach :
    ∃ saved st, cmdSave oneOfEachWorld oneOfEachReadings oneOfEach = .ok saved ∧
      parseConfig (configureJsonValue storeKernel oneOfEach ⟨false, false, false⟩)
        (some (some (.array saved))) (LoadState.start idleWorld) = (.ret 0, st) ∧
      settings st.log = restored oneOfEachWorld oneOfEachReadings idleWorld
        (savedComps oneOfEachWorld oneOfEachReadings oneOfEach) ∧
      Progress idleWorld (restored oneOfEachWorld oneOfEachReadings idleWorld
        (savedComps oneOfEachWorld oneOfEachReadings oneOfEach)) st.world :=
  load_saved populated_oneOfEach rfl (by rw [savedComps_oneOfEach]; exact List.cons_ne_nil _ _)
    loadable_oneOfEach

end Accfg
