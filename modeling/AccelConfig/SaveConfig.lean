/-
The configuration that save-config writes.

save-config walks over the devices the way the listing does, and turns every
component that it meets into an object.  An object of a group gets the arrays of
the group's slot, and that of a device the array of its groups and the one of
the engines that are in no group; an array that was not made is not there.

* `scalars_deviceObject` — the scalar members of an object of a device, in
  document order: each component's, one component after the other;
* `cmdSave_eq` — one such object for each device that is enabled;
* `walkable_saved` — load-config can walk over what is written.
-/
import AccelConfig.ListingPartition
import AccelConfig.OpConfigText
import AccelConfig.WalkComplete

open CNumeral

namespace Accfg

/-! ### Components as objects -/

/-- What save-config reads of the work queues besides what they have cached. -/
structure Readings extends Machine where
  mode : ChildId → WqMode
  opConfig : ChildId → Option (Fin 8 → BitVec 32)

/-- `json_object_new_int`. -/
def newInt (n : BitVec 32) : Json := .int n.toInt

/-- `json_object_object_add` under a condition. -/
def addIf (p : Prop) [Decidable p] (key : String) (val : Json) : List (String × Json) :=
  if p then [(key, val)] else []

/-- `json_object_object_add` of what may be missing. -/
def addSome (key : String) (val : Option Json) : List (String × Json) :=
  val.toList.map fun v => (key, v)

/-- `wq_type_str`. -/
def WqType.str : WqType → String
  | none => "none"
  | kernel => "kernel"
  | user => "user"

section Objects

variable {κ : Type} (w : World κ) (r : Readings)

/-- `util_device_to_json`, up to where it ends when it is called to save. -/
def utilDeviceToJson (d : DevId) : List (String × Json) :=
  let dev := w.device d
  [("dev", .string (Comp.device d).devname)] ++
  addIf (d.type ≠ .iax) "read_buffer_limit" (newInt dev.readBufferLimit) ++
  addIf (0 ≤ dev.eventLogSize.toInt) "event_log_size" (newInt dev.eventLogSize)

/-- `group_to_json`. -/
def groupToJson (c : ChildId) : List (String × Json) :=
  let group := w.group c
  [("dev", .string (Comp.group c).devname)] ++
  addIf (c.dev.type ≠ .iax) "read_buffers_reserved" (newInt (group .readBuffersReserved)) ++
  addIf (c.dev.type ≠ .iax) "use_read_buffer_limit" (newInt (group .useReadBufferLimit)) ++
  addIf (c.dev.type ≠ .iax) "read_buffers_allowed" (newInt (group .readBuffersAllowed)) ++
  addIf (0 ≤ (group .descProgressLimit).toInt) "desc_progress_limit"
    (newInt (group .descProgressLimit)) ++
  addIf (0 ≤ (group .batchProgressLimit).toInt) "batch_progress_limit"
    (newInt (group .batchProgressLimit))

/-- The string that `util_wq_to_json` adds for the mode; of a mode that is none
of the two, `jobj` still holds the name. -/
def modeText (c : ChildId) : String := (r.mode c).str.getD (Comp.wq c).devname

/-- `util_wq_to_json`, called to save. -/
def utilWqToJson (c : ChildId) : List (String × Json) :=
  let q := w.wq c
  [("dev", .string (Comp.wq c).devname), ("mode", .string (modeText r c))] ++
  -- the size is compared with `ULLONG_MAX`
  addIf (q.int .size ≠ -1) "size" (newInt (q.int .size)) ++
  addIf (0 ≤ (q.int .groupId).toInt) "group_id" (newInt (q.int .groupId)) ++
  addIf (0 ≤ (q.int .priority).toInt) "priority" (newInt (q.int .priority)) ++
  [("block_on_fault", newInt (q.int .blockOnFault)),
    ("max_batch_size", newInt (q.int .maxBatchSize)),
    ("max_transfer_size", .int q.maxTransferSize.toInt),
    ("type", .string q.type.str),
    ("name", .string ((q.str .name).getD ""))] ++
  addSome "driver_name" ((q.str .driverName).map .string) ++
  [("threshold", newInt (q.int .threshold))] ++
  addIf (0 ≤ (q.int .prsDisable).toInt) "prs_disable" (newInt (q.int .prsDisable)) ++
  [("ats_disable", newInt (q.int .atsDisable))] ++
  addSome "op_config" ((r.opConfig c).map fun bits => .string (String.ofList
    (utilBitmaskToString bits)))

/-- `util_engine_to_json`. -/
def utilEngineToJson (c : ChildId) : List (String × Json) :=
  [("dev", .string (Comp.engine c).devname)] ++
  addIf (0 ≤ (w.engine c).groupId.toInt) "group_id" (newInt (w.engine c).groupId)

/-- The scalar members of the object of a component. -/
def members : Comp → List (String × Json)
  | .device d => utilDeviceToJson w d
  | .group c => groupToJson w c
  | .wq c => utilWqToJson w r c
  | .engine c => utilEngineToJson w c

/-! ### The tree -/

/-- `json_object_object_add` of an array, where it is made. -/
def addArray (key : String) (cs : Option (List ChildId)) (item : ChildId → Json) :
    List (String × Json) :=
  addSome key (cs.map fun cs => .array (cs.map item))

/-- The array of the slot that was given to the group. -/
def attached (jc : JsonContainer) (n : ℕ) (a : Arrays) (c : ChildId) : Option (List ChildId) :=
  ((List.range n).find? fun i => jc.jgroupAssigned i = some c).bind a.group

/-- The object of a group, once the walk is over. -/
def groupObject (jc : JsonContainer) (c : ChildId) : Json :=
  .object (groupToJson w c ++
    addArray "grouped_workqueues" (attached jc (maxGroups w jc.device) jc.wqs c)
      (fun c => .object (utilWqToJson w r c)) ++
    addArray "grouped_engines" (attached jc (maxGroups w jc.device) jc.engines c)
      fun c => .object (utilEngineToJson w c))

/-- The object of a device, once the walk is over. -/
def deviceObject (jc : JsonContainer) : Json :=
  .object (utilDeviceToJson w jc.device ++
    addArray "groups" jc.jgroups (groupObject w r jc) ++
    addArray "ungrouped workqueues" jc.wqs.ungroup (fun c => .object (utilWqToJson w r c)) ++
    addArray "ungrouped_engines" jc.engines.ungroup fun c => .object (utilEngineToJson w c))

/-- `util_param`, which save-config leaves empty. -/
def noFilter : UtilFilterParams := ⟨none, none, none, none⟩

/-- `cmd_save`: the array that `save_config` writes, or what the walk failed
with.  The containers are in the reverse order of the array. -/
def cmdSave (ctx : List DeviceNode) : Except ℤ (List Json) :=
  match utilFilterWalk w r.toMachine false ctx noFilter .start with
  | (rc, lfa) => if rc ≠ 0 then .error rc else .ok (lfa.jdevList.reverse.map (deviceObject w r))

end Objects

/-! ### Keys and values -/

section Keys

variable {κ : Type} (w : World κ) (r : Readings)

/-- The keys an object of a component can have, in order. -/
def memberKeys : Comp → List String
  | .device _ => ["dev", "read_buffer_limit", "event_log_size"]
  | .group _ => ["dev", "read_buffers_reserved", "use_read_buffer_limit", "read_buffers_allowed",
      "desc_progress_limit", "batch_progress_limit"]
  | .wq _ => ["dev", "mode", "size", "group_id", "priority", "block_on_fault", "max_batch_size",
      "max_transfer_size", "type", "name", "driver_name", "threshold", "prs_disable",
      "ats_disable", "op_config"]
  | .engine _ => ["dev", "group_id"]

theorem keys_addIf (p : Prop) [Decidable p] (key : String) (val : Json) :
    ((addIf p key val).map Prod.fst).Sublist [key] := by
  rw [addIf]
  split
  · exact List.Sublist.refl _
  · exact List.nil_sublist _

theorem keys_addSome (key : String) (val : Option Json) :
    ((addSome key val).map Prod.fst).Sublist [key] := by
  cases val with
  | none => exact List.nil_sublist _
  | some v => exact List.Sublist.refl _

theorem scalar_addIf {p : Prop} [Decidable p] {key : String} {val : Json}
    (h : val.isScalar = true) : ∀ m ∈ addIf p key val, m.2.isScalar = true := by
  intro m hm
  rw [addIf] at hm
  split at hm
  · rw [List.mem_singleton.mp hm, h]
  · exact absurd hm List.not_mem_nil

theorem scalar_addSome {key : String} {val : Option Json}
    (h : ∀ v ∈ val, v.isScalar = true) : ∀ m ∈ addSome key val, m.2.isScalar = true := by
  intro m hm
  obtain ⟨v, hv, rfl⟩ := List.mem_map.mp hm
  exact h v (Option.mem_toList.mp hv)

theorem keys_members (c : Comp) : ((members w r c).map Prod.fst).Sublist (memberKeys c) := by
  cases c with
  | device d =>
    simp only [members, utilDeviceToJson, List.map_append]
    exact (List.Sublist.refl ["dev"]).append (keys_addIf ..) |>.append (keys_addIf ..)
  | group c =>
    simp only [members, groupToJson, List.map_append]
    exact (List.Sublist.refl ["dev"]).append (keys_addIf ..) |>.append (keys_addIf ..)
      |>.append (keys_addIf ..) |>.append (keys_addIf ..) |>.append (keys_addIf ..)
  | wq c =>
    simp only [members, utilWqToJson, List.map_append]
    exact (List.Sublist.refl ["dev", "mode"]).append (keys_addIf ..) |>.append (keys_addIf ..)
      |>.append (keys_addIf ..)
      |>.append (List.Sublist.refl ["block_on_fault", "max_batch_size", "max_transfer_size",
        "type", "name"])
      |>.append (keys_addSome ..) |>.append (List.Sublist.refl ["threshold"])
      |>.append (keys_addIf ..) |>.append (List.Sublist.refl ["ats_disable"])
      |>.append (keys_addSome ..)
  | engine c =>
    simp only [members, utilEngineToJson, List.map_append]
    exact (List.Sublist.refl ["dev"]).append (keys_addIf ..)

theorem scalar_members (c : Comp) : ∀ m ∈ members w r c, m.2.isScalar = true := by
  have hint : ∀ {p : Prop} [Decidable p] {key : String} {n : BitVec 32},
      ∀ m ∈ addIf p key (newInt n), m.2.isScalar = true := scalar_addIf rfl
  have hstr : ∀ {key : String} {α : Type} {val : Option α} {f : α → String},
      ∀ m ∈ addSome key (val.map fun v => .string (f v)), m.2.isScalar = true := by
    refine scalar_addSome fun v hv => ?_
    obtain ⟨a, -, rfl⟩ := Option.map_eq_some_iff.mp hv
    rfl
  cases c with
  | device d =>
    simp only [members, utilDeviceToJson, List.forall_mem_append]
    exact ⟨⟨by simp [Json.isScalar], hint⟩, hint⟩
  | group c =>
    simp only [members, groupToJson, List.forall_mem_append]
    exact ⟨⟨⟨⟨⟨by simp [Json.isScalar], hint⟩, hint⟩, hint⟩, hint⟩, hint⟩
  | wq c =>
    simp only [members, utilWqToJson, List.forall_mem_append]
    exact ⟨⟨⟨⟨⟨⟨⟨⟨⟨by simp [Json.isScalar], hint⟩, hint⟩, hint⟩,
      by simp [newInt, Json.isScalar]⟩, hstr⟩, by simp [newInt, Json.isScalar]⟩, hint⟩,
      by simp [newInt, Json.isScalar]⟩, hstr⟩
  | engine c =>
    simp only [members, utilEngineToJson, List.forall_mem_append]
    exact ⟨by simp [Json.isScalar], hint⟩

theorem nodup_memberKeys (c : Comp) : (memberKeys c).Nodup := by
  cases c <;> simp [memberKeys]

end Keys

/-! ### Trees that can be walked over -/

theorem memberScalars_append (ms ms' : List (String × Json)) :
    memberScalars (ms ++ ms') = memberScalars ms ++ memberScalars ms' := by
  induction ms with
  | nil => rfl
  | cons m ms ih =>
    obtain ⟨key, val⟩ := m
    rw [List.cons_append, memberScalars, memberScalars, ih, List.append_assoc]

theorem memberScalars_of_scalar {ms : List (String × Json)}
    (h : ∀ m ∈ ms, m.2.isScalar = true) : memberScalars ms = ms.map fun m => (m.2, some m.1) := by
  induction ms with
  | nil => rfl
  | cons m ms ih =>
    obtain ⟨key, val⟩ := m
    rw [memberScalars, if_pos (h (key, val) List.mem_cons_self),
      ih fun m hm => h m (List.mem_cons_of_mem _ hm)]
    rfl

theorem itemScalars_map {α : Type} (xs : List α) (item : α → Json) :
    itemScalars (xs.map item) = xs.flatMap fun x => scalars (item x) := by
  induction xs with
  | nil => rfl
  | cons x xs ih => rw [List.map_cons, itemScalars, ih, List.flatMap_cons]

theorem memberScalars_addArray (key : String) (cs : Option (List ChildId)) (item : ChildId → Json) :
    memberScalars (addArray key cs item) = (cs.getD []).flatMap fun c => scalars (item c) := by
  cases cs with
  | none => rfl
  | some cs =>
    show memberScalars [(key, .array (cs.map item))] = _
    rw [memberScalars, memberScalars, List.append_nil, if_neg (by simp [Json.isScalar]), scalars,
      itemScalars_map]
    rfl

/-- load-config walks over it without a detour. -/
structure Walkable (v : Json) : Prop where
  object : isObject v = true
  shape : EveryObject ConfigShape v
  flat : EveryObject NoObjectMember v

/-- The value of a member is an array of objects that can be walked over. -/
def WalkableArray (v : Json) : Prop := ∃ vs, v = .array vs ∧ vs ≠ [] ∧ ∀ v ∈ vs, Walkable v

theorem everyObject_scalar {P : List (String × Json) → Prop} {v : Json}
    (h : v.isScalar = true) : EveryObject P v := by
  cases v <;> simp_all [Json.isScalar, EveryObject]

theorem walkable_object {ms : List (String × Json)} (hkeys : (ms.map Prod.fst).Nodup)
    (h : ∀ m ∈ ms, m.2.isScalar = true ∨ WalkableArray m.2) : Walkable (.object ms) where
  object := rfl
  shape := by
    refine everyObject_object.mpr ⟨⟨hkeys, ?_⟩, ?_⟩
    · intro m hm vs heq
      rcases h m hm with hscalar | ⟨vs', heq', hne, hall⟩
      · rw [heq] at hscalar
        exact absurd hscalar (by simp [Json.isScalar])
      · obtain rfl := Json.array.inj (heq.symm.trans heq')
        exact ⟨hne, fun v hv => (hall v hv).object⟩
    · intro m hm
      rcases h m hm with hscalar | ⟨vs, heq, -, hall⟩
      · exact everyObject_scalar hscalar
      · rw [heq]
        exact everyObject_array.mpr fun v hv => (hall v hv).shape
  flat := by
    refine everyObject_object.mpr ⟨?_, ?_⟩
    · intro m hm
      rcases h m hm with hscalar | ⟨vs, heq, -, -⟩
      · revert hscalar
        cases m.2 <;> simp [Json.isScalar, isObject]
      · rw [heq]
        rfl
    · intro m hm
      rcases h m hm with hscalar | ⟨vs, heq, -, hall⟩
      · exact everyObject_scalar hscalar
      · rw [heq]
        exact everyObject_array.mpr fun v hv => (hall v hv).flat

theorem walkable_addArray {key : String} {cs : Option (List ChildId)} {item : ChildId → Json}
    (hcs : cs ≠ some []) (h : ∀ c, Walkable (item c)) :
    ∀ m ∈ addArray key cs item, WalkableArray m.2 := by
  intro m hm
  cases cs with
  | none => exact absurd hm List.not_mem_nil
  | some cs =>
    rw [List.mem_singleton.mp hm]
    refine ⟨cs.map item, rfl, ?_, ?_⟩
    · rw [Ne, List.map_eq_nil_iff]
      exact fun hnil => hcs (by rw [hnil])
    · intro v hv
      obtain ⟨c, -, rfl⟩ := List.mem_map.mp hv
      exact h c

theorem keys_addArray (key : String) (cs : Option (List ChildId)) (item : ChildId → Json) :
    ((addArray key cs item).map Prod.fst).Sublist [key] := keys_addSome _ _

/-- No array of the container is empty. -/
structure Made (jc : JsonContainer) : Prop where
  groups : jc.jgroups ≠ some []
  wqs : ∀ i, jc.wqs.group i ≠ some []
  engines : ∀ i, jc.engines.group i ≠ some []
  wqsRest : jc.wqs.ungroup ≠ some []
  enginesRest : jc.engines.ungroup ≠ some []

section Tree

variable {κ : Type} (w : World κ) (r : Readings)

/-- The scalar members of a component, as they are passed on. -/
def memberCalls (c : Comp) : List Call := (members w r c).map fun m => (m.2, some m.1)

/-- The components in an object of a group. -/
def groupComps (jc : JsonContainer) (c : ChildId) : List Comp :=
  .group c :: (((attached jc (maxGroups w jc.device) jc.wqs c).getD []).map .wq ++
    ((attached jc (maxGroups w jc.device) jc.engines c).getD []).map .engine)

/-- The children in the object of a device, in document order. -/
def childComps (jc : JsonContainer) : List Comp :=
  (jc.jgroups.getD []).flatMap (groupComps w jc) ++ ((jc.wqs.ungroup.getD []).map .wq ++
    (jc.engines.ungroup.getD []).map .engine)

theorem walkable_members (c : Comp) : Walkable (.object (members w r c)) := by
  refine walkable_object ((keys_members w r c).nodup (nodup_memberKeys c)) fun m hm => ?_
  exact .inl (scalar_members w r c m hm)

theorem scalars_members (c : Comp) : scalars (.object (members w r c)) = memberCalls w r c := by
  rw [scalars, memberScalars_of_scalar (scalar_members w r c), memberCalls]

theorem attached_ne_nil {jc : JsonContainer} {a : Arrays} (h : ∀ i, a.group i ≠ some []) (n : ℕ)
    (c : ChildId) : attached jc n a c ≠ some [] := by
  rw [attached]
  cases (List.range n).find? fun i => jc.jgroupAssigned i = some c with
  | none => exact Option.some_ne_none _ |>.symm
  | some i => exact h i

theorem walkable_groupObject {jc : JsonContainer} (h : Made jc) (c : ChildId) :
    Walkable (groupObject w r jc c) := by
  refine walkable_object ?_ ?_
  · rw [List.map_append, List.map_append]
    refine List.Sublist.nodup (((keys_members w r (.group c)).append (keys_addArray ..)).append
      (keys_addArray ..)) ?_
    simp [memberKeys]
  · simp only [List.forall_mem_append]
    refine ⟨⟨fun m hm => .inl (scalar_members w r (.group c) m hm), fun m hm => .inr ?_⟩,
      fun m hm => .inr ?_⟩
    · exact walkable_addArray (attached_ne_nil h.wqs _ _)
        (fun c => walkable_members w r (.wq c)) m hm
    · exact walkable_addArray (attached_ne_nil h.engines _ _)
        (fun c => walkable_members w r (.engine c)) m hm

theorem walkable_deviceObject {jc : JsonContainer} (h : Made jc) :
    Walkable (deviceObject w r jc) := by
  refine walkable_object ?_ ?_
  · rw [List.map_append, List.map_append, List.map_append]
    refine List.Sublist.nodup ((((keys_members w r (.device jc.device)).append
      (keys_addArray ..)).append (keys_addArray ..)).append (keys_addArray ..)) ?_
    simp [memberKeys]
  · simp only [List.forall_mem_append]
    refine ⟨⟨⟨fun m hm => .inl (scalar_members w r (.device jc.device) m hm),
      fun m hm => .inr ?_⟩, fun m hm => .inr ?_⟩, fun m hm => .inr ?_⟩
    · exact walkable_addArray h.groups (walkable_groupObject w r h) m hm
    · exact walkable_addArray h.wqsRest (fun c => walkable_members w r (.wq c)) m hm
    · exact walkable_addArray h.enginesRest (fun c => walkable_members w r (.engine c)) m hm

theorem scalars_groupObject (jc : JsonContainer) (c : ChildId) :
    scalars (groupObject w r jc c) = (groupComps w jc c).flatMap (memberCalls w r) := by
  have hgroup := scalars_members w r (.group c)
  have hwq : ∀ c, scalars (.object (utilWqToJson w r c)) = memberCalls w r (.wq c) :=
    fun c => scalars_members w r (.wq c)
  have hengine : ∀ c, scalars (.object (utilEngineToJson w c)) = memberCalls w r (.engine c) :=
    fun c => scalars_members w r (.engine c)
  rw [scalars, members] at hgroup
  rw [groupObject, scalars, memberScalars_append, memberScalars_append, hgroup,
    memberScalars_addArray, memberScalars_addArray, groupComps, List.flatMap_cons,
    List.flatMap_append, List.flatMap_map, List.flatMap_map, List.append_assoc]
  simp only [hwq, hengine]

/-- The scalar members of a device's object: those of the device, and those of
one child after the other. -/
theorem scalars_deviceObject (jc : JsonContainer) : scalars (deviceObject w r jc)
    = memberCalls w r (.device jc.device) ++ (childComps w jc).flatMap (memberCalls w r) := by
  have hdevice := scalars_members w r (.device jc.device)
  have hwq : ∀ c, scalars (.object (utilWqToJson w r c)) = memberCalls w r (.wq c) :=
    fun c => scalars_members w r (.wq c)
  have hengine : ∀ c, scalars (.object (utilEngineToJson w c)) = memberCalls w r (.engine c) :=
    fun c => scalars_members w r (.engine c)
  rw [scalars, members] at hdevice
  rw [deviceObject, scalars, memberScalars_append, memberScalars_append, memberScalars_append,
    hdevice, memberScalars_addArray, memberScalars_addArray, memberScalars_addArray, childComps,
    List.flatMap_append, List.flatMap_append, List.flatMap_map, List.flatMap_map,
    List.flatMap_assoc, List.append_assoc, List.append_assoc]
  simp only [scalars_groupObject, hwq, hengine]

end Tree

/-! ### The walk -/

section Walk

variable {κ : Type} {w : World κ} {r : Readings}

/-- What an empty filter selects. -/
def selectAll : Selection := ⟨none, none, none, none, none⟩

theorem visited_none (nums : List ℕ) : visited none nums = nums :=
  List.filter_eq_self.mpr fun _ _ => rfl

theorem fst_visitEach (filter : ℕ → ListFilterArg → Bool × ListFilterArg) (nums : List ℕ)
    (st : Bool × ListFilterArg) : (visitEach none filter nums st).1 = st.1 := by
  induction nums generalizing st with
  | nil => rfl
  | cons n nums ih =>
    obtain ⟨found, lfa⟩ := st
    rw [visitEach]
    exact ih (found, (filter n lfa).2)

/-- Without a filter there is nothing to be missed. -/
theorem fst_visitDevices {m : Machine} {idle : Bool} (ctx : List DeviceNode) (lfa : ListFilterArg) :
    (visitDevices w m idle selectAll ctx (true, lfa)).1 = true := by
  induction ctx generalizing lfa with
  | nil => rfl
  | cons node ctx ih =>
    rw [visitDevices, if_neg (show ¬selectAll.dev.any (· ≠ node.id) = true from
      Bool.false_ne_true)]
    obtain ⟨_ | _, lfa'⟩ := filterDevice m idle node.id lfa
    · exact ih lfa'
    · have hkids : (visitChildren w m idle selectAll node (true, lfa')).1 = true := by
        rw [visitChildren, show selectAll.engine = none from rfl, fst_visitEach,
          show selectAll.wq = none from rfl, fst_visitEach,
          show selectAll.group = none from rfl, fst_visitEach]
      show (visitDevices w m idle selectAll ctx
        (visitChildren w m idle selectAll node (true, lfa'))).1 = true
      generalize visitChildren w m idle selectAll node (true, lfa') = st at hkids ⊢
      obtain ⟨found, lfa''⟩ := st
      obtain rfl : found = true := hkids
      exact ih lfa''

/-- The containers of all devices that are enabled. -/
def savedContainers (w : World κ) (r : Readings) (ctx : List DeviceNode) : List JsonContainer :=
  containers w r.toMachine false selectAll 0 ctx

theorem cmdSave_eq {ctx : List DeviceNode} (hctx : Populated w ctx) :
    cmdSave w r ctx = .ok ((savedContainers w r ctx).map (deviceObject w r)) := by
  have hsel : select ctx noFilter = .ok selectAll := rfl
  have hlist : (utilFilterWalk w r.toMachine false ctx noFilter .start).2.jdevList
      = (savedContainers w r ctx).reverse := hctx.jdevList hsel
  have hrc : (utilFilterWalk w r.toMachine false ctx noFilter .start).1 = 0 := by
    rw [utilFilterWalk, hsel]
    show (if (visitDevices w r.toMachine false selectAll ctx (true, .start)).1 then (0 : ℤ)
      else -EINVAL) = 0
    rw [fst_visitDevices]
    rfl
  rw [cmdSave]
  generalize utilFilterWalk w r.toMachine false ctx noFilter .start = res at hrc hlist
  obtain ⟨rc, lfa⟩ := res
  obtain rfl : rc = 0 := hrc
  have hlist : lfa.jdevList = (savedContainers w r ctx).reverse := hlist
  simp only [ne_eq, not_true, if_false, hlist, List.reverse_reverse]

theorem jgroups_withGroups (d : DevId) (start : ℕ) (nums : List ℕ) :
    (withGroups w d start nums).jgroups = arrayOf (nums.map (ChildId.mk d)) := by
  have key : ∀ (l : List (ℕ × ℕ)) (cs : List ChildId),
      l.foldl (fun a ni => arrayAdd a ⟨d, ni.1⟩) (arrayOf cs)
        = arrayOf (cs ++ l.map fun ni => ⟨d, ni.1⟩) := by
    intro l
    induction l with
    | nil => intro cs; rw [List.foldl_nil, List.map_nil, List.append_nil]
    | cons ni l ih =>
      intro cs
      rw [List.foldl_cons, arrayAdd_arrayOf, ih, List.map_cons, List.append_assoc]
      rfl
  rw [withGroups, foldl_addGroup]
  show (nums.zipIdx start).foldl _ (arrayOf []) = _
  rw [key, List.nil_append]
  conv_rhs => rw [← List.zipIdx_map_fst start nums, List.map_map]
  rfl

theorem arrayOf_ne_nil (cs : List ChildId) : arrayOf cs ≠ some [] := by
  rw [arrayOf]
  split
  · exact Option.some_ne_none _ |>.symm
  · next h => exact fun heq => h (Option.some.inj heq)

theorem made_containerOf (m : Machine) (idle : Bool) (sel : Selection) (start : ℕ)
    (node : DeviceNode) : Made (containerOf w m idle sel start node) := by
  rw [containerOf_eq]
  refine ⟨?_, fun i => arrayOf_ne_nil _, fun i => arrayOf_ne_nil _, arrayOf_ne_nil _,
    arrayOf_ne_nil _⟩
  rw [jgroups_withGroups]
  exact arrayOf_ne_nil _

/-- What save-config writes can be walked over. -/
theorem walkable_saved {ctx : List DeviceNode} :
    ∀ v ∈ (savedContainers w r ctx).map (deviceObject w r), Walkable v := by
  intro v hv
  obtain ⟨jc, hjc, rfl⟩ := List.mem_map.mp hv
  obtain ⟨node, -, start, rfl⟩ := exists_of_mem_containers hjc
  exact walkable_deviceObject w r (made_containerOf _ _ _ _ _)

end Walk

end Accfg
