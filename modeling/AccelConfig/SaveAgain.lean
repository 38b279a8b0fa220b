/-
Saving, loading and saving again.

What save-config writes depends on the attributes that it writes and on how many
groups a device has room for.  A load of the file sets the attributes to what
they were; so where those that the load does not set are as they were too, the
next file is the same.

* `cmdSave_congr` — what the file depends on;
* `read_loaded` — what is cached after the load;
* `mode_loaded`, `opConfig_loaded` — what is read of the work queues after it;
* `save_load_save` — the two files are the same.
-/
import AccelConfig.SaveLoad

open CNumeral StopAtFailure

namespace Accfg

/-! ### What the file depends on -/

section Congr

variable {κ κ' : Type} {w : World κ} {w₁ : World κ'} {r r₁ : Readings} {ctx : List DeviceNode}

/-- The slots of what is written from what is cached. -/
def Slot.Cached (slot : Slot) : Prop := ∀ c, slot ≠ .wqStr .mode c

theorem members_congr {c : Comp}
    (hread : ∀ slot : Slot, slot.Cached → slot.comp = c → slot.read w₁ = slot.read w)
    (hwq : ∀ q, c = .wq q → r₁.mode q = r.mode q ∧ r₁.opConfig q = r.opConfig q) :
    members w₁ r₁ c = members w r c := by
  cases c with
  | device d =>
    have hlimit := SlotValue.word.inj (hread (.deviceReadBufferLimit d) (by simp [Slot.Cached]) rfl)
    have hsize := SlotValue.word.inj (hread (.deviceEventLogSize d) (by simp [Slot.Cached]) rfl)
    simp only [members, utilDeviceToJson, hlimit, hsize]
  | group c =>
    have hfield : ∀ f, w₁.group c f = w.group c f :=
      fun f => SlotValue.word.inj (hread (.group f c) (by simp [Slot.Cached]) rfl)
    simp only [members, groupToJson, hfield]
  | wq c =>
    obtain ⟨hmode, hop⟩ := hwq c rfl
    have hint : ∀ f, (w₁.wq c).int f = (w.wq c).int f :=
      fun f => SlotValue.word.inj (hread (.wq f c) (by simp [Slot.Cached]) rfl)
    have hmax := SlotValue.long.inj (hread (.wqMaxTransferSize c) (by simp [Slot.Cached]) rfl)
    have htype := SlotValue.type.inj (hread (.wqType c) (by simp [Slot.Cached]) rfl)
    have hname := SlotValue.str.inj (hread (.wqStr .name c) (by simp [Slot.Cached]) rfl)
    have hdriver := SlotValue.str.inj (hread (.wqStr .driverName c) (by simp [Slot.Cached]) rfl)
    simp only [members, utilWqToJson, modeText, hmode, hop, hint, hmax, htype, hname, hdriver]
  | engine c =>
    have hgroup := SlotValue.word.inj (hread (.engineGroupId c) (by simp [Slot.Cached]) rfl)
    simp only [members, utilEngineToJson, hgroup]

theorem addArray_congr {key : String} {cs : Option (List ChildId)} {item item' : ChildId → Json}
    (h : ∀ c ∈ cs.getD [], item c = item' c) : addArray key cs item = addArray key cs item' := by
  cases cs with
  | none => rfl
  | some cs =>
    have hitems : cs.map item = cs.map item' := List.map_congr_left h
    rw [addArray, addArray, Option.map_some, Option.map_some, hitems]

/-- The object of a group, if what is in it is the same. -/
theorem groupObject_congr {jc : JsonContainer} {c : ChildId}
    (hmax : ∀ d, maxGroups w₁ d = maxGroups w d)
    (h : ∀ c' ∈ groupComps w jc c, members w₁ r₁ c' = members w r c') :
    groupObject w₁ r₁ jc c = groupObject w r jc c := by
  have hgroup : groupToJson w₁ c = groupToJson w c := h (.group c) List.mem_cons_self
  have hwqs : ∀ q ∈ (attached jc (maxGroups w jc.device) jc.wqs c).getD [],
      Json.object (utilWqToJson w₁ r₁ q) = .object (utilWqToJson w r q) := by
    intro q hq
    refine congrArg Json.object (h (.wq q) (List.mem_cons_of_mem _ ?_))
    exact List.mem_append_left _ (List.mem_map_of_mem hq)
  have hengines : ∀ e ∈ (attached jc (maxGroups w jc.device) jc.engines c).getD [],
      Json.object (utilEngineToJson w₁ e) = .object (utilEngineToJson w e) := by
    intro e he
    refine congrArg Json.object (h (.engine e) (List.mem_cons_of_mem _ ?_))
    exact List.mem_append_right _ (List.mem_map_of_mem he)
  rw [groupObject, groupObject, hmax, hgroup, addArray_congr hwqs, addArray_congr hengines]

/-- The object of a device, if its components are the same. -/
theorem deviceObject_congr {jc : JsonContainer} (hmax : ∀ d, maxGroups w₁ d = maxGroups w d)
    (h : ∀ c ∈ Comp.device jc.device :: childComps w jc, members w₁ r₁ c = members w r c) :
    deviceObject w₁ r₁ jc = deviceObject w r jc := by
  have hdevice : utilDeviceToJson w₁ jc.device = utilDeviceToJson w jc.device :=
    h (.device jc.device) List.mem_cons_self
  have hchild : ∀ c ∈ childComps w jc, members w₁ r₁ c = members w r c :=
    fun c hc => h c (List.mem_cons_of_mem _ hc)
  have hgroups : ∀ g ∈ jc.jgroups.getD [], groupObject w₁ r₁ jc g = groupObject w r jc g := by
    refine fun g hg => groupObject_congr hmax fun c hc => hchild c ?_
    exact List.mem_append_left _ (List.mem_flatMap.mpr ⟨g, hg, hc⟩)
  have hwqs : ∀ q ∈ jc.wqs.ungroup.getD [],
      Json.object (utilWqToJson w₁ r₁ q) = .object (utilWqToJson w r q) := by
    refine fun q hq => congrArg Json.object (hchild (.wq q) (List.mem_append_right _ ?_))
    exact List.mem_append_left _ (List.mem_map_of_mem hq)
  have hengines : ∀ e ∈ jc.engines.ungroup.getD [],
      Json.object (utilEngineToJson w₁ e) = .object (utilEngineToJson w e) := by
    refine fun e he => congrArg Json.object (hchild (.engine e) (List.mem_append_right _ ?_))
    exact List.mem_append_right _ (List.mem_map_of_mem he)
  rw [deviceObject, deviceObject, hdevice, addArray_congr hgroups, addArray_congr hwqs,
    addArray_congr hengines]

theorem containers_congr {m : Machine} {idle : Bool} {sel : Selection}
    (hmax : ∀ d, maxGroups w₁ d = maxGroups w d)
    (hwq : ∀ c, (w₁.wq c).int .groupId = (w.wq c).int .groupId)
    (hengine : ∀ c, (w₁.engine c).groupId = (w.engine c).groupId) (start : ℕ) :
    containers w₁ m idle sel start ctx = containers w m idle sel start ctx := by
  have hcontainer : ∀ start node, containerOf w₁ m idle sel start node
      = containerOf w m idle sel start node := by
    intro start node
    simp only [containerOf_eq, withGroups, hmax, hwq, hengine]
  induction ctx generalizing start with
  | nil => rfl
  | cons node ctx ih => simp only [containers, hcontainer, ih]

/-- Two contexts that agree on what is written give the same file. -/
theorem cmdSave_congr (hctx : Populated w ctx) (hmax : ∀ d, maxGroups w₁ d = maxGroups w d)
    (hmachine : r₁.toMachine = r.toMachine)
    (hread : ∀ slot : Slot, slot.Cached → slot.read w₁ = slot.read w)
    (hwq : ∀ q, .wq q ∈ savedComps w r ctx → r₁.mode q = r.mode q ∧ r₁.opConfig q = r.opConfig q) :
    cmdSave w₁ r₁ ctx = cmdSave w r ctx := by
  have hctx₁ : Populated w₁ ctx :=
    { hctx with groups_le := fun node hnode => (hmax node.id).symm ▸ hctx.groups_le node hnode }
  have hcontainers : savedContainers w₁ r₁ ctx = savedContainers w r ctx := by
    rw [savedContainers, hmachine]
    exact containers_congr hmax
      (fun c => SlotValue.word.inj (hread (.wq .groupId c) (by simp [Slot.Cached])))
      (fun c => SlotValue.word.inj (hread (.engineGroupId c) (by simp [Slot.Cached]))) 0
  rw [cmdSave_eq hctx, cmdSave_eq hctx₁, hcontainers]
  refine congrArg Except.ok (List.map_congr_left fun jc hjc => ?_)
  refine deviceObject_congr hmax fun c hc => members_congr (fun slot hslot _ => hread slot hslot) ?_
  rintro q rfl
  exact hwq q (List.mem_flatMap.mpr ⟨jc, hjc, hc⟩)

end Congr

/-! ### What is read of work queues -/

/-- What save-config reads of the work queues. -/
def readingsOf {κ : Type} (K : Kernel κ) (m : Machine) (s : Sys κ) : Readings where
  toMachine := m
  mode c :=
    match (accfgWqGetMode K c s).1 with
    | some (.ok mode) => mode
    | _ => .unknown
  opConfig c :=
    match accfgWqGetOpConfig K c (fun _ => 0) s with
    | (rc, bits, _) => if rc = 0 then some bits else none

section Readings

variable {m : Machine} {c : ChildId} {s s' : Sys Tree}

theorem mode_of_file {mode : WqMode} {val : String} (hval : mode.str = some val)
    (hfile : s.kernel.file (.attr (.wq c) "mode") = some val.toList) :
    (readingsOf storeKernel m s).mode c = mode := by
  obtain ⟨s', hmode, -⟩ := accfgWqGetMode_store hval hfile
  simp only [readingsOf, hmode]

theorem opConfig_of_file {bits : Fin 8 → BitVec 32}
    (hfile : s.kernel.file (.attr (.wq c) "op_config") = some (utilBitmaskToString bits)) :
    (readingsOf storeKernel m s).opConfig c = some bits := by
  have hserves : Serves storeKernel c (utilBitmaskToString bits ++ ['\n']) s := by
    refine ⟨s.kernel, s.kernel, s.kernel, rfl, ?_, ?_⟩
    · simp only [storeKernel, Tree.lookUp, hfile, Option.isSome_some, if_true]
    · simp only [storeKernel, hfile]
  obtain ⟨s', hget⟩ :=
    accfgWqGetOpConfig_of_isText (Or.inr rfl) (Or.inr rfl) hserves fun _ => 0
  simp only [readingsOf, hget, if_true]

/-- What is got of the text that is read. -/
theorem getOpConfig_store (old : Fin 8 → BitVec 32) (s : Sys Tree) :
    ∃ s', accfgWqGetOpConfig storeKernel c old s = match s.kernel.str (.wq c) "op_config" with
      | none => (- EIO, old, s')
      | some oc => ((scanOpConfig oc.toList old).1, (scanOpConfig oc.toList old).2, s') := by
  have hvalue := (getParamStr_reads (.wq c) "op_config").value s
  rw [accfgWqGetOpConfig, openDir_store]
  dsimp only
  generalize accfgGetParamStr storeKernel (.wq c) "op_config" s = read at hvalue ⊢
  obtain ⟨text, s'⟩ := read
  refine ⟨s', ?_⟩
  rw [← hvalue]
  cases text <;> rfl

/-- Only the file counts. -/
theorem opConfig_congr (hfile : s'.kernel.file (.attr (.wq c) "op_config")
      = s.kernel.file (.attr (.wq c) "op_config")) :
    (readingsOf storeKernel m s').opConfig c = (readingsOf storeKernel m s).opConfig c := by
  have hstr : s'.kernel.str (.wq c) "op_config" = s.kernel.str (.wq c) "op_config" := by
    rw [Tree.str, Tree.str, hfile]
  obtain ⟨s₁, hget⟩ := getOpConfig_store (c := c) (fun _ => 0) s
  obtain ⟨s₂, hget'⟩ := getOpConfig_store (c := c) (fun _ => 0) s'
  rw [hstr] at hget'
  simp only [readingsOf, hget, hget']
  cases s.kernel.str (.wq c) "op_config" <;> rfl

end Readings

/-! ### After a load -/

section Loaded

variable {κ : Type} {w : World κ} {r : Readings} {w' w₁ : World Tree} {ctx : List DeviceNode}

/-- What a load does not set is as it was saved. -/
structure RestAgrees (w : World κ) (r : Readings) (w' : World Tree) (ctx : List DeviceNode) :
    Prop where
  groups : ∀ d, maxGroups w' d = maxGroups w d
  read : ∀ slot : Slot, (∀ set ∈ restored w r w' (savedComps w r ctx), set.slot ≠ slot) →
    slot.read w' = slot.read w
  opConfig : ∀ c, .wq c ∈ savedComps w r ctx → r.opConfig c = none →
    (readingsOf storeKernel r.toMachine w'.sys).opConfig c = none

theorem mem_setIf {p : Prop} [Decidable p] {set st : Setting} :
    st ∈ setIf p set ↔ p ∧ st = set := by
  rw [setIf]
  split
  · next hp => simp [hp]
  · next hp => simp [hp]

/-- What is set is what was cached. -/
theorem holds_of_mem_restores {c : Comp} {set : Setting}
    (hname : ∀ q, c = .wq q → ((w.wq q).str .name).isSome) (hset : set ∈ restores w r w' c)
    (hcached : set.slot.Cached) : set.Holds w := by
  cases c with
  | device d =>
    simp only [restores, List.mem_append, mem_setIf] at hset
    rcases hset with ⟨-, rfl⟩ | ⟨-, rfl⟩ <;> rfl
  | group c =>
    simp only [restores, List.mem_append, mem_setIf] at hset
    rcases hset with (((⟨-, rfl⟩ | ⟨-, rfl⟩) | ⟨-, rfl⟩) | ⟨-, rfl⟩) | ⟨-, rfl⟩ <;> rfl
  | wq c =>
    simp only [restores, List.mem_append, mem_setIf, List.mem_cons, List.not_mem_nil, or_false,
      List.mem_map, Option.mem_toList] at hset
    rcases hset with (((((((((rfl | ⟨-, rfl⟩) | ⟨-, rfl⟩) | ⟨-, rfl⟩) |
      rfl | rfl | rfl | rfl | rfl) | ⟨val, hval, rfl⟩) | ⟨-, rfl⟩) | ⟨-, rfl⟩) | ⟨-, rfl⟩) |
      ⟨bits, -, rfl⟩)
    · exact absurd rfl (hcached c)
    · rfl
    · rfl
    · rfl
    · rfl
    · rfl
    · rfl
    · show wqParseType (w.wq c).type.str.toList = some (w.wq c).type
      cases (w.wq c).type <;> decide
    · obtain ⟨name, hname⟩ := Option.isSome_iff_exists.mp (hname c rfl)
      rw [hname]
      exact hname
    · exact hval
    · rfl
    · rfl
    · rfl
    · trivial
  | engine c =>
    simp only [restores, mem_setIf] at hset
    rw [hset.2]
    rfl

/-- Without a mask there is none to set. -/
theorem slot_ne_opConfig {c : ChildId} (hop : r.opConfig c = none) :
    ∀ set ∈ restores w r w' (.wq c), set.slot ≠ .wqOpConfig c := by
  intro set hset
  simp only [restores, hop, Option.toList_none, List.map_nil, List.append_nil, List.mem_append,
    mem_setIf, List.mem_cons, List.not_mem_nil, or_false, List.mem_map] at hset
  rcases hset with ((((((((rfl | ⟨-, rfl⟩) | ⟨-, rfl⟩) | ⟨-, rfl⟩) | rfl | rfl | rfl | rfl | rfl) |
    ⟨val, -, rfl⟩) | ⟨-, rfl⟩) | ⟨-, rfl⟩) | ⟨-, rfl⟩) <;> exact Slot.noConfusion

/-- A slot that holds one value in two contexts. -/
theorem read_eq_of_holds {set : Setting} (h : set.Holds w) (h₁ : set.Holds w₁) :
    set.slot.read w₁ = set.slot.read w := by
  cases set with
  | deviceReadBufferLimit d val => exact congrArg SlotValue.word (Eq.trans h₁ (Eq.symm h))
  | deviceEventLogSize d val => exact congrArg SlotValue.word (Eq.trans h₁ (Eq.symm h))
  | group field c val => exact congrArg SlotValue.word (Eq.trans h₁ (Eq.symm h))
  | wq field c val => exact congrArg SlotValue.word (Eq.trans h₁ (Eq.symm h))
  | wqMaxTransferSize c val => exact congrArg SlotValue.long (Eq.trans h₁ (Eq.symm h))
  | wqStr field c val => exact congrArg SlotValue.str (Eq.trans h₁ (Eq.symm h))
  | wqMode c mode => exact congrArg SlotValue.str (Eq.trans h₁ (Eq.symm h))
  | wqType c val =>
    exact congrArg SlotValue.type (Option.some.inj (Eq.trans (Eq.symm h₁) h))
  | wqOpConfigStr c val => rfl
  | wqOpConfig c bits => rfl
  | engineGroupId c val => exact congrArg SlotValue.word (Eq.trans h₁ (Eq.symm h))

variable (hctx : Populated w ctx)
  (hload : ∀ c ∈ savedComps w r ctx, Loadable w r w' c)
  (hprogress : Progress w' (restored w r w' (savedComps w r ctx)) w₁)

include hload hprogress

/-- What is cached after a load is what was saved. -/
theorem read_loaded (hrest : RestAgrees w r w' ctx) {slot : Slot} (hslot : slot.Cached) :
    slot.read w₁ = slot.read w := by
  by_cases hset : ∃ set ∈ restored w r w' (savedComps w r ctx), set.slot = slot
  · obtain ⟨set, hmem, rfl⟩ := hset
    obtain ⟨c, hc, hin⟩ := List.mem_flatMap.mp hmem
    exact read_eq_of_holds (holds_of_mem_restores (hload c hc).name hin hslot)
      (hprogress.holds set hmem)
  · have hfresh : ∀ set ∈ restored w r w' (savedComps w r ctx), set.slot ≠ slot :=
      fun set hmem heq => hset ⟨set, hmem, heq⟩
    exact (hprogress.rest slot hfresh).trans (hrest.read slot hfresh)

/-- The mode is the one that was saved. -/
theorem mode_loaded {c : ChildId} (hc : .wq c ∈ savedComps w r ctx) (m : Machine) :
    (readingsOf storeKernel m w₁.sys).mode c = r.mode c := by
  obtain ⟨val, hval⟩ : ∃ val, (r.mode c).str = some val := by
    cases h : r.mode c with
    | unknown => exact absurd h ((hload _ hc).mode c rfl)
    | _ => exact ⟨_, rfl⟩
  have hmem : .wqStr .mode c (modeText r c) ∈ restored w r w' (savedComps w r ctx) := by
    refine List.mem_flatMap.mpr ⟨.wq c, hc, ?_⟩
    simp [restores]
  obtain ⟨file, hfile, htext⟩ := hprogress.written _ hmem
  obtain rfl := List.mem_singleton.mp (Tree.mem_of_fileOf hfile).1
  have hmodeText : modeText r c = val := by rw [modeText, hval, Option.getD_some]
  rw [hmodeText] at htext
  exact mode_of_file hval htext

/-- So is the mask, if there was one. -/
theorem opConfig_loaded {opts : Options} (hopts : opts.configDefaultFile = false)
    (hrest : RestAgrees w r w' ctx) {c : ChildId} (hc : .wq c ∈ savedComps w r ctx) :
    (readingsOf storeKernel r.toMachine w₁.sys).opConfig c = r.opConfig c := by
  cases hop : r.opConfig c with
  | some bits =>
    have hmem : .wqOpConfigStr c (String.ofList (utilBitmaskToString bits))
        ∈ restored w r w' (savedComps w r ctx) := by
      refine List.mem_flatMap.mpr ⟨.wq c, hc, ?_⟩
      simp [restores, hop]
    obtain ⟨file, hfile, htext⟩ := hprogress.written _ hmem
    obtain rfl := List.mem_singleton.mp (Tree.mem_of_fileOf hfile).1
    refine opConfig_of_file (htext.trans ?_)
    rw [Setting.text, String.toList_ofList]
  | none =>
    -- nothing has written to the file
    refine (opConfig_congr (hprogress.files _ fun set hset file hfile heq => ?_)).trans
      (hrest.opConfig c hc hop)
    obtain ⟨c', hc', hin⟩ := List.mem_flatMap.mp hset
    obtain ⟨hcomp, rfl⟩ := Path.attr.inj heq
    have hof := Slot.ofFile_eq (set.slot_files ▸ hfile)
    rw [set.slot_comp, ← hcomp] at hof
    have hslot : set.slot = .wqOpConfig c := (Option.some.inj hof).symm
    have hsub := slots_restores hopts (hload c' hc')
    have hown := comp_memberSlots _ (hsub.subset (List.mem_map_of_mem hin))
    rw [set.slot_comp, ← hcomp] at hown
    subst hown
    exact slot_ne_opConfig hop set hin hslot

end Loaded

/-- Loading what was saved, and saving again, gives the file that was saved. -/
theorem save_load_save {κ : Type} {w : World κ} {r : Readings} {w' : World Tree}
    {ctx : List DeviceNode} {opts : Options} (hctx : Populated w ctx)
    (hopts : opts.configDefaultFile = false) (hsome : savedComps w r ctx ≠ [])
    (hload : ∀ c ∈ savedComps w r ctx, Loadable w r w' c) (hrest : RestAgrees w r w' ctx) :
    ∃ saved st, cmdSave w r ctx = .ok saved ∧
      parseConfig (configureJsonValue storeKernel ctx opts) (some (some (.array saved)))
        (LoadState.start w') = (.ret 0, st) ∧
      cmdSave st.world (readingsOf storeKernel r.toMachine st.world.sys) ctx = .ok saved := by
  obtain ⟨st, hparse, hloaded⟩ := parseConfig_saved hctx hopts hsome hload
  have hprogress := hloaded.progress
  refine ⟨_, st, cmdSave_eq hctx, hparse, Eq.trans ?_ (cmdSave_eq hctx)⟩
  have hgroups : ∀ d, maxGroups st.world d = maxGroups w d := by
    intro d
    have hfixed : (st.world.device d).fixed.maxGroups = (w'.device d).fixed.maxGroups := by
      rw [hprogress.device d]
    exact (congrArg BitVec.toNat hfixed).trans (hrest.groups d)
  exact cmdSave_congr hctx hgroups rfl (fun slot hslot => read_loaded hload hprogress hrest hslot)
    fun q hq => ⟨mode_loaded hload hprogress hq _, opConfig_loaded hload hprogress hopts hrest hq⟩

theorem restored_oneOfEach : ∀ slot ∈ (savedComps oneOfEachWorld oneOfEachReadings
    oneOfEach).flatMap memberSlots, slot ∈ (restored oneOfEachWorld oneOfEachReadings idleWorld
      (savedComps oneOfEachWorld oneOfEachReadings oneOfEach)).map Setting.slot ∨
    slot.read idleWorld = slot.read oneOfEachWorld := by
  rw [savedComps_oneOfEach]
  decide

theorem restAgrees_oneOfEach :
    RestAgrees oneOfEachWorld oneOfEachReadings idleWorld oneOfEach where
  groups _ := rfl
  read slot hslot := by
    by_cases hmem : slot ∈ (savedComps oneOfEachWorld oneOfEachReadings
        oneOfEach).flatMap memberSlots
    · refine (restored_oneOfEach slot hmem).resolve_left fun hset => ?_
      obtain ⟨set, hin, heq⟩ := List.mem_map.mp hset
      exact hslot set hin heq
    · rw [savedComps_oneOfEach] at hmem
      -- it is one of another component
      cases slot with
      | deviceReadBufferLimit d =>
        have hd : d ≠ ⟨.dsa, 0⟩ := by
          rintro rfl
          exact hmem (by decide)
        simp [Slot.read, oneOfEachWorld, idleWorld, hd]
      | wq f c =>
        have hc : c ≠ ⟨⟨.dsa, 0⟩, 0⟩ := by
          rintro rfl
          exact hmem (by cases f <;> decide)
        simp [Slot.read, oneOfEachWorld, idleWorld, hc]
      | wqStr f c =>
        have hc : c ≠ ⟨⟨.dsa, 0⟩, 0⟩ := by
          rintro rfl
          exact hmem (by cases f <;> decide)
        simp [Slot.read, oneOfEachWorld, idleWorld, hc]
      | wqMaxTransferSize c =>
        have hc : c ≠ ⟨⟨.dsa, 0⟩, 0⟩ := by
          rintro rfl
          exact hmem (by decide)
        simp [Slot.read, oneOfEachWorld, idleWorld, hc]
      | wqType c =>
        have hc : c ≠ ⟨⟨.dsa, 0⟩, 0⟩ := by
          rintro rfl
          exact hmem (by decide)
        simp [Slot.read, oneOfEachWorld, idleWorld, hc]
      | _ => rfl
  opConfig _ _ h := nomatch h

theorem save_load_save_oneOfEach :
    ∃ saved st, cmdSave oneOfEachWorld oneOfEachReadings oneOfEach = .ok saved ∧
      parseConfig (configureJsonValue storeKernel oneOfEach ⟨false, false, false⟩)
        (some (some (.array saved))) (LoadState.start idleWorld) = (.ret 0, st) ∧
      cmdSave st.world (readingsOf storeKernel oneOfEachReadings.toMachine st.world.sys) oneOfEach
        = .ok saved :=
  save_load_save populated_oneOfEach rfl (by rw [savedComps_oneOfEach]; exact List.cons_ne_nil _ _)
    loadable_oneOfEach restAgrees_oneOfEach

end Accfg
