/-
The walk that `list` and `save-config` make over the devices.

`util_filter_walk` calls back for each device, group, work queue and engine that
the filter lets through.  The callbacks of the listing keep a container for each
device, with an array of work queues and one of engines for each slot of its
table of groups; an object that is added to an array is given here by the
component that it was made from.

* `place_eq`, `foldl_place` — what the loop over the slots does, for one
  component and for many;
* `filterGroup_open`, `filterWq_open`, `filterEngine_open` — a callback changes
  the container of its own device, and no other;
* `jdevList_visitDevices` — the containers after a walk, each by itself.
-/
import AccelConfig.CLoop
import AccelConfig.Load
import AccelConfig.Steady

open CLoop CNumeral

namespace Accfg

/-! ### Containers -/

/-- The arrays for work queues, or those for engines: one for each slot, and one
for the rest.  An array that was not made is `NULL`. -/
structure Arrays where
  group : ℕ → Option (List ChildId)
  ungroup : Option (List ChildId)

/-- `json_object_array_add`, to an array that is made if need be. -/
def arrayAdd (array : Option (List ChildId)) (c : ChildId) : Option (List ChildId) :=
  some (array.getD [] ++ [c])

/-- `struct accfg_json_container`. -/
structure JsonContainer where
  device : DevId
  jgroups : Option (List ChildId)
  jgroupId : ℕ → BitVec 32
  jgroupAssigned : ℕ → Option ChildId
  wqs : Arrays
  engines : Arrays

/-- A fresh container: `calloc` makes all ids zero. -/
def JsonContainer.new (device : DevId) : JsonContainer where
  device := device
  jgroups := none
  jgroupId _ := 0#32
  jgroupAssigned _ := none
  wqs := ⟨fun _ => none, none⟩
  engines := ⟨fun _ => none, none⟩

/-- `struct list_filter_arg`. -/
structure ListFilterArg where
  jdevices : List DevId
  jdevice : Option DevId
  jdevList : List JsonContainer
  devNum : ℕ
  groupNum : ℕ

/-- What the callbacks read from the machine while they are called. -/
structure Machine where
  deviceState : DevId → DeviceState
  wqState : ChildId → WqState
  modeExists : ChildId → Bool

/-- `match_device`. -/
def matchDevice (dev : DevId) (jc : JsonContainer) : Bool :=
  (Comp.device dev).devname = (Comp.device jc.device).devname

/-- Change the last element that there is of a kind. -/
def onLast {α : Type} (p : α → Bool) (f : α → α) : List α → Option (List α)
  | [] => none
  | x :: xs =>
    match onLast p f xs with
    | some ys => some (x :: ys)
    | none => if p x then some (f x :: xs) else none

/-! ### Callbacks -/

section Callbacks

variable {κ : Type} (w : World κ) (m : Machine) (idle : Bool)

/-- `accfg_device_get_max_groups`. -/
def maxGroups (d : DevId) : ℕ := (w.device d).maxGroups.toNat

/-- `accfg_group_get_id`. -/
def accfgGroupGetId (c : ChildId) : BitVec 32 := BitVec.ofNat 32 c.num

/-- `accfg_wq_is_enabled`: the file it looks for is that of the mode. -/
def accfgWqIsEnabled (c : ChildId) : Bool := m.modeExists c

/-- The loop over the slots, and what is done if no slot had the id. -/
def Arrays.place (jgroupId : ℕ → BitVec 32) (maxGroups : ℕ) (groupId : BitVec 32) (rest : Bool)
    (c : ChildId) (a : Arrays) : Arrays :=
  let (a, inGroup) := forRange (fun i (a, inGroup) =>
    if groupId = jgroupId i then
      ({ a with group := Function.update a.group i (arrayAdd (a.group i) c) }, true)
    else (a, inGroup)) maxGroups (a, false)
  if !inGroup && rest then { a with ungroup := arrayAdd a.ungroup c } else a

/-- `filter_device`. -/
def filterDevice (device : DevId) (lfa : ListFilterArg) : Bool × ListFilterArg :=
  if m.deviceState device ≠ .enabled ∧ ¬idle then (false, { lfa with jdevice := none })
  else (true,
    { jdevices := lfa.jdevices ++ [device], jdevice := some device,
      jdevList := .new device :: lfa.jdevList, devNum := lfa.devNum + 1,
      groupNum := lfa.groupNum })

/-- The container, once a group was given a slot. -/
def JsonContainer.addGroup (slot : ℕ) (c : ChildId) (jc : JsonContainer) : JsonContainer :=
  { jc with
    jgroups := arrayAdd jc.jgroups c
    jgroupId := Function.update jc.jgroupId slot (accfgGroupGetId c)
    jgroupAssigned := Function.update jc.jgroupAssigned slot (some c) }

/-- `filter_group`. -/
def filterGroup (c : ChildId) (lfa : ListFilterArg) : Bool × ListFilterArg :=
  match onLast (matchDevice c.dev) (.addGroup (lfa.groupNum % maxGroups w c.dev) c)
      lfa.jdevList with
  | none => (false, lfa)
  | some l => (true, { lfa with jdevList := l, groupNum := lfa.groupNum + 1 })

def JsonContainer.addWq (c : ChildId) (jc : JsonContainer) : JsonContainer :=
  { jc with wqs := jc.wqs.place jc.jgroupId (maxGroups w c.dev) ((w.wq c).int .groupId) idle c }

/-- `filter_wq`. -/
def filterWq (c : ChildId) (lfa : ListFilterArg) : Bool × ListFilterArg :=
  match onLast (matchDevice c.dev) (.addWq w idle c) lfa.jdevList with
  | none => (false, lfa)
  | some l =>
    if !idle && !accfgWqIsEnabled m c then (true, lfa)
    -- `util_wq_to_json`
    else if !(m.wqState c).active && !idle then (false, lfa)
    else (true, { lfa with jdevList := l })

def JsonContainer.addEngine (c : ChildId) (jc : JsonContainer) : JsonContainer :=
  { jc with
    engines := jc.engines.place jc.jgroupId (maxGroups w c.dev) (w.engine c).groupId true c }

/-- `filter_engine`. -/
def filterEngine (c : ChildId) (lfa : ListFilterArg) : Bool × ListFilterArg :=
  if m.deviceState c.dev ≠ .enabled ∧ ¬idle then (false, lfa)
  else
    match onLast (matchDevice c.dev) (.addEngine w c) lfa.jdevList with
    | none => (false, lfa)
    | some l => (true, { lfa with jdevList := l })

end Callbacks

/-! ### Filters -/

/-- `struct util_filter_params`. -/
structure UtilFilterParams where
  device : Option String
  group : Option String
  wq : Option String
  engine : Option String

/-- What a filter comes to: the device, and the child of a kind. -/
structure Selection where
  param : Option String
  dev : Option DevId
  group : Option ℕ
  wq : Option ℕ
  engine : Option ℕ

/-- `sscanf(name, "%[a-z]%u", ...) == 2`. -/
def scanDeviceTypeId (name : String) : Option String :=
  let type := name.toList.takeWhile fun c => 'a' ≤ c ∧ c ≤ 'z'
  if type ≠ [] ∧ (scanD (name.toList.drop type.length)).isSome then some (String.ofList type)
  else none

/-- `accfg_device_type_validate`. -/
def accfgDeviceTypeValidate (type : String) : Bool :=
  accfgBasenames.any fun base => strstr type base.str

/-- `sscanf(name, "%[^/]/%s", ...) == 2`. -/
def scanParentChildNames (name : String) : Option (String × String) :=
  let parent := name.toList.takeWhile (· ≠ '/')
  let child := ((name.toList.drop (parent.length + 1)).dropWhile isBlank).takeWhile
    fun c => !isBlank c
  if parent ≠ [] ∧ child ≠ [] then some (String.ofList parent, String.ofList child) else none

/-- `parse_device_name`. -/
def parseDeviceName (ctx : List DeviceNode) (name : String) : Except ℤ DeviceNode :=
  match (scanDeviceTypeId name).filter accfgDeviceTypeValidate with
  | none => .error (-EINVAL)
  | some _ =>
    match accfgCtxDeviceGetByName ctx name with
    | none => .error (-EINVAL)
    | some node => .ok node

/-- `parse_wq_name`, `parse_group_name` and `parse_engine_name`. -/
def parseChildName (kind : Kind) (ctx : List DeviceNode) (name : String) :
    Except ℤ (DevId × ℕ) :=
  match scanParentChildNames name with
  | none => .error (-EINVAL)
  | some (devName, childName) =>
    match parseDeviceName ctx devName with
    | .error rc => .error rc
    | .ok node =>
      match (node.nums kind).find? fun n => (kind.comp ⟨node.id, n⟩).devname = childName with
      | none => .error (-EINVAL)
      | some n => .ok (node.id, n)

/-- The beginning of `util_filter_walk`. -/
def select (ctx : List DeviceNode) (param : UtilFilterParams) : Except ℤ Selection :=
  match param.device, param.group, param.wq, param.engine with
  | some name, _, _, _ =>
    (parseDeviceName ctx name).map fun node => ⟨some name, some node.id, none, none, none⟩
  | none, some name, _, _ =>
    (parseChildName .group ctx name).map fun r => ⟨none, some r.1, some r.2, none, none⟩
  | none, none, some name, _ =>
    (parseChildName .wq ctx name).map fun r => ⟨none, some r.1, none, some r.2, none⟩
  | none, none, none, some name =>
    (parseChildName .engine ctx name).map fun r => ⟨none, some r.1, none, none, some r.2⟩
  | none, none, none, none => .ok ⟨none, none, none, none, none⟩

/-! ### The walk -/

/-- A loop over children; if one of them is chosen, it alone is called back for,
and `found` is what comes back. -/
def visitEach (chosen : Option ℕ) (filter : ℕ → ListFilterArg → Bool × ListFilterArg) :
    List ℕ → Bool × ListFilterArg → Bool × ListFilterArg
  | [], st => st
  | n :: ns, (found, lfa) =>
    if chosen.any (· ≠ n) then visitEach chosen filter ns (found, lfa)
    else
      let (b, lfa) := filter n lfa
      if chosen.isSome then (b, lfa) else visitEach chosen filter ns (found, lfa)

section Walk

variable {κ : Type} (w : World κ) (m : Machine) (idle : Bool) (sel : Selection)

/-- The loops over the children of a device. -/
def visitChildren (node : DeviceNode) (st : Bool × ListFilterArg) : Bool × ListFilterArg :=
  let st := visitEach sel.group (fun n => filterGroup w ⟨node.id, n⟩) node.groups st
  let st := visitEach sel.wq (fun n => filterWq w m idle ⟨node.id, n⟩) node.wqs st
  visitEach sel.engine (fun n => filterEngine w m idle ⟨node.id, n⟩) node.engines st

/-- The loop over the devices. -/
def visitDevices : List DeviceNode → Bool × ListFilterArg → Bool × ListFilterArg
  | [], st => st
  | node :: nodes, (found, lfa) =>
    if sel.dev.any (· ≠ node.id) then visitDevices nodes (found, lfa)
    else
      match filterDevice m idle node.id lfa with
      | (false, lfa) => visitDevices nodes (found, lfa)
      | (true, lfa) =>
        let st := visitChildren w m idle sel node (found || sel.param.isSome, lfa)
        if sel.dev.isSome then st else visitDevices nodes st

/-- `util_filter_walk`. -/
def utilFilterWalk (ctx : List DeviceNode) (param : UtilFilterParams) (lfa : ListFilterArg) :
    ℤ × ListFilterArg :=
  match select ctx param with
  | .error rc => (rc, lfa)
  | .ok sel =>
    let (found, lfa) := visitDevices w m idle sel ctx (sel.dev.isNone, lfa)
    (if found then 0 else -EINVAL, lfa)

/-- The argument that `cmd_list` and `cmd_save` start with. -/
def ListFilterArg.start : ListFilterArg := ⟨[], none, [], 0, 0⟩

end Walk

/-! ### Arrays -/

/-- The array of components, which is made with the first. -/
def arrayOf (cs : List ChildId) : Option (List ChildId) := if cs = [] then none else some cs

@[simp] theorem getD_arrayOf (cs : List ChildId) : (arrayOf cs).getD [] = cs := by
  rw [arrayOf]
  split
  · next h => rw [h, Option.getD_none]
  · rw [Option.getD_some]

theorem arrayAdd_arrayOf (cs : List ChildId) (c : ChildId) :
    arrayAdd (arrayOf cs) c = arrayOf (cs ++ [c]) := by
  rw [arrayAdd, getD_arrayOf, arrayOf, if_neg (List.concat_ne_nil c cs)]

/-- Add to the arrays of the slots that have the id. -/
def Arrays.addAt (jgroupId : ℕ → BitVec 32) (n : ℕ) (groupId : BitVec 32) (c : ChildId)
    (a : Arrays) : Arrays :=
  { a with group := fun i =>
      if i < n ∧ groupId = jgroupId i then arrayAdd (a.group i) c else a.group i }

theorem place_loop (jgroupId : ℕ → BitVec 32) (groupId : BitVec 32) (c : ChildId) (a : Arrays)
    (n : ℕ) :
    forRange (fun i ((a, inGroup) : Arrays × Bool) =>
      if groupId = jgroupId i then
        ({ a with group := Function.update a.group i (arrayAdd (a.group i) c) }, true)
      else (a, inGroup)) n (a, false)
      = (a.addAt jgroupId n groupId c, decide (∃ i < n, groupId = jgroupId i)) := by
  induction n with
  | zero => simp [forRange, Arrays.addAt]
  | succ n ih =>
    rw [forRange, ih]
    by_cases h : groupId = jgroupId n
    -- slot `n` is the one that was just written
    · have hgroup : Function.update (a.addAt jgroupId n groupId c).group n
          (arrayAdd ((a.addAt jgroupId n groupId c).group n) c)
          = (a.addAt jgroupId (n + 1) groupId c).group := by
        funext i
        by_cases hi : i = n
        · rw [hi, Function.update_self]
          simp [Arrays.addAt, h]
        · have hlt : i < n + 1 ↔ i < n := by omega
          rw [Function.update_of_ne hi]
          simp only [Arrays.addAt, hlt]
      have hex : ∃ i < n + 1, groupId = jgroupId i := ⟨n, Nat.lt_succ_self n, h⟩
      simp only [if_pos h, hgroup, hex, decide_true]
      rfl
    · -- slot `n` is another group's, so that it may as well be left out
      have hskip : ∀ i, i < n ∧ groupId = jgroupId i ↔ i < n + 1 ∧ groupId = jgroupId i := by
        intro i
        constructor
        · rintro ⟨hi, heq⟩
          exact ⟨by omega, heq⟩
        · rintro ⟨hi, heq⟩
          have hne : i ≠ n := fun hin => h (hin ▸ heq)
          exact ⟨by omega, heq⟩
      have hiff : (∃ i < n, groupId = jgroupId i) ↔ ∃ i < n + 1, groupId = jgroupId i :=
        exists_congr hskip
      have hadd : a.addAt jgroupId n groupId c = a.addAt jgroupId (n + 1) groupId c := by
        simp only [Arrays.addAt, hskip]
      simp only [if_neg h, hiff, hadd]

/-- What the loop over the slots comes to. -/
theorem place_eq (jgroupId : ℕ → BitVec 32) (maxGroups : ℕ) (groupId : BitVec 32) (rest : Bool)
    (c : ChildId) (a : Arrays) :
    a.place jgroupId maxGroups groupId rest c =
      { group := fun i => if i < maxGroups ∧ groupId = jgroupId i then arrayAdd (a.group i) c
          else a.group i
        ungroup := if rest ∧ ∀ i < maxGroups, groupId ≠ jgroupId i then arrayAdd a.ungroup c
          else a.ungroup } := by
  rw [Arrays.place, place_loop]
  by_cases h : ∃ i < maxGroups, groupId = jgroupId i
  · have hnot : ¬∀ i < maxGroups, groupId ≠ jgroupId i := by
      intro hall
      obtain ⟨i, hi, heq⟩ := h
      exact hall i hi heq
    simp only [h, hnot, decide_true, Bool.not_true, Bool.false_and, and_false, if_false]
    rfl
  · have hall : ∀ i < maxGroups, groupId ≠ jgroupId i := fun i hi heq => h ⟨i, hi, heq⟩
    simp only [h, decide_false, Bool.not_false, Bool.true_and]
    cases rest
    · simp only [Bool.false_eq_true, false_and, if_false]
      rfl
    · rw [if_pos rfl, if_pos ⟨rfl, hall⟩]
      rfl

/-- The arrays after components were placed, one after the other. -/
def placed (jgroupId : ℕ → BitVec 32) (maxGroups : ℕ) (groupId : ChildId → BitVec 32)
    (rest : Bool) (cs : List ChildId) : Arrays where
  group i := arrayOf (cs.filter fun c => i < maxGroups ∧ groupId c = jgroupId i)
  ungroup := arrayOf (cs.filter fun c => rest ∧ ∀ i < maxGroups, groupId c ≠ jgroupId i)

theorem foldl_place (jgroupId : ℕ → BitVec 32) (maxGroups : ℕ) (groupId : ChildId → BitVec 32)
    (rest : Bool) (cs : List ChildId) :
    cs.foldl (fun a c => a.place jgroupId maxGroups (groupId c) rest c) ⟨fun _ => none, none⟩
      = placed jgroupId maxGroups groupId rest cs := by
  induction cs using List.reverseRecOn with
  | nil => simp [placed, arrayOf]
  | append_singleton cs c ih =>
    rw [List.foldl_append, List.foldl_cons, List.foldl_nil, ih, place_eq]
    simp only [placed, List.filter_append, List.filter_cons, List.filter_nil, decide_eq_true_eq,
      arrayAdd_arrayOf]
    congr 1
    · funext i
      split
      · rfl
      · rw [List.append_nil]
    · split
      · rfl
      · rw [List.append_nil]

/-! ### The container that is open -/

section Walk

variable {κ : Type} {w : World κ} {m : Machine} {idle : Bool} {sel : Selection}

/-- The children that a filter lets through. -/
def visited (chosen : Option ℕ) (nums : List ℕ) : List ℕ :=
  nums.filter fun n => chosen.all (· = n)

/-- The device is called back for, and shown. -/
def Listed (m : Machine) (idle : Bool) (sel : Selection) (node : DeviceNode) : Prop :=
  sel.dev.all (· = node.id) ∧ (m.deviceState node.id = .enabled ∨ idle)

instance (node : DeviceNode) : Decidable (Listed m idle sel node) :=
  inferInstanceAs (Decidable (_ ∧ _))

/-- The work queue is shown, if it is called back for. -/
def Shown (m : Machine) (idle : Bool) (c : ChildId) : Prop :=
  idle ∨ (m.modeExists c ∧ (m.wqState c).active)

instance (c : ChildId) : Decidable (Shown m idle c) := inferInstanceAs (Decidable (_ ∨ _))

theorem matchDevice_iff (d : DevId) (jc : JsonContainer) :
    matchDevice d jc = true ↔ jc.device = d := by
  rw [matchDevice, decide_eq_true_eq]
  constructor
  · intro h
    exact (devname_device_injective h).symm
  · rintro rfl
    rfl

theorem onLast_eq_none {α : Type} {p : α → Bool} {l : List α} (h : ∀ x ∈ l, p x = false)
    (f : α → α) : onLast p f l = none := by
  induction l with
  | nil => rfl
  | cons x l ih =>
    rw [onLast, ih fun y hy => h y (List.mem_cons_of_mem x hy), h x List.mem_cons_self]
    rfl

/-- The head of the list is the container of the device, and the only one.  `k`
groups were called back for. -/
structure Open (d : DevId) (jc : JsonContainer) (l : List JsonContainer) (k : ℕ)
    (lfa : ListFilterArg) : Prop where
  head : lfa.jdevList = jc :: l
  count : lfa.groupNum = k
  device : jc.device = d
  fresh : ∀ jc' ∈ l, jc'.device ≠ d

/-- A test of what is chosen, the one way and the other. -/
theorem any_ne_eq {α : Type} [DecidableEq α] (o : Option α) (x : α) :
    o.any (· ≠ x) = !o.all (· = x) := by
  cases o <;> simp

section Open

variable {c : ChildId} {jc : JsonContainer} {l : List JsonContainer} {k : ℕ}
  {lfa : ListFilterArg}

theorem Open.onLast {d : DevId} (h : Open d jc l k lfa) (f : JsonContainer → JsonContainer) :
    onLast (matchDevice d) f lfa.jdevList = some (f jc :: l) := by
  have hfresh : ∀ jc' ∈ l, matchDevice d jc' = false := by
    intro jc' hjc'
    rw [Bool.eq_false_iff, Ne, matchDevice_iff]
    exact h.fresh jc' hjc'
  rw [h.head, Accfg.onLast, onLast_eq_none hfresh]
  simp only [(matchDevice_iff d jc).mpr h.device, if_true]

theorem filterDevice_open {d : DevId} (hdev : m.deviceState d = .enabled ∨ idle)
    (hfresh : ∀ jc ∈ lfa.jdevList, jc.device ≠ d) :
    ∃ lfa', filterDevice m idle d lfa = (true, lfa') ∧
      Open d (.new d) lfa.jdevList lfa.groupNum lfa' := by
  have hnot : ¬(m.deviceState d ≠ .enabled ∧ ¬idle) := by
    rintro ⟨hstate, hidle⟩
    exact hdev.elim hstate hidle
  rw [filterDevice, if_neg hnot]
  exact ⟨_, rfl, rfl, rfl, rfl, hfresh⟩

theorem filterGroup_open (h : Open c.dev jc l k lfa) :
    Open c.dev (jc.addGroup (k % maxGroups w c.dev) c) l (k + 1) (filterGroup w c lfa).2 := by
  rw [filterGroup, h.onLast, h.count]
  exact ⟨rfl, rfl, h.device, h.fresh⟩

theorem filterWq_open (h : Open c.dev jc l k lfa) :
    Open c.dev (if Shown m idle c then jc.addWq w idle c else jc) l k
      (filterWq w m idle c lfa).2 := by
  have hshown : Shown m idle c ↔
      ¬((!idle && !accfgWqIsEnabled m c) = true) ∧ ¬((!(m.wqState c).active && !idle) = true) := by
    rw [Shown, accfgWqIsEnabled]
    cases idle <;> simp
  rw [filterWq, h.onLast]
  by_cases hmode : (!idle && !accfgWqIsEnabled m c) = true
  · simp only [hshown, hmode, not_true, false_and, if_false, if_true]
    exact h
  · by_cases hstate : (!(m.wqState c).active && !idle) = true
    · simp only [hshown, hmode, hstate, not_true, and_false, if_false, if_true]
      exact h
    · rw [if_pos (hshown.mpr ⟨hmode, hstate⟩)]
      simp only [hmode, hstate]
      exact ⟨rfl, h.count, h.device, h.fresh⟩

theorem filterEngine_open (h : Open c.dev jc l k lfa)
    (hdev : m.deviceState c.dev = .enabled ∨ idle) :
    Open c.dev (jc.addEngine w c) l k (filterEngine w m idle c lfa).2 := by
  have hnot : ¬(m.deviceState c.dev ≠ .enabled ∧ ¬idle) := by
    rintro ⟨hstate, hidle⟩
    exact hdev.elim hstate hidle
  rw [filterEngine, if_neg hnot, h.onLast]
  exact ⟨rfl, h.count, h.device, h.fresh⟩

/-! ### Each loop over children -/

/-- A loop over different children calls back for those that are visited. -/
theorem visitEach_snd {chosen : Option ℕ} {filter : ℕ → ListFilterArg → Bool × ListFilterArg}
    {nums : List ℕ} (hnodup : nums.Nodup) (st : Bool × ListFilterArg) :
    (visitEach chosen filter nums st).2
      = (visited chosen nums).foldl (fun lfa n => (filter n lfa).2) st.2 := by
  induction nums generalizing st with
  | nil => rfl
  | cons n ns ih =>
    obtain ⟨found, lfa⟩ := st
    obtain ⟨hn, hns⟩ := List.nodup_cons.mp hnodup
    cases chosen with
    | none =>
      rw [visitEach]
      simpa [visited] using ih hns (found, (filter n lfa).2)
    | some num =>
      by_cases heq : num = n
      · -- the loop ends here, and no other child has the number
        subst heq
        have hrest : ns.filter (fun n => decide (num = n)) = [] := by
          rw [List.filter_eq_nil_iff]
          intro n' hn' hdec
          exact hn (of_decide_eq_true hdec ▸ hn')
        rw [visitEach]
        simp [visited, hrest]
      · rw [visitEach]
        simpa [visited, heq] using ih hns (found, lfa)

theorem filterGroups_open (d : DevId) (nums : List ℕ) (h : Open d jc l k lfa) :
    Open d ((nums.zipIdx k).foldl (fun jc ni => jc.addGroup (ni.2 % maxGroups w d) ⟨d, ni.1⟩) jc) l
      (k + nums.length) (nums.foldl (fun lfa n => (filterGroup w ⟨d, n⟩ lfa).2) lfa) := by
  induction nums generalizing jc k lfa with
  | nil => exact h
  | cons n nums ih =>
    have hlen : k + (n :: nums).length = k + 1 + nums.length := by
      rw [List.length_cons]
      omega
    rw [hlen, List.zipIdx_cons, List.foldl_cons, List.foldl_cons]
    exact ih (filterGroup_open (c := ⟨d, n⟩) h)

theorem filterWqs_open (d : DevId) (nums : List ℕ) (h : Open d jc l k lfa) :
    Open d ((nums.filter fun n => Shown m idle ⟨d, n⟩).foldl
      (fun jc n => jc.addWq w idle ⟨d, n⟩) jc) l k
      (nums.foldl (fun lfa n => (filterWq w m idle ⟨d, n⟩ lfa).2) lfa) := by
  induction nums generalizing jc lfa with
  | nil => exact h
  | cons n nums ih =>
    have hn : Open d (if Shown m idle ⟨d, n⟩ then jc.addWq w idle ⟨d, n⟩ else jc) l k
        (filterWq w m idle ⟨d, n⟩ lfa).2 := filterWq_open (c := ⟨d, n⟩) h
    rw [List.filter_cons, List.foldl_cons]
    by_cases hshown : Shown m idle ⟨d, n⟩
    · rw [if_pos hshown] at hn
      rw [if_pos (decide_eq_true hshown), List.foldl_cons]
      exact ih hn
    · rw [if_neg hshown] at hn
      rw [if_neg (by simpa using hshown)]
      exact ih hn

theorem filterEngines_open (d : DevId) (nums : List ℕ) (h : Open d jc l k lfa)
    (hdev : m.deviceState d = .enabled ∨ idle) :
    Open d (nums.foldl (fun jc n => jc.addEngine w ⟨d, n⟩) jc) l k
      (nums.foldl (fun lfa n => (filterEngine w m idle ⟨d, n⟩ lfa).2) lfa) := by
  induction nums generalizing jc lfa with
  | nil => exact h
  | cons n nums ih => exact ih (filterEngine_open (c := ⟨d, n⟩) h hdev)

end Open

/-! ### Containers after a walk -/

/-- The container with its groups, the first of which is the `start`-th that was
called back for. -/
def withGroups (w : World κ) (d : DevId) (start : ℕ) (nums : List ℕ) : JsonContainer :=
  (nums.zipIdx start).foldl
    (fun jc ni => jc.addGroup (ni.2 % maxGroups w d) ⟨d, ni.1⟩) (.new d)

/-- The container of a device. -/
def containerOf (w : World κ) (m : Machine) (idle : Bool) (sel : Selection) (start : ℕ)
    (node : DeviceNode) : JsonContainer :=
  let jc := withGroups w node.id start (visited sel.group node.groups)
  let jc := ((visited sel.wq node.wqs).filter fun n => Shown m idle ⟨node.id, n⟩).foldl
    (fun jc n => jc.addWq w idle ⟨node.id, n⟩) jc
  (visited sel.engine node.engines).foldl (fun jc n => jc.addEngine w ⟨node.id, n⟩) jc

/-- The containers of devices. -/
def containers (w : World κ) (m : Machine) (idle : Bool) (sel : Selection) :
    ℕ → List DeviceNode → List JsonContainer
  | _, [] => []
  | start, node :: nodes =>
    if Listed m idle sel node then
      containerOf w m idle sel start node ::
        containers w m idle sel (start + (visited sel.group node.groups).length) nodes
    else containers w m idle sel start nodes

/-- Devices with different names, each with different children. -/
structure Distinct (ctx : List DeviceNode) : Prop where
  nodup : (ctx.map (·.id)).Nodup
  children : ∀ node ∈ ctx, ∀ kind, (node.nums kind).Nodup

theorem Distinct.tail {node : DeviceNode} {ctx : List DeviceNode} (h : Distinct (node :: ctx)) :
    Distinct ctx where
  nodup := (List.nodup_cons.mp h.nodup).2
  children node' hnode' := h.children node' (List.mem_cons_of_mem node hnode')

theorem Distinct.ne_of_mem {node node' : DeviceNode} {ctx : List DeviceNode}
    (h : Distinct (node :: ctx)) (hmem : node' ∈ ctx) : node'.id ≠ node.id := by
  intro heq
  have hids : node.id ∉ ctx.map (·.id) := (List.nodup_cons.mp h.nodup).1
  rw [← heq] at hids
  exact hids (List.mem_map_of_mem hmem)

theorem visitChildren_open {node : DeviceNode} {l : List JsonContainer} {k : ℕ}
    {st : Bool × ListFilterArg} (hkids : ∀ kind, (node.nums kind).Nodup)
    (hdev : m.deviceState node.id = .enabled ∨ idle)
    (h : Open node.id (.new node.id) l k st.2) :
    Open node.id (containerOf w m idle sel k node) l (k + (visited sel.group node.groups).length)
      (visitChildren w m idle sel node st).2 := by
  have hgroups : node.groups.Nodup := hkids .group
  have hwqs : node.wqs.Nodup := hkids .wq
  have hengines : node.engines.Nodup := hkids .engine
  rw [visitChildren, visitEach_snd hengines, visitEach_snd hwqs, visitEach_snd hgroups]
  exact filterEngines_open _ _ (filterWqs_open _ _ (filterGroups_open _ _ h)) hdev

/-- No device that is left over is listed. -/
theorem containers_eq_nil {ctx : List DeviceNode} (k : ℕ)
    (h : ∀ node ∈ ctx, ¬Listed m idle sel node) : containers w m idle sel k ctx = [] := by
  induction ctx with
  | nil => rfl
  | cons node ctx ih =>
    rw [containers, if_neg (h node List.mem_cons_self)]
    exact ih fun node' hnode' => h node' (List.mem_cons_of_mem node hnode')

/-- The containers after a walk, each by itself; the last device is in front. -/
theorem jdevList_visitDevices {ctx : List DeviceNode} (hctx : Distinct ctx)
    (st : Bool × ListFilterArg)
    (hfresh : ∀ node ∈ ctx, ∀ jc ∈ st.2.jdevList, jc.device ≠ node.id) :
    (visitDevices w m idle sel ctx st).2.jdevList
      = (containers w m idle sel st.2.groupNum ctx).reverse ++ st.2.jdevList := by
  induction ctx generalizing st with
  | nil => rfl
  | cons node ctx ih =>
    obtain ⟨found, lfa⟩ := st
    have hrest : ∀ node' ∈ ctx, ∀ jc ∈ lfa.jdevList, jc.device ≠ node'.id := fun node' hnode' =>
      hfresh node' (List.mem_cons_of_mem node hnode')
    rw [visitDevices, containers]
    by_cases hsel : sel.dev.all (· = node.id) = true
    · have hany : ¬sel.dev.any (· ≠ node.id) = true := by
        rw [any_ne_eq, hsel]
        exact Bool.false_ne_true
      rw [if_neg hany]
      by_cases hdev : m.deviceState node.id = .enabled ∨ idle
      · obtain ⟨lfa', hfilter, hopen⟩ := filterDevice_open hdev (hfresh node List.mem_cons_self)
        have hkids : Open node.id (containerOf w m idle sel lfa.groupNum node) lfa.jdevList
            (lfa.groupNum + (visited sel.group node.groups).length)
            (visitChildren w m idle sel node (found || sel.param.isSome, lfa')).2 :=
          visitChildren_open (hctx.children node List.mem_cons_self) hdev hopen
        rw [hfilter, if_pos ⟨hsel, hdev⟩]
        simp only
        generalize visitChildren w m idle sel node (found || sel.param.isSome, lfa') = st at hkids ⊢
        by_cases hone : sel.dev.isSome = true
        · -- the loop ends here, and no other device has the name
          obtain ⟨d, hd⟩ := Option.isSome_iff_exists.mp hone
          have hid : d = node.id := by simpa [hd] using hsel
          have hnone : ∀ node' ∈ ctx, ¬Listed m idle sel node' := by
            rintro node' hnode' ⟨hall, -⟩
            have hid' : d = node'.id := by simpa [hd] using hall
            exact hctx.ne_of_mem hnode' (hid'.symm.trans hid)
          rw [if_pos hone, containers_eq_nil _ hnone, hkids.head]
          rfl
        -- no later device has the id of the container just made
        · have hfresh' : ∀ node' ∈ ctx, ∀ jc ∈ st.2.jdevList, jc.device ≠ node'.id := by
            intro node' hnode' jc hjc
            rw [hkids.head] at hjc
            rcases List.mem_cons.mp hjc with hhead | hold
            · rw [hhead, hkids.device]
              exact (hctx.ne_of_mem hnode').symm
            · exact hrest node' hnode' jc hold
          rw [if_neg hone, ih hctx.tail st hfresh', hkids.head, hkids.count, List.reverse_cons,
            List.append_assoc]
          rfl
      -- not enabled, and idle devices are not asked for
      · have hskip : m.deviceState node.id ≠ .enabled ∧ ¬idle := not_or.mp hdev
        have hlisted : ¬Listed m idle sel node := fun h => hdev h.2
        rw [filterDevice, if_pos hskip, if_neg hlisted]
        exact ih hctx.tail (found, { lfa with jdevice := none }) hrest
    -- another device was named
    · have hany : sel.dev.any (· ≠ node.id) = true := by
        rw [any_ne_eq, Bool.eq_false_iff.mpr hsel]
        rfl
      have hlisted : ¬Listed m idle sel node := fun h => hsel h.1
      rw [if_pos hany, if_neg hlisted]
      exact ih hctx.tail (found, lfa) hrest

end Walk

end Accfg
