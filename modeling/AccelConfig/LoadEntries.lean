/-
A load, member by member.

`AtComp` is the state of a load in which the pointers are those of one component
and the setters called so far were accepted.  An entry for a component that is
idle leads there from any state of the load, and attributes do not lead away.

* `passes_device`, `passes_child` — an entry leads to the component it names;
* `configureAttr_atComp` — an attribute is one of the component that was named;
* `perform_setIf` — what it does, where its setter is accepted.
-/
import AccelConfig.Activate
import AccelConfig.LoadAttribution
import AccelConfig.Passes
import AccelConfig.ParseNames
import AccelConfig.SettingRun

open CNumeral StopAtFailure

namespace Accfg

/-! ### States that are read -/

/-- The component is not enabled, and not locked. -/
def Idle (t : Tree) : Comp → Prop
  | .device d => t.file (.attr (.device d) "state") ≠ some "enabled".toList
  | .wq c => t.file (.attr (.wq c) "state") ≠ some "enabled".toList ∧
      t.file (.attr (.wq c) "state") ≠ some "locked".toList
  | _ => True

/-- What is read of a file on the storing kernel. -/
theorem sysfsReadAttr_store (p : Path) (s : Sys Tree) :
    ∃ rc buf s', sysfsReadAttr storeKernel p s = (rc, buf, s') ∧ s'.kernel = s.kernel ∧
      (rc < 0 ∨ buf = [] ∨ s.kernel.file p = some buf) := by
  refine ⟨(sysfsReadAttr storeKernel p s).1, (sysfsReadAttr storeKernel p s).2.1,
    (sysfsReadAttr storeKernel p s).2.2, rfl, sysfsReadAttr_tree p s, ?_⟩
  cases hf : s.kernel.file p with
  | none =>
    have habsent : sysfsReadAttr storeKernel p s
        = (-(ENOENT : ℤ), [], { s with errno := ENOENT }) := by
      rw [sysfsReadAttr, open_absent .read hf]
    rw [habsent]
    exact .inl (show -(ENOENT : ℤ) < 0 by decide)
  | some buf =>
    have hpresent : sysfsReadAttr storeKernel p s
        = if SYSFS_ATTR_SIZE ≤ (buf ++ ['\n']).length then (-(s.errno : ℤ), [], s)
          else (0, buf, s) := by
      rw [sysfsReadAttr, open_present .read hf]
      simp only [storeKernel, hf, sysCall, chomp_newline]
    rw [hpresent]
    split
    · exact .inr (.inl rfl)
    · exact .inr (.inr rfl)

theorem getState_device (d : DevId) (s : Sys Tree) (h : Idle s.kernel (.device d)) :
    (accfgDeviceGetState storeKernel d s).1 ≠ .enabled ∧
      (accfgDeviceGetState storeKernel d s).2.kernel = s.kernel := by
  obtain ⟨rc, buf, s', hread, hkernel, htext⟩ :=
    sysfsReadAttr_store (.attr (.device d) "state") s
  rw [accfgDeviceGetState, hread]
  dsimp only
  split_ifs with hrc hdis hen
  · exact ⟨DeviceState.noConfusion, (saveLastError_tree _ _).trans hkernel⟩
  · exact ⟨DeviceState.noConfusion, hkernel⟩
  · subst hen
    rcases htext with hneg | hnil | hfile
    · exact absurd hneg hrc
    · cases hnil
    · exact absurd hfile h
  · exact ⟨DeviceState.noConfusion, hkernel⟩

theorem getState_wq (c : ChildId) (s : Sys Tree) (h : Idle s.kernel (.wq c)) :
    (accfgWqGetState storeKernel c s).1.active = false ∧
      (accfgWqGetState storeKernel c s).2.kernel = s.kernel := by
  obtain ⟨rc, buf, s', hread, hkernel, htext⟩ := sysfsReadAttr_store (.attr (.wq c) "state") s
  rw [accfgWqGetState, hread]
  dsimp only
  split_ifs with hrc hdis hen hq hlocked
  · exact ⟨rfl, (saveLastError_tree _ _).trans hkernel⟩
  · exact ⟨rfl, hkernel⟩
  · subst hen
    rcases htext with hneg | hnil | hfile
    · exact absurd hneg hrc
    · cases hnil
    · exact absurd hfile h.1
  · exact ⟨rfl, hkernel⟩
  · subst hlocked
    rcases htext with hneg | hnil | hfile
    · exact absurd hneg hrc
    · cases hnil
    · exact absurd hfile h.2
  · exact ⟨rfl, hkernel⟩

/-! ### Names of children -/

theorem exists_scanD_decimal (n : ℕ) {rest : List Char} (hr : Stops rest) :
    ∃ z, scanD (decimal n ++ rest) = some (z, rest) := by
  rw [scanD, scanInt_decimal _ hr]
  exact ⟨_, rfl⟩

theorem scanD_decimal {n : ℕ} (h : n < 2 ^ 31) {rest : List Char} (hr : Stops rest) :
    scanD (decimal n ++ rest) = some ((n : ℤ), rest) := by
  have hclamp : clamp (-2 ^ 63) (2 ^ 63 - 1) (n : ℤ) = n := clamp_of_mem (by omega) (by omega)
  rw [scanD, scanInt_decimal _ hr, Option.map_some]
  simp only [hclamp, BitVec.toInt_ofInt]
  rw [Int.bmod_eq_of_le (by omega) (by omega)]

/-- The letters of one kind are not all in the name of a child of another. -/
theorem not_strstr_of_letter {kind : Kind} {c : ChildId} {word : String} (x : Char)
    (hx : x ∈ word.toList) (hkind : x ∉ kind.str.toList) (hdot : x ≠ '.')
    (hdigit : x.isDigit = false) : ¬strstr (kind.comp c).devname word := by
  intro hsub
  rcases mem_devname_child (hsub.subset hx) with h | h | h
  · exact hkind h
  · exact hdot h
  · rw [hdigit] at h
    cases h

theorem noDevice_child (kind : Kind) (c : ChildId) : NoDevice (kind.comp c).devname := by
  intro t _
  -- no name of a kind has an `a`
  refine not_strstr_of_letter 'a' ?_ ?_ (by decide) (by decide)
  · cases t <;> decide
  · cases kind <;> decide

/-- A letter that only this kind has. -/
def Kind.letter : Kind → Char
  | .group => 'u'
  | .wq => 'w'
  | .engine => 'i'

theorem Kind.mem_letter_iff (kind kind' : Kind) :
    kind'.letter ∈ kind.str.toList ↔ kind' = kind := by
  cases kind <;> cases kind' <;> decide

/-- The name of a child is one of its kind. -/
theorem strstr_child_iff (kind kind' : Kind) (c : ChildId) :
    strstr (kind.comp c).devname kind'.str ↔ kind' = kind := by
  constructor
  · intro h
    by_contra hne
    refine not_strstr_of_letter kind'.letter ((Kind.mem_letter_iff _ _).mpr rfl)
      (fun hmem => hne ((Kind.mem_letter_iff _ _).mp hmem)) ?_ ?_ h
    · cases kind' <;> decide
    · cases kind' <;> decide
  · rintro rfl
    rw [strstr, toList_devname_child, List.append_assoc]
    exact (List.prefix_append _ _).isInfix

theorem getById_of_mem {node : DeviceNode} {kind : Kind} {n : ℕ} (h : n ∈ node.nums kind) :
    getById node kind (n : ℤ) = some ⟨node.id, n⟩ := by
  have hfind : ((node.nums kind).find? fun n' : ℕ => (n' : ℤ) = n) = some n := by
    cases hget : (node.nums kind).find? fun n' : ℕ => (n' : ℤ) = n with
    | none =>
      have hnone := List.find?_eq_none.mp hget n h
      simp at hnone
    | some n' =>
      have heq : (n' : ℤ) = n := by simpa using List.find?_some hget
      rw [Int.natCast_inj.mp heq]
  rw [getById, hfind, Option.map_some]

/-- What the part for a kind makes of the name of a child. -/
theorem entryChild_child {node : DeviceNode} {kind : Kind} {n : ℕ} (hn : n ∈ node.nums kind)
    (hlt : n < 2 ^ 31) (kind' : Kind) : entryChild kind' (kind.comp ⟨node.id, n⟩).devname node
      = .ok (if kind' = kind then some ⟨node.id, n⟩ else none) := by
  rw [entryChild]
  by_cases heq : kind' = kind
  · subst heq
    have hstops : Stops ('.' :: decimal n) := stops_cons (by decide)
    obtain ⟨z, hdev⟩ := exists_scanD_decimal node.id.id hstops
    have hnum := scanD_decimal hlt stops_nil
    rw [List.append_nil] at hnum
    have hpair : scanPair ((kind'.comp ⟨node.id, n⟩).devname.toList.drop kind'.str.toList.length)
        = some (z, (n : ℤ)) := by
      rw [toList_devname_child, List.append_assoc, List.drop_left, scanPair, hdev]
      simp only [hnum, Option.map_some]
    rw [if_pos ((strstr_child_iff _ _ _).mpr rfl), hpair, if_pos rfl]
    simp only [getById_of_mem hn]
  · rw [if_neg fun h => heq ((strstr_child_iff _ _ _).mp h), if_neg heq]

/-! ### States of a load -/

theorem settings_append (log log' : List Event) :
    settings (log ++ log') = settings log ++ settings log' := List.filterMap_append

/-- The setters called so far are those of `done`, and all were accepted. -/
structure Loaded (w : World Tree) (done : List Setting) (st : LoadState Tree) : Prop where
  log : settings st.log = done
  progress : Progress w done st.world

/-- The children of the next entries are looked up in this device. -/
structure WithParent (w : World Tree) (node : DeviceNode) (done : List Setting)
    (st : LoadState Tree) : Prop extends Loaded w done st where
  parent : st.parent = some node

/-- The next attributes are those of this component. -/
def Points (node : DeviceNode) (c : Comp) (st : LoadState Tree) : Prop :=
  match c with
  | .device d => d = node.id ∧ st.dev = some node
  | .group c => st.dev = none ∧ st.group = some c
  | .wq c => st.dev = none ∧ st.group = none ∧ st.wq = some c
  | .engine c => st.dev = none ∧ st.group = none ∧ st.wq = none ∧ st.engine = some c

/-- The load has come to an entry of the component. -/
structure AtComp (w : World Tree) (node : DeviceNode) (c : Comp) (done : List Setting)
    (st : LoadState Tree) : Prop extends WithParent w node done st where
  points : Points node c st

variable {ctx : List DeviceNode} {opts : Options} {w : World Tree} {node : DeviceNode}
  {done : List Setting}

/-- Only calls of setters count. -/
theorem Loaded.note {st : LoadState Tree} (h : Loaded w done st) (e : Event)
    (he : settings [e] = []) : Loaded w done (st.note e) where
  log := (settings_append _ _).trans (by rw [he, List.append_nil, h.log])
  progress := h.progress

/-- Reading something. -/
theorem Loaded.withSys {st : LoadState Tree} (h : Loaded w done st) {s : Sys Tree}
    (hs : s.kernel = st.world.sys.kernel) : Loaded w done (st.withSys s) where
  log := h.log
  progress := h.progress.congr s hs

/-- No setter writes a state. -/
theorem state_notMem_files (st : Setting) : "state" ∉ st.files := by
  rw [← Setting.slot_files]
  intro h
  have hnone : Slot.ofFile st.slot.comp "state" = none := by cases st.slot.comp <;> rfl
  rw [Slot.ofFile_eq h] at hnone
  exact Option.some_ne_none _ hnone

theorem Loaded.idle {st : LoadState Tree} (h : Loaded w done st) {c : Comp}
    (hc : Idle w.sys.kernel c) : Idle st.world.sys.kernel c := by
  have hfile : ∀ c, st.world.sys.kernel.file (.attr c "state")
      = w.sys.kernel.file (.attr c "state") := by
    intro c
    refine h.progress.files _ fun set _ file hfile heq => ?_
    obtain ⟨-, rfl⟩ := Path.attr.inj heq
    exact state_notMem_files set hfile
  cases c with
  | device d => rwa [Idle, hfile]
  | wq c => rwa [Idle, hfile]
  | _ => trivial

/-! ### Entries -/

/-- `configure_json_value` on the storing kernel. -/
def loadCall (ctx : List DeviceNode) (opts : Options) (call : Call) (st : LoadState Tree) :
    Exit × LoadState Tree :=
  configureJsonValue storeKernel ctx opts call.1 call.2 st

theorem loadCall_dev (name : String) (st : LoadState Tree) :
    loadCall ctx opts (.string name, some "dev") st
      = configureDev storeKernel ctx opts name (st.note (.visit (.string name) (some "dev"))) := by
  rw [loadCall, configureJsonValue, if_pos rfl]
  rfl

/-- What the part for devices makes of the name of one. -/
theorem deviceEntry_devname (hctx : (ctx.map (·.id)).Nodup) (hnode : node ∈ ctx)
    {st : LoadState Tree} (hst : Loaded w done st)
    (hidle : Idle w.sys.kernel (.device node.id)) :
    ∃ st', deviceEntry storeKernel ctx opts (Comp.device node.id).devname st = (none, st') ∧
      AtComp w node (.device node.id) done st' := by
  obtain ⟨hstate, hkernel⟩ := getState_device node.id st.world.sys (hst.idle hidle)
  obtain ⟨type, hfind⟩ : ∃ type, (accfgBasenames.head?.toList ++ accfgBasenames).find?
      (fun t => strstr (Comp.device node.id).devname t.str) = some type := by
    refine Option.isSome_iff_exists.mp (List.find?_isSome.mpr ⟨node.id.type, ?_, ?_⟩)
    · cases node.id.type <;> decide
    · rw [decide_eq_true_eq, strstr, Comp.devname, String.toList_ofList]
      exact (List.prefix_append _ _).isInfix
  -- the base names are equally long
  have hlen : type.str.toList.length = node.id.type.str.toList.length := by
    cases type <;> cases node.id.type <;> rfl
  obtain ⟨z, hscan⟩ : ∃ z, scanD
      ((Comp.device node.id).devname.toList.drop type.str.toList.length) = some (z, []) := by
    obtain ⟨z, hscan⟩ := exists_scanD_decimal node.id.id stops_nil
    refine ⟨z, ?_⟩
    rwa [hlen, Comp.devname, String.toList_ofList, List.drop_left, ← List.append_nil (decimal _)]
  have hget := (deviceGetByName_eq_some_iff hctx).mpr ⟨hnode, rfl⟩
  rw [deviceEntry, hfind]
  dsimp only
  rw [hscan]
  dsimp only
  rw [hget]
  dsimp only
  generalize accfgDeviceGetState storeKernel node.id st.world.sys = read at hstate hkernel ⊢
  obtain ⟨state, s⟩ := read
  rw [if_pos hstate]
  have hread := (hst.withSys hkernel).note (.device node.id state) rfl
  exact ⟨_, rfl, ⟨⟨hread.log, hread.progress⟩, rfl⟩, rfl, rfl⟩

/-- An entry for a device leads to it. -/
theorem passes_device (hctx : (ctx.map (·.id)).Nodup) (hnode : node ∈ ctx)
    (hidle : Idle w.sys.kernel (.device node.id)) :
    Passes (loadCall ctx opts) (Loaded w done)
      [(.string (Comp.device node.id).devname, some "dev")]
      (AtComp w node (.device node.id) done) := by
  refine Passes.single fun st hst => ?_
  have hnoted := hst.note (.visit (.string (Comp.device node.id).devname) (some "dev")) rfl
  rw [loadCall_dev, configureDev]
  generalize st.note (.visit (.string (Comp.device node.id).devname) (some "dev")) = st₁ at hnoted ⊢
  have hreset : Loaded w done { st₁ with dev := none, group := none, wq := none, engine := none } :=
    ⟨hnoted.log, hnoted.progress⟩
  obtain ⟨st₂, hentry, hst₂⟩ := @deviceEntry_devname ctx opts w node done hctx hnode _ hreset hidle
  refine ⟨st₂, ?_, hst₂⟩
  rw [hentry, orReturn, childEntries_devname]

/-- What the parts for children make of the name of one. -/
theorem childEntries_devname_child {kind : Kind} {n : ℕ} (hn : n ∈ node.nums kind)
    (hlt : n < 2 ^ 31) (hidle : Idle w.sys.kernel (kind.comp ⟨node.id, n⟩))
    {st : LoadState Tree} (hst : WithParent w node done st)
    (hnone : st.dev = none ∧ st.group = none ∧ st.wq = none) :
    ∃ st', childEntries storeKernel opts (kind.comp ⟨node.id, n⟩).devname st = (.ret 0, st') ∧
      AtComp w node (kind.comp ⟨node.id, n⟩) done st' := by
  obtain ⟨hdev, hgroup, hwq⟩ := hnone
  rw [childEntries, hst.parent]
  dsimp only
  cases kind with
  | group =>
    simp only [wqEntry, engineEntry, groupEntry, entryChild_child hn hlt, reduceCtorEq, if_false,
      if_true, orReturn]
    exact ⟨_, rfl, ⟨⟨hst.log, hst.progress⟩, hst.parent⟩, hdev, rfl⟩
  | wq =>
    obtain ⟨hstate, hkernel⟩ := getState_wq ⟨node.id, n⟩ st.world.sys (hst.idle hidle)
    simp only [wqEntry, engineEntry, groupEntry, entryChild_child hn hlt, reduceCtorEq, if_false,
      if_true]
    generalize accfgWqGetState storeKernel ⟨node.id, n⟩ st.world.sys = read at hstate hkernel ⊢
    obtain ⟨state, s⟩ := read
    have hread := (hst.withSys hkernel).note (.wq ⟨node.id, n⟩ state) rfl
    simp only [show state.active = false from hstate, Bool.false_eq_true, if_false, orReturn]
    exact ⟨_, rfl, ⟨⟨hread.log, hread.progress⟩, hst.parent⟩, hdev, hgroup, rfl⟩
  | engine =>
    simp only [wqEntry, engineEntry, groupEntry, entryChild_child hn hlt, reduceCtorEq, if_false,
      if_true, orReturn]
    exact ⟨_, rfl, ⟨⟨hst.log, hst.progress⟩, hst.parent⟩, hdev, hgroup, hwq, rfl⟩

/-- An entry for a child of the device leads to it. -/
theorem passes_child {kind : Kind} {n : ℕ} (hn : n ∈ node.nums kind) (hlt : n < 2 ^ 31)
    (hidle : Idle w.sys.kernel (kind.comp ⟨node.id, n⟩)) :
    Passes (loadCall ctx opts) (WithParent w node done)
      [(.string (kind.comp ⟨node.id, n⟩).devname, some "dev")]
      (AtComp w node (kind.comp ⟨node.id, n⟩) done) := by
  refine Passes.single fun st hst => ?_
  have hnoted := hst.note (.visit (.string (kind.comp ⟨node.id, n⟩).devname) (some "dev")) rfl
  have hparent : (st.note (.visit (.string (kind.comp ⟨node.id, n⟩).devname) (some "dev"))).parent
      = some node := hst.parent
  rw [loadCall_dev, configureDev, deviceEntry_of_noDevice (noDevice_child kind _), orReturn]
  exact childEntries_devname_child hn hlt hidle ⟨⟨hnoted.log, hnoted.progress⟩, hparent⟩
    ⟨rfl, rfl, rfl⟩

/-! ### Attributes -/

/-- `*_json_set_val` of the component. -/
def jsonSetVal (w : World Tree) (c : Comp) (val : Json) (key : String) (s : Sys Tree) :
    SetVal × Sys Tree :=
  match c with
  | .device d => deviceJsonSetVal d val key s
  | .group c => groupJsonSetVal c (w.device c.dev) (w.group c) val key s
  | .wq c => wqJsonSetVal storeKernel c (w.wq c) val key s
  | .engine c => engineJsonSetVal c val key s

theorem configureAttr_atComp {c : Comp} {st : LoadState Tree} (hst : AtComp w node c done st)
    (hopts : opts.configDefaultFile = false) (val : Json) (key : String) :
    configureAttr storeKernel opts val key st
      = perform storeKernel st (jsonSetVal st.world c val key st.world.sys) := by
  have hpoints := hst.points
  rw [configureAttr, if_neg (by simp [hst.parent]), hopts]
  cases c with
  | device d =>
    obtain ⟨rfl, hdev⟩ := hpoints
    simp only [Bool.false_eq_true, if_false, hdev, jsonSetVal]
  | group c =>
    obtain ⟨hdev, hgroup⟩ := hpoints
    simp only [Bool.false_eq_true, if_false, hdev, hgroup, jsonSetVal]
  | wq c =>
    obtain ⟨hdev, hgroup, hwq⟩ := hpoints
    simp only [Bool.false_eq_true, if_false, hdev, hgroup, hwq, jsonSetVal]
  | engine c =>
    obtain ⟨hdev, hgroup, hwq, hengine⟩ := hpoints
    simp only [Bool.false_eq_true, if_false, hdev, hgroup, hwq, hengine, jsonSetVal]

/-- A setter, if the condition holds. -/
def setIf (p : Prop) [Decidable p] (set : Setting) : List Setting := if p then [set] else []

/-- What an attribute does that leads to an accepted setter, or to nothing. -/
theorem perform_setIf {c : Comp} {st : LoadState Tree} (hst : AtComp w node c done st) {p : Prop}
    [Decidable p] {set : Setting} (hacc : p → set.Accepts w)
    (hfresh : ∀ st' ∈ done, st'.slot ≠ set.slot) {s : Sys Tree}
    (hs : s.kernel = st.world.sys.kernel) :
    ∃ st', perform storeKernel st (if p then .set set else .ret 0, s) = (.ret 0, st') ∧
      AtComp w node c (done ++ setIf p set) st' := by
  have hread := hst.withSys hs
  rw [setIf]
  split
  · next hp =>
    obtain ⟨w', hcall, hdoes⟩ := Setting.call_accepts (hread.progress.accepts (hacc hp))
    refine ⟨{ st with world := w' }.note (.set set), ?_, ⟨⟨⟨?_, ?_⟩, hst.parent⟩, hst.points⟩⟩
    · rw [perform, hcall]
      rfl
    · rw [LoadState.note, settings_append, hst.log]
      rfl
    · exact hread.progress.call hfresh hdoes
  · refine ⟨st.withSys s, rfl, ⟨⟨⟨?_, ?_⟩, hst.parent⟩, hst.points⟩⟩
    · rw [List.append_nil]
      exact hread.log
    · rw [List.append_nil]
      exact hread.progress

end Accfg
