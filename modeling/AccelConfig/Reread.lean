/-
Set, then read again.

On the storing kernel, a fresh context that enumerates the tree after a
successful setting caches what the context that did the setting has, unless
reading cuts the value: `max_transfer_size` is written as an unsigned number
and read as a signed one, and strings are read up to their first newline.

* `agrees_iff` — agreement with a fresh context, as a fact about the tree;
* `rereads_iff` — the exact condition on the value.
-/
import AccelConfig.SetterTruth
import AccelConfig.StoreKernel
import Mathlib.Data.List.TakeWhile

open CNumeral StopAtFailure

namespace Accfg

/-! ### Agreement with a fresh context -/

namespace Setting

/-- A fresh context, whatever process it belongs to, caches for the attribute
what this one has. -/
def Agrees (st : Setting) (w : World Tree) : Prop :=
  ∀ s : Sys Tree, s.kernel = w.sys.kernel →
    match st with
    | deviceReadBufferLimit d _ => ∃ dev, (addDevice storeKernel d s).1 = .object dev ∧
        dev.readBufferLimit = (w.device d).readBufferLimit
    | deviceEventLogSize d _ => ∃ dev, (addDevice storeKernel d s).1 = .object dev ∧
        dev.eventLogSize = (w.device d).eventLogSize
    | group f c _ => ∃ g, (addGroup storeKernel c s).1 = .object g ∧ g f = w.group c f
    | wq f c _ => ∃ q, (addWq storeKernel c s).1 = .object q ∧ q.int f = (w.wq c).int f
    | wqMaxTransferSize c _ => ∃ q, (addWq storeKernel c s).1 = .object q ∧
        q.maxTransferSize = (w.wq c).maxTransferSize
    | wqStr f c _ => ∃ q, (addWq storeKernel c s).1 = .object q ∧ q.str f = (w.wq c).str f
    | wqMode c _ => ∃ q, (addWq storeKernel c s).1 = .object q ∧ q.str .mode = (w.wq c).str .mode
    | wqType c _ => ∃ q, (addWq storeKernel c s).1 = .object q ∧ q.type = (w.wq c).type
    | engineGroupId c _ => ∃ e, (addEngine storeKernel c s).1 = .object e ∧
        e.groupId = (w.engine c).groupId
    -- not cached
    | wqOpConfigStr _ _ | wqOpConfig _ _ => True

/-- A property of the work queue that a fresh context adds. -/
theorem exists_addWq_iff {P : WqFields → Prop} (c : ChildId) (t : Tree) :
    (∀ s : Sys Tree, s.kernel = t → ∃ q, (addWq storeKernel c s).1 = .object q ∧ P q) ↔
      ∃ q, t.wq c = some q ∧ P q := by
  constructor
  · intro h
    obtain ⟨q, hq, hP⟩ := h ⟨t, 0, 0, none, []⟩ rfl
    rw [addWq_store] at hq
    cases ht : t.wq c with
    | none => simp [ht] at hq
    | some q' =>
      rw [ht, Added.object.injEq] at hq
      exact ⟨q', rfl, hq ▸ hP⟩
  · rintro ⟨q, hq, hP⟩ s rfl
    exact ⟨q, by rw [addWq_store, hq], hP⟩

/-- A property of an object that a fresh context makes of the tree. -/
theorem exists_add_iff {α : Type} {P : α → Prop} {add : Sys Tree → Added α × Sys Tree}
    (v : Tree → α) (h : ∀ s, (add s).1 = .object (v s.kernel)) (t : Tree) :
    (∀ s : Sys Tree, s.kernel = t → ∃ a, (add s).1 = .object a ∧ P a) ↔ P (v t) := by
  constructor
  · intro hs
    obtain ⟨a, ha, hP⟩ := hs ⟨t, 0, 0, none, []⟩ rfl
    rw [h, Added.object.injEq] at ha
    exact ha ▸ hP
  · rintro hP s rfl
    exact ⟨_, h s, hP⟩

/-- Agreement is a fact about the tree. -/
theorem agrees_iff (st : Setting) (w : World Tree) :
    st.Agrees w ↔
      match st with
      | deviceReadBufferLimit d _ =>
        BitVec.ofInt 32 (w.sys.kernel.long (.device d) "read_buffer_limit")
          = (w.device d).readBufferLimit
      | deviceEventLogSize d _ =>
        BitVec.ofInt 32 (w.sys.kernel.long (.device d) "event_log_size")
          = (w.device d).eventLogSize
      | group f c _ => BitVec.ofInt 32 (w.sys.kernel.long (.group c) f.name) = w.group c f
      | wq f c _ => ∃ q, w.sys.kernel.wq c = some q ∧ q.int f = (w.wq c).int f
      | wqMaxTransferSize c _ => ∃ q, w.sys.kernel.wq c = some q ∧
          q.maxTransferSize = (w.wq c).maxTransferSize
      | wqStr f c _ => ∃ q, w.sys.kernel.wq c = some q ∧ q.str f = (w.wq c).str f
      | wqMode c _ => ∃ q, w.sys.kernel.wq c = some q ∧ q.str .mode = (w.wq c).str .mode
      | wqType c _ => ∃ q, w.sys.kernel.wq c = some q ∧ q.type = (w.wq c).type
      | engineGroupId c _ =>
        BitVec.ofInt 32 (w.sys.kernel.long (.engine c) "group_id") = (w.engine c).groupId
      | wqOpConfigStr _ _ | wqOpConfig _ _ => True := by
  cases st with
  | wq f c val => exact exists_addWq_iff c w.sys.kernel
  | wqMaxTransferSize c val => exact exists_addWq_iff c w.sys.kernel
  | wqStr f c val => exact exists_addWq_iff c w.sys.kernel
  | wqMode c mode => exact exists_addWq_iff c w.sys.kernel
  | wqType c val => exact exists_addWq_iff c w.sys.kernel
  | wqOpConfigStr c val => exact ⟨fun _ => trivial, fun _ _ _ => trivial⟩
  | wqOpConfig c val => exact ⟨fun _ => trivial, fun _ _ _ => trivial⟩
  | group f c val => exact exists_add_iff (·.group c) (addGroup_store c) w.sys.kernel
  | engineGroupId c val =>
    exact exists_add_iff
      (fun t => EngineFields.mk (BitVec.ofInt 32 (t.long (.engine c) "group_id")))
      (addEngine_store c) w.sys.kernel
  | deviceReadBufferLimit d val =>
    have hclear := w.sys.kernel.long_clear d "read_buffer_limit" (by decide) (by decide)
    refine (exists_add_iff (fun t => (t.set (.attr (.device d) "cmd_status") ['1']).device d)
      (addDevice_store d) w.sys.kernel).trans ?_
    rw [Tree.device, hclear]
  | deviceEventLogSize d val =>
    have hclear := w.sys.kernel.long_clear d "event_log_size" (by decide) (by decide)
    refine (exists_add_iff (fun t => (t.set (.attr (.device d) "cmd_status") ['1']).device d)
      (addDevice_store d) w.sys.kernel).trans ?_
    rw [Tree.device, hclear]

/-- Where nothing changes, agreement does not. -/
theorem Agrees.of_same {st : Setting} {w w' : World Tree} (h : st.Agrees w)
    (hk : w'.sys.kernel = w.sys.kernel) (hw : SameFields w w') : st.Agrees w' := by
  rw [Agrees, hk, hw.device, hw.group, hw.wq, hw.engine]
  exact h

/-! ### The values that come back -/

/-- The setting ends with the context in agreement. -/
def Rereads (st : Setting) (w : World Tree) : Prop :=
  ∀ w', st.call storeKernel w = (.ret 0, w') → st.Agrees w'

theorem rereads_iff_of_call {st : Setting} {w w' : World Tree}
    (hcall : st.call storeKernel w = (.ret 0, w')) : st.Rereads w ↔ st.Agrees w' := by
  constructor
  · exact fun h => h w' hcall
  · intro h w'' hw
    rw [hcall, Prod.mk.injEq] at hw
    exact hw.2 ▸ h

/-- The file that is read for a number, after it has been written. -/
theorem long_set_chosen {t : Tree} {c : Comp} {name : String} {text : List Char}
    (buf : List Char)
    (h : t.file (.attr c (chosen name (t.file (.attr c name)).isSome)) = some text) :
    (t.set (.attr c (chosen name (t.file (.attr c name)).isSome)) buf).long c name
      = readText buf := by
  cases hn : t.file (.attr c name) with
  | some text' =>
    rw [hn] at h
    exact t.long_set_self buf hn
  | none =>
    rw [hn] at h
    cases hd : deprecatedAttr name with
    | none =>
      rw [chosen, Option.isSome_none, if_neg (by decide), hd] at h
      exact absurd h (by rw [Option.getD_none, t.noNull]; simp)
    | some old =>
      rw [chosen, Option.isSome_none, if_neg (by decide), hd] at h ⊢
      exact t.long_set_old buf hn hd h

theorem rereads_deviceReadBufferLimit (d : DevId) (val : BitVec 32) (w : World Tree) :
    (deviceReadBufferLimit d val).Rereads w := by
  intro w' h
  obtain ⟨hok, hk⟩ := accessOk_store (.attr (.device d) "read_buffer_limit") w.sys
  generalize hacc : accessOk storeKernel (.attr (.device d) "read_buffer_limit") w.sys = r at hok hk
  obtain ⟨ok, s⟩ := r
  obtain ⟨s', hs', hw⟩ := ok_of_store (call_deviceReadBufferLimit d val hacc) h
  obtain ⟨text, hf, rfl⟩ := storeAttr_ok hs'
  obtain rfl : ok = _ := hok
  have hk : s.kernel = w.sys.kernel := hk
  rw [hk] at hf
  obtain rfl := (Prod.mk.injEq .. ▸ hw).2
  rw [agrees_iff]
  simp only [Function.update_self]
  rw [hk, long_set_chosen (fmtInt val) hf, readText_fmtInt, BitVec.ofInt_toInt]

theorem rereads_deviceEventLogSize (d : DevId) (val : BitVec 32) {w : World Tree}
    (ha : (deviceEventLogSize d val).Agrees w) : (deviceEventLogSize d val).Rereads w := by
  intro w' h
  obtain ⟨hok, hk⟩ := accessOk_store (.attr (.device d) "event_log_size") w.sys
  generalize hacc : accessOk storeKernel (.attr (.device d) "event_log_size") w.sys = r at hok hk
  obtain ⟨_ | _, s⟩ := r
  · -- the attribute is absent and stays as it is
    rw [call_deviceEventLogSize_absent d val hacc, Prod.mk.injEq] at h
    exact ha.of_same (h.2 ▸ hk) (h.2 ▸ sameFields_sys s)
  · obtain ⟨s', hs', hw⟩ := ok_of_store (call_deviceEventLogSize d val hacc) h
    obtain ⟨text, hf, rfl⟩ := storeAttr_ok hs'
    obtain rfl := (Prod.mk.injEq .. ▸ hw).2
    rw [agrees_iff]
    simp only [Function.update_self]
    rw [Tree.long_set_self _ _ hf, readText_fmtInt, BitVec.ofInt_toInt]

theorem rereads_group (f : GroupField) (c : ChildId) (val : BitVec 32) (w : World Tree) :
    (group f c val).Rereads w := by
  intro w' h
  obtain ⟨hok, hk⟩ := accessOk_store (.attr (.group c) f.name) w.sys
  generalize hacc : accessOk storeKernel (.attr (.group c) f.name) w.sys = r at hok hk
  obtain ⟨ok, s⟩ := r
  obtain ⟨s', hs', hw⟩ := ok_of_store (call_group f c val hacc) h
  obtain ⟨text, hf, rfl⟩ := storeAttr_ok hs'
  obtain rfl : ok = _ := hok
  have hk : s.kernel = w.sys.kernel := hk
  rw [hk] at hf
  obtain rfl := (Prod.mk.injEq .. ▸ hw).2
  rw [agrees_iff]
  simp only [Function.update_self]
  rw [hk, long_set_chosen (fmtInt val) hf, readText_fmtInt, BitVec.ofInt_toInt]

theorem rereads_engineGroupId (c : ChildId) (val : BitVec 32) (w : World Tree) :
    (engineGroupId c val).Rereads w := by
  intro w' h
  obtain ⟨s', hs', hw⟩ := ok_of_store (call_engineGroupId c val) h
  obtain ⟨text, hf, rfl⟩ := storeAttr_ok hs'
  obtain rfl := (Prod.mk.injEq .. ▸ hw).2
  rw [agrees_iff]
  simp only [Function.update_self]
  rw [Tree.long_set_self _ _ hf, readText_fmtInt, BitVec.ofInt_toInt]

/-- The work queue a fresh context makes after a write. -/
theorem exists_wq_set {t : Tree} {c : ChildId} {q : WqFields} (h : t.wq c = some q) (p : Path)
    (buf : List Char) : ∃ type, (t.set p buf).str (.wq c) "type" = some type ∧
      (t.set p buf).wq c = some ((t.set p buf).wqFields c type) := by
  obtain ⟨text, htext, -⟩ := Option.map_eq_some_iff.mp h
  obtain ⟨type, htype⟩ : ∃ type, (t.set p buf).str (.wq c) "type" = some type :=
    t.exists_type_set buf htext
  exact ⟨type, htype, by rw [Tree.wq, htype, Option.map_some]⟩

theorem rereads_wq (f : WqField) (c : ChildId) (val : BitVec 32) {w : World Tree}
    (ha : (wq f c val).Agrees w) : (wq f c val).Rereads w := by
  intro w' h
  by_cases hgate : (w.device c.dev).configurable = 0 ∧ f = .threshold
  · rw [call_wq_gated f c val hgate, Prod.mk.injEq] at h
    exact h.2 ▸ ha
  · obtain ⟨s', hs', hw⟩ := ok_of_store (call_wq f c val hgate) h
    obtain ⟨text, hf, rfl⟩ := storeAttr_ok hs'
    obtain rfl := (Prod.mk.injEq .. ▸ hw).2
    obtain ⟨q, hq, -⟩ := (agrees_iff _ _).mp ha
    obtain ⟨type, -, hq'⟩ := exists_wq_set hq (.attr (.wq c) f.name) (fmtInt val)
    rw [agrees_iff]
    refine ⟨_, hq', ?_⟩
    simp only [Function.update_self, Tree.wqFields]
    rw [Tree.long_set_self _ _ hf, readText_fmtInt, BitVec.ofInt_toInt]

/-! ### The values that are cut -/

/-- The signed reader of an unsigned number. -/
theorem readLong_decimal_iff (val : BitVec 64) :
    BitVec.ofInt 64 (readText (decimal val.toNat)) = val ↔ val.toNat < 2 ^ 63 := by
  have hlt := val.isLt
  rw [readText_decimal (by omega), strtol, strtol0_decimal, clamp]
  obtain h | h := lt_or_ge val.toNat (2 ^ 63)
  · rw [min_eq_right (by omega), max_eq_right (by omega)]
    exact iff_of_true (by simp) h
  · rw [min_eq_left (by omega), max_eq_right (by omega)]
    refine ⟨fun he => ?_, fun hl => by omega⟩
    have := congrArg BitVec.toNat he
    simp at this
    omega

theorem rereads_wqMaxTransferSize (c : ChildId) (val : BitVec 64) {w : World Tree}
    (ha : (wqMaxTransferSize c val).Agrees w) :
    (wqMaxTransferSize c val).Rereads w ↔ ((w.device c.dev).configurable ≠ 0 →
      (w.sys.kernel.file (.attr (.wq c) "max_transfer_size")).isSome → val.toNat < 2 ^ 63) := by
  by_cases hgate : (w.device c.dev).configurable = 0
  · refine ⟨fun _ h => absurd hgate h, fun _ w' h => ?_⟩
    rw [call_wqMaxTransferSize_gated c val hgate, Prod.mk.injEq] at h
    exact h.2 ▸ ha
  · have hcall := call_wqMaxTransferSize (K := storeKernel) c val hgate
    cases hf : w.sys.kernel.file (.attr (.wq c) "max_transfer_size") with
    | none =>
      refine ⟨fun _ _ h => by simp at h, fun _ w' h => ?_⟩
      obtain ⟨s', hs', -⟩ := ok_of_store hcall h
      obtain ⟨text, hf', -⟩ := storeAttr_ok hs'
      rw [hf] at hf'
      cases hf'
    | some text =>
      obtain ⟨q, hq, -⟩ := (agrees_iff _ _).mp ha
      obtain ⟨type, -, hq'⟩ := exists_wq_set hq (.attr (.wq c) "max_transfer_size")
        (decimal val.toNat)
      rw [storeAttr_present _ _ hf] at hcall
      rw [rereads_iff_of_call hcall, agrees_iff, ← readLong_decimal_iff]
      simp only [hq', Option.some_inj, exists_eq_left', Function.update_self, Tree.wqFields,
        Tree.long_set_self _ _ hf]
      exact ⟨fun h _ _ => h, fun h => h hgate rfl⟩

/-- A string is read back whole iff it has no newline. -/
theorem takeWhile_newline_iff (val : String) :
    String.ofList (val.toList.takeWhile (· ≠ '\n')) = val ↔ '\n' ∉ val.toList := by
  constructor
  · intro h hmem
    rw [← h, String.toList_ofList] at hmem
    simpa using List.mem_takeWhile_imp hmem
  · intro h
    rw [List.takeWhile_eq_self_iff.mpr ?_, String.ofList_toList]
    intro c hc
    simpa using fun he : c = '\n' => h (he ▸ hc)

theorem rereads_wqStr (f : WqStrField) (c : ChildId) (val : String) {w : World Tree}
    (ha : (wqStr f c val).Agrees w) :
    (wqStr f c val).Rereads w ↔ (val.toList.length < SYSFS_ATTR_SIZE →
      ¬((w.device c.dev).configurable = 0 ∧ f = .mode) →
      (w.sys.kernel.file (.attr (.wq c) f.file)).isSome → '\n' ∉ val.toList) := by
  obtain hlen | hlen := lt_or_ge val.toList.length SYSFS_ATTR_SIZE
  · by_cases hgate : (w.device c.dev).configurable = 0 ∧ f = .mode
    · refine ⟨fun _ _ h => absurd hgate h, fun _ w' h => ?_⟩
      rw [call_wqStr_gated f c hlen hgate, Prod.mk.injEq] at h
      exact h.2 ▸ ha
    · have hcall : (wqStr f c val).call storeKernel w = _ := call_wqStr f c hlen hgate
      cases hf : w.sys.kernel.file (.attr (.wq c) f.file) with
      | none =>
        -- a missing driver name is skipped, any other missing attribute is a failure
        refine ⟨fun _ _ _ h => by simp at h, fun _ w' h => ?_⟩
        rw [writeFile_absent .write val.toList hf] at hcall
        dsimp only at hcall
        rw [if_pos (by decide)] at hcall
        split at hcall
        · rw [hcall, Prod.mk.injEq] at h
          exact h.2 ▸ ha.of_same rfl (sameFields_sys _)
        · have hsave : ReadOnly _ (saveLastError storeKernel (.wq c)
              { w.sys with errno := ENOENT }) := quiet_readOnly.saveLastError _ _
          obtain ⟨hrc, -⟩ := Prod.mk.inj (hcall.symm.trans h)
          have hzero := Int.natCast_eq_zero.mp (neg_eq_zero.mp (Exit.ret.inj hrc))
          exact absurd hzero (hsave.errno (show 0 < ENOENT by decide)).ne'
      | some text =>
        rw [writeFile_present .write val.toList hf] at hcall
        dsimp only at hcall
        rw [if_neg (by decide)] at hcall
        obtain ⟨q, hq, -⟩ := (agrees_iff _ _).mp ha
        obtain ⟨type, -, hq'⟩ := exists_wq_set hq (.attr (.wq c) f.file) val.toList
        rw [rereads_iff_of_call hcall, agrees_iff, ← takeWhile_newline_iff,
          ← takeWhile_paramText hlen]
        simp only [hq', Option.some_inj, exists_eq_left', Function.update_self, Tree.wqFields,
          Tree.str_set_self _ _ hf]
        exact ⟨fun h _ _ _ => h, fun h => h hlen hgate rfl⟩
  · refine ⟨fun _ h => by omega, fun _ w' h => ?_⟩
    have hdie : ((wqStr f c val).call storeKernel w).1 = .die := call_wqStr_die f c hlen
    rw [h] at hdie
    cases hdie

theorem rereads_wqType (c : ChildId) (val : String) {w : World Tree}
    (ha : (wqType c val).Agrees w) :
    (wqType c val).Rereads w ↔ (val.toList.length < SYSFS_ATTR_SIZE →
      ∀ type, wqParseType val.toList = some type →
        (wqParseType (val.toList.takeWhile (· ≠ '\n'))).getD .none = type) := by
  obtain hlen | hlen := lt_or_ge val.toList.length SYSFS_ATTR_SIZE
  · have hcall : (wqType c val).call storeKernel w = _ := call_wqType c hlen
    obtain ⟨q, hq, -⟩ := (agrees_iff _ _).mp ha
    obtain ⟨type, htype, -⟩ := Option.map_eq_some_iff.mp hq
    obtain ⟨text, hf, -⟩ := Option.map_eq_some_iff.mp htype
    rw [storeAttr_present _ _ hf] at hcall
    cases hp : wqParseType val.toList with
    | none =>
      refine ⟨fun _ _ _ h => by simp at h, fun _ w' h => ?_⟩
      rw [hp] at hcall
      rw [hcall, Prod.mk.injEq] at h
      exact absurd h.1 (by decide)
    | some type =>
      rw [hp] at hcall
      obtain ⟨type', htype', hq'⟩ := exists_wq_set hq (.attr (.wq c) "type") val.toList
      have hback := htype'.symm.trans (Tree.str_set_self _ val.toList hf)
      rw [takeWhile_paramText hlen, Option.some_inj] at hback
      rw [rereads_iff_of_call hcall, agrees_iff]
      simp only [hq', Option.some_inj, exists_eq_left', Function.update_self, Tree.wqFields,
        hback, String.toList_ofList]
      exact ⟨fun h _ type he => he ▸ h, fun h => h hlen type rfl⟩
  · refine ⟨fun _ h => by omega, fun _ w' h => ?_⟩
    have hdie : ((wqType c val).call storeKernel w).1 = .die := call_wqType_die c hlen
    rw [h] at hdie
    cases hdie

theorem newline_notMem_mode {mode : WqMode} {val : String} (h : mode.str = some val) :
    '\n' ∉ val.toList ∧ val.toList.length < SYSFS_ATTR_SIZE := by
  cases mode <;> cases h <;> decide

theorem rereads_wqMode (c : ChildId) (mode : WqMode) {w : World Tree}
    (ha : (wqMode c mode).Agrees w) : (wqMode c mode).Rereads w := by
  cases hm : mode.str with
  | none =>
    intro w' h
    rw [call_wqMode_unknown c hm, Prod.mk.injEq] at h
    exact absurd h.1 (by decide)
  | some val =>
    -- the mode is a string like any other, and its text is one of two
    obtain ⟨hline, -⟩ := newline_notMem_mode hm
    have hstr : (wqStr .mode c val).Agrees w := ha
    intro w' h
    rw [call_wqMode c hm] at h
    exact (rereads_wqStr .mode c val hstr).mpr (fun _ _ _ => hline) w' h

/-! ### The condition -/

/-- What is read back is the whole value: a number fits the signed reader and
a string is one line.  A setter that writes nothing needs nothing. -/
def ReadsBack (st : Setting) (w : World Tree) : Prop :=
  match st with
  | wqMaxTransferSize c val => (w.device c.dev).configurable ≠ 0 →
      (w.sys.kernel.file (.attr (.wq c) "max_transfer_size")).isSome → val.toNat < 2 ^ 63
  | wqStr f c val => val.toList.length < SYSFS_ATTR_SIZE →
      ¬((w.device c.dev).configurable = 0 ∧ f = .mode) →
      (w.sys.kernel.file (.attr (.wq c) f.file)).isSome → '\n' ∉ val.toList
  | wqType _ val => val.toList.length < SYSFS_ATTR_SIZE →
      ∀ type, wqParseType val.toList = some type →
        (wqParseType (val.toList.takeWhile (· ≠ '\n'))).getD .none = type
  | _ => True

/-- Set then re-read. -/
theorem rereads_iff (st : Setting) (w : World Tree) (h : st.Agrees w) :
    st.Rereads w ↔ st.ReadsBack w := by
  cases st with
  | deviceReadBufferLimit d val => exact iff_of_true (rereads_deviceReadBufferLimit d val w) trivial
  | deviceEventLogSize d val => exact iff_of_true (rereads_deviceEventLogSize d val h) trivial
  | group f c val => exact iff_of_true (rereads_group f c val w) trivial
  | wq f c val => exact iff_of_true (rereads_wq f c val h) trivial
  | wqMaxTransferSize c val => exact rereads_wqMaxTransferSize c val h
  | wqStr f c val => exact rereads_wqStr f c val h
  | wqType c val => exact rereads_wqType c val h
  | wqMode c mode => exact iff_of_true (rereads_wqMode c mode h) trivial
  | wqOpConfigStr c val => exact iff_of_true (fun _ _ _ _ => trivial) trivial
  | wqOpConfig c bits => exact iff_of_true (fun _ _ _ _ => trivial) trivial
  | engineGroupId c val => exact iff_of_true (rereads_engineGroupId c val w) trivial

/-! ### A context that has just enumerated a tree -/

/-- What the context caches. -/
def enumerated (t : Tree) : World Tree where
  sys := ⟨t, 0, 0, none, []⟩
  device := t.device
  group := t.group
  wq c := (t.wq c).getD ⟨fun _ => 0, 0, fun _ => none, .none⟩
  engine c := ⟨BitVec.ofInt 32 (t.long (.engine c) "group_id")⟩

/-- It agrees with any other, on work queues whose type can be read. -/
theorem agrees_enumerated (st : Setting) {t : Tree}
    (h : ∀ c, st.comp = .wq c → (t.str (.wq c) "type").isSome) : st.Agrees (enumerated t) := by
  have hwq : ∀ c, st.comp = .wq c → t.wq c = some ((enumerated t).wq c) := by
    intro c hc
    obtain ⟨text, htext⟩ := Option.isSome_iff_exists.mp (h c hc)
    have hq : t.wq c = some (t.wqFields c text) := by rw [Tree.wq, htext, Option.map_some]
    show t.wq c = some ((t.wq c).getD _)
    rw [hq, Option.getD_some]
  rw [agrees_iff]
  cases st with
  | wq f c val => exact ⟨_, hwq c rfl, rfl⟩
  | wqMaxTransferSize c val => exact ⟨_, hwq c rfl, rfl⟩
  | wqStr f c val => exact ⟨_, hwq c rfl, rfl⟩
  | wqMode c mode => exact ⟨_, hwq c rfl, rfl⟩
  | wqType c val => exact ⟨_, hwq c rfl, rfl⟩
  | _ => first | rfl | trivial

/-- A configurable device with work queues of no type. -/
def oneTypeTree : Tree where
  file
    | .attr (.wq _) "type" => some "none".toList
    | .attr (.wq _) "max_transfer_size" => some ['1']
    | .attr (.device _) "configurable" => some ['1']
    | _ => none
  noNull c := by cases c <;> rfl

theorem isSome_type_oneTypeTree (c : ChildId) : (oneTypeTree.str (.wq c) "type").isSome := rfl

theorem configurable_oneTypeTree (d : DevId) :
    ((enumerated oneTypeTree).device d).configurable = 1 := by
  show (strtoull (chomp (paramText ['1']))).setWidth 32 = 1
  rw [paramText_of_le (by decide)]
  decide

theorem rereads_iff_large :
    (wqMaxTransferSize ⟨⟨.dsa, 0⟩, 0⟩ 4096).Rereads (enumerated oneTypeTree) ↔
      (wqMaxTransferSize ⟨⟨.dsa, 0⟩, 0⟩ 4096).ReadsBack (enumerated oneTypeTree) :=
  rereads_iff _ _ (agrees_enumerated _ fun c _ => isSome_type_oneTypeTree c)

/-- A limit of `2 ^ 63` is written in full and read back as one less. -/
theorem not_rereads_maxTransferSize :
    ¬(wqMaxTransferSize ⟨⟨.dsa, 0⟩, 0⟩ 0x8000000000000000).Rereads (enumerated oneTypeTree) := by
  have ha := agrees_enumerated (wqMaxTransferSize ⟨⟨.dsa, 0⟩, 0⟩ 0x8000000000000000)
    fun c _ => isSome_type_oneTypeTree c
  rw [rereads_wqMaxTransferSize _ _ ha]
  intro h
  have hval := h (ne_of_eq_of_ne (configurable_oneTypeTree _) (by decide)) rfl
  exact absurd hval (by decide)

end Setting

end Accfg
