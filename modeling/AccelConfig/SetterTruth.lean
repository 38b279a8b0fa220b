/-
When a setter tells the truth.

A setter is truthful in a world if it returns 0 only when the attribute's file
took the whole text and the cached field has the value, or when it skipped an
attribute that is absent; and if it changes no field when it returns anything
else.  Return values are made of `errno`, and some of them on paths where no
call has failed.

* `storeAttr_attempt` — a write passes for a success iff it took everything, or
  took less while `errno` was 0;
* `truthful_iff_of_attempt` — the one argument all setters share;
* `truthful_iff` — the exact condition, setter by setter.
-/
import AccelConfig.Setters

open CNumeral StopAtFailure

namespace Accfg

variable {κ : Type} (K : Kernel κ)

/-! ### Outcomes -/

/-- The kernel takes the whole text. -/
def TakesAll (mode : OpenMode) (path : Path) (buf : List Char) (s : Sys κ) : Prop :=
  ∃ n, (writeOutcome K path mode buf s.kernel).1 = .taken n ∧ buf.length ≤ n

/-- The kernel takes a part of the text only. -/
def TakesPart (mode : OpenMode) (path : Path) (buf : List Char) (s : Sys κ) : Prop :=
  ∃ n, (writeOutcome K path mode buf s.kernel).1 = .taken n ∧ n < buf.length

variable {K}

theorem not_takesAll_of_takesPart {mode : OpenMode} {path : Path} {buf : List Char} {s : Sys κ}
    (h : TakesPart K mode path buf s) : ¬TakesAll K mode path buf s := by
  intro ⟨n, hn, hlen⟩
  obtain ⟨m, hm, hlen'⟩ := h
  rw [hn, WriteOutcome.taken.injEq] at hm
  omega

theorem not_taken_of_error {mode : OpenMode} {path : Path} {buf : List Char} {s : Sys κ}
    {e : Errno} (h : (writeOutcome K path mode buf s.kernel).1 = .refused e ∨
      (writeOutcome K path mode buf s.kernel).1 = .failed e) :
    ¬TakesAll K mode path buf s ∧ ¬TakesPart K mode path buf s := by
  constructor
  · rintro ⟨n, hn, -⟩
    simp [hn] at h
  · rintro ⟨n, hn, -⟩
    simp [hn] at h

variable (K)

/-- What an attempt to store a text amounts to: `none` is a success. -/
structure Attempt (mode : OpenMode) (path : Path) (buf : List Char) (s : Sys κ)
    (r : Option ℤ × Sys κ) : Prop where
  failed : ∀ rc, r.1 = some rc → rc ≠ 0
  none_iff : r.1 = none ↔ TakesAll K mode path buf s ∨ TakesPart K mode path buf s ∧ s.errno = 0
  all : TakesAll K mode path buf s → r.2.written = s.written ++ [(path, buf)]
  part : TakesPart K mode path buf s →
    ∃ n < buf.length, r.2.written = s.written ++ [(path, buf.take n)]

/-- The outcome of a write decides its return code and what it adds to the
record. -/
theorem writeFile_cases (mode : OpenMode) (path : Path) (buf : List Char) (s : Sys κ) :
    let r := writeFile K mode path buf s
    (TakesAll K mode path buf s ∧ r.1 = 0 ∧ r.2.written = s.written ++ [(path, buf)]) ∨
      (TakesPart K mode path buf s ∧ r.1 = -(s.errno : ℤ) ∧ r.2.errno = s.errno ∧
        ∃ n < buf.length, r.2.written = s.written ++ [(path, buf.take n)]) ∨
      (∃ e : Errno, ((writeOutcome K path mode buf s.kernel).1 = .refused e ∨
          (writeOutcome K path mode buf s.kernel).1 = .failed e) ∧
        r.1 = -(e : ℕ) ∧ r.2.errno = e ∧ r.2.written = s.written) := by
  intro r
  have hr : r = writeResult path buf s ((writeOutcome K path mode buf s.kernel).1,
      (writeOutcome K path mode buf s.kernel).2) := writeFile_eq K mode path buf s
  cases ho : (writeOutcome K path mode buf s.kernel).1 with
  | taken n =>
    rw [ho] at hr
    obtain hn | hn := lt_or_ge n buf.length
    · refine Or.inr (Or.inl ⟨⟨n, ho, hn⟩, ?_, ?_, n, hn, ?_⟩)
      · rw [hr, writeResult, if_pos hn]
      · rw [hr, writeResult]
      · rw [hr, writeResult]
    · refine Or.inl ⟨⟨n, ho, hn⟩, ?_, ?_⟩
      · rw [hr, writeResult, if_neg (by omega)]
      · rw [hr, writeResult, List.take_of_length_le hn]
  | refused e | failed e =>
    rw [ho] at hr
    refine Or.inr (Or.inr ⟨e, by simp, ?_⟩)
    rw [hr, writeResult]
    exact ⟨rfl, rfl, rfl⟩

/-- A setter that fails exactly where its write returned less than 0 attempts
to store the text. -/
theorem Attempt.of_writeFile {mode : OpenMode} {path : Path} {buf : List Char} {s : Sys κ}
    {r : Option ℤ × Sys κ} (hok : ∀ s', writeFile K mode path buf s = (0, s') → r = (none, s'))
    (hfail : ∀ rc s', writeFile K mode path buf s = (rc, s') → rc < 0 → 0 < s'.errno →
      ∃ rc' ≠ 0, r.1 = some rc' ∧ r.2.written = s'.written) :
    Attempt K mode path buf s r := by
  have hcases := writeFile_cases K mode path buf s
  generalize writeFile K mode path buf s = x at hcases hok hfail
  obtain ⟨rc, s'⟩ := x
  obtain ⟨hall, h0, hwr⟩ | ⟨hpart, hrc, herr, hn⟩ | ⟨e, ho, hrc, herr, -⟩ := hcases
  · have hpart : ¬TakesPart K mode path buf s := fun h => not_takesAll_of_takesPart h hall
    obtain rfl : rc = 0 := h0
    rw [hok s' rfl]
    exact ⟨by simp, by simp [hall], fun _ => hwr, fun h => absurd h hpart⟩
  · have hall := not_takesAll_of_takesPart hpart
    have hrc : rc = -(s.errno : ℤ) := hrc
    have herr : s'.errno = s.errno := herr
    obtain h0 | h0 := Nat.eq_zero_or_pos s.errno
    · obtain rfl : rc = 0 := by omega
      rw [hok s' rfl]
      exact ⟨by simp, by simp [hpart, h0], fun h => absurd h hall, fun _ => hn⟩
    · obtain ⟨rc', hne, hr, hwr⟩ := hfail rc s' rfl (by omega) (by omega)
      refine ⟨?_, ?_, fun h => absurd h hall, fun _ => ?_⟩
      · rintro _ hsome
        rw [hr, Option.some_inj] at hsome
        exact hsome ▸ hne
      · rw [hr]
        simp [hall]
        omega
      · obtain ⟨n, hn, hn'⟩ := hn
        exact ⟨n, hn, hwr.trans hn'⟩
  · obtain ⟨hall, hpart⟩ := not_taken_of_error ho
    have hrc : rc = -(e : ℕ) := hrc
    have herr : s'.errno = e := herr
    have hpos := e.pos
    obtain ⟨rc', hne, hr, -⟩ := hfail rc s' rfl (by omega) (by omega)
    refine ⟨?_, ?_, fun h => absurd h hall, fun h => absurd h hpart⟩
    · rintro _ hsome
      rw [hr, Option.some_inj] at hsome
      exact hsome ▸ hne
    · rw [hr]
      simp [hall, hpart]

/-- `storeAttr` passes off a partial write as a success iff `errno` is 0. -/
theorem storeAttr_attempt (c : Comp) (path : Path) (buf : List Char) (s : Sys κ) :
    Attempt K .write path buf s (storeAttr K c path buf s) := by
  refine Attempt.of_writeFile K (fun s' h => ?_) fun rc s' h hrc herr => ?_
  · rw [storeAttr, writeAttr, h]
    rfl
  · have hsave : ReadOnly s' (saveLastError K c s') := quiet_readOnly.saveLastError c s'
    refine ⟨-(saveLastError K c s').errno, ?_, ?_, ?_⟩
    · have := hsave.errno herr
      omega
    · simp [storeAttr, writeAttr, h, hrc]
    · simp [storeAttr, writeAttr, h, hrc, hsave.written]

/-! ### Truthful settings -/

/-- No cached field of any component differs. -/
structure SameFields (w w' : World κ) : Prop where
  device : w'.device = w.device
  group : w'.group = w.group
  wq : w'.wq = w.wq
  engine : w'.engine = w.engine

namespace Setting

/-- The text of the value. -/
def text : Setting → List Char
  | deviceReadBufferLimit _ val | deviceEventLogSize _ val | group _ _ val | wq _ _ val
  | engineGroupId _ val => fmtInt val
  | wqMaxTransferSize _ val => decimal val.toNat
  | wqStr _ _ val | wqType _ val | wqOpConfigStr _ val => val.toList
  | wqMode _ mode => (mode.str.getD "").toList
  | wqOpConfig _ bits => opConfigText bits

/-- The names the attribute's file may have. -/
def files : Setting → List String
  | deviceReadBufferLimit _ _ => ["read_buffer_limit", "token_limit"]
  | deviceEventLogSize _ _ => ["event_log_size"]
  | group field _ _ => field.name :: (deprecatedAttr field.name).toList
  | wq field _ _ => [field.name]
  | wqMaxTransferSize _ _ => ["max_transfer_size"]
  | wqStr field _ _ => [field.file]
  | wqType _ _ => ["type"]
  | wqMode _ _ => ["mode"]
  | wqOpConfigStr _ _ | wqOpConfig _ _ => ["op_config"]
  | engineGroupId _ _ => ["group_id"]

/-- The cached field has the value; `op_config` has no such field. -/
def Holds (w : World κ) : Setting → Prop
  | deviceReadBufferLimit d val => (w.device d).readBufferLimit = val
  | deviceEventLogSize d val => (w.device d).eventLogSize = val
  | group field c val => w.group c field = val
  | wq field c val => (w.wq c).int field = val
  | wqMaxTransferSize c val => (w.wq c).maxTransferSize = val
  | wqStr field c val => (w.wq c).str field = some val
  | wqType c val => wqParseType val.toList = some (w.wq c).type
  | wqMode c mode => (w.wq c).str .mode = mode.str
  | wqOpConfigStr _ _ | wqOpConfig _ _ => True
  | engineGroupId c val => (w.engine c).groupId = val

/-- The two deliberate skips: the attribute is absent. -/
def Skips (w : World κ) : Setting → Prop
  | deviceEventLogSize d _ =>
    ∃ e, (K.access (.attr (.device d) "event_log_size") w.sys.kernel).1 = .error e ∧ e = ENOENT
  | wqStr .driverName c val =>
    ∃ e, (writeOutcome K (.attr (.wq c) "driver_name") .write val.toList w.sys.kernel).1
      = .refused e ∧ e = ENOENT
  | _ => False

/-- The file of the attribute took the text, and nothing else was written. -/
def Stored (st : Setting) (w w' : World κ) : Prop :=
  ∃ f ∈ st.files, w'.sys.written = w.sys.written ++ [(.attr st.comp f, st.text)]

/-- The setter returns, and its return value tells what it did. -/
def Truthful (st : Setting) (w : World κ) : Prop :=
  ∃ rc w', st.call K w = (.ret rc, w') ∧
    (rc = 0 → st.Stored w w' ∧ st.Holds w' ∨
      st.Skips K w ∧ SameFields w w' ∧ w'.sys.written = w.sys.written) ∧
    (rc ≠ 0 → SameFields w w')

variable {K} {st : Setting} {w : World κ}

/-- A setter that did nothing tells the truth iff it fails or skips. -/
theorem truthful_iff_of_nothing {rc : ℤ} {w' : World κ} (h : st.call K w = (.ret rc, w'))
    (hw : SameFields w w') (hwr : w'.sys.written = w.sys.written) :
    st.Truthful K w ↔ rc = 0 → st.Skips K w := by
  constructor
  · rintro ⟨rc', w'', h', h0, -⟩ hrc
    rw [h, Prod.mk.injEq, Exit.ret.injEq] at h'
    obtain ⟨rfl, rfl⟩ := h'
    obtain ⟨⟨f, -, hf⟩, -⟩ | ⟨hskip, -⟩ := h0 hrc
    · rw [hwr] at hf
      simp at hf
    · exact hskip
  · intro hskip
    exact ⟨rc, w', h, fun hrc => Or.inr ⟨hskip hrc, hw, hwr⟩, fun _ => hw⟩

/-- A setter that makes one attempt, and goes by it, tells the truth unless
part of the text is taken while `errno` is 0 or all of it goes to a file that
is not the attribute's. -/
theorem truthful_iff_of_attempt {mode : OpenMode} {path : Path} {s : Sys κ}
    {r : Option ℤ × Sys κ} (hr : Attempt K mode path st.text s r)
    (hs : s.written = w.sys.written) (hskip : ¬st.Skips K w)
    (hfail : ∀ rc, r.1 = some rc →
      ∃ rc' w', rc' ≠ 0 ∧ st.call K w = (.ret rc', w') ∧ SameFields w w')
    (hok : r.1 = none →
      ∃ w', st.call K w = (.ret 0, w') ∧ w'.sys.written = r.2.written ∧ st.Holds w') :
    st.Truthful K w ↔ ¬(TakesPart K mode path st.text s ∧ s.errno = 0) ∧
      (TakesAll K mode path st.text s → ∃ f ∈ st.files, path = .attr st.comp f) := by
  constructor
  · rintro ⟨rc, w₁, h, h0, -⟩
    have hstored : r.1 = none → st.Stored w w₁ ∧ w₁.sys.written = r.2.written := by
      intro hnone
      obtain ⟨w', h', hwr, -⟩ := hok hnone
      rw [h, Prod.mk.injEq, Exit.ret.injEq] at h'
      obtain ⟨rfl, rfl⟩ := h'
      obtain ⟨hst, -⟩ | ⟨hsk, -⟩ := h0 rfl
      · exact ⟨hst, hwr⟩
      · exact absurd hsk hskip
    constructor
    · intro hpart
      obtain ⟨⟨f, -, hf⟩, hwr⟩ := hstored (hr.none_iff.mpr (Or.inr hpart))
      obtain ⟨n, hn, hn'⟩ := hr.part hpart.1
      rw [hwr, hn', hs, List.append_cancel_left_eq, List.cons.injEq, Prod.mk.injEq] at hf
      have := congrArg List.length hf.1.2
      rw [List.length_take] at this
      omega
    · intro hall
      obtain ⟨⟨f, hmem, hf⟩, hwr⟩ := hstored (hr.none_iff.mpr (Or.inl hall))
      rw [hwr, hr.all hall, hs, List.append_cancel_left_eq, List.cons.injEq, Prod.mk.injEq] at hf
      exact ⟨f, hmem, hf.1.1⟩
  · rintro ⟨hpart, hfile⟩
    cases hr1 : r.1 with
    | some rc =>
      obtain ⟨rc', w', hne, h, hsame⟩ := hfail rc hr1
      exact ⟨rc', w', h, fun h0 => absurd h0 hne, fun _ => hsame⟩
    | none =>
      obtain ⟨w', h, hwr, hholds⟩ := hok hr1
      have hall := (hr.none_iff.mp hr1).resolve_right hpart
      obtain ⟨f, hmem, hf⟩ := hfile hall
      refine ⟨0, w', h, fun _ => Or.inl ⟨⟨f, hmem, ?_⟩, hholds⟩, fun h0 => absurd rfl h0⟩
      rw [hwr, hr.all hall, hs, hf]

/-- The setters that end in `storeAttr`. -/
theorem truthful_iff_of_store {path : Path} {s : Sys κ} {fail done : Sys κ → World κ}
    (hcall : st.call K w = match storeAttr K st.comp path st.text s with
      | (some rc, s) => (.ret rc, fail s)
      | (none, s) => (.ret 0, done s))
    (hs : s.written = w.sys.written) (hskip : ¬st.Skips K w)
    (hfail : ∀ s, SameFields w (fail s)) (hok : ∀ s, (done s).sys = s ∧ st.Holds (done s)) :
    st.Truthful K w ↔ ¬(TakesPart K .write path st.text s ∧ s.errno = 0) ∧
      (TakesAll K .write path st.text s → ∃ f ∈ st.files, path = .attr st.comp f) := by
  have hr := storeAttr_attempt K st.comp path st.text s
  refine truthful_iff_of_attempt hr hs hskip (fun rc hrc => ?_) fun hnone => ?_
  · have hne := hr.failed rc hrc
    generalize storeAttr K st.comp path st.text s = r at hcall hrc
    obtain ⟨o, s'⟩ := r
    obtain rfl : o = some rc := hrc
    exact ⟨rc, fail s', hne, hcall, hfail s'⟩
  · generalize storeAttr K st.comp path st.text s = r at hcall hnone
    obtain ⟨o, s'⟩ := r
    obtain rfl : o = none := hnone
    exact ⟨done s', hcall, by rw [(hok s').1], (hok s').2⟩

/-- A setter that ends in `storeAttr` returns 0 only if that succeeded. -/
theorem ok_of_store {c : Comp} {path : Path} {buf : List Char} {s : Sys κ} {w' : World κ}
    {fail : Sys κ → World κ} {done : Sys κ → Exit × World κ}
    (hcall : st.call K w = match storeAttr K c path buf s with
      | (some rc, s) => (.ret rc, fail s)
      | (none, s) => done s) (h : st.call K w = (.ret 0, w')) :
    ∃ s', storeAttr K c path buf s = (none, s') ∧ done s' = (.ret 0, w') := by
  have hr := (storeAttr_attempt K c path buf s).failed
  rw [h] at hcall
  generalize storeAttr K c path buf s = r at hcall hr
  obtain ⟨_ | rc, s'⟩ := r
  · exact ⟨s', rfl, hcall.symm⟩
  · rw [Prod.mk.injEq, Exit.ret.injEq] at hcall
    exact absurd hcall.1.symm (hr rc rfl)

theorem sameFields_sys (s : Sys κ) : SameFields w { w with sys := s } := ⟨rfl, rfl, rfl, rfl⟩

/-! ### The condition, setter by setter -/

variable (K)

/-- No part of the text is taken while `errno` is 0. -/
def Clean (mode : OpenMode) (path : Path) (buf : List Char) (s : Sys κ) : Prop :=
  ¬(TakesPart K mode path buf s ∧ s.errno = 0)

/-- The write of a driver name that is there fails the way a missing one
does. -/
def DriverEnoent (c : ChildId) (val : String) (s : Sys κ) : Prop :=
  (∃ e, (writeOutcome K (.attr (.wq c) "driver_name") .write val.toList s.kernel).1
      = .failed e ∧ (e : ℕ) = ENOENT) ∨
    TakesPart K .write (.attr (.wq c) "driver_name") val.toList s ∧ s.errno = ENOENT

/-- What has to be the case for the setter to tell the truth. -/
def Condition (st : Setting) (w : World κ) : Prop :=
  match st with
  | deviceReadBufferLimit d val =>
    let r := accessOk K (.attr (.device d) "read_buffer_limit") w.sys
    Clean K .write (.attr (.device d) (chosen "read_buffer_limit" r.1)) (fmtInt val) r.2
  | deviceEventLogSize d val =>
    let r := accessOk K (.attr (.device d) "event_log_size") w.sys
    if r.1 then Clean K .write (.attr (.device d) "event_log_size") (fmtInt val) r.2
    else r.2.errno = ENOENT
  | group field c val =>
    let r := accessOk K (.attr (.group c) field.name) w.sys
    let file := chosen field.name r.1
    Clean K .write (.attr (.group c) file) (fmtInt val) r.2 ∧
      (file = "(null)" → ¬TakesAll K .write (.attr (.group c) file) (fmtInt val) r.2)
  | wq field c val =>
    if (w.device c.dev).configurable = 0 ∧ field = .threshold then w.sys.errno ≠ 0
    else Clean K .write (.attr (.wq c) field.name) (fmtInt val) w.sys
  | wqMaxTransferSize c val =>
    if (w.device c.dev).configurable = 0 then w.sys.errno ≠ 0
    else Clean K .write (.attr (.wq c) "max_transfer_size") (decimal val.toNat) w.sys
  | wqStr field c val => wqStrCondition field c val
  | wqMode c mode =>
    match mode.str with
    | none => True
    | some val => wqStrCondition .mode c val
  | wqType c val =>
    val.toList.length < SYSFS_ATTR_SIZE ∧
      (wqParseType val.toList = none ∨ Clean K .write (.attr (.wq c) "type") val.toList w.sys)
  | wqOpConfigStr c opConfig => opConfigCondition c opConfig.toList
  | wqOpConfig c bits => opConfigCondition c (opConfigText bits)
  | engineGroupId c val => Clean K .write (.attr (.engine c) "group_id") (fmtInt val) w.sys
where
  wqStrCondition (field : WqStrField) (c : ChildId) (val : String) : Prop :=
    val.toList.length < SYSFS_ATTR_SIZE ∧
      if (w.device c.dev).configurable = 0 ∧ field = .mode then w.sys.errno ≠ 0
      else
        let path : Path := .attr (.wq c) field.file
        Clean K .write path val.toList w.sys ∧
          (field = .driverName → ¬DriverEnoent K c val w.sys)
  opConfigCondition (c : ChildId) (buf : List Char) : Prop :=
    let r := sysCall (K.openDir (.wq c) w.sys.kernel) w.sys
    r.1 = none ∨ Clean K .readWrite (.attr (.wq c) "op_config") buf r.2

variable {K}

theorem truthful_deviceReadBufferLimit (d : DevId) (val : BitVec 32) :
    (deviceReadBufferLimit d val).Truthful K w ↔
      (deviceReadBufferLimit d val).Condition K w := by
  have hacc : ReadOnly w.sys (accessOk K (.attr (.device d) "read_buffer_limit") w.sys).2 :=
    quiet_readOnly.accessOk _ _
  rw [Condition]
  generalize hr : accessOk K (.attr (.device d) "read_buffer_limit") w.sys = r at hacc
  obtain ⟨ok, s⟩ := r
  rw [truthful_iff_of_store (call_deviceReadBufferLimit d val hr) hacc.written id
    sameFields_sys ?_]
  · refine ⟨fun h => h.1, fun h => ⟨h, fun _ => ⟨chosen "read_buffer_limit" ok, ?_, rfl⟩⟩⟩
    cases ok with
    | false => exact List.mem_cons_of_mem _ List.mem_cons_self
    | true => exact List.mem_cons_self
  · exact fun s => ⟨rfl, by simp [Holds]⟩

theorem skips_deviceEventLogSize (d : DevId) (val : BitVec 32) :
    (deviceEventLogSize d val).Skips K w ↔
      (accessOk K (.attr (.device d) "event_log_size") w.sys).1 = false ∧
        (accessOk K (.attr (.device d) "event_log_size") w.sys).2.errno = ENOENT := by
  rw [Skips, accessOk]
  generalize K.access (.attr (.device d) "event_log_size") w.sys.kernel = r
  obtain ⟨e | _, k⟩ := r
  · simp [sysCall]
  · simp [sysCall]

theorem truthful_deviceEventLogSize (d : DevId) (val : BitVec 32) :
    (deviceEventLogSize d val).Truthful K w ↔ (deviceEventLogSize d val).Condition K w := by
  have hacc : ReadOnly w.sys (accessOk K (.attr (.device d) "event_log_size") w.sys).2 :=
    quiet_readOnly.accessOk _ _
  have hskips : (deviceEventLogSize d val).Skips K w ↔ _ := skips_deviceEventLogSize d val
  rw [Condition]
  generalize hr : accessOk K (.attr (.device d) "event_log_size") w.sys = r at hacc hskips
  obtain ⟨_ | _, s⟩ := r
  · rw [truthful_iff_of_nothing (call_deviceEventLogSize_absent d val hr) (sameFields_sys s)
      hacc.written]
    simpa using hskips
  · rw [truthful_iff_of_store (call_deviceEventLogSize d val hr) hacc.written
      (by simpa using hskips) sameFields_sys ?_]
    · exact ⟨fun h => h.1, fun h => ⟨h, fun _ => ⟨_, by simp [files], rfl⟩⟩⟩
    · exact fun s => ⟨rfl, by simp [Holds]⟩

theorem truthful_group (field : GroupField) (c : ChildId) (val : BitVec 32) :
    (group field c val).Truthful K w ↔ (group field c val).Condition K w := by
  have hacc : ReadOnly w.sys (accessOk K (.attr (.group c) field.name) w.sys).2 :=
    quiet_readOnly.accessOk _ _
  rw [Condition]
  generalize hr : accessOk K (.attr (.group c) field.name) w.sys = r at hacc
  obtain ⟨ok, s⟩ := r
  have hmem : (∃ f ∈ (group field c val).files,
      Path.attr (.group c) (chosen field.name ok) = .attr (.group c) f) ↔
      chosen field.name ok ≠ "(null)" := by
    rw [files, chosen, deprecatedAttr_name]
    cases field <;> cases ok <;> simp [GroupField.name]
  rw [truthful_iff_of_store (call_group field c val hr) hacc.written id sameFields_sys ?_]
  · show _ ∧ (TakesAll K .write (.attr (.group c) (chosen field.name ok)) (fmtInt val) s →
      ∃ f ∈ (group field c val).files,
        Path.attr (.group c) (chosen field.name ok) = .attr (.group c) f) ↔ _
    rw [hmem]
    exact and_congr_right fun _ => ⟨fun h hn hall => h hall hn, fun h hall hn => h hn hall⟩
  · exact fun s => ⟨rfl, by simp [Holds]⟩

theorem truthful_wq (field : WqField) (c : ChildId) (val : BitVec 32) :
    (wq field c val).Truthful K w ↔ (wq field c val).Condition K w := by
  rw [Condition]
  split
  · next hgate =>
    rw [truthful_iff_of_nothing (call_wq_gated field c val hgate) ⟨rfl, rfl, rfl, rfl⟩ rfl]
    simp [Skips]
  · next hgate =>
    rw [truthful_iff_of_store (call_wq field c val hgate) rfl id sameFields_sys ?_]
    · exact ⟨fun h => h.1, fun h => ⟨h, fun _ => ⟨_, by simp [files], rfl⟩⟩⟩
    · exact fun s => ⟨rfl, by simp [Holds]⟩

theorem truthful_wqMaxTransferSize (c : ChildId) (val : BitVec 64) :
    (wqMaxTransferSize c val).Truthful K w ↔ (wqMaxTransferSize c val).Condition K w := by
  rw [Condition]
  split
  · next hgate =>
    rw [truthful_iff_of_nothing (call_wqMaxTransferSize_gated c val hgate) ⟨rfl, rfl, rfl, rfl⟩ rfl]
    simp [Skips]
  · next hgate =>
    rw [truthful_iff_of_store (call_wqMaxTransferSize c val hgate) rfl id sameFields_sys ?_]
    · exact ⟨fun h => h.1, fun h => ⟨h, fun _ => ⟨_, by simp [files], rfl⟩⟩⟩
    · exact fun s => ⟨rfl, by simp [Holds]⟩

theorem truthful_engineGroupId (c : ChildId) (val : BitVec 32) :
    (engineGroupId c val).Truthful K w ↔ (engineGroupId c val).Condition K w := by
  rw [Condition, truthful_iff_of_store (call_engineGroupId c val) rfl id sameFields_sys ?_]
  · exact ⟨fun h => h.1, fun h => ⟨h, fun _ => ⟨_, by simp [files], rfl⟩⟩⟩
  · exact fun s => ⟨rfl, by simp [Holds]⟩

/-! ### String setters -/

/-- A text that does not fit the buffer is the end of the process. -/
theorem not_truthful_of_die {w' : World κ} (h : st.call K w = (.die, w')) :
    ¬st.Truthful K w := by
  rintro ⟨rc, w₁, h', -⟩
  simp [h] at h'

/-- A driver name that is taken for missing. -/
theorem truthful_driverName_enoent {c : ChildId} {val : String} {s : Sys κ}
    (hw : writeFile K .write (.attr (.wq c) "driver_name") val.toList w.sys = (-(ENOENT : ℤ), s))
    (hcall : (wqStr .driverName c val).call K w = (.ret 0, { w with sys := s })) :
    (wqStr .driverName c val).Truthful K w ↔ ¬DriverEnoent K c val w.sys := by
  have hcases := writeFile_cases K .write (.attr (.wq c) "driver_name") val.toList w.sys
  rw [hw] at hcases
  obtain ⟨-, h0, -⟩ | ⟨hpart, hrc, -, n, hn, hwr⟩ | ⟨e, ho, hrc, -, hwr⟩ := hcases
  · exact absurd h0 (show -(ENOENT : ℤ) ≠ 0 by decide)
  · have herr : w.sys.errno = ENOENT := by
      have : (-(ENOENT : ℤ)) = -(w.sys.errno : ℤ) := hrc
      omega
    refine ⟨?_, fun h => absurd (Or.inr ⟨hpart, herr⟩) h⟩
    rintro ⟨rc, w', h, h0, -⟩
    rw [hcall, Prod.mk.injEq, Exit.ret.injEq] at h
    obtain ⟨rfl, rfl⟩ := h
    have hwr : s.written = w.sys.written ++ _ := hwr
    obtain ⟨⟨f, -, hf⟩, -⟩ | ⟨-, -, hf⟩ := h0 rfl
    · rw [hwr, List.append_cancel_left_eq, List.cons.injEq, Prod.mk.injEq] at hf
      have hlen := congrArg List.length hf.1.2
      rw [List.length_take, text] at hlen
      omega
    · rw [hwr] at hf
      simp at hf
  · have he : (e : ℕ) = ENOENT := by
      have : (-(ENOENT : ℤ)) = -((e : ℕ) : ℤ) := hrc
      omega
    rw [truthful_iff_of_nothing hcall (sameFields_sys s) hwr]
    have hpart := (not_taken_of_error ho).2
    cases ho with
    | inl ho =>
      refine ⟨fun _ => ?_, fun _ _ => ⟨e, ho, he⟩⟩
      rintro (⟨e', ho', -⟩ | ⟨h, -⟩)
      · simp [ho] at ho'
      · exact hpart h
    | inr ho =>
      refine ⟨fun h => ?_, fun h => absurd (Or.inl ⟨e, ho, he⟩) h⟩
      obtain ⟨e', ho', -⟩ := h rfl
      simp [ho] at ho'

/-- The two ways to `-ENOENT`. -/
theorem writeFile_enoent_iff (c : ChildId) (val : String) :
    (writeFile K .write (.attr (.wq c) "driver_name") val.toList w.sys).1 = -(ENOENT : ℤ) ↔
      (wqStr .driverName c val).Skips K w ∨ DriverEnoent K c val w.sys := by
  have h2 : ENOENT = 2 := rfl
  obtain ⟨hall, h0, -⟩ | ⟨hpart, hrc, -⟩ | ⟨e, ho, hrc, -⟩ :=
    writeFile_cases K .write (.attr (.wq c) "driver_name") val.toList w.sys
  · obtain ⟨n, hn, -⟩ := id hall
    have hpart : ¬TakesPart K .write _ _ _ := fun h => not_takesAll_of_takesPart h hall
    rw [h0]
    simp [Skips, DriverEnoent, hn, hpart, h2]
  · obtain ⟨n, hn, -⟩ := id hpart
    rw [hrc]
    simp [Skips, DriverEnoent, hn, hpart]
  · have hpart := (not_taken_of_error ho).2
    rw [hrc]
    cases ho with
    | inl ho =>
      simp [Skips, DriverEnoent, ho, hpart]
    | inr ho =>
      simp [Skips, DriverEnoent, ho, hpart]

/-- Where a part is taken the result is made of `errno`, which is `ENOENT` then. -/
theorem clean_of_enoent {c : ChildId} {val : String} {s : Sys κ}
    (hw : writeFile K .write (.attr (.wq c) "driver_name") val.toList w.sys = (-(ENOENT : ℤ), s)) :
    Clean K .write (.attr (.wq c) "driver_name") val.toList w.sys := by
  rintro ⟨hpart, h0⟩
  obtain ⟨n, hn, -⟩ := id hpart
  obtain ⟨e, he, -⟩ | ⟨e, he, -⟩ | ⟨-, herr⟩ :=
    (writeFile_enoent_iff c val).mp (congrArg Prod.fst hw)
  · simp [hn] at he
  · simp [hn] at he
  · rw [h0] at herr
    exact absurd herr (by decide)

/-- A text of a work queue that is stored like any other. -/
theorem truthful_wqStr_plain {field : WqStrField} {c : ChildId} {val : String} {rc : ℤ} {s : Sys κ}
    (hx : writeFile K .write (.attr (.wq c) field.file) val.toList w.sys = (rc, s))
    (henoent : ¬(rc = -(ENOENT : ℤ) ∧ field = .driverName))
    (hcall : (wqStr field c val).call K w =
      if rc < 0 then
        (.ret (-((saveLastError K (.wq c) s).errno : ℤ)), { w with
          sys := saveLastError K (.wq c) s })
      else (.ret 0, { w with
        sys := s
        wq := Function.update w.wq c
          { w.wq c with str := Function.update (w.wq c).str field (some val) } })) :
    (wqStr field c val).Truthful K w ↔
      Clean K .write (.attr (.wq c) field.file) val.toList w.sys ∧
        (field = .driverName → ¬DriverEnoent K c val w.sys) := by
  have hnot : field = .driverName →
      ¬((wqStr .driverName c val).Skips K w ∨ DriverEnoent K c val w.sys) := by
    rintro rfl h
    rw [← writeFile_enoent_iff] at h
    exact henoent ⟨by rw [← h]; exact (congrArg Prod.fst hx).symm, rfl⟩
  have hcall' : (wqStr field c val).call K w =
      match storeAttr K (.wq c) (.attr (.wq c) field.file) val.toList w.sys with
      | (some rc, s) => (.ret rc, { w with sys := s })
      | (none, s) => (.ret 0, { w with
          sys := s
          wq := Function.update w.wq c
            { w.wq c with str := Function.update (w.wq c).str field (some val) } }) := by
    rw [hcall, storeAttr, writeAttr, hx]
    dsimp only
    split <;> rfl
  have hskip : ¬(wqStr field c val).Skips K w := by
    cases field with
    | driverName => exact fun h => hnot rfl (Or.inl h)
    | mode | name => exact id
  rw [truthful_iff_of_store hcall' rfl hskip sameFields_sys ?_]
  · refine ⟨fun h => ⟨h.1, fun hd h' => hnot hd (Or.inr h')⟩, fun h => ⟨h.1, fun _ => ?_⟩⟩
    exact ⟨_, by simp [files], rfl⟩
  · exact fun s => ⟨rfl, by simp [Holds]⟩

theorem truthful_wqStr (field : WqStrField) (c : ChildId) (val : String) :
    (wqStr field c val).Truthful K w ↔ (wqStr field c val).Condition K w := by
  rw [Condition, Condition.wqStrCondition]
  obtain hlen | hlen := lt_or_ge val.toList.length SYSFS_ATTR_SIZE
  · by_cases hgate : (w.device c.dev).configurable = 0 ∧ field = .mode
    · rw [truthful_iff_of_nothing (call_wqStr_gated field c hlen hgate) ⟨rfl, rfl, rfl, rfl⟩ rfl,
        if_pos hgate, hgate.2]
      simp [Skips, hlen]
    · have hcall : (wqStr field c val).call K w = _ := call_wqStr field c hlen hgate
      rw [if_neg hgate]
      cases hx : writeFile K .write (.attr (.wq c) field.file) val.toList w.sys with
      | mk rc s =>
      rw [hx] at hcall
      dsimp only at hcall ⊢
      -- only for a driver name is `ENOENT` no failure
      by_cases henoent : rc = -(ENOENT : ℤ) ∧ field = .driverName
      · obtain ⟨rfl, rfl⟩ := henoent
        rw [if_pos (by decide), if_pos ⟨rfl, rfl⟩] at hcall
        rw [truthful_driverName_enoent hx hcall]
        exact ⟨fun h => ⟨hlen, clean_of_enoent hx, fun _ => h⟩, fun h => h.2.2 rfl⟩
      · rw [if_neg henoent] at hcall
        rw [truthful_wqStr_plain hx henoent hcall]
        exact ⟨fun h => ⟨hlen, h⟩, fun h => h.2⟩
  · have hcall : ((wqStr field c val).call K w).1 = .die := call_wqStr_die field c hlen
    exact ⟨fun h => absurd h (not_truthful_of_die (Prod.ext hcall rfl)), fun h => by omega⟩

theorem truthful_wqMode (c : ChildId) (mode : WqMode) :
    (wqMode c mode).Truthful K w ↔ (wqMode c mode).Condition K w := by
  rw [Condition]
  cases hm : mode.str with
  | none =>
    rw [truthful_iff_of_nothing (call_wqMode_unknown c hm) ⟨rfl, rfl, rfl, rfl⟩ rfl]
    simp [EINVAL]
  | some val =>
    have hst : (wqMode c mode).Truthful K w ↔ (wqStr .mode c val).Truthful K w := by
      rw [Truthful, Truthful, call_wqMode c hm]
      simp only [Stored, Holds, Skips, files, text, comp, hm, Option.getD_some, WqStrField.file]
    rw [hst, truthful_wqStr, Condition]

theorem truthful_wqType (c : ChildId) (val : String) :
    (wqType c val).Truthful K w ↔ (wqType c val).Condition K w := by
  rw [Condition]
  obtain hlen | hlen := lt_or_ge val.toList.length SYSFS_ATTR_SIZE
  · have hcall : (wqType c val).call K w = _ := call_wqType c hlen
    cases hp : wqParseType val.toList with
    | none =>
      -- the text may have been written, but what is returned is not 0
      have hfails : ∃ rc w', (wqType c val).call K w = (.ret rc, w') ∧ rc ≠ 0 ∧
          SameFields w w' := by
        have hr := (storeAttr_attempt K (.wq c) (.attr (.wq c) "type") val.toList w.sys).failed
        rw [hcall, hp]
        generalize storeAttr K (.wq c) (.attr (.wq c) "type") val.toList w.sys = r at hr
        obtain ⟨_ | rc, s'⟩ := r
        · exact ⟨_, _, rfl, by decide, sameFields_sys s'⟩
        · exact ⟨_, _, rfl, hr rc rfl, sameFields_sys s'⟩
      obtain ⟨rc, w', h, hne, hsame⟩ := hfails
      exact ⟨fun _ => ⟨hlen, Or.inl rfl⟩,
        fun _ => ⟨rc, w', h, fun h0 => absurd h0 hne, fun _ => hsame⟩⟩
    | some type =>
      rw [hp] at hcall
      rw [truthful_iff_of_store hcall rfl id sameFields_sys ?_]
      · simp only [reduceCtorEq, false_or]
        exact ⟨fun h => ⟨hlen, h.1⟩, fun h => ⟨h.2, fun _ => ⟨_, by simp [files], rfl⟩⟩⟩
      · exact fun s => ⟨rfl, by simp [Holds, hp]⟩
  · have hcall : ((wqType c val).call K w).1 = .die := call_wqType_die c hlen
    exact ⟨fun h => absurd h (not_truthful_of_die (Prod.ext hcall rfl)), fun h => by omega⟩

/-! ### `op_config` -/

theorem truthful_opConfig {c : ChildId} {buf : List Char} (htext : st.text = buf)
    (hfiles : st.files = ["op_config"]) (hcomp : st.comp = .wq c) (hskip : ¬st.Skips K w)
    (hholds : ∀ w' : World κ, st.Holds w')
    (hcall : st.call K w = match accfgWqSetOpConfigStr K c (String.ofList buf) w.sys with
      | (rc, s) => (.ret rc, { w with sys := s })) :
    st.Truthful K w ↔ Condition.opConfigCondition K w c buf := by
  have hopen := sysCall_readOnly (K.openDir (.wq c) w.sys.kernel) w.sys
  rw [accfgWqSetOpConfigStr] at hcall
  rw [Condition.opConfigCondition]
  generalize hr : sysCall (K.openDir (.wq c) w.sys.kernel) w.sys = r at hopen hcall
  obtain ⟨_ | _, s⟩ := r
  · have herr := (sysCall_none hr).1
    rw [truthful_iff_of_nothing hcall (sameFields_sys s) hopen.written]
    refine ⟨fun _ => Or.inl rfl, fun _ h0 => ?_⟩
    omega
  · dsimp only at hcall
    subst htext
    rw [String.toList_ofList, accfgSetParam] at hcall
    have hattempt : Attempt K .readWrite (.attr (.wq c) "op_config") st.text s
        (if (writeFile K .readWrite (.attr (.wq c) "op_config") st.text s).1 = 0 then none
          else some ((- EIO : ℤ)),
          (writeFile K .readWrite (.attr (.wq c) "op_config") st.text s).2) := by
      refine Attempt.of_writeFile K (fun s' h => ?_) fun rc s' h hrc _ => ?_
      · rw [h, if_pos rfl]
      · exact ⟨(- EIO : ℤ), by decide, by rw [h, if_neg (by dsimp only; omega)], by rw [h]⟩
    generalize writeFile K .readWrite (.attr (.wq c) "op_config") st.text s = x at hcall hattempt
    obtain ⟨rc, s'⟩ := x
    dsimp only at hcall hattempt
    have hiff := truthful_iff_of_attempt hattempt hopen.written hskip (fun rc' hrc' => ?_)
      fun hnone => ?_
    · rw [hiff]
      refine ⟨fun h => Or.inr h.1, fun h => ⟨h.resolve_left (by simp), fun _ => ?_⟩⟩
      exact ⟨"op_config", by rw [hfiles]; exact List.mem_singleton_self _, by rw [hcomp]⟩
    · have hne : rc ≠ 0 := by
        rintro rfl
        simp at hrc'
      exact ⟨(- EIO : ℤ), _, by decide, by rw [hcall, if_pos hne], sameFields_sys s'⟩
    · have h0 : rc = 0 := by
        by_contra hne
        simp [hne] at hnone
      exact ⟨_, by rw [hcall, if_neg (by simp [h0])], rfl, hholds _⟩

/-- Exactly when a setter tells the truth. -/
theorem truthful_iff (st : Setting) (w : World κ) : st.Truthful K w ↔ st.Condition K w := by
  cases st with
  | deviceReadBufferLimit d val => exact truthful_deviceReadBufferLimit d val
  | deviceEventLogSize d val => exact truthful_deviceEventLogSize d val
  | group field c val => exact truthful_group field c val
  | wq field c val => exact truthful_wq field c val
  | wqMaxTransferSize c val => exact truthful_wqMaxTransferSize c val
  | wqStr field c val => exact truthful_wqStr field c val
  | wqType c val => exact truthful_wqType c val
  | wqMode c mode => exact truthful_wqMode c mode
  | wqOpConfigStr c opConfig =>
    exact truthful_opConfig rfl rfl rfl id (fun _ => trivial) (by rw [String.ofList_toList]; rfl)
  | wqOpConfig c bits => exact truthful_opConfig rfl rfl rfl id (fun _ => trivial) rfl
  | engineGroupId c val => exact truthful_engineGroupId c val

/-! ### A setter that lies -/

/-- A kernel that grants every call and takes every text whole. -/
def grantingKernel : Kernel Unit where
  access _ k := (.ok (), k)
  openFile _ _ k := (.ok (), k)
  openDir _ k := (.ok (), k)
  read _ k := (.ok [], k)
  write _ buf k := (.ok buf.length, k)
  lstat _ k := (.ok (), k)
  realpath _ k := (.ok (), k)

/-- A process that has just started, with nothing but zeros in its objects:
its devices are not configurable. -/
def blankWorld : World Unit where
  sys := ⟨(), 0, 0, none, []⟩
  device _ := {}
  group _ _ := 0
  wq _ := ⟨fun _ => 0, 0, fun _ => none, .none⟩
  engine _ := ⟨0⟩

/-- On a device that is not configurable, setting a threshold returns 0 and
does nothing. -/
theorem not_truthful_threshold :
    ¬(wq .threshold ⟨⟨.dsa, 0⟩, 0⟩ 8).Truthful grantingKernel blankWorld := by
  rw [truthful_wq, Condition, if_pos ⟨rfl, rfl⟩]
  exact fun h => h rfl

end Setting

end Accfg
