/-
What the steps of a config command write.

A setter writes to the file of its attribute or not at all, and no more than
its text; the limits of a device, which the checks look at, stay as they are.
Where the driver grants every call and takes every text, all steps are done and
each text is written whole.

* `call_adds`, `runSteps_adds` — with any driver, what is written at most;
* `call_of_grants`, `runSteps_of_grants` — with one that grants everything,
  what is written exactly;
* `configurable_of_runSteps` — with such a one, what a success says of the
  device.
-/
import AccelConfig.ConfigSteps
import AccelConfig.SetterTruth

open CNumeral

namespace Accfg

variable {κ : Type} {K : Kernel κ}

/-! ### One text at most -/

/-- A part of a text was written to a file, or nothing anywhere. -/
def WritesAtMost (path : Path) (buf : List Char) (s s' : Sys κ) : Prop :=
  s'.written = s.written ∨ ∃ n, s'.written = s.written ++ [(path, buf.take n)]

theorem WritesAtMost.after {path : Path} {buf : List Char} {s s₁ s₂ : Sys κ}
    (h : s₁.written = s.written) (hadds : WritesAtMost path buf s₁ s₂) :
    WritesAtMost path buf s s₂ := by
  rw [WritesAtMost, h] at hadds
  exact hadds

theorem adds_writeFile (mode : OpenMode) (path : Path) (buf : List Char) (s : Sys κ) :
    WritesAtMost path buf s (writeFile K mode path buf s).2 := by
  obtain ⟨-, -, hwr⟩ | ⟨-, -, -, n, -, hwr⟩ | ⟨e, -, -, -, hwr⟩ := writeFile_cases K mode path buf s
  · exact Or.inr ⟨buf.length, by rw [hwr, List.take_length]⟩
  · exact Or.inr ⟨n, hwr⟩
  · exact Or.inl hwr

theorem adds_storeAttr (c : Comp) (path : Path) (buf : List Char) (s : Sys κ) :
    WritesAtMost path buf s (storeAttr K c path buf s).2 := by
  have hadds : WritesAtMost path buf s (writeAttr K path buf s).2 :=
    adds_writeFile .write path buf s
  rw [storeAttr]
  generalize writeAttr K path buf s = r at hadds ⊢
  obtain ⟨rc, s'⟩ := r
  dsimp only at hadds ⊢
  split
  · have hsave : ReadOnly s' (saveLastError K c s') := quiet_readOnly.saveLastError c s'
    rw [WritesAtMost, hsave.written]
    exact hadds
  · exact hadds

namespace Setting

/-- A file that the setter may write to; the name that an attribute does not
have is printed as `(null)`. -/
def MayWrite (st : Setting) (file : String) : Prop := file ∈ st.files ∨ file = "(null)"

theorem mayWrite_chosen {st : Setting} {new : String} (ok : Bool)
    (hnew : new ∈ st.files) (hold : ∀ old, deprecatedAttr new = some old → old ∈ st.files) :
    st.MayWrite (chosen new ok) := by
  rw [chosen]
  split
  · exact Or.inl hnew
  · cases h : deprecatedAttr new with
    | none => exact Or.inr rfl
    | some old => exact Or.inl (hold old h)

section Store

variable {st : Setting} {w : World κ} {path : Path} {s : Sys κ} {fail done : Sys κ → World κ}

/-- The setters that end in `storeAttr` go on from there, whatever they cache. -/
theorem adds_of_store (hcall : st.call K w = match storeAttr K st.comp path st.text s with
      | (some rc, s) => (.ret rc, fail s)
      | (none, s) => (.ret 0, done s))
    (hs : s.written = w.sys.written) (hfail : ∀ s, (fail s).sys = s)
    (hdone : ∀ s, (done s).sys = s) : WritesAtMost path st.text w.sys (st.call K w).2.sys := by
  have hadds : WritesAtMost path st.text w.sys (storeAttr K st.comp path st.text s).2 :=
    WritesAtMost.after hs (adds_storeAttr ..)
  rw [hcall]
  generalize storeAttr K st.comp path st.text s = r at hadds
  obtain ⟨_ | rc, s'⟩ := r
  · exact (hdone s').symm ▸ hadds
  · exact (hfail s').symm ▸ hadds

end Store

theorem adds_of_nothing {st : Setting} {w w' : World κ} {e : Exit} (path : Path)
    (hcall : st.call K w = (e, w')) (hwr : w'.sys.written = w.sys.written) :
    WritesAtMost path st.text w.sys (st.call K w).2.sys := by
  rw [hcall]
  exact Or.inl hwr

theorem adds_wqStr (field : WqStrField) (c : ChildId) (val : String) (w : World κ) :
    WritesAtMost (.attr (.wq c) field.file) val.toList w.sys
      ((wqStr field c val).call K w).2.sys := by
  by_cases hlen : SYSFS_ATTR_SIZE ≤ val.toList.length
  · rw [call, accfgWqSetStrField, if_pos hlen]
    exact Or.inl rfl
  by_cases hgate : (w.device c.dev).configurable = 0 ∧ field = .mode
  · exact adds_of_nothing _ (call_wqStr_gated field c (by omega) hgate) rfl
  have hadds := adds_writeFile (K := K) .write (.attr (.wq c) field.file) val.toList w.sys
  rw [call_wqStr field c (by omega) hgate]
  generalize writeFile K .write (.attr (.wq c) field.file) val.toList w.sys = r at hadds ⊢
  obtain ⟨rc, s⟩ := r
  dsimp only at hadds ⊢
  split
  · split
    · exact hadds
    · have hsave : ReadOnly s (saveLastError K (.wq c) s) := quiet_readOnly.saveLastError _ s
      rw [WritesAtMost, hsave.written]
      exact hadds
  · exact hadds

theorem adds_wqType (c : ChildId) (val : String) (w : World κ) :
    WritesAtMost (.attr (.wq c) "type") val.toList w.sys ((wqType c val).call K w).2.sys := by
  by_cases hlen : SYSFS_ATTR_SIZE ≤ val.toList.length
  · rw [call, accfgWqSetStrType, if_pos hlen]
    exact Or.inl rfl
  have hadds := adds_storeAttr (K := K) (.wq c) (.attr (.wq c) "type") val.toList w.sys
  rw [call_wqType c (by omega)]
  generalize storeAttr K (.wq c) (.attr (.wq c) "type") val.toList w.sys = r at hadds ⊢
  obtain ⟨_ | rc, s⟩ := r
  · dsimp only
    cases wqParseType val.toList with
    | none => exact hadds
    | some type => exact hadds
  · exact hadds

theorem adds_opConfig (c : ChildId) (text : String) (s : Sys κ) :
    WritesAtMost (.attr (.wq c) "op_config") text.toList s
      (accfgWqSetOpConfigStr K c text s).2 := by
  have hopen := sysCall_readOnly (K.openDir (.wq c) s.kernel) s
  rw [accfgWqSetOpConfigStr]
  generalize sysCall (K.openDir (.wq c) s.kernel) s = r at hopen ⊢
  obtain ⟨_ | ⟨⟩, s₁⟩ := r
  · exact Or.inl hopen.written
  · have hadds := WritesAtMost.after hopen.written
      (adds_writeFile (K := K) .readWrite (.attr (.wq c) "op_config") text.toList s₁)
    dsimp only
    rw [accfgSetParam]
    generalize writeFile K .readWrite (.attr (.wq c) "op_config") text.toList s₁ = r at hadds ⊢
    obtain ⟨rc, s₂⟩ := r
    dsimp only at hadds ⊢
    split
    · exact hadds
    · exact hadds

/-- With any driver, what a setter writes at most. -/
theorem call_adds (st : Setting) (w : World κ) :
    ∃ f, st.MayWrite f ∧ WritesAtMost (.attr st.comp f) st.text w.sys (st.call K w).2.sys := by
  cases st with
  | deviceReadBufferLimit d val =>
    have hread := quiet_readOnly.accessOk (K := K) (.attr (.device d) "read_buffer_limit") w.sys
    generalize hacc : accessOk K (.attr (.device d) "read_buffer_limit") w.sys = r at hread
    obtain ⟨ok, s⟩ := r
    refine ⟨chosen "read_buffer_limit" ok, mayWrite_chosen ok (by simp [files]) ?_, ?_⟩
    · intro old hold
      -- the deprecated name is taken where there is no other
      have hname : deprecatedAttr "read_buffer_limit" = some "token_limit" := rfl
      rw [hname, Option.some_inj] at hold
      simp [files, ← hold]
    · exact adds_of_store (call_deviceReadBufferLimit d val hacc) hread.written
        (fun s => rfl) (fun s => rfl)
  | deviceEventLogSize d val =>
    have hread := quiet_readOnly.accessOk (K := K) (.attr (.device d) "event_log_size") w.sys
    generalize hacc : accessOk K (.attr (.device d) "event_log_size") w.sys = r at hread
    refine ⟨"event_log_size", Or.inl (by simp [files]), ?_⟩
    -- without the file nothing is written, and 0 is returned
    obtain ⟨_ | _, s⟩ := r
    · exact adds_of_nothing _ (call_deviceEventLogSize_absent d val hacc) hread.written
    · exact adds_of_store (call_deviceEventLogSize d val hacc) hread.written
        (fun s => rfl) (fun s => rfl)
  | group field c val =>
    have hread := quiet_readOnly.accessOk (K := K) (.attr (.group c) field.name) w.sys
    generalize hacc : accessOk K (.attr (.group c) field.name) w.sys = r at hread
    obtain ⟨ok, s⟩ := r
    refine ⟨chosen field.name ok, mayWrite_chosen ok (by simp [files]) ?_, ?_⟩
    · intro old hold
      simp [files, hold]
    · exact adds_of_store (call_group field c val hacc) hread.written (fun s => rfl) (fun s => rfl)
  | wq field c val =>
    refine ⟨field.name, Or.inl (by simp [files]), ?_⟩
    -- a threshold is refused before its file is opened
    by_cases hgate : (w.device c.dev).configurable = 0 ∧ field = .threshold
    · exact adds_of_nothing _ (call_wq_gated field c val hgate) rfl
    · exact adds_of_store (call_wq field c val hgate) rfl (fun s => rfl) (fun s => rfl)
  | wqMaxTransferSize c val =>
    refine ⟨"max_transfer_size", Or.inl (by simp [files]), ?_⟩
    by_cases hgate : (w.device c.dev).configurable = 0
    · exact adds_of_nothing _ (call_wqMaxTransferSize_gated c val hgate) rfl
    · exact adds_of_store (call_wqMaxTransferSize c val hgate) rfl (fun s => rfl) (fun s => rfl)
  | wqStr field c val => exact ⟨field.file, Or.inl (by simp [files]), adds_wqStr field c val w⟩
  | wqType c val => exact ⟨"type", Or.inl (by simp [files]), adds_wqType c val w⟩
  | wqMode c mode =>
    refine ⟨"mode", Or.inl (by simp [files]), ?_⟩
    cases hmode : mode.str with
    | none => exact adds_of_nothing _ (call_wqMode_unknown c hmode) rfl
    | some val =>
      rw [call_wqMode c hmode, text, hmode, Option.getD_some]
      exact adds_wqStr .mode c val w
  | wqOpConfigStr c opConfig =>
    exact ⟨"op_config", Or.inl (by simp [files]), adds_opConfig c opConfig w.sys⟩
  | wqOpConfig c bits =>
    refine ⟨"op_config", Or.inl (by simp [files]), ?_⟩
    have hadds := adds_opConfig (K := K) c (String.ofList (opConfigText bits)) w.sys
    rwa [String.toList_ofList] at hadds
  | engineGroupId c val =>
    exact ⟨"group_id", Or.inl (by simp [files]),
      adds_of_store (call_engineGroupId c val) rfl (fun s => rfl) (fun s => rfl)⟩

end Setting

/-! ### Limits -/

/-- What the checks look at: the fields that no setter changes. -/
def DeviceFields.limits (dev : DeviceFields) : DeviceFields :=
  { dev with readBufferLimit := 0, eventLogSize := 0 }

/-- The limits of all devices are the same. -/
def SameLimits (w w' : World κ) : Prop := ∀ d, (w'.device d).limits = (w.device d).limits

theorem SameLimits.refl (w : World κ) : SameLimits w w := fun _ => rfl

theorem SameLimits.trans {w₁ w₂ w₃ : World κ} (h : SameLimits w₁ w₂) (h' : SameLimits w₂ w₃) :
    SameLimits w₁ w₃ := fun d => (h' d).trans (h d)

theorem sameLimits_update {w : World κ} {s : Sys κ} {d : DevId} {dev : DeviceFields}
    (h : dev.limits = (w.device d).limits) :
    SameLimits w { w with sys := s, device := Function.update w.device d dev } := by
  intro d'
  by_cases hd : d' = d
  · subst hd
    simpa using h
  · simp [hd]

theorem Setting.call_limits (st : Setting) (w : World κ) : SameLimits w (st.call K w).2 := by
  cases st with
  | deviceReadBufferLimit d val =>
    rw [call]
    refine sameLimits_update ?_
    rw [accfgDeviceSetReadBufferLimit]
    obtain ⟨ok, s⟩ := accessOk K (.attr (.device d) "read_buffer_limit") w.sys
    dsimp only
    obtain ⟨_ | rc, s'⟩ := storeAttr K (.device d) _ (fmtInt val) s
    · rfl
    · rfl
  | deviceEventLogSize d val =>
    rw [call]
    refine sameLimits_update ?_
    rw [accfgDeviceSetEventLogSize]
    obtain ⟨_ | _, s⟩ := accessOk K (.attr (.device d) "event_log_size") w.sys
    · rfl
    · dsimp only
      obtain ⟨_ | rc, s'⟩ := storeAttr K (.device d) _ (fmtInt val) s
      · rfl
      · rfl
  | group | wq | wqMaxTransferSize | wqStr | wqType | wqMode | wqOpConfigStr | wqOpConfig
  | engineGroupId => exact fun d => rfl

/-- The checks look at the limits alone. -/
theorem ConfigCall.refused_limits (call : ConfigCall) (dev : DeviceFields) :
    call.refused dev.limits = call.refused dev := by
  cases call <;> rfl

/-! ### Drivers that grant everything -/

/-- Every file can be opened, and takes every text whole. -/
structure Takes (K : Kernel κ) : Prop where
  openFile : ∀ path mode k, (K.openFile path mode k).1 = .ok ()
  openDir : ∀ c k, (K.openDir c k).1 = .ok ()
  write : ∀ path buf k, (K.write path buf k).1 = .ok buf.length

/-- Every file is there, too. -/
structure Grants (K : Kernel κ) : Prop extends Takes K where
  access : ∀ path k, (K.access path k).1 = .ok ()

/-- The whole text was written, and `errno` is as it was. -/
structure Wrote (path : Path) (buf : List Char) (s s' : Sys κ) : Prop where
  written : s'.written = s.written ++ [(path, buf)]
  errno : s'.errno = s.errno

theorem writeOutcome_of_takes (hK : Takes K) (mode : OpenMode) (path : Path) (buf : List Char)
    (k : κ) : (writeOutcome K path mode buf k).1 = .taken buf.length := by
  have hopen := hK.openFile path mode k
  rw [writeOutcome]
  generalize K.openFile path mode k = r at hopen ⊢
  obtain ⟨_ | ⟨⟩, k⟩ := r
  · cases hopen
  have hwrite := hK.write path buf k
  dsimp only
  generalize K.write path buf k = r at hwrite ⊢
  obtain ⟨_ | n, k'⟩ := r
  · cases hwrite
  · exact congrArg WriteOutcome.taken (Except.ok.inj hwrite)

theorem writeFile_of_takes (hK : Takes K) (mode : OpenMode) (path : Path) (buf : List Char)
    (s : Sys κ) : ∃ s', writeFile K mode path buf s = (0, s') ∧ Wrote path buf s s' := by
  have htaken := writeOutcome_of_takes hK mode path buf s.kernel
  rw [writeFile_eq]
  generalize writeOutcome K path mode buf s.kernel = r at htaken
  obtain ⟨o, k⟩ := r
  obtain rfl : o = .taken buf.length := htaken
  rw [writeResult, if_neg (lt_irrefl _), List.take_length]
  exact ⟨_, rfl, rfl, rfl⟩

theorem storeAttr_of_takes (hK : Takes K) (c : Comp) (path : Path) (buf : List Char) (s : Sys κ) :
    ∃ s', storeAttr K c path buf s = (none, s') ∧ Wrote path buf s s' := by
  obtain ⟨s', hwrite, hwrote⟩ := writeFile_of_takes hK .write path buf s
  refine ⟨s', ?_, hwrote⟩
  rw [storeAttr, writeAttr, hwrite]
  rfl

theorem accessOk_of_grants (hK : Grants K) (path : Path) (s : Sys κ) :
    ∃ k, accessOk K path s = (true, { s with kernel := k }) := by
  have haccess := hK.access path s.kernel
  rw [accessOk]
  generalize K.access path s.kernel = r at haccess ⊢
  obtain ⟨_ | ⟨⟩, k⟩ := r
  · cases haccess
  · exact ⟨k, rfl⟩

namespace Setting

/-- The text fits, and can be made sense of once it is stored. -/
def Storable : Setting → Prop
  | wqStr _ _ val => val.toList.length < SYSFS_ATTR_SIZE
  | wqType _ val => val.toList.length < SYSFS_ATTR_SIZE ∧ wqParseType val.toList ≠ none
  | wqMode _ mode => mode ≠ .unknown
  | _ => True

/-- A setter that looks at whether the device can be configured. -/
def Gated : Setting → Prop
  | wq field _ _ => field = .threshold
  | wqStr field _ _ => field = .mode
  | wqMaxTransferSize _ _ | wqMode _ _ => True
  | _ => False

/-- The file of the attribute, by its present name. -/
def file (st : Setting) : String := st.files.headI

/-- What a setter leaves: its text in its file. -/
def entry (st : Setting) : Path × List Char := (.attr st.comp st.file, st.text)

variable {w : World κ}

theorem call_wqStr_of_takes (hK : Takes K) (field : WqStrField) (c : ChildId) {val : String}
    (hlen : val.toList.length < SYSFS_ATTR_SIZE)
    (hgate : ¬((w.device c.dev).configurable = 0 ∧ field = .mode)) :
    ∃ w', (wqStr field c val).call K w = (.ret 0, w') ∧
      Wrote (.attr (.wq c) field.file) val.toList w.sys w'.sys := by
  obtain ⟨s', hwrite, hwrote⟩ :=
    writeFile_of_takes hK .write (.attr (.wq c) field.file) val.toList w.sys
  rw [call_wqStr field c hlen hgate, hwrite]
  exact ⟨_, rfl, hwrote⟩

theorem call_wqType_of_takes (hK : Takes K) (c : ChildId) {val : String}
    (hlen : val.toList.length < SYSFS_ATTR_SIZE) (hparse : wqParseType val.toList ≠ none) :
    ∃ w', (wqType c val).call K w = (.ret 0, w') ∧
      Wrote (.attr (.wq c) "type") val.toList w.sys w'.sys := by
  obtain ⟨s', hstore, hwrote⟩ :=
    storeAttr_of_takes hK (.wq c) (.attr (.wq c) "type") val.toList w.sys
  obtain ⟨type, htype⟩ := Option.ne_none_iff_exists'.mp hparse
  rw [call_wqType c hlen, hstore, htype]
  exact ⟨_, rfl, hwrote⟩

theorem opConfig_of_takes (hK : Takes K) (c : ChildId) (text : String) (s : Sys κ) :
    ∃ s', accfgWqSetOpConfigStr K c text s = (0, s') ∧
      Wrote (.attr (.wq c) "op_config") text.toList s s' := by
  have hopen := hK.openDir (.wq c) s.kernel
  rw [accfgWqSetOpConfigStr]
  generalize K.openDir (.wq c) s.kernel = r at hopen ⊢
  obtain ⟨_ | ⟨⟩, k⟩ := r
  · cases hopen
  obtain ⟨s', hwrite, hwrote⟩ := writeFile_of_takes hK .readWrite (.attr (.wq c) "op_config")
    text.toList { s with kernel := k }
  refine ⟨s', ?_, hwrote.written, hwrote.errno⟩
  simp only [sysCall, accfgSetParam, hwrite]
  rfl

theorem exists_str {mode : WqMode} (h : mode ≠ .unknown) :
    ∃ val, mode.str = some val ∧ val.toList.length < SYSFS_ATTR_SIZE := by
  cases mode with
  | shared => exact ⟨"shared", rfl, by decide⟩
  | dedicated => exact ⟨"dedicated", rfl, by decide⟩
  | unknown => exact absurd rfl h

/-- Where the device cannot be configured, a setter that looks at it gives up:
no call has failed, and its code is that of an error before. -/
theorem call_gated {st : Setting} (hst : st.Storable)
    (hgate : (w.device st.comp.dev).configurable = 0 ∧ st.Gated) :
    st.call K w = (.ret (-w.sys.errno), w) := by
  cases st with
  | wq field c val => exact call_wq_gated field c val hgate
  | wqMaxTransferSize c val => exact call_wqMaxTransferSize_gated c val hgate.1
  | wqStr field c val => exact call_wqStr_gated field c hst hgate
  | wqMode c mode =>
    obtain ⟨val, hmode, hlen⟩ := exists_str hst
    rw [call_wqMode c hmode]
    exact call_wqStr_gated .mode c hlen ⟨hgate.1, rfl⟩
  | deviceReadBufferLimit | deviceEventLogSize | group | wqType | wqOpConfigStr | wqOpConfig
  | engineGroupId => exact hgate.2.elim

/-- Where everything is granted, a setter writes its text whole. -/
theorem call_of_grants (hK : Grants K) {st : Setting} (hst : st.Storable)
    (hconf : st.Gated → (w.device st.comp.dev).configurable ≠ 0) :
    ∃ w', st.call K w = (.ret 0, w') ∧
      Wrote (.attr st.comp st.file) st.text w.sys w'.sys := by
  cases st with
  -- these look for the file first, which is granted too
  | deviceReadBufferLimit d val =>
    obtain ⟨k, hacc⟩ := accessOk_of_grants hK (.attr (.device d) "read_buffer_limit") w.sys
    obtain ⟨s', hstore, hwrote⟩ := storeAttr_of_takes hK.toTakes (.device d)
      (.attr (.device d) (chosen "read_buffer_limit" true)) (fmtInt val) { w.sys with kernel := k }
    rw [call_deviceReadBufferLimit d val hacc, hstore]
    exact ⟨_, rfl, hwrote.written, hwrote.errno⟩
  | deviceEventLogSize d val =>
    obtain ⟨k, hacc⟩ := accessOk_of_grants hK (.attr (.device d) "event_log_size") w.sys
    obtain ⟨s', hstore, hwrote⟩ := storeAttr_of_takes hK.toTakes (.device d)
      (.attr (.device d) "event_log_size") (fmtInt val) { w.sys with kernel := k }
    rw [call_deviceEventLogSize d val hacc, hstore]
    exact ⟨_, rfl, hwrote.written, hwrote.errno⟩
  | group field c val =>
    obtain ⟨k, hacc⟩ := accessOk_of_grants hK (.attr (.group c) field.name) w.sys
    obtain ⟨s', hstore, hwrote⟩ := storeAttr_of_takes hK.toTakes (.group c)
      (.attr (.group c) (chosen field.name true)) (fmtInt val) { w.sys with kernel := k }
    rw [call_group field c val hacc, hstore]
    exact ⟨_, rfl, hwrote.written, hwrote.errno⟩
  -- these may be refused on a device that is not configurable
  | wq field c val =>
    obtain ⟨s', hstore, hwrote⟩ := storeAttr_of_takes hK.toTakes (.wq c)
      (.attr (.wq c) field.name) (fmtInt val) w.sys
    rw [call_wq field c val fun hgate => hconf hgate.2 hgate.1, hstore]
    exact ⟨_, rfl, hwrote.written, hwrote.errno⟩
  | wqMaxTransferSize c val =>
    obtain ⟨s', hstore, hwrote⟩ := storeAttr_of_takes hK.toTakes (.wq c)
      (.attr (.wq c) "max_transfer_size") (decimal val.toNat) w.sys
    rw [call_wqMaxTransferSize c val (hconf trivial), hstore]
    exact ⟨_, rfl, hwrote.written, hwrote.errno⟩
  | wqStr field c val =>
    obtain ⟨w', hcall, hwrote⟩ :=
      call_wqStr_of_takes hK.toTakes field c hst fun hgate => hconf hgate.2 hgate.1
    exact ⟨w', hcall, hwrote⟩
  -- texts must fit the buffer they are formatted into
  | wqType c val =>
    obtain ⟨w', hcall, hwrote⟩ := call_wqType_of_takes hK.toTakes (w := w) c hst.1 hst.2
    exact ⟨w', hcall, hwrote⟩
  | wqMode c mode =>
    obtain ⟨val, hmode, hlen⟩ := exists_str hst
    obtain ⟨w', hcall, hwrote⟩ :=
      call_wqStr_of_takes hK.toTakes .mode c hlen fun hgate => hconf trivial hgate.1
    refine ⟨w', by rw [call_wqMode c hmode, hcall], ?_⟩
    rw [text, hmode, Option.getD_some]
    exact hwrote
  | wqOpConfigStr c opConfig =>
    obtain ⟨s', hset, hwrote⟩ := opConfig_of_takes hK.toTakes c opConfig w.sys
    rw [call, hset]
    exact ⟨_, rfl, hwrote.written, hwrote.errno⟩
  | wqOpConfig c bits =>
    obtain ⟨s', hset, hwrote⟩ :=
      opConfig_of_takes hK.toTakes c (String.ofList (opConfigText bits)) w.sys
    rw [call, accfgWqSetOpConfig, hset]
    rw [String.toList_ofList] at hwrote
    exact ⟨_, rfl, hwrote.written, hwrote.errno⟩
  | engineGroupId c val =>
    obtain ⟨s', hstore, hwrote⟩ := storeAttr_of_takes hK.toTakes (.engine c)
      (.attr (.engine c) "group_id") (fmtInt val) w.sys
    rw [call_engineGroupId c val, hstore]
    exact ⟨_, rfl, hwrote.written, hwrote.errno⟩

end Setting

/-! ### Steps, one by one -/

namespace Step

theorem adds (step : Step) (w : World κ) : ∃ f, step.setting.MayWrite f ∧
    WritesAtMost (.attr step.setting.comp f) step.setting.text w.sys (step.run K w).2.sys := by
  cases step with
  | set st => exact st.call_adds w
  | driverName bus c name =>
    have hread := quiet_readOnly.accessOk (K := K) (.bind bus name) w.sys
    rw [run, setDriverName]
    generalize accessOk K (.bind bus name) w.sys = r at hread ⊢
    obtain ⟨_ | _, s⟩ := r
    · exact ⟨"driver_name", Or.inl List.mem_cons_self, Or.inl hread.written⟩
    · obtain ⟨f, hf, hadds⟩ :=
        (Setting.wqStr .driverName c name).call_adds (K := K) { w with sys := s }
      exact ⟨f, hf, WritesAtMost.after hread.written hadds⟩

theorem limits (step : Step) (w : World κ) : SameLimits w (step.run K w).2 := by
  cases step with
  | set st => exact st.call_limits w
  | driverName bus c name =>
    rw [run, setDriverName]
    obtain ⟨_ | _, s⟩ := accessOk K (.bind bus name) w.sys
    · exact SameLimits.refl w
    · exact (Setting.wqStr .driverName c name).call_limits (K := K) { w with sys := s }

theorem limits_of_run (step : Step) {w w' : World κ} {e : Exit} (h : step.run K w = (e, w')) :
    SameLimits w w' := by
  have hsame := step.limits (K := K) w
  rwa [h] at hsame

theorem gated {step : Step} {w : World κ} (hst : step.setting.Storable)
    (hgate : (w.device step.setting.comp.dev).configurable = 0 ∧ step.setting.Gated) :
    step.run K w = (.ret (-w.sys.errno), w) := by
  cases step with
  | set st => exact Setting.call_gated hst hgate
  | driverName bus c name => cases hgate.2

theorem of_grants (hK : Grants K) {step : Step} {w : World κ} (hst : step.setting.Storable)
    (hconf : step.setting.Gated → (w.device step.setting.comp.dev).configurable ≠ 0) :
    ∃ w', step.run K w = (.ret 0, w') ∧
      Wrote (.attr step.setting.comp step.setting.file) step.setting.text w.sys w'.sys := by
  cases step with
  | set st => exact Setting.call_of_grants hK hst hconf
  | driverName bus c name =>
    obtain ⟨k, hacc⟩ := accessOk_of_grants hK (.bind bus name) w.sys
    rw [run, setDriverName, hacc]
    obtain ⟨w', hcall, hwrote⟩ := Setting.call_of_grants
      (w := { w with sys := { w.sys with kernel := k } }) hK hst hconf
    exact ⟨w', hcall, hwrote.written, hwrote.errno⟩

end Step

/-! ### All steps -/

theorem runSteps_cons_of_ok {step : Step} {steps : List Step} {w w' : World κ}
    (h : step.run K w = (.ret 0, w')) : runSteps K (step :: steps) w = runSteps K steps w' :=
  inOrder_cons_of_done h le_rfl

theorem runSteps_one_of_ok {step : Step} {w w' : World κ} (h : step.run K w = (.ret 0, w')) :
    runSteps K [step] w = (.ret 0, w') := runSteps_cons_of_ok h

theorem runSteps_cons_cases (step : Step) (steps : List Step) (w : World κ) :
    (runSteps K (step :: steps) w).2 = (step.run K w).2 ∨
      (runSteps K (step :: steps) w).2 = (runSteps K steps (step.run K w).2).2 := by
  rw [runSteps, List.map_cons, inOrder_cons]
  obtain ⟨_ | _, w'⟩ := step.run K w
  · next rc =>
    dsimp only
    split
    · exact Or.inl rfl
    · exact Or.inr rfl
  · exact Or.inl rfl

theorem runSteps_limits (steps : List Step) (w : World κ) :
    SameLimits w (runSteps K steps w).2 := by
  induction steps generalizing w with
  | nil => exact SameLimits.refl w
  | cons step steps ih =>
    have hstep := step.limits (K := K) w
    rcases runSteps_cons_cases (K := K) step steps w with h | h
    · rw [h]
      exact hstep
    · rw [h]
      exact hstep.trans (ih _)

/-- A text that a step may write: a part of its own, to the file of its
attribute. -/
def Step.MayLeave (step : Step) (e : Path × List Char) : Prop :=
  ∃ f n, step.setting.MayWrite f ∧ e = (.attr step.setting.comp f, step.setting.text.take n)

/-- With any driver, what the steps write at most. -/
theorem runSteps_adds (steps : List Step) (w : World κ) :
    ∃ new, (runSteps K steps w).2.sys.written = w.sys.written ++ new ∧
      ∀ e ∈ new, ∃ step ∈ steps, step.MayLeave e := by
  induction steps generalizing w with
  | nil => exact ⟨[], (List.append_nil _).symm, by simp⟩
  | cons step steps ih =>
    obtain ⟨new₁, hwr₁, hnew₁⟩ : ∃ new, (step.run K w).2.sys.written = w.sys.written ++ new ∧
        ∀ e ∈ new, step.MayLeave e := by
      obtain ⟨f, hf, hwr | ⟨n, hwr⟩⟩ := step.adds (K := K) w
      · exact ⟨[], by rw [hwr, List.append_nil], by simp⟩
      · exact ⟨_, hwr, fun e he => ⟨f, n, hf, List.mem_singleton.mp he⟩⟩
    rcases runSteps_cons_cases (K := K) step steps w with h | h
    · exact ⟨new₁, by rw [h, hwr₁], fun e he => ⟨step, List.mem_cons_self, hnew₁ e he⟩⟩
    · obtain ⟨new₂, hwr₂, hnew₂⟩ := ih (step.run K w).2
      refine ⟨new₁ ++ new₂, by rw [h, hwr₂, hwr₁, List.append_assoc], fun e he => ?_⟩
      rcases List.mem_append.mp he with he | he
      · exact ⟨step, List.mem_cons_self, hnew₁ e he⟩
      · obtain ⟨step', hmem, hleave⟩ := hnew₂ e he
        exact ⟨step', List.mem_cons_of_mem step hmem, hleave⟩

/-- The gate of a device stays as it is. -/
theorem SameLimits.configurable {w w' : World κ} (h : SameLimits w w') (d : DevId) :
    (w'.device d).configurable = (w.device d).configurable := by
  have hlimit := congrArg DeviceFields.configurable (h d)
  exact hlimit

/-- Where everything is granted, all steps are done and each writes its text
whole. -/
theorem runSteps_of_grants (hK : Grants K) {steps : List Step} {d : DevId} {w : World κ}
    (hst : ∀ step ∈ steps, step.setting.Storable)
    (hdev : ∀ step ∈ steps, step.setting.comp.dev = d)
    (hconf : ∀ step ∈ steps, step.setting.Gated → (w.device d).configurable ≠ 0) :
    ∃ w', runSteps K steps w = (.ret 0, w') ∧
      w'.sys.written = w.sys.written ++ steps.map (·.setting.entry) ∧
      w'.sys.errno = w.sys.errno := by
  induction steps generalizing w with
  | nil => exact ⟨w, rfl, (List.append_nil _).symm, rfl⟩
  | cons step steps ih =>
    have hd : step.setting.comp.dev = d := hdev step List.mem_cons_self
    obtain ⟨w₁, hrun, hwrote⟩ := Step.of_grants hK (hst step List.mem_cons_self) (w := w)
      fun hgated => hd.symm ▸ hconf step List.mem_cons_self hgated
    have hlimits := step.limits_of_run hrun
    obtain ⟨w₂, hrest, hwr₂, herrno₂⟩ := ih (fun s hs => hst s (List.mem_cons_of_mem step hs))
      (fun s hs => hdev s (List.mem_cons_of_mem step hs)) fun s hs hgated =>
        hlimits.configurable d ▸ hconf s (List.mem_cons_of_mem step hs) hgated
    refine ⟨w₂, by rw [runSteps_cons_of_ok hrun, hrest], ?_, herrno₂.trans hwrote.errno⟩
    rw [hwr₂, hwrote.written, List.map_cons, List.append_assoc]
    rfl

/-- Where everything is granted and there was an error before, steps that succeed
do not look at a device that cannot be configured. -/
theorem configurable_of_runSteps (hK : Grants K) {steps : List Step} {d : DevId} {w w' : World κ}
    (hst : ∀ step ∈ steps, step.setting.Storable)
    (hdev : ∀ step ∈ steps, step.setting.comp.dev = d) (herrno : 0 < w.sys.errno)
    (h : runSteps K steps w = (.ret 0, w')) :
    ∀ step ∈ steps, step.setting.Gated → (w.device d).configurable ≠ 0 := by
  induction steps generalizing w with
  | nil => exact fun step hstep => (List.not_mem_nil hstep).elim
  | cons step steps ih =>
    have hd : step.setting.comp.dev = d := hdev step List.mem_cons_self
    by_cases hgate : (w.device step.setting.comp.dev).configurable = 0 ∧ step.setting.Gated
    · -- the step fails with the error before
      have hrun := Step.gated (K := K) (hst step List.mem_cons_self) hgate
      rw [runSteps, List.map_cons, inOrder_cons, hrun] at h
      dsimp only at h
      rw [if_pos (by omega)] at h
      have hcode := Exit.ret.inj (congrArg Prod.fst h)
      omega
    have hhead : step.setting.Gated → (w.device step.setting.comp.dev).configurable ≠ 0 :=
      fun hgated hconf => hgate ⟨hconf, hgated⟩
    obtain ⟨w₁, hrun, hwrote⟩ := Step.of_grants hK (hst step List.mem_cons_self) hhead
    rw [runSteps_cons_of_ok hrun] at h
    have hlimits := step.limits_of_run hrun
    intro s hs
    rcases List.mem_cons.mp hs with rfl | hs
    · exact hd ▸ hhead
    · rw [← hlimits.configurable d]
      exact ih (fun s hs => hst s (List.mem_cons_of_mem step hs))
        (fun s hs => hdev s (List.mem_cons_of_mem step hs)) (hwrote.errno ▸ herrno) h s hs

end Accfg
