/-
Kernels on which the state of a work queue is steady.

What `accfg_wq_get_state` answers depends on the kernel alone (`wqStateOf`).
On a steady kernel it does not change by itself, and not when a name is
written to the files of another component: the driver changes the state of a
work queue when it, or its device, is bound or unbound.

* `wqStateOf_eq` — the answer, in any state of the process;
* `Steady.quiet` — queries leave the states alone;
* `Steady.unbindDriver` — so does disabling another component.
-/
import AccelConfig.DisableGuard
import Mathlib.Data.List.Nodup

open CNumeral

namespace Accfg

variable {κ : Type} {K : Kernel κ}

/-! ### Names on a bus -/

theorem name_injective {kind : String} {c c' : ChildId} (h : c.name kind = c'.name kind) :
    c.dev.id = c'.dev.id ∧ c.num = c'.num := by
  have hchars : decimal c.dev.id ++ '.' :: decimal c.num
      = decimal c'.dev.id ++ '.' :: decimal c'.num := by
    have hlist := String.ofList_injective h
    rwa [List.append_assoc, List.append_assoc, List.append_cancel_left_eq] at hlist
  -- a number stops at the dot
  have hscan := congrArg (scanInt 10) hchars
  have hstops : ∀ num : ℕ, Stops ('.' :: decimal num) := fun _ => stops_cons (by decide)
  rw [scanInt_decimal _ (hstops _), scanInt_decimal _ (hstops _)] at hscan
  obtain ⟨hid, hrest⟩ := Prod.mk.inj (Option.some.inj hscan)
  exact ⟨by omega, by have := decimal_injective (List.cons.inj hrest).2; omega⟩

theorem head?_typeStr (type : DeviceType) (cs : List Char) :
    (type.str.toList ++ cs).head? = match type with
      | .dsa => some 'd'
      | .iax => some 'i' := by
  cases type <;> rfl

/-- The name of a work queue is not that of a device. -/
theorem devname_wq_ne_device (c : ChildId) (d : DevId) :
    (Comp.wq c).devname ≠ (Comp.device d).devname := by
  intro h
  have hlist : "wq".toList ++ decimal c.dev.id ++ '.' :: decimal c.num
      = d.type.str.toList ++ decimal d.id := String.ofList_injective h
  have hhead := congrArg List.head? hlist
  rw [head?_typeStr] at hhead
  have hw : ("wq".toList ++ decimal c.dev.id ++ '.' :: decimal c.num).head? = some 'w' := rfl
  rw [hw] at hhead
  split at hhead <;> simp at hhead

theorem devname_device_injective {d d' : DevId}
    (h : (Comp.device d).devname = (Comp.device d').devname) : d = d' := by
  have hlist : d.type.str.toList ++ decimal d.id = d'.type.str.toList ++ decimal d'.id :=
    String.ofList_injective h
  have hhead := congrArg List.head? hlist
  rw [head?_typeStr, head?_typeStr] at hhead
  have htype : d.type = d'.type := by
    cases ht : d.type <;> cases ht' : d'.type <;> simp [ht, ht'] at hhead ⊢
  rw [htype] at hlist
  have hid := Int.ofNat.inj (decimal_injective (List.append_cancel_left hlist))
  cases d
  cases d'
  exact (DevId.mk.injEq ..).mpr ⟨htype, hid⟩

/-- Devices with different numbers, each with different work queues. -/
structure Population (nodes : List DeviceNode) : Prop where
  nodup : (nodes.map (·.id)).Nodup
  wqs_nodup : ∀ node ∈ nodes, node.wqs.Nodup
  unique : ∀ node ∈ nodes, ∀ node' ∈ nodes,
    node.bus = node'.bus → node.id.id = node'.id.id → node = node'

/-! ### The state of a work queue -/

variable (K)

/-- What is read of a work queue's state. -/
def wqStateOf (c : ChildId) (k : κ) : WqState := (accfgWqGetState K c ⟨k, 0, 0, none, []⟩).1

/-- The text of an attribute that can be read and is not too long. -/
def attrText (path : Path) (k : κ) : Option (List Char) :=
  match K.openFile path .read k with
  | (.error _, _) => none
  | (.ok (), k) =>
    match K.read path k with
    | (.error _, _) => none
    | (.ok buf, _) => if SYSFS_ATTR_SIZE ≤ buf.length then none else some (chomp buf)

variable {K}

/-- Without a text the buffer is empty, whatever the return code. -/
theorem sysfsReadAttr_text (path : Path) (s : Sys κ) :
    (sysfsReadAttr K path s).2.1 = (attrText K path s.kernel).getD [] ∧
      (attrText K path s.kernel ≠ none → (sysfsReadAttr K path s).1 = 0) := by
  rw [sysfsReadAttr, attrText]
  obtain ⟨_ | ⟨⟩, k⟩ := K.openFile path .read s.kernel
  · exact ⟨rfl, fun h => absurd rfl h⟩
  simp only [sysCall]
  obtain ⟨_ | buf, k'⟩ := K.read path k
  · exact ⟨rfl, fun h => absurd rfl h⟩
  dsimp only
  split
  · exact ⟨rfl, fun h => absurd rfl h⟩
  · exact ⟨rfl, fun _ => rfl⟩

/-- The state that a text means. -/
def WqState.ofText (buf : List Char) : WqState :=
  if buf = "disabled".toList then .disabled
  else if buf = "enabled".toList then .enabled
  else if buf = "quiescing".toList then .quiescing
  else if buf = "locked".toList then .locked
  else .unknown

theorem accfgWqGetState_text (c : ChildId) (s : Sys κ) :
    (accfgWqGetState K c s).1
      = WqState.ofText ((attrText K (.attr (.wq c) "state") s.kernel).getD []) := by
  obtain ⟨hbuf, hrc⟩ := @sysfsReadAttr_text _ K (.attr (.wq c) "state") s
  rw [accfgWqGetState, ← hbuf]
  generalize sysfsReadAttr K (.attr (.wq c) "state") s = r at hbuf hrc ⊢
  obtain ⟨rc, buf, s₁⟩ := r
  dsimp only at hbuf hrc ⊢
  rw [WqState.ofText]
  split
  · -- no text: the empty buffer means nothing
    next hneg =>
    have hnone : attrText K (.attr (.wq c) "state") s.kernel = none := by
      by_contra hsome
      exact absurd (hrc hsome) hneg.ne
    rw [hbuf, hnone]
    rfl
  · split
    · rfl
    · split
      · rfl
      · split
        · rfl
        · split <;> rfl

theorem wqStateOf_eq (c : ChildId) (s : Sys κ) :
    (accfgWqGetState K c s).1 = wqStateOf K c s.kernel := by
  rw [wqStateOf, accfgWqGetState_text, accfgWqGetState_text]

/-! ### Steady kernels -/

variable (K)

/-- The states of the work queues change only when a name is written to a file
of the work queue or its device. -/
structure Steady (nodes : List DeviceNode) : Prop where
  query : ∀ (c : ChildId) {α : Type} {call : κ → Except Errno α × κ}, Query K call →
    ∀ k, wqStateOf K c (call k).2 = wqStateOf K c k
  unbind : ∀ node ∈ nodes, ∀ n ∈ node.wqs, ∀ (bus dev : String) (buf : List Char) (k : κ),
    ¬(bus = node.bus ∧
      (dev = (Comp.wq ⟨node.id, n⟩).devname ∨ dev = (Comp.device node.id).devname)) →
    wqStateOf K ⟨node.id, n⟩ (K.write (.unbind bus dev) buf k).2 = wqStateOf K ⟨node.id, n⟩ k

/-- The state of the work queue is the same. -/
def SameState (c : ChildId) (s s' : Sys κ) : Prop :=
  wqStateOf K c s'.kernel = wqStateOf K c s.kernel

variable {K} {nodes : List DeviceNode}

theorem Steady.quiet (h : Steady K nodes) (c : ChildId) : Quiet K (SameState K c) where
  refl _ := rfl
  trans h₁ h₂ := h₂.trans h₁
  query := by
    intro α call hcall s
    have hkernel : (sysCall (call s.kernel) s).2.kernel = (call s.kernel).2 := by
      obtain ⟨_ | _, k⟩ := call s.kernel <;> rfl
    rw [SameState, hkernel]
    exact h.query c hcall s.kernel
  errno _ _ _ := rfl
  errorCtx _ _ := rfl

/-- Disabling a component keeps what queries keep, if the write does. -/
theorem Quiet.unbindDriver {R : Sys κ → Sys κ → Prop} (hR : Quiet K R) {c : Comp} {bus : String}
    (hwrite : ∀ s : Sys κ, R s (writeAttr K (.unbind bus c.devname) c.devname.toList s).2)
    (force : Bool) (s : Sys κ) : R s (unbindDriver K c bus force s).2 := by
  have h := hR.query (.realpath (.unbind bus c.devname)) s
  rw [Accfg.unbindDriver]
  generalize sysCall (K.realpath (.unbind bus c.devname) s.kernel) s = r at h ⊢
  obtain ⟨_ | ⟨⟩, s₁⟩ := r
  · exact h
  have h₂ := hR.trans h (hR.getClients c s₁)
  dsimp only
  generalize Accfg.getClients K c s₁ = r at h₂ ⊢
  obtain ⟨clients, s₂⟩ := r
  dsimp only
  split
  · exact h₂
  have h₃ := hR.trans h₂ (hwrite s₂)
  generalize writeAttr K (.unbind bus c.devname) c.devname.toList s₂ = r at h₃ ⊢
  obtain ⟨rc, s₃⟩ := r
  dsimp only
  split
  · exact hR.trans h₃ (hR.saveLastError c s₃)
  · exact h₃

theorem Quiet.wqDisable {R : Sys κ → Sys κ → Prop} (hR : Quiet K R) {c : ChildId} {bus : String}
    (hwrite : ∀ s : Sys κ,
      R s (writeAttr K (.unbind bus (Comp.wq c).devname) (Comp.wq c).devname.toList s).2)
    (compat : Bool) (wq : WqFields) (force : Bool) (s : Sys κ) :
    R s (accfgWqDisable K compat bus c wq force s).2 := by
  have h := hR.unbindDriver hwrite force s
  rw [accfgWqDisable, accfgWqControl, switchWq]
  generalize Accfg.unbindDriver K (.wq c) bus force s = r at h ⊢
  obtain ⟨rc, s₁⟩ := r
  dsimp only
  split
  · exact h
  · exact hR.trans h (hR.verifyState c .disable s₁)

theorem Steady.write (h : Steady K nodes) {node : DeviceNode} (hnode : node ∈ nodes) {n : ℕ}
    (hn : n ∈ node.wqs) {bus dev : String}
    (hne : ¬(bus = node.bus ∧
      (dev = (Comp.wq ⟨node.id, n⟩).devname ∨ dev = (Comp.device node.id).devname)))
    (buf : List Char) (s : Sys κ) :
    SameState K ⟨node.id, n⟩ s (writeAttr K (.unbind bus dev) buf s).2 := by
  have hopen := h.query ⟨node.id, n⟩ (.openFile (.unbind bus dev) .write) s.kernel
  rw [writeAttr, writeFile_eq, writeOutcome, SameState, ← hopen]
  obtain ⟨_ | ⟨⟩, k⟩ := K.openFile (.unbind bus dev) .write s.kernel
  · rfl
  · have hw := h.unbind node hnode n hn bus dev buf k hne
    rw [← hw]
    dsimp only
    obtain ⟨_ | m, k'⟩ := K.write (.unbind bus dev) buf k <;> rfl

end Accfg
