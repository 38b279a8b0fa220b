/-
The names that the commands take: `parse_device_name` and its relatives.

A device is called by its name, a child by that of its device and its own, with
a slash between.  `%s` skips blanks and stops at one, so a child is found also
under a name with blanks in front of the child's own, or with a blank behind it
and anything after that.

* `parseDeviceName_eq_ok_iff` — a device is found by its name alone;
* `parseChildName_eq_ok_iff` — a child is found by its name, padded or not;
* `takesName_iff` — a name is taken as it should be unless it is padded.
-/
import AccelConfig.Listing
import AccelConfig.LoadTrace
import AccelConfig.Scanset

open CNumeral Scanset

namespace Accfg

variable {ctx : List DeviceNode} {name : String}

/-! ### The two patterns -/

/-- The letters that `%[a-z]` takes. -/
def isTypeLetter (c : Char) : Bool := 'a' ≤ c ∧ c ≤ 'z'

theorem drop_length_takeWhile (p : Char → Bool) (cs : List Char) :
    cs.drop (cs.takeWhile p).length = cs.dropWhile p := by
  have hcs : cs.takeWhile p ++ cs.dropWhile p = cs := List.takeWhile_append_dropWhile
  have hdrop : (cs.takeWhile p ++ cs.dropWhile p).drop (cs.takeWhile p).length = cs.dropWhile p :=
    List.drop_left
  rwa [hcs] at hdrop

theorem scanDeviceTypeId_eq (name : String) :
    scanDeviceTypeId name = match scanset isTypeLetter name.toList with
      | none => none
      | some (type, rest) => if (scanD rest).isSome then some (String.ofList type) else none := by
  have hset : (fun c : Char => decide ('a' ≤ c ∧ c ≤ 'z')) = isTypeLetter := rfl
  simp only [scanDeviceTypeId, hset, drop_length_takeWhile, scanset]
  cases name.toList.takeWhile isTypeLetter with
  | nil => rfl
  | cons c type =>
    have hne : c :: type ≠ [] := List.cons_ne_nil c type
    simp only [hne, ne_eq, not_false_eq_true, true_and]

theorem scanParentChildNames_eq (name : String) :
    scanParentChildNames name = match scanset (· ≠ '/') name.toList with
      | some (parent, _ :: rest) =>
        (scanWord rest).map fun r => (String.ofList parent, String.ofList r.1)
      | _ => none := by
  have hdrop : name.toList.drop ((name.toList.takeWhile (· ≠ '/')).length + 1)
      = (name.toList.dropWhile (· ≠ '/')).tail := by
    rw [← List.drop_drop, drop_length_takeWhile, List.drop_one]
  simp only [scanParentChildNames, hdrop, scanset]
  cases name.toList.takeWhile (· ≠ '/') with
  | nil => rfl
  | cons c parent =>
    have hne : c :: parent ≠ [] := List.cons_ne_nil c parent
    cases name.toList.dropWhile (· ≠ '/') with
    | nil => simp
    | cons slash rest =>
      simp only [hne, ne_eq, not_false_eq_true, true_and, List.tail_cons, scanWord, scanset]
      cases (rest.dropWhile isBlank).takeWhile fun c => !isBlank c with
      | nil => rfl
      | cons c child => rfl

/-- The names that are scanned, without the loops that scan them. -/
theorem scanParentChildNames_eq_some_iff {parent child : String} :
    scanParentChildNames name = some (parent, child) ↔
      (parent.toList ≠ [] ∧ '/' ∉ parent.toList) ∧
      (child.toList ≠ [] ∧ ∀ c ∈ child.toList, isBlank c = false) ∧
      ∃ pad rest, name.toList = parent.toList ++ '/' :: (pad ++ child.toList ++ rest) ∧
        (∀ c ∈ pad, isBlank c = true) ∧ EndsFor (fun c => !isBlank c) rest := by
  rw [scanParentChildNames_eq]
  constructor
  · intro h
    split at h
    · next p slash rest hset =>
      obtain ⟨⟨c, rest'⟩, hword, hout⟩ := Option.map_eq_some_iff.mp h
      obtain ⟨rfl, rfl⟩ := Prod.mk.inj hout
      obtain ⟨hname, hne, hparent, hslash⟩ := scanset_eq_some_iff.mp hset
      obtain ⟨pad, hrest, hpad, hchild, hblank, hends⟩ := scanWord_eq_some_iff.mp hword
      have hsep : slash = '/' := by simpa [EndsFor] using hslash
      simp only [String.toList_ofList]
      refine ⟨⟨hne, ?_⟩, ⟨hchild, hblank⟩, pad, rest', ?_, hpad, hends⟩
      · intro hmem
        simpa using hparent '/' hmem
      · rw [hname, hsep, hrest]
    · cases h
  · rintro ⟨⟨hne, hslash⟩, ⟨hchild, hblank⟩, pad, rest, hname, hpad, hends⟩
    have hset : scanset (· ≠ '/') name.toList
        = some (parent.toList, '/' :: (pad ++ child.toList ++ rest)) := by
      refine scanset_eq_some_iff.mpr ⟨hname, hne, ?_, by simp [EndsFor]⟩
      intro c hc
      have hne : c ≠ '/' := fun heq => hslash (heq ▸ hc)
      simpa using hne
    have hword : scanWord (pad ++ child.toList ++ rest) = some (child.toList, rest) :=
      scanWord_eq_some_iff.mpr ⟨pad, rfl, hpad, hchild, hblank, hends⟩
    rw [hset]
    simp only [hword, Option.map_some, String.ofList_toList]

/-! ### Letters of a name -/

theorem isDigit_of_mem_decimal {n : ℕ} {c : Char} (h : c ∈ decimal n) : c.isDigit = true := by
  rw [decimal, if_neg (by omega)] at h
  exact isDigit_of_mem_toDigits h

theorem isBlank_of_isDigit {c : Char} (h : c.isDigit = true) : isBlank c = false := by
  have hlow : 48 ≤ c.toNat := by
    simp only [Char.isDigit, Bool.and_eq_true, decide_eq_true_eq, ge_iff_le,
      UInt32.le_iff_toNat_le] at h
    exact h.1
  rw [Bool.eq_false_iff]
  intro hblank
  rw [isBlank, Bool.or_eq_true, decide_eq_true_eq, Bool.and_eq_true, decide_eq_true_eq,
    decide_eq_true_eq] at hblank
  rcases hblank with rfl | ⟨-, hle⟩
  · exact absurd h (by decide)
  · have hhigh : c.toNat ≤ 13 := hle
    omega

/-- A digit is no letter of a type. -/
theorem isTypeLetter_of_isDigit {c : Char} (h : c.isDigit = true) : isTypeLetter c = false := by
  have hhigh : c.toNat ≤ 57 := by
    simp only [Char.isDigit, Bool.and_eq_true, decide_eq_true_eq, UInt32.le_iff_toNat_le] at h
    exact h.2
  rw [isTypeLetter, decide_eq_false_iff_not]
  rintro ⟨hle, -⟩
  have hlow : 97 ≤ c.toNat := hle
  omega

theorem endsFor_decimal (n : ℕ) : EndsFor isTypeLetter (decimal n) := by
  intro c hc
  exact isTypeLetter_of_isDigit (isDigit_of_mem_decimal (List.mem_of_mem_head? hc))

theorem toList_devname_child (kind : Kind) (c : ChildId) : (kind.comp c).devname.toList
    = kind.str.toList ++ decimal c.dev.id ++ '.' :: decimal c.num := by
  cases kind <;> exact String.toList_ofList

theorem mem_devname_child {kind : Kind} {c : ChildId} {x : Char}
    (h : x ∈ (kind.comp c).devname.toList) :
    x ∈ kind.str.toList ∨ x = '.' ∨ x.isDigit = true := by
  rw [toList_devname_child, List.mem_append, List.mem_append, List.mem_cons] at h
  rcases h with (hkind | hdev) | hdot | hnum
  · exact Or.inl hkind
  · exact Or.inr (Or.inr (isDigit_of_mem_decimal hdev))
  · exact Or.inr (Or.inl hdot)
  · exact Or.inr (Or.inr (isDigit_of_mem_decimal hnum))

theorem devname_child_word (kind : Kind) (c : ChildId) : (kind.comp c).devname.toList ≠ [] ∧
    ∀ x ∈ (kind.comp c).devname.toList, isBlank x = false := by
  constructor
  · rw [toList_devname_child]
    exact List.append_ne_nil_of_right_ne_nil _ (List.cons_ne_nil '.' _)
  · intro x hx
    rcases mem_devname_child hx with hkind | rfl | hdigit
    · have hall : ∀ x ∈ kind.str.toList, isBlank x = false := by
        cases kind <;> simp [Kind.str, isBlank]
      exact hall x hkind
    · decide
    · exact isBlank_of_isDigit hdigit

theorem devname_device_word (d : DevId) :
    (Comp.device d).devname.toList ≠ [] ∧ '/' ∉ (Comp.device d).devname.toList := by
  rw [Comp.devname, String.toList_ofList]
  constructor
  · refine List.append_ne_nil_of_left_ne_nil ?_ _
    cases d.type <;> decide
  · intro h
    rcases List.mem_append.mp h with htype | hid
    · have hno : '/' ∉ d.type.str.toList := by cases d.type <;> decide
      exact hno htype
    · exact absurd (isDigit_of_mem_decimal hid) (by decide)

/-! ### Devices -/

/-- The name of a device has its type, and a number. -/
theorem scanDeviceTypeId_devname (d : DevId) :
    scanDeviceTypeId (Comp.device d).devname = some d.type.str := by
  have hset : scanset isTypeLetter (Comp.device d).devname.toList
      = some (d.type.str.toList, decimal d.id) := by
    rw [Comp.devname, String.toList_ofList]
    refine scanset_eq_some_iff.mpr ⟨rfl, ?_, ?_, endsFor_decimal d.id⟩
    · cases d.type <;> decide
    · cases d.type <;> simp [DeviceType.str, isTypeLetter]
  have hnum : (scanD (decimal d.id)).isSome := by
    have hscan := scanInt_decimal d.id stops_nil
    rw [List.append_nil] at hscan
    rw [scanD, hscan]
    rfl
  rw [scanDeviceTypeId_eq, hset]
  simp only [hnum, if_true, String.ofList_toList]

theorem accfgDeviceTypeValidate_str (type : DeviceType) :
    accfgDeviceTypeValidate type.str = true := by
  cases type <;> decide

/-- The name that a device was found by is its own. -/
theorem deviceGetByName_eq_some_iff (hctx : (ctx.map (·.id)).Nodup) {node : DeviceNode} :
    accfgCtxDeviceGetByName ctx name = some node ↔
      node ∈ ctx ∧ name = (Comp.device node.id).devname := by
  constructor
  · intro h
    obtain ⟨hmem, hname⟩ := deviceGetByName_eq_some h
    exact ⟨hmem, hname.symm⟩
  · rintro ⟨hmem, rfl⟩
    cases hget : accfgCtxDeviceGetByName ctx (Comp.device node.id).devname with
    | none =>
      have hnone := List.find?_eq_none.mp hget node hmem
      simp at hnone
    | some node' =>
      obtain ⟨hmem', hname⟩ := deviceGetByName_eq_some hget
      rw [List.inj_on_of_nodup_map hctx hmem' hmem (devname_device_injective hname)]

theorem parseDeviceName_eq_ok_iff (hctx : (ctx.map (·.id)).Nodup) {node : DeviceNode} :
    parseDeviceName ctx name = .ok node ↔ node ∈ ctx ∧ name = (Comp.device node.id).devname := by
  rw [← deviceGetByName_eq_some_iff hctx, parseDeviceName]
  constructor
  · intro h
    split at h
    · cases h
    split at h
    · cases h
    -- the type is checked, but the device is looked up by the whole name
    next hget =>
    rw [hget, Except.ok.inj h]
  · intro hget
    obtain ⟨-, hname⟩ := deviceGetByName_eq_some hget
    have hscan : (scanDeviceTypeId name).filter accfgDeviceTypeValidate
        = some node.id.type.str := by
      rw [← hname, scanDeviceTypeId_devname, Option.filter_some,
        if_pos (accfgDeviceTypeValidate_str _)]
    rw [hscan, hget]

/-! ### Children -/

/-- The name that a child goes by: `<device>/<child>`. -/
def childPath (kind : Kind) (c : ChildId) : String :=
  (Comp.device c.dev).devname ++ "/" ++ (kind.comp c).devname

/-- The child is there. -/
def IsChild (ctx : List DeviceNode) (kind : Kind) (c : ChildId) : Prop :=
  ∃ node ∈ ctx, node.id = c.dev ∧ c.num ∈ node.nums kind

/-- The name is that of the child, with blanks in front of the last part, and
with nothing or a blank behind it. -/
def NamedWithin (name : String) (kind : Kind) (c : ChildId) (pad rest : List Char) : Prop :=
  name.toList = (Comp.device c.dev).devname.toList ++
      '/' :: (pad ++ (kind.comp c).devname.toList ++ rest) ∧
    (∀ x ∈ pad, isBlank x = true) ∧ EndsFor (fun x => !isBlank x) rest

/-- The name would be that of a child but for blanks, and what follows one. -/
def Padded (ctx : List DeviceNode) (name : String) : Prop :=
  ∃ kind c pad rest, IsChild ctx kind c ∧ NamedWithin name kind c pad rest ∧
    (pad ≠ [] ∨ rest ≠ [])

theorem childPath_eq_iff {kind : Kind} {c : ChildId} :
    name = childPath kind c ↔ NamedWithin name kind c [] [] := by
  have hpath : (childPath kind c).toList
      = (Comp.device c.dev).devname.toList ++ '/' :: (kind.comp c).devname.toList := by
    rw [childPath, String.toList_append, String.toList_append, List.append_assoc]
    rfl
  constructor
  · rintro rfl
    refine ⟨?_, by simp, by simp [EndsFor]⟩
    rw [hpath, List.nil_append, List.append_nil]
  · rintro ⟨hname, -, -⟩
    rw [List.nil_append, List.append_nil, ← hpath] at hname
    exact String.toList_inj.mp hname

/-- Children of one device have different names. -/
theorem devname_child_injective {kind : Kind} {d : DevId} {n n' : ℕ}
    (h : (kind.comp ⟨d, n⟩).devname = (kind.comp ⟨d, n'⟩).devname) : n = n' := by
  have hname : (⟨d, n⟩ : ChildId).name kind.str = (⟨d, n'⟩ : ChildId).name kind.str := by
    cases kind <;> exact h
  exact (name_injective hname).2

theorem find?_child_eq_some_iff {kind : Kind} {node : DeviceNode} {child : String} {n : ℕ} :
    ((node.nums kind).find? fun n => (kind.comp ⟨node.id, n⟩).devname = child) = some n ↔
      n ∈ node.nums kind ∧ (kind.comp ⟨node.id, n⟩).devname = child := by
  constructor
  · intro h
    exact ⟨List.mem_of_find?_eq_some h, by simpa using List.find?_some h⟩
  · rintro ⟨hmem, rfl⟩
    cases hfind : (node.nums kind).find? fun n' =>
        (kind.comp ⟨node.id, n'⟩).devname = (kind.comp ⟨node.id, n⟩).devname with
    | none =>
      have hnone := List.find?_eq_none.mp hfind n hmem
      simp at hnone
    | some n' =>
      have hname : (kind.comp ⟨node.id, n'⟩).devname = (kind.comp ⟨node.id, n⟩).devname := by
        simpa using List.find?_some hfind
      rw [devname_child_injective hname]

/-- A child is found by its name, padded or not. -/
theorem parseChildName_eq_ok_iff (hctx : (ctx.map (·.id)).Nodup) {kind : Kind} {c : ChildId} :
    parseChildName kind ctx name = .ok (c.dev, c.num) ↔
      IsChild ctx kind c ∧ ∃ pad rest, NamedWithin name kind c pad rest := by
  constructor
  · intro h
    rw [parseChildName] at h
    split at h
    · cases h
    next devName childName hscan =>
    split at h
    · cases h
    next node hdev =>
    split at h
    · cases h
    next n hfind =>
    -- scanned, the device found, and the child found among its own
    obtain ⟨hid, hnum⟩ := Prod.mk.inj (Except.ok.inj h)
    obtain ⟨hmem, rfl⟩ := (parseDeviceName_eq_ok_iff hctx).mp hdev
    obtain ⟨hn, rfl⟩ := find?_child_eq_some_iff.mp hfind
    obtain ⟨-, -, pad, rest, hname, hpad, hends⟩ := scanParentChildNames_eq_some_iff.mp hscan
    have hc : c = ⟨node.id, n⟩ := by
      cases c
      exact (ChildId.mk.injEq ..).mpr ⟨hid.symm, hnum.symm⟩
    rw [hc]
    exact ⟨⟨node, hmem, rfl, hn⟩, pad, rest, hname, hpad, hends⟩
  · rintro ⟨⟨node, hmem, hid, hn⟩, pad, rest, hname, hpad, hends⟩
    have hscan : scanParentChildNames name
        = some ((Comp.device c.dev).devname, (kind.comp c).devname) :=
      scanParentChildNames_eq_some_iff.mpr
        ⟨devname_device_word c.dev, devname_child_word kind c, pad, rest, hname, hpad, hends⟩
    have hdev : parseDeviceName ctx (Comp.device c.dev).devname = .ok node :=
      (parseDeviceName_eq_ok_iff hctx).mpr ⟨hmem, by rw [hid]⟩
    have hfind : ((node.nums kind).find? fun n =>
        (kind.comp ⟨node.id, n⟩).devname = (kind.comp c).devname) = some c.num :=
      find?_child_eq_some_iff.mpr ⟨hn, by rw [hid]⟩
    rw [parseChildName, hscan]
    simp only [hdev]
    rw [hfind, hid]

/-! ### Names taken as they are -/

/-- A string is taken for a name if and only if it is the name of something
that is there, which is what is found. -/
structure TakesName (ctx : List DeviceNode) (name : String) : Prop where
  device : ∀ node, parseDeviceName ctx name = .ok node ↔
    node ∈ ctx ∧ name = (Comp.device node.id).devname
  child : ∀ kind c, parseChildName kind ctx name = .ok (c.dev, c.num) ↔
    IsChild ctx kind c ∧ name = childPath kind c

/-- Two ways to find one child's name in a string are the same way. -/
theorem NamedWithin.unique {kind : Kind} {c : ChildId} {pad rest pad' rest' : List Char}
    (h : NamedWithin name kind c pad rest) (h' : NamedWithin name kind c pad' rest') :
    pad = pad' ∧ rest = rest' := by
  obtain ⟨hname, hpad, hends⟩ := h
  obtain ⟨hname', hpad', hends'⟩ := h'
  obtain ⟨hne, hword⟩ := devname_child_word kind c
  have hsame : pad ++ (kind.comp c).devname.toList ++ rest
      = pad' ++ (kind.comp c).devname.toList ++ rest' := by
    rw [hname, List.append_cancel_left_eq] at hname'
    exact (List.cons.inj hname').2
  -- what is scanned determines the blanks, and what is left
  have hscan : scanWord (pad ++ (kind.comp c).devname.toList ++ rest)
      = some ((kind.comp c).devname.toList, rest) :=
    scanWord_eq_some_iff.mpr ⟨pad, rfl, hpad, hne, hword, hends⟩
  have hscan' : scanWord (pad' ++ (kind.comp c).devname.toList ++ rest')
      = some ((kind.comp c).devname.toList, rest') :=
    scanWord_eq_some_iff.mpr ⟨pad', rfl, hpad', hne, hword, hends'⟩
  rw [hsame, hscan'] at hscan
  have hrest : rest' = rest := (Prod.mk.inj (Option.some.inj hscan)).2
  rw [hrest, List.append_assoc, List.append_assoc, List.append_cancel_right_eq] at hsame
  exact ⟨hsame, hrest.symm⟩

/-- A name is taken as it should be unless it is padded. -/
theorem takesName_iff (hctx : (ctx.map (·.id)).Nodup) (name : String) :
    TakesName ctx name ↔ ¬Padded ctx name := by
  constructor
  · rintro htakes ⟨kind, c, pad, rest, hchild, hwithin, hne⟩
    -- the parser finds the child, so the name would be its path
    have hok : parseChildName kind ctx name = .ok (c.dev, c.num) :=
      (parseChildName_eq_ok_iff hctx).mpr ⟨hchild, pad, rest, hwithin⟩
    obtain ⟨-, hpath⟩ := (htakes.child kind c).mp hok
    obtain ⟨hpad, hrest⟩ := hwithin.unique (childPath_eq_iff.mp hpath)
    exact hne.elim (fun h => h hpad) fun h => h hrest
  · intro hpadded
    refine ⟨fun node => parseDeviceName_eq_ok_iff hctx, fun kind c => ?_⟩
    rw [parseChildName_eq_ok_iff hctx]
    refine and_congr_right fun hchild => ?_
    constructor
    · rintro ⟨pad, rest, hwithin⟩
      by_cases hne : pad ≠ [] ∨ rest ≠ []
      · exact absurd ⟨kind, c, pad, rest, hchild, hwithin, hne⟩ hpadded
      · obtain ⟨hpad, hrest⟩ := not_or.mp hne
        rw [not_not.mp hpad, not_not.mp hrest] at hwithin
        exact childPath_eq_iff.mpr hwithin
    · intro hpath
      exact ⟨[], [], childPath_eq_iff.mp hpath⟩

/-- A device with one work queue. -/
def dsa0 : DeviceNode := ⟨⟨.dsa, 0⟩, "dsa", [], [0], []⟩

/-- Another one. -/
def dsa1 : DeviceNode := ⟨⟨.dsa, 1⟩, "dsa", [], [0], []⟩

theorem takesName_iff_dsa1 :
    TakesName [dsa0, dsa1] "dsa1/wq1.0" ↔ ¬Padded [dsa0, dsa1] "dsa1/wq1.0" :=
  takesName_iff (by decide) _

theorem not_takesName_trailing : ¬TakesName [dsa0] "dsa0/wq0.0 wq0.1" := by
  intro h
  have hok : parseChildName .wq [dsa0] "dsa0/wq0.0 wq0.1" = .ok (dsa0.id, 0) := by decide
  have hpath := ((h.child .wq ⟨dsa0.id, 0⟩).mp hok).2
  exact absurd hpath (by decide)

end Accfg
