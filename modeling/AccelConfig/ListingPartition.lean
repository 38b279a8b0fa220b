/-
Where the listing puts what it shows.

A component belongs to a group by the id of the group that it has cached, and
the listing looks this id up in the slots of the container.  A slot that no group
was given has the id 0, so it takes in the components of group 0, too.

* `slot_of_visited`, `slot_cases`, `slot_unique` — which group a slot was given;
* `exists_free_iff` — whether there is a slot left over;
* `partitioned_iff` — each component is in its place, if and only if none of
  those with group id 0 meets a slot left over, and no active work queue of a
  visited group is without the file that tells that it is enabled.
-/
import AccelConfig.Listing
import AccelConfig.SetterTruth
import Mathlib.Data.Finset.Card
import Mathlib.Data.Finset.Range
import Mathlib.Data.Nat.ModEq

open CLoop

namespace Accfg

/-! ### The slots of a container -/

section Slots

variable {κ : Type} {w : World κ} {d : DevId} {start : ℕ} {nums : List ℕ}

/-- What groups do to a container. -/
theorem foldl_addGroup (M : ℕ) (l : List (ℕ × ℕ)) (jc : JsonContainer) :
    l.foldl (fun jc ni => jc.addGroup (ni.2 % M) ⟨d, ni.1⟩) jc =
      { jc with
        jgroups := l.foldl (fun a ni => arrayAdd a ⟨d, ni.1⟩) jc.jgroups
        jgroupId := l.foldl
          (fun ids ni => Function.update ids (ni.2 % M) (accfgGroupGetId ⟨d, ni.1⟩)) jc.jgroupId
        jgroupAssigned := l.foldl
          (fun given ni => Function.update given (ni.2 % M) (some ⟨d, ni.1⟩))
          jc.jgroupAssigned } := by
  induction l generalizing jc with
  | nil => rfl
  | cons ni l ih => exact ih _

/-- The slot that a group is given, by its number in the walk. -/
def slotOf (w : World κ) (d : DevId) (ni : ℕ × ℕ) : ℕ := ni.2 % maxGroups w d

/-- Consecutive groups have different slots, as long as there are as many. -/
theorem slots_nodup (h : nums.length ≤ maxGroups w d) :
    ((nums.zipIdx start).map (slotOf w d)).Nodup := by
  have hsnd : (nums.zipIdx start).map (slotOf w d)
      = (List.range' start nums.length).map (· % maxGroups w d) := by
    rw [← List.zipIdx_map_snd, List.map_map]
    rfl
  rw [hsnd]
  refine List.Nodup.map_on ?_ List.nodup_range'
  have key : ∀ x y, x ≤ y → start ≤ x → y < start + nums.length →
      x % maxGroups w d = y % maxGroups w d → x = y := by
    intro x y hxy hx hy hmod
    have hdvd : maxGroups w d ∣ y - x := (Nat.modEq_iff_dvd' hxy).mp hmod
    have hzero := Nat.eq_zero_of_dvd_of_lt hdvd (by omega)
    omega
  intro x hx y hy hmod
  rw [List.mem_range'_1] at hx hy
  rcases Nat.le_total x y with hxy | hxy
  · exact key x y hxy hx.1 hy.2 hmod
  · exact (key y x hxy hy.1 hx.2 hmod.symm).symm

theorem withGroups_jgroupId : (withGroups w d start nums).jgroupId = (nums.zipIdx start).foldl
    (fun ids ni => Function.update ids (slotOf w d ni) (accfgGroupGetId ⟨d, ni.1⟩))
    fun _ => 0#32 := by
  rw [withGroups, foldl_addGroup]
  rfl

theorem withGroups_jgroupAssigned : (withGroups w d start nums).jgroupAssigned =
    (nums.zipIdx start).foldl
      (fun given ni => Function.update given (slotOf w d ni) (some ⟨d, ni.1⟩)) fun _ => none := by
  rw [withGroups, foldl_addGroup]
  rfl

/-- The slot of each group has the group and its id. -/
theorem slot_of_mem (h : nums.length ≤ maxGroups w d) {ni : ℕ × ℕ} (hni : ni ∈ nums.zipIdx start) :
    (withGroups w d start nums).jgroupAssigned (slotOf w d ni) = some ⟨d, ni.1⟩ ∧
      (withGroups w d start nums).jgroupId (slotOf w d ni) = accfgGroupGetId ⟨d, ni.1⟩ := by
  rw [withGroups_jgroupAssigned, withGroups_jgroupId]
  exact ⟨foldl_update_of_nodup _ (fun ni : ℕ × ℕ => some (⟨d, ni.1⟩ : ChildId)) (slots_nodup h)
      hni _,
    foldl_update_of_nodup _ (fun ni : ℕ × ℕ => accfgGroupGetId ⟨d, ni.1⟩) (slots_nodup h) hni _⟩

/-- A slot that is left over has no group, and the id 0. -/
theorem slot_of_forall_ne {i : ℕ} (h : ∀ ni ∈ nums.zipIdx start, slotOf w d ni ≠ i) :
    (withGroups w d start nums).jgroupAssigned i = none ∧
      (withGroups w d start nums).jgroupId i = 0#32 := by
  rw [withGroups_jgroupAssigned, withGroups_jgroupId]
  exact ⟨foldl_update_of_forall_ne _ (fun ni : ℕ × ℕ => some (⟨d, ni.1⟩ : ChildId)) h _,
    foldl_update_of_forall_ne _ (fun ni : ℕ × ℕ => accfgGroupGetId ⟨d, ni.1⟩) h _⟩

/-- A group that was called back for has a slot. -/
theorem slot_of_visited (start : ℕ) (h : nums.length ≤ maxGroups w d) {g : ℕ} (hg : g ∈ nums) :
    ∃ i < maxGroups w d, (withGroups w d start nums).jgroupAssigned i = some ⟨d, g⟩ ∧
      (withGroups w d start nums).jgroupId i = accfgGroupGetId ⟨d, g⟩ := by
  obtain ⟨ni, hni, rfl⟩ : ∃ ni ∈ nums.zipIdx start, ni.1 = g := by
    rw [← List.zipIdx_map_fst start nums] at hg
    exact List.mem_map.mp hg
  have hpos : 0 < maxGroups w d := (List.length_pos_of_mem hg).trans_le h
  exact ⟨slotOf w d ni, Nat.mod_lt _ hpos, slot_of_mem h hni⟩

/-- A slot has a group that was called back for, or is left over. -/
theorem slot_cases (start : ℕ) (h : nums.length ≤ maxGroups w d) (i : ℕ) :
    (∃ g ∈ nums, (withGroups w d start nums).jgroupAssigned i = some ⟨d, g⟩ ∧
      (withGroups w d start nums).jgroupId i = accfgGroupGetId ⟨d, g⟩) ∨
    ((withGroups w d start nums).jgroupAssigned i = none ∧
      (withGroups w d start nums).jgroupId i = 0#32) := by
  by_cases hi : ∃ ni ∈ nums.zipIdx start, slotOf w d ni = i
  · obtain ⟨ni, hni, rfl⟩ := hi
    exact .inl ⟨ni.1, List.fst_mem_of_mem_zipIdx hni, slot_of_mem h hni⟩
  · refine .inr (slot_of_forall_ne fun ni hni heq => hi ⟨ni, hni, heq⟩)

/-- No group has two slots. -/
theorem slot_unique (h : nums.length ≤ maxGroups w d) (hnodup : nums.Nodup) {i j g : ℕ}
    (hi : (withGroups w d start nums).jgroupAssigned i = some ⟨d, g⟩)
    (hj : (withGroups w d start nums).jgroupAssigned j = some ⟨d, g⟩) : i = j := by
  have key : ∀ i, (withGroups w d start nums).jgroupAssigned i = some ⟨d, g⟩ →
      ∃ ni ∈ nums.zipIdx start, slotOf w d ni = i ∧ ni.1 = g := by
    intro i hi
    by_cases hex : ∃ ni ∈ nums.zipIdx start, slotOf w d ni = i
    · obtain ⟨ni, hni, rfl⟩ := hex
      rw [(slot_of_mem h hni).1, Option.some.injEq, ChildId.mk.injEq] at hi
      exact ⟨ni, hni, rfl, hi.2⟩
    · rw [(slot_of_forall_ne fun ni hni heq => hex ⟨ni, hni, heq⟩).1] at hi
      exact absurd hi (Option.some_ne_none _).symm
  obtain ⟨ni, hni, rfl, hg⟩ := key i hi
  obtain ⟨ni', hni', rfl, hg'⟩ := key j hj
  have hfst : ((nums.zipIdx start).map Prod.fst).Nodup := by
    rw [List.zipIdx_map_fst]
    exact hnodup
  rw [List.inj_on_of_nodup_map hfst hni hni' (hg.trans hg'.symm)]

/-- A slot is left over if and only if there are fewer groups. -/
theorem exists_free_iff (start : ℕ) (h : nums.length ≤ maxGroups w d) :
    (∃ i < maxGroups w d, (withGroups w d start nums).jgroupAssigned i = none) ↔
      nums.length < maxGroups w d := by
  have hcard : ((nums.zipIdx start).map (slotOf w d)).toFinset.card = nums.length := by
    rw [List.toFinset_card_of_nodup (slots_nodup h), List.length_map, List.length_zipIdx]
  constructor
  -- the slots of the groups are all but that one, at most
  · rintro ⟨i, hi, hnone⟩
    have hsub : ((nums.zipIdx start).map (slotOf w d)).toFinset ⊆
        (Finset.range (maxGroups w d)).erase i := by
      intro j hj
      obtain ⟨ni, hni, rfl⟩ := List.mem_map.mp (List.mem_toFinset.mp hj)
      refine Finset.mem_erase.mpr ⟨?_, Finset.mem_range.mpr (Nat.mod_lt _ (by omega))⟩
      rintro rfl
      rw [(slot_of_mem h hni).1] at hnone
      exact Option.some_ne_none _ hnone
    have hle := Finset.card_le_card hsub
    rw [hcard, Finset.card_erase_of_mem (Finset.mem_range.mpr hi), Finset.card_range] at hle
    omega
  -- pigeonhole
  · intro hlt
    obtain ⟨i, hi, hnot⟩ := Finset.exists_mem_notMem_of_card_lt_card
      (s := ((nums.zipIdx start).map (slotOf w d)).toFinset) (t := Finset.range (maxGroups w d))
      (by rwa [hcard, Finset.card_range])
    refine ⟨i, Finset.mem_range.mp hi, (slot_of_forall_ne ?_).1⟩
    intro ni hni heq
    exact hnot (List.mem_toFinset.mpr (heq ▸ List.mem_map_of_mem hni))

end Slots

/-! ### What is in the arrays -/

/-- The array for a slot, or the one for the rest. -/
def Arrays.at (a : Arrays) : Option ℕ → List ChildId
  | some i => (a.group i).getD []
  | none => a.ungroup.getD []

section Placed

variable {jgroupId : ℕ → BitVec 32} {M : ℕ} {groupId : ChildId → BitVec 32} {rest : Bool}
  {cs : List ChildId} {c : ChildId}

theorem mem_placed_group {i : ℕ} : c ∈ (placed jgroupId M groupId rest cs).at (some i) ↔
    c ∈ cs ∧ i < M ∧ groupId c = jgroupId i := by
  rw [Arrays.at, placed, getD_arrayOf, List.mem_filter, decide_eq_true_eq]

theorem mem_placed_ungroup : c ∈ (placed jgroupId M groupId rest cs).at none ↔
    c ∈ cs ∧ rest ∧ ∀ i < M, groupId c ≠ jgroupId i := by
  rw [Arrays.at, placed, getD_arrayOf, List.mem_filter, decide_eq_true_eq]

theorem mem_of_mem_placed {slot : Option ℕ}
    (h : c ∈ (placed jgroupId M groupId rest cs).at slot) : c ∈ cs := by
  cases slot with
  | none => exact (mem_placed_ungroup.mp h).1
  | some i => exact (mem_placed_group.mp h).1

theorem nodup_placed (h : cs.Nodup) (slot : Option ℕ) :
    ((placed jgroupId M groupId rest cs).at slot).Nodup := by
  cases slot with
  | none =>
    rw [Arrays.at, placed, getD_arrayOf]
    exact h.filter _
  | some i =>
    rw [Arrays.at, placed, getD_arrayOf]
    exact h.filter _

end Placed

/-- The object was added once, to this array, and to no other of the container. -/
def Arrays.OnlyIn (a : Arrays) (slot : Option ℕ) (c : ChildId) : Prop :=
  (a.at slot).count c = 1 ∧ ∀ slot', slot' ≠ slot → c ∉ a.at slot'

/-- One component has its place among the slots: if its group was called back
for, in the array of this group alone, and else in the array of no group, and in
that for the rest if there is one. -/
structure InPlace (given : ℕ → Option ChildId) (a : Arrays) (groups : List ℕ)
    (groupId : BitVec 32) (rest : Bool) (c : ChildId) : Prop where
  grouped : ∀ g ∈ groups, accfgGroupGetId ⟨c.dev, g⟩ = groupId →
    ∃ i, given i = some ⟨c.dev, g⟩ ∧ a.OnlyIn (some i) c
  notGrouped : (∀ g ∈ groups, accfgGroupGetId ⟨c.dev, g⟩ ≠ groupId) →
    ∀ i, given i ≠ none → c ∉ a.at (some i)
  ungrouped : (∀ g ∈ groups, accfgGroupGetId ⟨c.dev, g⟩ ≠ groupId) → rest → a.OnlyIn none c

section InPlace

variable {κ : Type} {w : World κ} {start : ℕ} {groups : List ℕ} {groupId : ChildId → BitVec 32}
  {rest : Bool} {cs : List ChildId} {c : ChildId}

theorem onlyIn_placed {jgroupId : ℕ → BitVec 32} {M : ℕ} (hcs : cs.Nodup) {slot : Option ℕ}
    (hmem : c ∈ (placed jgroupId M groupId rest cs).at slot)
    (hother : ∀ slot', slot' ≠ slot → c ∉ (placed jgroupId M groupId rest cs).at slot') :
    (placed jgroupId M groupId rest cs).OnlyIn slot c :=
  ⟨List.count_eq_one_of_mem (nodup_placed hcs slot) hmem, hother⟩

/-- A slot that is left over holds id 0, and takes a component of this id too. -/
theorem spare_of_inPlace (hlen : groups.length ≤ maxGroups w c.dev) (hc : c ∈ cs)
    (h : InPlace (withGroups w c.dev start groups).jgroupAssigned
      (placed (withGroups w c.dev start groups).jgroupId (maxGroups w c.dev) groupId rest cs)
      groups (groupId c) rest c)
    (hlt : groups.length < maxGroups w c.dev) (hzero : groupId c = 0#32) :
    rest = false ∧ ∀ g ∈ groups, accfgGroupGetId ⟨c.dev, g⟩ ≠ 0#32 := by
  obtain ⟨i, hi, hfree⟩ := (exists_free_iff start hlen).mpr hlt
  have hmem : c ∈ (placed (withGroups w c.dev start groups).jgroupId (maxGroups w c.dev) groupId
      rest cs).at (some i) := by
    refine mem_placed_group.mpr ⟨hc, hi, ?_⟩
    rcases slot_cases start hlen i with ⟨g, -, hsome, -⟩ | ⟨-, hid⟩
    · rw [hfree] at hsome
      exact absurd hsome (Option.some_ne_none _).symm
    · rw [hzero, hid]
  have hnone : ∀ g ∈ groups, accfgGroupGetId ⟨c.dev, g⟩ ≠ 0#32 := by
    intro g hg hid
    obtain ⟨j, hj, -, honly⟩ := h.grouped g hg (hid.trans hzero.symm)
    have hij : some i ≠ some j := by
      intro heq
      rw [← Option.some.inj heq, hfree] at hj
      exact Option.some_ne_none _ hj.symm
    exact honly _ hij hmem
  refine ⟨Bool.eq_false_iff.mpr fun hrest => ?_, hnone⟩
  rw [hzero] at h
  exact (h.ungrouped hnone hrest).2 _ (Option.some_ne_none i) hmem

section Harmless

/-- The slots that are left over take no component that has a place elsewhere. -/
def Harmless (w : World κ) (start : ℕ) (groups : List ℕ) (groupId : ChildId → BitVec 32)
    (rest : Bool) (c : ChildId) : Prop :=
  ∀ i < maxGroups w c.dev, (withGroups w c.dev start groups).jgroupAssigned i = none →
    groupId c = (withGroups w c.dev start groups).jgroupId i →
      rest = false ∧ ∀ g ∈ groups, accfgGroupGetId ⟨c.dev, g⟩ ≠ groupId c

variable (hlen : groups.length ≤ maxGroups w c.dev)

include hlen

theorem harmless_of_spare
    (hgood : groups.length < maxGroups w c.dev → groupId c = 0#32 →
      rest = false ∧ ∀ g ∈ groups, accfgGroupGetId ⟨c.dev, g⟩ ≠ 0#32) :
    Harmless w start groups groupId rest c := by
  intro i hi hnone heq
  rcases slot_cases start hlen i with ⟨g, -, hsome, -⟩ | ⟨-, hid⟩
  · rw [hnone] at hsome
    exact absurd hsome (Option.some_ne_none _).symm
  · have hzero : groupId c = 0#32 := heq.trans hid
    rw [hzero]
    exact hgood ((exists_free_iff start hlen).mp ⟨i, hi, hnone⟩) hzero

variable (hharmless : Harmless w start groups groupId rest c) (hcs : cs.Nodup) (hc : c ∈ cs)

include hharmless hcs hc

/-- A component of a group that was called back for is in its slot, and in no other. -/
theorem onlyIn_slot (hids : (groups.map fun g => accfgGroupGetId ⟨c.dev, g⟩).Nodup) {g : ℕ}
    (hg : g ∈ groups) (hid : accfgGroupGetId ⟨c.dev, g⟩ = groupId c) :
    ∃ i, (withGroups w c.dev start groups).jgroupAssigned i = some ⟨c.dev, g⟩ ∧
      (placed (withGroups w c.dev start groups).jgroupId (maxGroups w c.dev) groupId rest
        cs).OnlyIn (some i) c := by
  obtain ⟨i, hi, hsome, hidi⟩ := slot_of_visited start hlen hg
  refine ⟨i, hsome, onlyIn_placed hcs
    (mem_placed_group.mpr ⟨hc, hi, hid.symm.trans hidi.symm⟩) ?_⟩
  rintro (_ | j) hne hmem
  · exact (mem_placed_ungroup.mp hmem).2.2 i hi (hid.symm.trans hidi.symm)
  · obtain ⟨-, hj, hidj⟩ := mem_placed_group.mp hmem
    rcases slot_cases start hlen j with ⟨g', hg', hsome', hid'⟩ | ⟨hnone, -⟩
    · have hgg : g' = g :=
        List.inj_on_of_nodup_map hids hg' hg ((hidj.trans hid').symm.trans hid.symm)
      rw [hgg] at hsome'
      exact hne (congrArg some (slot_unique hlen (List.Nodup.of_map _ hids) hsome' hsome))
    · exact (hharmless j hj hnone hidj).2 g hg hid

/-- If no group has its id, no slot takes it, so that the rest does. -/
theorem onlyIn_rest (hnot : ∀ g ∈ groups, accfgGroupGetId ⟨c.dev, g⟩ ≠ groupId c)
    (hrest : rest = true) :
    (placed (withGroups w c.dev start groups).jgroupId (maxGroups w c.dev) groupId rest
      cs).OnlyIn none c := by
  have hno : ∀ i < maxGroups w c.dev,
      groupId c ≠ (withGroups w c.dev start groups).jgroupId i := by
    intro i hi heq
    rcases slot_cases start hlen i with ⟨g, hg, -, hid⟩ | ⟨hnone, -⟩
    · exact hnot g hg (heq.trans hid).symm
    · rw [(hharmless i hi hnone heq).1] at hrest
      exact Bool.false_ne_true hrest
  refine onlyIn_placed hcs (mem_placed_ungroup.mpr ⟨hc, hrest, hno⟩) ?_
  rintro (_ | i) hne hmem
  · exact hne rfl
  · obtain ⟨-, hi, hid⟩ := mem_placed_group.mp hmem
    exact hno i hi hid

end Harmless

/-- A component that is shown is in its place, if and only if its group id is not
0, or no slot is left over, or the slots that are left over are no place that it
could have. -/
theorem inPlace_placed_iff (hlen : groups.length ≤ maxGroups w c.dev)
    (hids : (groups.map fun g => accfgGroupGetId ⟨c.dev, g⟩).Nodup) (hcs : cs.Nodup)
    (hc : c ∈ cs) :
    InPlace (withGroups w c.dev start groups).jgroupAssigned
      (placed (withGroups w c.dev start groups).jgroupId (maxGroups w c.dev) groupId rest cs)
      groups (groupId c) rest c ↔
    (groups.length < maxGroups w c.dev → groupId c = 0#32 →
      rest = false ∧ ∀ g ∈ groups, accfgGroupGetId ⟨c.dev, g⟩ ≠ 0#32) := by
  constructor
  · intro h hlt hzero
    exact spare_of_inPlace hlen hc h hlt hzero
  · intro hgood
    have hharmless : Harmless w start groups groupId rest c := harmless_of_spare hlen hgood
    constructor
    · intro g hg hid
      exact onlyIn_slot hlen hharmless hcs hc hids hg hid
    · intro hnot i hgiven hmem
      obtain ⟨-, -, hid⟩ := mem_placed_group.mp hmem
      rcases slot_cases start hlen i with ⟨g, hg, -, hid'⟩ | ⟨hnone, -⟩
      · exact hnot g hg (hid.trans hid').symm
      · exact hgiven hnone
    · intro hnot hrest
      exact onlyIn_rest hlen hharmless hcs hc hnot hrest

/-- A component that is not shown is in its place, if and only if its group was not
called back for. -/
theorem inPlace_of_not_mem_iff {given : ℕ → Option ChildId} {jgroupId : ℕ → BitVec 32} {M : ℕ}
    (hc : c ∉ cs) :
    InPlace given (placed jgroupId M groupId false cs) groups (groupId c) false c ↔
      ∀ g ∈ groups, accfgGroupGetId ⟨c.dev, g⟩ ≠ groupId c := by
  constructor
  · intro h g hg hid
    obtain ⟨i, -, hcount, -⟩ := h.grouped g hg hid
    have hmem := List.count_pos_iff.mp (Nat.lt_of_lt_of_eq Nat.zero_lt_one hcount.symm)
    exact hc (mem_of_mem_placed hmem)
  · intro h
    exact ⟨fun g hg hid => absurd hid (h g hg), fun _ _ _ hmem => hc (mem_of_mem_placed hmem),
      fun _ hrest => absurd hrest Bool.false_ne_true⟩

end InPlace

theorem foldl_addWq {κ : Type} {w : World κ} {idle : Bool} (d : DevId) (nums : List ℕ)
    (jc : JsonContainer) :
    nums.foldl (fun jc n => jc.addWq w idle ⟨d, n⟩) jc =
      { jc with
        wqs := (nums.map (ChildId.mk d)).foldl
          (fun a c => a.place jc.jgroupId (maxGroups w d) ((w.wq c).int .groupId) idle c)
          jc.wqs } := by
  induction nums generalizing jc with
  | nil => rfl
  | cons n nums ih => exact ih _

theorem foldl_addEngine {κ : Type} {w : World κ} (d : DevId) (nums : List ℕ)
    (jc : JsonContainer) :
    nums.foldl (fun jc n => jc.addEngine w ⟨d, n⟩) jc =
      { jc with
        engines := (nums.map (ChildId.mk d)).foldl
          (fun a c => a.place jc.jgroupId (maxGroups w d) (w.engine c).groupId true c)
          jc.engines } := by
  induction nums generalizing jc with
  | nil => rfl
  | cons n nums ih => exact ih _

section Container

variable {κ : Type} {w : World κ} {m : Machine} {idle : Bool} {sel : Selection} {start : ℕ}
  {node : DeviceNode}

/-- The work queues of a device that are shown. -/
def shownWqs (m : Machine) (idle : Bool) (sel : Selection) (node : DeviceNode) : List ChildId :=
  ((visited sel.wq node.wqs).filter fun n => Shown m idle ⟨node.id, n⟩).map (ChildId.mk node.id)

/-- The engines of a device that are called back for. -/
def visitedEngines (sel : Selection) (node : DeviceNode) : List ChildId :=
  (visited sel.engine node.engines).map (ChildId.mk node.id)

/-- The container of a device: its groups, and the components among their slots. -/
theorem containerOf_eq : containerOf w m idle sel start node =
    let jc := withGroups w node.id start (visited sel.group node.groups)
    { jc with
      wqs := placed jc.jgroupId (maxGroups w node.id) (fun c => (w.wq c).int .groupId) idle
        (shownWqs m idle sel node)
      engines := placed jc.jgroupId (maxGroups w node.id) (fun c => (w.engine c).groupId) true
        (visitedEngines sel node) } := by
  have hwqs : (withGroups w node.id start (visited sel.group node.groups)).wqs
      = ⟨fun _ => none, none⟩ := by
    rw [withGroups, foldl_addGroup]
    rfl
  have hengines : (withGroups w node.id start (visited sel.group node.groups)).engines
      = ⟨fun _ => none, none⟩ := by
    rw [withGroups, foldl_addGroup]
    rfl
  simp only [containerOf, foldl_addWq, foldl_addEngine, hwqs, hengines]
  rw [foldl_place _ _ (fun c => (w.wq c).int .groupId),
    foldl_place _ _ fun c => (w.engine c).groupId]
  rfl

theorem containerOf_device : (containerOf w m idle sel start node).device = node.id := by
  rw [containerOf_eq, withGroups, foldl_addGroup]
  rfl

/-- The devices that have containers, in the order of the walk. -/
theorem containers_device (k : ℕ) (ctx : List DeviceNode) :
    (containers w m idle sel k ctx).map (·.device)
      = (ctx.filter fun node => Listed m idle sel node).map (·.id) := by
  induction ctx generalizing k with
  | nil => rfl
  | cons node ctx ih =>
    rw [containers, List.filter_cons]
    by_cases h : Listed m idle sel node
    · rw [if_pos h, if_pos (decide_eq_true h), List.map_cons, List.map_cons, ih,
        containerOf_device]
    · rw [if_neg h, if_neg (by simpa using h), ih]

theorem mem_containers_of_listed {ctx : List DeviceNode} (k : ℕ) (hnode : node ∈ ctx)
    (h : Listed m idle sel node) :
    ∃ start, containerOf w m idle sel start node ∈ containers w m idle sel k ctx := by
  induction ctx generalizing k with
  | nil => exact absurd hnode List.not_mem_nil
  | cons node' ctx ih =>
    rw [containers]
    rcases List.mem_cons.mp hnode with rfl | hmem
    · rw [if_pos h]
      exact ⟨k, List.mem_cons_self⟩
    · split
      · obtain ⟨start, hstart⟩ := ih _ hmem
        exact ⟨start, List.mem_cons_of_mem _ hstart⟩
      · exact ih _ hmem

theorem exists_of_mem_containers {ctx : List DeviceNode} {k : ℕ} {jc : JsonContainer}
    (h : jc ∈ containers w m idle sel k ctx) :
    ∃ node ∈ ctx, ∃ start, jc = containerOf w m idle sel start node := by
  induction ctx generalizing k with
  | nil => exact absurd h List.not_mem_nil
  | cons node ctx ih =>
    rw [containers] at h
    split at h
    · rcases List.mem_cons.mp h with rfl | hmem
      · exact ⟨node, List.mem_cons_self, k, rfl⟩
      · obtain ⟨node', hnode', hjc⟩ := ih hmem
        exact ⟨node', List.mem_cons_of_mem _ hnode', hjc⟩
    · obtain ⟨node', hnode', hjc⟩ := ih h
      exact ⟨node', List.mem_cons_of_mem _ hnode', hjc⟩

/-- Containers of one device are the same. -/
theorem Distinct.container_unique {ctx : List DeviceNode} (hctx : Distinct ctx) {k : ℕ}
    {jc jc' : JsonContainer} (h : jc ∈ containers w m idle sel k ctx)
    (h' : jc' ∈ containers w m idle sel k ctx) (hdev : jc.device = jc'.device) : jc = jc' := by
  have hnodup : ((containers w m idle sel k ctx).map (·.device)).Nodup := by
    rw [containers_device]
    exact hctx.nodup.sublist (List.filter_sublist.map _)
  exact List.inj_on_of_nodup_map hnodup h h' hdev

end Container

/-! ### The partition -/

section Partition

variable {κ : Type} (w : World κ) (m : Machine) (idle : Bool) (sel : Selection)

/-- One component has its place in the container of its device, and none in the
others. -/
def Placed (l : List JsonContainer) (arrays : JsonContainer → Arrays) (groups : List ℕ)
    (groupId : BitVec 32) (rest : Bool) (c : ChildId) : Prop :=
  ∃ jc ∈ l, jc.device = c.dev ∧ InPlace jc.jgroupAssigned (arrays jc) groups groupId rest c ∧
    ∀ jc' ∈ l, jc' ≠ jc → ∀ slot, c ∉ (arrays jc').at slot

/-- Each component that is called back for has its place: the engines, and the
work queues that are enabled or locked, or all of them when idle ones are asked
for. -/
def Partitioned (ctx : List DeviceNode) (l : List JsonContainer) : Prop :=
  ∀ node ∈ ctx, Listed m idle sel node →
    (∀ n ∈ visited sel.engine node.engines,
      Placed l (·.engines) (visited sel.group node.groups) (w.engine ⟨node.id, n⟩).groupId true
        ⟨node.id, n⟩) ∧
    ∀ n ∈ visited sel.wq node.wqs, idle ∨ (m.wqState ⟨node.id, n⟩).active →
      Placed l (·.wqs) (visited sel.group node.groups) ((w.wq ⟨node.id, n⟩).int .groupId) idle
        ⟨node.id, n⟩

/-- A slot is left over. -/
def Spare (node : DeviceNode) : Prop :=
  (visited sel.group node.groups).length < maxGroups w node.id

/-- No component of the device meets a slot that is left over, and no work queue
is passed over. -/
structure NoneAstray (node : DeviceNode) : Prop where
  engine : Spare w sel node → ∀ n ∈ visited sel.engine node.engines,
    (w.engine ⟨node.id, n⟩).groupId ≠ 0#32
  wq : Spare w sel node → ∀ n ∈ visited sel.wq node.wqs, Shown m idle ⟨node.id, n⟩ →
    (w.wq ⟨node.id, n⟩).int .groupId = 0#32 →
    idle = false ∧ ∀ g ∈ visited sel.group node.groups, accfgGroupGetId ⟨node.id, g⟩ ≠ 0#32
  mode : ∀ n ∈ visited sel.wq node.wqs, (m.wqState ⟨node.id, n⟩).active →
    ¬Shown m idle ⟨node.id, n⟩ → ∀ g ∈ visited sel.group node.groups,
      accfgGroupGetId ⟨node.id, g⟩ ≠ (w.wq ⟨node.id, n⟩).int .groupId

/-- Devices with no more groups than they may have, each with another id. -/
structure Populated (ctx : List DeviceNode) : Prop extends Distinct ctx where
  groups_le : ∀ node ∈ ctx, node.groups.length ≤ maxGroups w node.id
  ids : ∀ node ∈ ctx, (node.groups.map fun g => accfgGroupGetId ⟨node.id, g⟩).Nodup

end Partition

section Main

variable {κ : Type} {w : World κ} {m : Machine} {idle : Bool} {sel : Selection}
  {ctx : List DeviceNode} {node : DeviceNode}

theorem visited_sublist (chosen : Option ℕ) (nums : List ℕ) : (visited chosen nums).Sublist nums :=
  List.filter_sublist

theorem Populated.jdevList (hctx : Populated w ctx) {param : UtilFilterParams}
    (hsel : select ctx param = .ok sel) :
    (utilFilterWalk w m idle ctx param .start).2.jdevList
      = (containers w m idle sel 0 ctx).reverse := by
  have h : (visitDevices w m idle sel ctx (sel.dev.isNone, .start)).2.jdevList
      = (containers w m idle sel 0 ctx).reverse ++ [] :=
    jdevList_visitDevices hctx.toDistinct _ fun _ _ _ hjc => absurd hjc List.not_mem_nil
  rw [utilFilterWalk, hsel]
  exact h.trans (List.append_nil _)

/-- What is in an array of a container is of its device. -/
def OwnOnly (arrays : JsonContainer → Arrays) (l : List JsonContainer) : Prop :=
  ∀ jc ∈ l, ∀ slot, ∀ c ∈ (arrays jc).at slot, c.dev = jc.device

theorem ownOnly_wqs (k : ℕ) : OwnOnly (·.wqs) (containers w m idle sel k ctx) := by
  intro jc hjc slot c hc
  obtain ⟨node, -, start, rfl⟩ := exists_of_mem_containers hjc
  rw [containerOf_eq] at hc
  obtain ⟨n, -, rfl⟩ := List.mem_map.mp (mem_of_mem_placed hc)
  exact containerOf_device.symm

theorem ownOnly_engines (k : ℕ) : OwnOnly (·.engines) (containers w m idle sel k ctx) := by
  intro jc hjc slot c hc
  obtain ⟨node, -, start, rfl⟩ := exists_of_mem_containers hjc
  rw [containerOf_eq] at hc
  obtain ⟨n, -, rfl⟩ := List.mem_map.mp (mem_of_mem_placed hc)
  exact containerOf_device.symm

/-- A component has its place as soon as it has it in the container of its device. -/
theorem Distinct.placed_iff (hctx : Distinct ctx) {k : ℕ} {jc : JsonContainer} {c : ChildId}
    (hjc : jc ∈ containers w m idle sel k ctx) (hdev : jc.device = c.dev)
    {arrays : JsonContainer → Arrays} (hown : OwnOnly arrays (containers w m idle sel k ctx))
    {groups : List ℕ} {groupId : BitVec 32} {rest : Bool} :
    Placed (containers w m idle sel k ctx).reverse arrays groups groupId rest c ↔
      InPlace jc.jgroupAssigned (arrays jc) groups groupId rest c := by
  constructor
  · rintro ⟨jc', hjc', hdev', hplace, -⟩
    rw [hctx.container_unique hjc (List.mem_reverse.mp hjc') (hdev.trans hdev'.symm)]
    exact hplace
  · intro h
    refine ⟨jc, List.mem_reverse.mpr hjc, hdev, h, ?_⟩
    intro jc' hjc' hne slot hmem
    have hdev' := hown jc' (List.mem_reverse.mp hjc') slot c hmem
    exact hne (hctx.container_unique (List.mem_reverse.mp hjc') hjc (hdev'.symm.trans hdev.symm))

theorem nodup_map_mk {d : DevId} {nums : List ℕ} (h : nums.Nodup) :
    (nums.map (ChildId.mk d)).Nodup :=
  h.map fun _ _ heq => (ChildId.mk.inj heq).2

section Node

variable (hctx : Populated w ctx) (hnode : node ∈ ctx)

include hctx hnode

theorem Populated.visited_le : (visited sel.group node.groups).length ≤ maxGroups w node.id :=
  (visited_sublist _ _).length_le.trans (hctx.groups_le node hnode)

theorem Populated.visited_ids :
    ((visited sel.group node.groups).map fun g => accfgGroupGetId ⟨node.id, g⟩).Nodup :=
  (hctx.ids node hnode).sublist ((visited_sublist _ _).map _)

theorem Populated.engines_nodup : (visitedEngines sel node).Nodup :=
  nodup_map_mk ((hctx.children node hnode .engine).sublist (visited_sublist sel.engine _))

theorem Populated.wqs_nodup : (shownWqs m idle sel node).Nodup :=
  nodup_map_mk ((hctx.children node hnode .wq).sublist
    (List.filter_sublist.trans (visited_sublist sel.wq _)))

variable (hlisted : Listed m idle sel node) {n : ℕ}

include hlisted

theorem Populated.engine_iff (hn : n ∈ visited sel.engine node.engines) :
    Placed (containers w m idle sel 0 ctx).reverse (·.engines) (visited sel.group node.groups)
      (w.engine ⟨node.id, n⟩).groupId true ⟨node.id, n⟩ ↔
    (Spare w sel node → (w.engine ⟨node.id, n⟩).groupId ≠ 0#32) := by
  obtain ⟨start, hjc⟩ := mem_containers_of_listed (w := w) 0 hnode hlisted
  have hmem : (⟨node.id, n⟩ : ChildId) ∈ visitedEngines sel node := List.mem_map_of_mem hn
  rw [hctx.placed_iff hjc containerOf_device (ownOnly_engines 0), containerOf_eq]
  refine (inPlace_placed_iff (hctx.visited_le hnode) (hctx.visited_ids hnode)
    (hctx.engines_nodup hnode) hmem).trans (forall_congr' fun _ => ?_)
  constructor
  · intro h hzero
    exact Bool.false_ne_true (h hzero).1.symm
  · intro h hzero
    exact absurd hzero h

theorem Populated.wq_iff (hn : n ∈ visited sel.wq node.wqs) (hshown : Shown m idle ⟨node.id, n⟩) :
    Placed (containers w m idle sel 0 ctx).reverse (·.wqs) (visited sel.group node.groups)
      ((w.wq ⟨node.id, n⟩).int .groupId) idle ⟨node.id, n⟩ ↔
    (Spare w sel node → (w.wq ⟨node.id, n⟩).int .groupId = 0#32 →
      idle = false ∧ ∀ g ∈ visited sel.group node.groups, accfgGroupGetId ⟨node.id, g⟩ ≠ 0#32) := by
  obtain ⟨start, hjc⟩ := mem_containers_of_listed (w := w) 0 hnode hlisted
  have hmem : (⟨node.id, n⟩ : ChildId) ∈ shownWqs m idle sel node :=
    List.mem_map_of_mem (List.mem_filter.mpr ⟨hn, decide_eq_true hshown⟩)
  rw [hctx.placed_iff hjc containerOf_device (ownOnly_wqs 0), containerOf_eq]
  exact inPlace_placed_iff (hctx.visited_le hnode) (hctx.visited_ids hnode)
    (hctx.wqs_nodup hnode) hmem

theorem Populated.wq_iff_of_not_shown (hshown : ¬Shown m idle ⟨node.id, n⟩) :
    Placed (containers w m idle sel 0 ctx).reverse (·.wqs) (visited sel.group node.groups)
      ((w.wq ⟨node.id, n⟩).int .groupId) idle ⟨node.id, n⟩ ↔
    ∀ g ∈ visited sel.group node.groups,
      accfgGroupGetId ⟨node.id, g⟩ ≠ (w.wq ⟨node.id, n⟩).int .groupId := by
  obtain ⟨start, hjc⟩ := mem_containers_of_listed (w := w) 0 hnode hlisted
  have hidle : idle = false := Bool.eq_false_iff.mpr fun h => hshown (.inl h)
  have hmem : (⟨node.id, n⟩ : ChildId) ∉ shownWqs m idle sel node := by
    intro h
    obtain ⟨n', hn', heq⟩ := List.mem_map.mp h
    rw [(ChildId.mk.inj heq).2] at hn'
    exact hshown (of_decide_eq_true (List.mem_filter.mp hn').2)
  subst hidle
  rw [hctx.placed_iff hjc containerOf_device (ownOnly_wqs 0), containerOf_eq]
  exact inPlace_of_not_mem_iff hmem

end Node

/-- The listing is a partition, if and only if nothing that it shows is astray. -/
theorem partitioned_iff (hctx : Populated w ctx) {param : UtilFilterParams}
    (hsel : select ctx param = .ok sel) :
    Partitioned w m idle sel ctx (utilFilterWalk w m idle ctx param .start).2.jdevList ↔
      ∀ node ∈ ctx, Listed m idle sel node → NoneAstray w m idle sel node := by
  rw [hctx.jdevList hsel, Partitioned]
  refine forall₃_congr fun node hnode hlisted => ?_
  constructor
  · rintro ⟨hengines, hwqs⟩
    constructor
    · intro hspare n hn
      exact (hctx.engine_iff hnode hlisted hn).mp (hengines n hn) hspare
    · intro hspare n hn hshown
      have hactive : idle ∨ (m.wqState ⟨node.id, n⟩).active := hshown.imp id And.right
      exact (hctx.wq_iff hnode hlisted hn hshown).mp (hwqs n hn hactive) hspare
    · intro n hn hactive hshown
      exact (hctx.wq_iff_of_not_shown hnode hlisted hshown).mp (hwqs n hn (.inr hactive))
  · intro h
    constructor
    · intro n hn
      exact (hctx.engine_iff hnode hlisted hn).mpr fun hspare => h.engine hspare n hn
    · intro n hn hactive
      -- work queues that are active may still be hidden by their mode
      by_cases hshown : Shown m idle ⟨node.id, n⟩
      · exact (hctx.wq_iff hnode hlisted hn hshown).mpr fun hspare => h.wq hspare n hn hshown
      · have hstate : (m.wqState ⟨node.id, n⟩).active := hactive.resolve_left fun hidle =>
          hshown (.inl hidle)
        exact (hctx.wq_iff_of_not_shown hnode hlisted hshown).mpr (h.mode n hn hstate hshown)

/-! ### A listing of one group -/

/-- `dsa0` with four groups, and an engine in the first. -/
def fourGroups : List DeviceNode := [⟨⟨.dsa, 0⟩, "dsa", [0, 1, 2, 3], [], [0]⟩]

def fourGroupsWorld : World Unit :=
  { Setting.blankWorld with device := fun _ => { maxGroups := 4 } }

/-- Everything is enabled. -/
def everythingOn : Machine := ⟨fun _ => .enabled, fun _ => .enabled, fun _ => true⟩

theorem populated_fourGroups : Populated fourGroupsWorld fourGroups where
  nodup := by decide
  children := by
    intro node hnode kind
    rw [List.mem_singleton.mp hnode]
    cases kind <;> decide
  groups_le := by
    intro node hnode
    rw [List.mem_singleton.mp hnode]
    exact Nat.le_refl 4
  ids := by decide

/-- `list -g dsa0/group0.0`. -/
def firstGroup : UtilFilterParams := ⟨none, some "dsa0/group0.0", none, none⟩

def firstGroupOnly : Selection := ⟨none, some ⟨.dsa, 0⟩, some 0, none, none⟩

theorem select_firstGroup : select fourGroups firstGroup = .ok firstGroupOnly := by
  rfl

theorem partitioned_iff_firstGroup :
    Partitioned fourGroupsWorld everythingOn false firstGroupOnly fourGroups
      (utilFilterWalk fourGroupsWorld everythingOn false fourGroups firstGroup .start).2.jdevList ↔
    ∀ node ∈ fourGroups, Listed everythingOn false firstGroupOnly node →
      NoneAstray fourGroupsWorld everythingOn false firstGroupOnly node :=
  partitioned_iff populated_fourGroups select_firstGroup

/-- The engine of group 0 goes to the slot of the group, and to the three others. -/
theorem not_partitioned_firstGroup :
    (utilFilterWalk fourGroupsWorld everythingOn false fourGroups firstGroup .start).1 = 0 ∧
    ¬Partitioned fourGroupsWorld everythingOn false firstGroupOnly fourGroups
      (utilFilterWalk fourGroupsWorld everythingOn false fourGroups firstGroup
        .start).2.jdevList := by
  constructor
  · rfl
  · intro h
    have hnode : (⟨⟨.dsa, 0⟩, "dsa", [0, 1, 2, 3], [], [0]⟩ : DeviceNode) ∈ fourGroups :=
      List.mem_singleton.mpr rfl
    have hlisted : Listed everythingOn false firstGroupOnly
        ⟨⟨.dsa, 0⟩, "dsa", [0, 1, 2, 3], [], [0]⟩ := by decide
    rw [populated_fourGroups.jdevList select_firstGroup] at h
    have hengine := (h _ hnode hlisted).1 0 (by decide)
    have hspare : Spare fourGroupsWorld firstGroupOnly
        ⟨⟨.dsa, 0⟩, "dsa", [0, 1, 2, 3], [], [0]⟩ := show 1 < 4 by omega
    exact (populated_fourGroups.engine_iff hnode hlisted (by decide)).mp hengine hspare rfl

end Main

end Accfg
