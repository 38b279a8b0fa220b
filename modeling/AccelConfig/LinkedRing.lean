/-
Rings of nodes, each with a pointer to the next one and one to the one before.

`Links` is what all the pointers hold, and `Ring s h xs` says that the nodes of
`xs`, in this order, form a circle with the head `h`.  A change to a ring is a
few stores; what they do is proved here for a segment that is put in between two
neighbours and for a node that is taken out.

* `Ring.splice` — a segment is put in;
* `Ring.unlink` — a node is taken out;
* `Ring.absorb`, `Ring.absorbFront` — another ring is put in, with its head;
* `Represents.set` — a store of many rings, one of which changes;
* `nodup_of_chain` — a path that checks its pointers visits no node twice.
-/
import Mathlib.Data.List.Chain
import Mathlib.Data.List.Iterate
import Mathlib.Data.Fintype.Card
import Mathlib.Logic.Function.Basic

namespace LinkedRing

variable {α : Type*}

/-- The pointers of all nodes. -/
@[ext] structure Links (α : Type*) where
  next : α → α
  prev : α → α

namespace Links

/-- `b` is the node behind `a`. -/
def Adj (s : Links α) (a b : α) : Prop := s.next a = b ∧ s.prev b = a

variable [DecidableEq α]

/-- `a->next = b`. -/
def setNext (s : Links α) (a b : α) : Links α := { s with next := Function.update s.next a b }

/-- `a->prev = b`. -/
def setPrev (s : Links α) (a b : α) : Links α := { s with prev := Function.update s.prev a b }

@[simp] theorem next_setNext (s : Links α) (a b : α) :
    (s.setNext a b).next = Function.update s.next a b := rfl

@[simp] theorem prev_setNext (s : Links α) (a b : α) : (s.setNext a b).prev = s.prev := rfl

@[simp] theorem next_setPrev (s : Links α) (a b : α) : (s.setPrev a b).next = s.next := rfl

@[simp] theorem prev_setPrev (s : Links α) (a b : α) :
    (s.setPrev a b).prev = Function.update s.prev a b := rfl

/-- The segment from `k` to `z` goes between `a` and `b`. -/
def splice (s : Links α) (a k z b : α) : Links α where
  next := Function.update (Function.update s.next z b) a k
  prev := Function.update (Function.update s.prev k a) b z

/-- The neighbours of `n` become each other's. -/
def unlink (s : Links α) (n : α) : Links α where
  next := Function.update s.next (s.prev n) (s.next n)
  prev := Function.update s.prev (s.next n) (s.prev n)

end Links

open Links

/-! ### Segments -/

/-- A segment is read off the `next` of all nodes but the last and the `prev`
of all but the first. -/
theorem chain_congr {s s' : Links α} {l : List α} (h : l.IsChain s.Adj)
    (hnext : ∀ a ∈ l.dropLast, s'.next a = s.next a)
    (hprev : ∀ b ∈ l.tail, s'.prev b = s.prev b) : l.IsChain s'.Adj := by
  induction l with
  | nil => exact List.isChain_nil
  | cons a l ih =>
    cases l with
    | nil => exact List.isChain_singleton a
    | cons b l =>
      rw [List.isChain_cons_cons] at h ⊢
      have hadj : s'.Adj a b :=
        ⟨(hnext a (by simp)).trans h.1.1, (hprev b (by simp)).trans h.1.2⟩
      refine ⟨hadj, ih h.2 (fun c hc => hnext c ?_) fun c hc => hprev c ?_⟩
      · rw [List.dropLast_cons_cons]
        exact List.mem_cons_of_mem _ hc
      · exact List.mem_cons_of_mem _ hc

/-- The nodes of the list, in order, form a circle with the head. -/
structure Ring (s : Links α) (h : α) (xs : List α) : Prop where
  nodup : (h :: xs).Nodup
  chain : (h :: xs ++ [h]).IsChain s.Adj

/-- The first node of a list, or the head if there is none. -/
def firstOr (h : α) (xs : List α) : α := xs.head?.getD h

/-- The last node of a list, or the head if there is none. -/
def lastOr (h : α) (xs : List α) : α := xs.getLast?.getD h

theorem head?_concat (h : α) (ys : List α) : (ys ++ [h]).head? = some (firstOr h ys) := by
  cases ys <;> rfl

theorem getLast?_cons (h : α) (xs : List α) : (h :: xs).getLast? = some (lastOr h xs) := by
  rw [List.getLast?_cons, lastOr]

theorem firstOr_mem (h : α) (ys : List α) : firstOr h ys ∈ h :: ys := by
  cases ys with
  | nil => exact List.mem_cons_self
  | cons y ys => exact List.mem_cons_of_mem _ List.mem_cons_self

theorem lastOr_mem (h : α) (xs : List α) : lastOr h xs ∈ h :: xs :=
  List.mem_of_getLast? (getLast?_cons h xs)

theorem firstOr_mem_append (h : α) (xs ys : List α) : firstOr h ys ∈ h :: (xs ++ ys) := by
  obtain he | hm := List.mem_cons.mp (firstOr_mem h ys)
  · rw [he]
    exact List.mem_cons_self
  · exact List.mem_cons_of_mem _ (List.mem_append_right xs hm)

theorem lastOr_mem_append (h : α) (xs ys : List α) : lastOr h xs ∈ h :: (xs ++ ys) :=
  List.mem_append_left ys (show lastOr h xs ∈ h :: xs from lastOr_mem h xs)

/-- The ring, cut between two neighbours. -/
theorem ring_append_iff {s : Links α} {h : α} {xs ys : List α} :
    Ring s h (xs ++ ys) ↔ (h :: (xs ++ ys)).Nodup ∧ (h :: xs).IsChain s.Adj ∧
      (ys ++ [h]).IsChain s.Adj ∧ s.Adj (lastOr h xs) (firstOr h ys) := by
  have hsplit : h :: (xs ++ ys) ++ [h] = (h :: xs) ++ (ys ++ [h]) := by simp
  have hiff : (h :: (xs ++ ys) ++ [h]).IsChain s.Adj ↔ (h :: xs).IsChain s.Adj ∧
      (ys ++ [h]).IsChain s.Adj ∧ s.Adj (lastOr h xs) (firstOr h ys) := by
    rw [hsplit, List.isChain_append, getLast?_cons, head?_concat]
    simp
  constructor
  · intro hr
    exact ⟨hr.nodup, hiff.mp hr.chain⟩
  · rintro ⟨hnodup, hchain⟩
    exact ⟨hnodup, hiff.mpr hchain⟩

theorem Ring.next_head {s : Links α} {h : α} {xs : List α} (hr : Ring s h xs) :
    s.next h = firstOr h xs :=
  (ring_append_iff.mp (show Ring s h ([] ++ xs) from hr)).2.2.2.1

theorem Ring.prev_head {s : Links α} {h : α} {xs : List α} (hr : Ring s h xs) :
    s.prev h = lastOr h xs := by
  have hr' : Ring s h (xs ++ []) := by rwa [List.append_nil]
  exact (ring_append_iff.mp hr').2.2.2.2

theorem lastOr_concat (h n : α) (xs : List α) : lastOr h (xs ++ [n]) = n := by
  rw [lastOr, List.getLast?_concat, Option.getD_some]

theorem Ring.next_mem {s : Links α} {h n : α} {xs ys : List α} (hr : Ring s h (xs ++ n :: ys)) :
    s.next n = firstOr h ys := by
  have hr' : Ring s h ((xs ++ [n]) ++ ys) := by simpa using hr
  have hadj := (ring_append_iff.mp hr').2.2.2
  rw [lastOr_concat] at hadj
  exact hadj.1

theorem Ring.prev_mem {s : Links α} {h n : α} {xs ys : List α} (hr : Ring s h (xs ++ n :: ys)) :
    s.prev n = lastOr h xs :=
  (ring_append_iff.mp hr).2.2.2.2

theorem Ring.firstOr_eq_head {s : Links α} {h : α} {xs ys : List α} (hr : Ring s h (xs ++ ys)) :
    firstOr h ys = h ↔ ys = [] := by
  constructor
  · intro he
    cases ys with
    | nil => rfl
    | cons y ys =>
      have hy : y = h := he
      have hnot := (List.nodup_cons.mp hr.nodup).1
      exact absurd (by simp [hy]) hnot
  · rintro rfl
    rfl

theorem Ring.ne_head {s : Links α} {h n : α} {xs ys : List α} (hr : Ring s h (xs ++ n :: ys)) :
    n ≠ h := by
  rintro rfl
  exact (List.nodup_cons.mp hr.nodup).1 (by simp)

/-- A ring is read off the pointers of its own nodes. -/
theorem Ring.congr {s s' : Links α} {h : α} {xs : List α} (hr : Ring s h xs)
    (hag : ∀ a ∈ h :: xs, s'.next a = s.next a ∧ s'.prev a = s.prev a) : Ring s' h xs := by
  refine ⟨hr.nodup, chain_congr hr.chain (fun a ha => (hag a ?_).1) fun b hb => (hag b ?_).2⟩
  · rwa [List.dropLast_concat] at ha
  · rw [List.cons_append, List.tail_cons, List.mem_append, List.mem_singleton] at hb
    exact List.mem_cons.mpr hb.symm

theorem notMem_dropLast {l : List α} {a : α} (hl : l.Nodup) (ha : l.getLast? = some a) :
    a ∉ l.dropLast := by
  obtain ⟨p, rfl⟩ := List.getLast?_eq_some_iff.mp ha
  rw [List.dropLast_concat]
  intro hp
  exact (List.nodup_append.mp hl).2.2 a hp a (List.mem_singleton_self a) rfl

theorem notMem_tail {l : List α} {b : α} (hl : l.Nodup) (hb : l.head? = some b) :
    b ∉ l.tail := by
  obtain ⟨q, rfl⟩ := List.head?_eq_some_iff.mp hb
  exact (List.nodup_cons.mp hl).1

/-- A path that checks the pointer back at every node and does not return to its
start visits no node twice. -/
theorem nodup_of_chain {s : Links α} {h : α} {xs : List α} (hc : (h :: xs).IsChain s.Adj)
    (hh : h ∉ xs) : (h :: xs).Nodup := by
  induction xs using List.reverseRecOn with
  | nil => exact List.nodup_singleton h
  | append_singleton xs c ih =>
    obtain ⟨h₁, -, hlast⟩ := List.isChain_append.mp (show (h :: xs ++ [c]).IsChain s.Adj from hc)
    have hback : s.prev c = lastOr h xs := (hlast _ (getLast?_cons h xs) c rfl).2
    have hnodup : (h :: xs).Nodup := ih h₁ fun hm => hh (List.mem_append_left _ hm)
    have hc' : c ∉ h :: xs := by
      intro hm
      obtain rfl | hm := List.mem_cons.mp hm
      · exact hh (List.mem_append_right _ (List.mem_singleton_self c))
      -- the node before the first visit would be the last one of the path
      · obtain ⟨p, q, rfl⟩ := List.append_of_mem hm
        obtain ⟨-, -, hadj⟩ :=
          List.isChain_append.mp (show ((h :: p) ++ c :: q).IsChain s.Adj from h₁)
        have hback' : s.prev c = lastOr h p := (hadj _ (getLast?_cons h p) c rfl).2
        have hmem : lastOr h (p ++ c :: q) ∈ c :: q := by
          rw [lastOr, List.getLast?_append_cons, List.getLast?_cons]
          exact List.mem_of_getLast? (List.getLast?_cons ..)
        rw [← hback, hback'] at hmem
        have hdis := (List.nodup_append.mp (show ((h :: p) ++ c :: q).Nodup from hnodup)).2.2
        exact hdis _ (lastOr_mem h p) _ hmem rfl
    rw [← List.cons_append]
    refine List.nodup_append.mpr ⟨hnodup, List.nodup_singleton c, ?_⟩
    intro a ha b hb
    rw [List.mem_singleton] at hb
    rw [hb]
    exact ne_of_mem_of_not_mem ha hc'

section Changes

variable [DecidableEq α] {s : Links α} {h : α} {xs ys : List α}

/-! ### Putting in, taking out -/

/-- A segment keeps its order when none of its pointers is one of the four
that a splice changes. -/
theorem chain_splice {l : List α} {a k z b : α} (hl : l.IsChain s.Adj) (ha : a ∉ l.dropLast)
    (hz : z ∉ l.dropLast) (hk : k ∉ l.tail) (hb : b ∉ l.tail) :
    l.IsChain (s.splice a k z b).Adj := by
  refine chain_congr hl (fun c hc => ?_) fun c hc => ?_
  · have hca : c ≠ a := ne_of_mem_of_not_mem hc ha
    have hcz : c ≠ z := ne_of_mem_of_not_mem hc hz
    simp [Links.splice, hca, hcz]
  · have hcb : c ≠ b := ne_of_mem_of_not_mem hc hb
    have hck : c ≠ k := ne_of_mem_of_not_mem hc hk
    simp [Links.splice, hcb, hck]

/-- A segment whose nodes are not in the ring is put in between two
neighbours. -/
theorem Ring.splice (hr : Ring s h (xs ++ ys)) {m : List α} {k z : α} (hm : m.IsChain s.Adj)
    (hk : m.head? = some k) (hz : m.getLast? = some z)
    (hnodup : (h :: (xs ++ m ++ ys)).Nodup) :
    Ring (s.splice (lastOr h xs) k z (firstOr h ys)) h (xs ++ m ++ ys) := by
  obtain ⟨-, h₁, h₂, -⟩ := ring_append_iff.mp hr
  have hal : (h :: xs).getLast? = some (lastOr h xs) := getLast?_cons h xs
  have hbl : (ys ++ [h]).head? = some (firstOr h ys) := head?_concat h ys
  have ha : lastOr h xs ∈ h :: xs := lastOr_mem h xs
  have hb : firstOr h ys ∈ ys ++ [h] := List.mem_of_head? hbl
  have hkm : k ∈ m := List.mem_of_head? hk
  have hzm : z ∈ m := List.mem_of_getLast? hz
  generalize lastOr h xs = a at *
  generalize firstOr h ys = b at *
  -- the three segments have no node twice and none in common but the head
  have n₁ : (h :: xs).Nodup := by clear * - hnodup; grind
  have n₂ : (ys ++ [h]).Nodup := by clear * - hnodup; grind
  have n₃ : m.Nodup := by clear * - hnodup; grind
  have d₁ : ∀ c ∈ h :: xs, c ∉ m := by clear * - hnodup; grind
  have d₂ : ∀ c ∈ ys ++ [h], c ∉ m := by clear * - hnodup; grind
  have d₃ : ∀ c ∈ xs, c ∉ ys ++ [h] := by clear * - hnodup; grind
  have d₄ : ∀ c ∈ ys, c ∉ h :: xs := by clear * - hnodup; grind
  have hleft : (h :: xs).IsChain (s.splice a k z b).Adj := by
    refine chain_splice h₁ (notMem_dropLast n₁ hal) (fun hc => ?_) (fun hc => ?_) fun hc => ?_
    · exact d₁ z (List.dropLast_subset _ hc) hzm
    · exact d₁ k (List.mem_of_mem_tail hc) hkm
    · exact d₃ b hc hb
  have hmid : m.IsChain (s.splice a k z b).Adj := by
    refine chain_splice hm (fun hc => ?_) (notMem_dropLast n₃ hz) (notMem_tail n₃ hk) fun hc => ?_
    · exact d₁ a ha (List.dropLast_subset _ hc)
    · exact d₂ b hb (List.mem_of_mem_tail hc)
  have hright : (ys ++ [h]).IsChain (s.splice a k z b).Adj := by
    refine chain_splice h₂ (fun hc => ?_) (fun hc => ?_) (fun hc => ?_) (notMem_tail n₂ hbl)
    · rw [List.dropLast_concat] at hc
      exact d₄ a hc ha
    · exact d₂ z (List.dropLast_subset _ hc) hzm
    · exact d₂ k (List.mem_of_mem_tail hc) hkm
  have hkb : k ≠ b := ne_of_mem_of_not_mem hkm (d₂ b hb)
  have hza : z ≠ a := ne_of_mem_of_not_mem hzm (d₁ a ha)
  have hak : (s.splice a k z b).Adj a k := by
    constructor
    · simp [Links.splice]
    · simp [Links.splice, hkb]
  have hzb : (s.splice a k z b).Adj z b := by
    constructor
    · simp [Links.splice, hza]
    · simp [Links.splice]
  refine ⟨hnodup, ?_⟩
  have hsplit : h :: (xs ++ m ++ ys) ++ [h] = (h :: xs) ++ (m ++ (ys ++ [h])) := by simp
  rw [hsplit]
  refine hleft.append (hmid.append hright ?_) ?_
  · intro x hx y hy
    rw [hz, Option.mem_some_iff] at hx
    rw [hbl, Option.mem_some_iff] at hy
    rw [← hx, ← hy]
    exact hzb
  · intro x hx y hy
    rw [hal, Option.mem_some_iff] at hx
    rw [List.head?_append, hk, Option.some_or, Option.mem_some_iff] at hy
    rw [← hx, ← hy]
    exact hak

/-- One node is put in: both its pointers are set, then those of the
neighbours. -/
theorem Ring.insert (hr : Ring s h (xs ++ ys)) {n : α} (hn : n ∉ h :: (xs ++ ys)) :
    Ring (s.splice (lastOr h xs) n n (firstOr h ys)) h (xs ++ n :: ys) := by
  have hnodup : (h :: (xs ++ [n] ++ ys)).Nodup := by
    have := hr.nodup
    grind
  have h₁ := hr.splice (List.isChain_singleton n) rfl rfl hnodup
  rwa [List.append_assoc, List.singleton_append] at h₁

/-- A node is taken out. -/
theorem Ring.unlink {n : α} (hr : Ring s h (xs ++ n :: ys)) :
    Ring (s.unlink n) h (xs ++ ys) := by
  obtain ⟨hnodup, h₁, h₂, -⟩ := ring_append_iff.mp hr
  have hprev := hr.prev_mem
  have hnext := hr.next_mem
  have hal : (h :: xs).getLast? = some (lastOr h xs) := getLast?_cons h xs
  have hbl : (ys ++ [h]).head? = some (firstOr h ys) := head?_concat h ys
  have hb : firstOr h ys ∈ ys ++ [h] := List.mem_of_head? hbl
  have ha : lastOr h xs ∈ h :: xs := lastOr_mem h xs
  have n₁ : (h :: xs).Nodup := by clear * - hnodup; grind
  have n₂ : (ys ++ [h]).Nodup := by clear * - hnodup; grind
  have d₃ : ∀ c ∈ xs, c ∉ ys ++ [h] := by clear * - hnodup; grind
  have d₄ : ∀ c ∈ ys, c ∉ h :: xs := by clear * - hnodup; grind
  have h₃ : (ys ++ [h]).IsChain s.Adj := h₂.tail
  refine ring_append_iff.mpr ⟨by clear * - hnodup; grind, ?_, ?_, ?_⟩
  · refine chain_congr h₁ (fun c hc => ?_) fun c hc => ?_
    · have hca : c ≠ lastOr h xs := ne_of_mem_of_not_mem hc (notMem_dropLast n₁ hal)
      simp [Links.unlink, hprev, hca]
    · have hcb : c ≠ firstOr h ys := fun he => d₃ c hc (he ▸ hb)
      simp [Links.unlink, hnext, hcb]
  · refine chain_congr h₃ (fun c hc => ?_) fun c hc => ?_
    · rw [List.dropLast_concat] at hc
      have hca : c ≠ lastOr h xs := fun he => d₄ c hc (he ▸ ha)
      simp [Links.unlink, hprev, hca]
    · have hcb : c ≠ firstOr h ys := ne_of_mem_of_not_mem hc (notMem_tail n₂ hbl)
      simp [Links.unlink, hnext, hcb]
  · constructor
    · simp [Links.unlink, hprev, hnext]
    · simp [Links.unlink, hprev, hnext]

/-- Another ring, its head included, is put in at the end. -/
theorem Ring.absorb {f : α} {ms : List α} (hr : Ring s h xs) (hf : Ring s f ms)
    (hdis : ∀ a ∈ h :: xs, a ∉ f :: ms) :
    Ring (s.splice (lastOr h xs) f (lastOr f ms) h) h (xs ++ f :: ms) := by
  have hr' : Ring s h (xs ++ []) := by rwa [List.append_nil]
  have hchain : (f :: ms).IsChain s.Adj := (List.isChain_append.mp hf.chain).1
  have hnodup : (h :: (xs ++ (f :: ms) ++ [])).Nodup := by
    rw [List.append_nil, ← List.cons_append]
    exact List.nodup_append.mpr ⟨hr.nodup, hf.nodup, fun a ha b hb he => hdis a ha (he ▸ hb)⟩
  have h₁ := hr'.splice hchain rfl (getLast?_cons f ms) hnodup
  rwa [List.append_nil] at h₁

/-- Another ring, its head included, is put in at the start. -/
theorem Ring.absorbFront {f : α} {ms : List α} (hr : Ring s h xs) (hf : Ring s f ms)
    (hdis : ∀ a ∈ h :: xs, a ∉ f :: ms) :
    Ring (s.splice h f (lastOr f ms) (firstOr h xs)) h (f :: ms ++ xs) := by
  have hchain : (f :: ms).IsChain s.Adj := (List.isChain_append.mp hf.chain).1
  have hnodup : (h :: ([] ++ (f :: ms) ++ xs)).Nodup := by
    have hall : ((f :: ms) ++ (h :: xs)).Nodup :=
      List.nodup_append.mpr ⟨hf.nodup, hr.nodup, fun a ha b hb he => hdis b hb (he ▸ ha)⟩
    exact List.nodup_middle.mp hall
  exact Ring.splice (show Ring s h ([] ++ xs) from hr) hchain rfl (getLast?_cons f ms) hnodup

/-! ### Many rings -/

/-- `L` says which nodes are heads, and which nodes are on the ring of each.
No node is on two rings. -/
structure Represents (s : Links α) (L : α → Option (List α)) : Prop where
  ring : ∀ {h xs}, L h = some xs → Ring s h xs
  apart : ∀ {h xs h' xs'}, L h = some xs → L h' = some xs' → h ≠ h' →
    ∀ a ∈ h :: xs, a ∉ h' :: xs'

/-- The node is on no ring. -/
def Free (L : α → Option (List α)) (n : α) : Prop := ∀ h xs, L h = some xs → n ∉ h :: xs

variable {L : α → Option (List α)}

/-- One ring changes, and with it the pointers of its own nodes only. -/
theorem Represents.set {s' : Links α} {zs : List α} (hR : Represents s L) (hr : Ring s' h zs)
    (hag : ∀ a, a ∉ h :: zs → s'.next a = s.next a ∧ s'.prev a = s.prev a)
    (hdis : ∀ h' xs', h' ≠ h → L h' = some xs' → ∀ a ∈ h' :: xs', a ∉ h :: zs) :
    Represents s' (Function.update L h (some zs)) := by
  constructor
  · intro h' xs' hL
    by_cases hh : h' = h
    · subst hh
      rw [Function.update_self, Option.some_inj] at hL
      exact hL ▸ hr
    · rw [Function.update_of_ne hh] at hL
      exact (hR.ring hL).congr fun a ha => hag a (hdis h' xs' hh hL a ha)
  · intro h₁ xs₁ h₂ xs₂ hL₁ hL₂ hne a ha₁ ha₂
    by_cases hh₁ : h₁ = h
    · have hh₂ : h₂ ≠ h := fun he => hne (hh₁.trans he.symm)
      subst hh₁
      rw [Function.update_self, Option.some_inj] at hL₁
      rw [Function.update_of_ne hh₂] at hL₂
      exact hdis h₂ xs₂ hh₂ hL₂ a ha₂ (hL₁ ▸ ha₁)
    · rw [Function.update_of_ne hh₁] at hL₁
      by_cases hh₂ : h₂ = h
      · subst hh₂
        rw [Function.update_self, Option.some_inj] at hL₂
        exact hdis h₁ xs₁ hh₁ hL₁ a ha₁ (hL₂ ▸ ha₂)
      · rw [Function.update_of_ne hh₂] at hL₂
        exact hR.apart hL₁ hL₂ hne a ha₁ ha₂

/-- A ring is forgotten. -/
theorem Represents.erase (hR : Represents s L) (f : α) :
    Represents s (Function.update L f none) := by
  have hold : ∀ {h xs}, Function.update L f none h = some xs → L h = some xs := by
    intro h xs hL
    by_cases hh : h = f
    · subst hh
      rw [Function.update_self] at hL
      cases hL
    · rwa [Function.update_of_ne hh] at hL
  exact ⟨fun hL => hR.ring (hold hL), fun h₁ h₂ => hR.apart (hold h₁) (hold h₂)⟩

/-- With one ring only. -/
theorem free_of_single {n : α} (hn : n ∉ h :: xs) :
    Free (Function.update (fun _ => none) h (some xs)) n := by
  intro h' xs' hL
  rw [Function.update_apply] at hL
  split_ifs at hL with hh
  cases hL
  rwa [hh]

/-- The pointers that a splice changes are those of its four nodes. -/
theorem splice_agree {a k z b c : α} (ha : c ≠ a) (hk : c ≠ k) (hz : c ≠ z) (hb : c ≠ b) :
    (s.splice a k z b).next c = s.next c ∧ (s.splice a k z b).prev c = s.prev c := by
  simp [Links.splice, ha, hk, hz, hb]

theorem unlink_agree {n c : α} (hp : c ≠ s.prev n) (hn : c ≠ s.next n) :
    (s.unlink n).next c = s.next c ∧ (s.unlink n).prev c = s.prev c := by
  simp [Links.unlink, hp, hn]

/-- A free node is put on a ring. -/
theorem Represents.insert {n : α} (hR : Represents s L) (hL : L h = some (xs ++ ys))
    (hn : Free L n) : Represents (s.splice (lastOr h xs) n n (firstOr h ys))
      (Function.update L h (some (xs ++ n :: ys))) := by
  have hmem : ∀ a, a ∈ h :: (xs ++ n :: ys) ↔ a = n ∨ a ∈ h :: (xs ++ ys) := by
    intro a
    simp only [List.mem_cons, List.mem_append]
    tauto
  have ha : lastOr h xs ∈ h :: (xs ++ ys) := lastOr_mem_append h xs ys
  have hb : firstOr h ys ∈ h :: (xs ++ ys) := firstOr_mem_append h xs ys
  refine hR.set ((hR.ring hL).insert (hn h _ hL)) (fun c hc => ?_) fun h' xs' hne hL' c hc hc' => ?_
  · rw [hmem, not_or] at hc
    exact splice_agree (ne_of_mem_of_not_mem ha hc.2).symm hc.1 hc.1
      (ne_of_mem_of_not_mem hb hc.2).symm
  · obtain rfl | hold := (hmem c).mp hc'
    · exact hn h' xs' hL' hc
    · exact hR.apart hL' hL hne c hc hold

/-- A node is taken off its ring. -/
theorem Represents.unlink {n : α} (hR : Represents s L) (hL : L h = some (xs ++ n :: ys)) :
    Represents (s.unlink n) (Function.update L h (some (xs ++ ys))) := by
  have hr := hR.ring hL
  have hsub : ∀ a ∈ h :: (xs ++ ys), a ∈ h :: (xs ++ n :: ys) := by
    intro a ha
    simp only [List.mem_cons, List.mem_append] at ha ⊢
    tauto
  have ha : s.prev n ∈ h :: (xs ++ ys) := by
    rw [hr.prev_mem]
    exact lastOr_mem_append h xs ys
  have hb : s.next n ∈ h :: (xs ++ ys) := by
    rw [hr.next_mem]
    exact firstOr_mem_append h xs ys
  refine hR.set hr.unlink (fun c hc => ?_) fun h' xs' hne hL' c hc hc' => ?_
  · exact unlink_agree (ne_of_mem_of_not_mem ha hc).symm (ne_of_mem_of_not_mem hb hc).symm
  · exact hR.apart hL' hL hne c hc (hsub c hc')

/-- A node that points to itself is the head of a new ring. -/
theorem Represents.new (hR : Represents s L) (hh : ∀ h' xs', h' ≠ h → L h' = some xs' → h ∉ xs') :
    Represents ((s.setPrev h h).setNext h h) (Function.update L h (some [])) := by
  have hr : Ring ((s.setPrev h h).setNext h h) h [] := by
    refine ⟨List.nodup_singleton h, ?_⟩
    rw [List.cons_append, List.nil_append, List.isChain_cons_cons]
    refine ⟨⟨?_, ?_⟩, List.isChain_singleton h⟩
    · simp
    · simp
  refine hR.set hr (fun c hc => ?_) fun h' xs' hne hL' c hc hc' => ?_
  · rw [List.mem_singleton] at hc
    simp [hc]
  · rw [List.mem_singleton] at hc'
    subst hc'
    obtain he | hm := List.mem_cons.mp hc
    · exact hne he.symm
    · exact hh h' xs' hne hL' hm

/-- All of one ring, its head included, is put on another one. -/
theorem Represents.join {s' : Links α} {t f : α} {xs ms zs : List α} (hR : Represents s L)
    (ht : L t = some xs) (hf : L f = some ms) (hne : t ≠ f) (hr : Ring s' t zs)
    (hmem : ∀ a, a ∈ t :: zs ↔ a ∈ t :: xs ∨ a ∈ f :: ms)
    (hag : ∀ a, a ∉ t :: zs → s'.next a = s.next a ∧ s'.prev a = s.prev a) :
    Represents s' (Function.update (Function.update L f none) t (some zs)) := by
  refine (hR.erase f).set hr hag fun h' xs' hh' hL' c hc hc' => ?_
  have hf' : h' ≠ f := by
    rintro rfl
    rw [Function.update_self] at hL'
    cases hL'
  rw [Function.update_of_ne hf'] at hL'
  obtain hm | hm := (hmem c).mp hc'
  · exact hR.apart hL' ht hh' c hc hm
  · exact hR.apart hL' hf hf' c hc hm

end Changes

end LinkedRing
