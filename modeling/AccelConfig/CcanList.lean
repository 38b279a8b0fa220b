/-
The linked lists of `ccan/list/list.h`, on which every object of the library is
chained, with `list_check_node` of `ccan/list/list.c` and `list_add_after` of
`util/list.h`.

A `list_head` is a node like any other, and a node stands for the structure it
is a member of.  The functions are a few stores each; `Step` says what they are
for, on lists.

* `exec_step` — a call does to the memory what `Step` says;
* `list_run` — any run of calls from memory with arbitrary content;
* `list_check_node_iff` — the consistency check ends on every memory and
  accepts the proper lists;
* `list_for_each_safe_deletes` — a loop may delete the entry it is at.
-/
import Mathlib.Data.Fin.VecNotation
import AccelConfig.LinkedRing

namespace Accfg

namespace CcanList

open LinkedRing LinkedRing.Links

variable {α σ : Type*} [DecidableEq α]

/-! ### The functions -/

/-- `list_head_init` -/
def listHeadInit (s : Links α) (h : α) : Links α := (s.setPrev h h).setNext h h

/-- `list_add_` -/
def listAdd (s : Links α) (h n : α) : Links α :=
  let s₁ := s.setNext n (s.next h)
  let s₂ := s₁.setPrev n h
  let s₃ := s₂.setPrev (s₂.next h) n
  s₃.setNext h n

/-- `list_add_tail_` -/
def listAddTail (s : Links α) (h n : α) : Links α :=
  let s₁ := s.setNext n h
  let s₂ := s₁.setPrev n (s₁.prev h)
  let s₃ := s₂.setNext (s₂.prev h) n
  s₃.setPrev h n

/-- `list_add_after_` -/
def listAddAfter (s : Links α) (h l n : α) : Links α :=
  if s.next l = h then listAddTail s h n
  else
    let s₁ := s.setNext n (s.next l)
    let s₂ := s₁.setPrev n l
    let s₃ := s₂.setPrev (s₂.next l) n
    s₃.setNext l n

/-- `list_empty_` -/
def listEmpty (s : Links α) (h : α) : Bool := s.next h = h

/-- `list_del_` -/
def listDel (s : Links α) (n : α) : Links α :=
  let s₁ := s.setPrev (s.next n) (s.prev n)
  s₁.setNext (s₁.prev n) (s₁.next n)

/-- `list_del_from`; there is no result if the assertion fails. -/
def listDelFrom (s : Links α) (h n : α) : Option (Links α) :=
  if listEmpty s h then none else some (listDel s n)

/-- `list_top_` -/
def listTop (s : Links α) (h : α) : Option α :=
  if listEmpty s h then none else some (s.next h)

/-- `list_pop_` -/
def listPop (s : Links α) (h : α) : Links α × Option α :=
  if listEmpty s h then (s, none)
  else
    let n := s.next h
    (listDel s n, some n)

/-- `list_tail_` -/
def listTail (s : Links α) (h : α) : Option α :=
  if listEmpty s h then none else some (s.prev h)

/-- `list_entry_or_null` -/
def listEntryOrNull (h n : α) : Option α := if n = h then none else some n

/-- `list_next` -/
def listNext (s : Links α) (h i : α) : Option α := listEntryOrNull h (s.next i)

/-- `list_prev` -/
def listPrev (s : Links α) (h i : α) : Option α := listEntryOrNull h (s.prev i)

/-- `list_append_list_`, to `t` from `f`. -/
def listAppendList (s : Links α) (t f : α) : Links α :=
  let fromTail := s.prev f
  let toTail := s.prev t
  let s₁ := s.setPrev t fromTail
  let s₂ := s₁.setNext fromTail t
  let s₃ := s₂.setNext toTail f
  let s₄ := s₃.setPrev f toTail
  listHeadInit (listDel s₄ f) f

/-- `list_prepend_list_`, to `t` from `f`. -/
def listPrependList (s : Links α) (t f : α) : Links α :=
  let fromTail := s.prev f
  let toHead := s.next t
  let s₁ := s.setNext t f
  let s₂ := s₁.setPrev f t
  let s₃ := s₂.setPrev toHead fromTail
  let s₄ := s₃.setNext fromTail toHead
  listHeadInit (listDel s₄ f) f

/-- The loop of `list_check_node`, which is at `n` and was at `p` before; there
is no result if it did not end. -/
def checkFrom (s : Links α) (node : α) : Nat → α → α → Option Bool
  | 0, _, _ => none
  | fuel + 1, p, n =>
    if n = node then some (s.prev node = p)
    else if s.prev n ≠ p then some false
    else checkFrom s node fuel n (s.next n)

/-- `list_check_node` -/
def listCheckNode (s : Links α) (node : α) (fuel : Nat) : Option Bool :=
  checkFrom s node fuel node (s.next node)

/-- The loop of `list_for_each_off`. -/
def forEachFrom (s : Links α) (h : α) (body : α → σ → σ) : Nat → α → σ → Option σ
  | 0, _, _ => none
  | fuel + 1, i, x => if i = h then some x else forEachFrom s h body fuel (s.next i) (body i x)

/-- `list_for_each_off` -/
def listForEach (s : Links α) (h : α) (body : α → σ → σ) (fuel : Nat) (x : σ) : Option σ :=
  forEachFrom s h body fuel (s.next h) x

/-- The loop of `list_for_each_rev`. -/
def forEachRevFrom (s : Links α) (h : α) (body : α → σ → σ) : Nat → α → σ → Option σ
  | 0, _, _ => none
  | fuel + 1, i, x => if i = h then some x else forEachRevFrom s h body fuel (s.prev i) (body i x)

/-- `list_for_each_rev` -/
def listForEachRev (s : Links α) (h : α) (body : α → σ → σ) (fuel : Nat) (x : σ) : Option σ :=
  forEachRevFrom s h body fuel (s.prev h) x

/-- The loop of `list_for_each_safe_off`.  The body says whether it deletes the
entry it is at. -/
def forEachSafeFrom (h : α) (body : α → σ → Bool × σ) :
    Nat → Links α → α → α → σ → Option (Links α × σ)
  | 0, _, _, _, _ => none
  | fuel + 1, s, i, nxt, x =>
    if i = h then some (s, x)
    else
      let (del, x') := body i x
      let s' := if del then listDel s i else s
      forEachSafeFrom h body fuel s' nxt (s'.next nxt) x'

/-- `list_for_each_safe_off` -/
def listForEachSafe (s : Links α) (h : α) (body : α → σ → Bool × σ) (fuel : Nat) (x : σ) :
    Option (Links α × σ) :=
  forEachSafeFrom h body fuel s (s.next h) (s.next (s.next h)) x

/-! ### What the functions are for -/

/-- The calls that do not loop. -/
inductive Call (α : Type*) where
  | init (h : α)
  | add (h n : α)
  | addTail (h n : α)
  | addAfter (h l n : α)
  | empty (h : α)
  | del (n : α)
  | delFrom (h n : α)
  | top (h : α)
  | pop (h : α)
  | tail (h : α)
  | next (h i : α)
  | prev (h i : α)
  | appendList (t f : α)
  | prependList (t f : α)

/-- What a call returns. -/
inductive Answer (α : Type*) where
  | void
  | bool (b : Bool)
  | entry (i : Option α)

/-- A call on the memory. -/
def exec (s : Links α) : Call α → Option (Links α × Answer α)
  | .init h => some (listHeadInit s h, .void)
  | .add h n => some (listAdd s h n, .void)
  | .addTail h n => some (listAddTail s h n, .void)
  | .addAfter h l n => some (listAddAfter s h l n, .void)
  | .empty h => some (s, .bool (listEmpty s h))
  | .del n => some (listDel s n, .void)
  | .delFrom h n => (listDelFrom s h n).map fun s' => (s', .void)
  | .top h => some (s, .entry (listTop s h))
  | .pop h => some ((listPop s h).1, .entry (listPop s h).2)
  | .tail h => some (s, .entry (listTail s h))
  | .next h i => some (s, .entry (listNext s h i))
  | .prev h i => some (s, .entry (listPrev s h i))
  | .appendList t f => some (listAppendList s t f, .void)
  | .prependList t f => some (listPrependList s t f, .void)

/-- A run of calls, with what they return. -/
def execAll (s : Links α) : List (Call α) → Option (Links α × List (Answer α))
  | [] => some (s, [])
  | c :: cs => do
    let (s', r) ← exec s c
    let (s'', rs) ← execAll s' cs
    return (s'', r :: rs)

open Function (update)

/-- What the header says of a call: the lists before it, the call, the lists
after it and what it returns.  A call that is used against its description has
no line here. -/
inductive Step (L : α → Option (List α)) : Call α → (α → Option (List α)) → Answer α → Prop
  /-- The head is on no other list; what was on its own is dropped. -/
  | init {h} : (∀ h' xs, h' ≠ h → L h' = some xs → h ∉ xs) →
      Step L (.init h) (update L h (some [])) .void
  | add {h n xs} : L h = some xs → Free L n → Step L (.add h n) (update L h (some (n :: xs))) .void
  | addTail {h n xs} : L h = some xs → Free L n →
      Step L (.addTail h n) (update L h (some (xs ++ [n]))) .void
  | addAfter {h l n xs ys} : L h = some (xs ++ l :: ys) → Free L n →
      Step L (.addAfter h l n) (update L h (some (xs ++ l :: n :: ys))) .void
  | empty {h xs} : L h = some xs → Step L (.empty h) L (.bool xs.isEmpty)
  | del {h n xs ys} : L h = some (xs ++ n :: ys) →
      Step L (.del n) (update L h (some (xs ++ ys))) .void
  | delFrom {h n xs ys} : L h = some (xs ++ n :: ys) →
      Step L (.delFrom h n) (update L h (some (xs ++ ys))) .void
  | top {h xs} : L h = some xs → Step L (.top h) L (.entry xs.head?)
  | pop {h xs} : L h = some xs →
      Step L (.pop h) (update L h (some xs.tail)) (.entry xs.head?)
  | tail {h xs} : L h = some xs → Step L (.tail h) L (.entry xs.getLast?)
  | next {h i xs ys} : L h = some (xs ++ i :: ys) → Step L (.next h i) L (.entry ys.head?)
  | prev {h i xs ys} : L h = some (xs ++ i :: ys) → Step L (.prev h i) L (.entry xs.getLast?)
  | appendList {t f xs ms} : L t = some xs → L f = some ms → t ≠ f →
      Step L (.appendList t f) (update (update L t (some (xs ++ ms))) f (some [])) .void
  | prependList {t f xs ms} : L t = some xs → L f = some ms → t ≠ f →
      Step L (.prependList t f) (update (update L t (some (ms ++ xs))) f (some [])) .void

/-- A run of such calls. -/
inductive Run : (α → Option (List α)) → List (Call α) → (α → Option (List α)) →
    List (Answer α) → Prop
  | nil {L} : Run L [] L []
  | cons {L L' L'' c cs r rs} : Step L c L' r → Run L' cs L'' rs → Run L (c :: cs) L'' (r :: rs)

/-! ### Each function on the rings -/

theorem listAdd_eq (s : Links α) {h n : α} (hn : n ≠ h) :
    listAdd s h n = s.splice h n n (s.next h) := by
  ext a
  · simp [listAdd, Links.splice, Function.update_of_ne hn.symm]
  · simp [listAdd, Links.splice, Function.update_of_ne hn.symm]

theorem listAddTail_eq (s : Links α) {h n : α} (hn : n ≠ h) :
    listAddTail s h n = s.splice (s.prev h) n n h := by
  ext a
  · simp [listAddTail, Links.splice, Function.update_of_ne hn.symm]
  · simp [listAddTail, Links.splice, Function.update_of_ne hn.symm]

theorem listDel_eq (s : Links α) (n : α) : listDel s n = s.unlink n := by
  have hself : update s.prev (s.next n) (s.prev n) n = s.prev n := by
    rw [Function.update_apply, ite_eq_right_iff]
    intro _
    rfl
  ext a
  · simp [listDel, Links.unlink, hself]
  · simp [listDel, Links.unlink]

section OnRing

variable {s : Links α} {h : α} {xs ys : List α}

theorem listEntryOrNull_firstOr (hr : Ring s h (xs ++ ys)) :
    listEntryOrNull h (firstOr h ys) = ys.head? := by
  rw [listEntryOrNull]
  split_ifs with he
  · rw [hr.firstOr_eq_head.mp he, List.head?_nil]
  · cases ys with
    | nil => exact absurd rfl he
    | cons y ys => rfl

theorem listEntryOrNull_lastOr (hr : Ring s h (xs ++ ys)) :
    listEntryOrNull h (lastOr h xs) = xs.getLast? := by
  have hnot := (List.nodup_cons.mp hr.nodup).1
  rw [listEntryOrNull, lastOr]
  cases hx : xs.getLast? with
  | none => simp
  | some z =>
    have hz : z ≠ h := by
      rintro rfl
      exact hnot (List.mem_append_left ys (List.mem_of_getLast? hx))
    simp [hz]

theorem listEmpty_eq (hr : Ring s h xs) : listEmpty s h = xs.isEmpty := by
  rw [listEmpty, hr.next_head, Bool.eq_iff_iff, decide_eq_true_iff, List.isEmpty_iff]
  exact Ring.firstOr_eq_head (show Ring s h ([] ++ xs) from hr)

theorem listTop_eq (hr : Ring s h xs) : listTop s h = xs.head? := by
  rw [listTop, listEmpty_eq hr, hr.next_head]
  cases xs <;> rfl

theorem listTail_eq (hr : Ring s h xs) : listTail s h = xs.getLast? := by
  rw [listTail, listEmpty_eq hr, hr.prev_head, lastOr]
  cases xs with
  | nil => rfl
  | cons x xs => simp [List.getLast?_cons]

theorem listNext_eq {i : α} (hr : Ring s h (xs ++ i :: ys)) : listNext s h i = ys.head? := by
  have hr' : Ring s h ((xs ++ [i]) ++ ys) := by simpa using hr
  rw [listNext, hr.next_mem]
  exact listEntryOrNull_firstOr hr'

theorem listPrev_eq {i : α} (hr : Ring s h (xs ++ i :: ys)) : listPrev s h i = xs.getLast? := by
  rw [listPrev, hr.prev_mem]
  exact listEntryOrNull_lastOr hr

end OnRing

section OnStore

variable {s : Links α} {L : α → Option (List α)} {h n : α} {xs ys ms : List α}

theorem listAdd_represents (hR : Represents s L) (hL : L h = some xs) (hn : Free L n) :
    Represents (listAdd s h n) (update L h (some (n :: xs))) := by
  have hne : n ≠ h := fun he => hn h xs hL (he ▸ List.mem_cons_self)
  rw [listAdd_eq s hne, (hR.ring hL).next_head]
  exact hR.insert (show L h = some ([] ++ xs) from hL) hn

theorem listAddTail_represents (hR : Represents s L) (hL : L h = some xs) (hn : Free L n) :
    Represents (listAddTail s h n) (update L h (some (xs ++ [n]))) := by
  have hne : n ≠ h := fun he => hn h xs hL (he ▸ List.mem_cons_self)
  have hL' : L h = some (xs ++ []) := by rwa [List.append_nil]
  rw [listAddTail_eq s hne, (hR.ring hL).prev_head]
  exact hR.insert hL' hn

theorem listAddAfter_represents {l : α} (hR : Represents s L) (hL : L h = some (xs ++ l :: ys))
    (hn : Free L n) :
    Represents (listAddAfter s h l n) (update L h (some (xs ++ l :: n :: ys))) := by
  have hr := hR.ring hL
  have hsplit : xs ++ l :: ys = (xs ++ [l]) ++ ys := by simp
  have hsplit' : xs ++ l :: n :: ys = (xs ++ [l]) ++ n :: ys := by simp
  have hlast : firstOr h ys = h ↔ ys = [] := Ring.firstOr_eq_head (hsplit ▸ hr)
  rw [listAddAfter, hr.next_mem]
  split_ifs with he
  · obtain rfl := hlast.mp he
    have h₁ := listAddTail_represents hR hL hn
    rwa [List.append_assoc, List.cons_append, List.nil_append] at h₁
  · have hnl : n ≠ l := by
      rintro rfl
      exact hn h _ hL (by simp)
    have hval : ∀ s' : Links α, s' = s.splice (lastOr h (xs ++ [l])) n n (firstOr h ys) →
        Represents s' (update L h (some (xs ++ l :: n :: ys))) := by
      rintro _ rfl
      rw [hsplit']
      exact hR.insert (hsplit ▸ hL) hn
    refine hval _ ?_
    rw [lastOr_concat, ← hr.next_mem]
    ext a
    · simp [Links.splice, Function.update_of_ne hnl.symm]
    · simp [Links.splice, Function.update_of_ne hnl.symm]

theorem listDel_represents (hR : Represents s L) (hL : L h = some (xs ++ n :: ys)) :
    Represents (listDel s n) (update L h (some (xs ++ ys))) := by
  rw [listDel_eq]
  exact hR.unlink hL

theorem listDelFrom_eq (hR : Represents s L) (hL : L h = some (xs ++ n :: ys)) :
    listDelFrom s h n = some (listDel s n) := by
  have hne : listEmpty s h = false := by
    rw [listEmpty_eq (hR.ring hL)]
    simp
  rw [listDelFrom, hne]
  rfl

theorem listPop_represents (hR : Represents s L) (hL : L h = some xs) :
    (listPop s h).2 = xs.head? ∧ Represents (listPop s h).1 (update L h (some xs.tail)) := by
  have hr := hR.ring hL
  rw [listPop, listEmpty_eq hr]
  cases xs with
  | nil =>
    refine ⟨rfl, ?_⟩
    show Represents s (update L h (some []))
    rwa [← hL, Function.update_eq_self]
  | cons x xs =>
    have hx : s.next h = x := hr.next_head
    refine ⟨by simp [hx], ?_⟩
    show Represents (listDel s (s.next h)) (update L h (some ([] ++ xs)))
    rw [hx]
    exact listDel_represents hR hL

/-- The head of a joined list comes out again and is empty. -/
theorem join_represents {s' : Links α} {t f : α} {zs ws : List α} (hR : Represents s L)
    (ht : L t = some xs) (hf : L f = some ms) (hne : t ≠ f) (hr : Ring s' t (zs ++ f :: ws))
    (hmem : ∀ a, a ∈ zs ++ ws ↔ a ∈ xs ∨ a ∈ ms)
    (hag : ∀ a, a ∉ t :: (zs ++ f :: ws) → s'.next a = s.next a ∧ s'.prev a = s.prev a) :
    Represents (listHeadInit (listDel s' f) f)
      (update (update L t (some (zs ++ ws))) f (some [])) := by
  have hmem' : ∀ a, a ∈ t :: (zs ++ f :: ws) ↔ a ∈ t :: xs ∨ a ∈ f :: ms := by
    intro a
    have := hmem a
    simp only [List.mem_cons, List.mem_append] at this ⊢
    tauto
  have h₁ := listDel_represents (hR.join ht hf hne hr hmem' hag) (Function.update_self ..)
  rw [Function.update_idem] at h₁
  have h₂ : ∀ h' xs', h' ≠ f →
      update (update L f none) t (some (zs ++ ws)) h' = some xs' → f ∉ xs' := by
    intro h' xs' hf' hL' hm
    by_cases hh : h' = t
    · subst hh
      rw [Function.update_self, Option.some_inj] at hL'
      have hnodup := (List.nodup_cons.mp hr.nodup).2
      exact (List.nodup_cons.mp (List.nodup_middle.mp hnodup)).1 (hL' ▸ hm)
    · rw [Function.update_of_ne hh, Function.update_of_ne hf'] at hL'
      exact hR.apart hL' hf hf' f (List.mem_cons_of_mem _ hm) List.mem_cons_self
  have h₃ := h₁.new h₂
  rwa [Function.update_comm hne.symm, Function.update_idem] at h₃

theorem listAppendList_represents {t f : α} (hR : Represents s L) (ht : L t = some xs)
    (hf : L f = some ms) (hne : t ≠ f) :
    Represents (listAppendList s t f) (update (update L t (some (xs ++ ms))) f (some [])) := by
  have hrt := hR.ring ht
  have hrf := hR.ring hf
  have hval : listAppendList s t f =
      listHeadInit (listDel (s.splice (lastOr t xs) f (lastOr f ms) t) f) f := by
    rw [listAppendList, hrt.prev_head, hrf.prev_head]
    congr 2
    ext a
    · simp [Links.splice]
    · simp [Links.splice, Function.update_comm hne]
  rw [hval]
  refine join_represents hR ht hf hne (hrt.absorb hrf (hR.apart ht hf hne)) (fun a => ?_)
    fun a ha => ?_
  · exact List.mem_append
  · have h₁ := List.mem_append_left (f :: ms) (lastOr_mem t xs)
    have h₂ := List.mem_append_right (t :: xs) (lastOr_mem f ms)
    have h₃ := List.mem_append_right (t :: xs) (List.mem_cons_self (a := f) (l := ms))
    refine splice_agree ?_ ?_ ?_ ?_
    · exact (ne_of_mem_of_not_mem h₁ ha).symm
    · exact (ne_of_mem_of_not_mem h₃ ha).symm
    · exact (ne_of_mem_of_not_mem h₂ ha).symm
    · exact (ne_of_mem_of_not_mem List.mem_cons_self ha).symm

theorem listPrependList_represents {t f : α} (hR : Represents s L) (ht : L t = some xs)
    (hf : L f = some ms) (hne : t ≠ f) :
    Represents (listPrependList s t f) (update (update L t (some (ms ++ xs))) f (some [])) := by
  have hrt := hR.ring ht
  have hrf := hR.ring hf
  have hdis := hR.apart ht hf hne
  have hlast : lastOr f ms ≠ t := by
    intro he
    exact hdis t List.mem_cons_self (he ▸ lastOr_mem f ms)
  have hval : listPrependList s t f =
      listHeadInit (listDel (s.splice t f (lastOr f ms) (firstOr t xs)) f) f := by
    rw [listPrependList, hrf.prev_head, hrt.next_head]
    congr 2
    ext a
    · simp [Links.splice, Function.update_comm hlast]
    · simp [Links.splice]
  have hring : Ring (s.splice t f (lastOr f ms) (firstOr t xs)) t ([] ++ f :: (ms ++ xs)) :=
    hrt.absorbFront hrf hdis
  have hjoin := join_represents hR ht hf hne hring
  rw [List.nil_append, List.nil_append] at hjoin
  rw [hval]
  refine hjoin (fun a => ?_) fun a ha => ?_
  · rw [List.mem_append]
    exact or_comm
  · have h₁ : firstOr t xs ∈ t :: (f :: ms ++ xs) := firstOr_mem_append t (f :: ms) xs
    have h₂ : lastOr f ms ∈ t :: (f :: ms ++ xs) :=
      List.mem_cons_of_mem _ (List.mem_append_left xs (lastOr_mem f ms))
    have h₃ : f ∈ t :: (f :: ms ++ xs) := by simp
    refine splice_agree ?_ ?_ ?_ ?_
    · exact (ne_of_mem_of_not_mem List.mem_cons_self ha).symm
    · exact (ne_of_mem_of_not_mem h₃ ha).symm
    · exact (ne_of_mem_of_not_mem h₂ ha).symm
    · exact (ne_of_mem_of_not_mem h₁ ha).symm

/-- A call that is used as the header describes does to the memory what the
header says, and returns what it says. -/
theorem exec_step {L' : α → Option (List α)} {c : Call α} {r : Answer α} (hR : Represents s L)
    (hstep : Step L c L' r) : ∃ s', exec s c = some (s', r) ∧ Represents s' L' := by
  cases hstep with
  | init hh => exact ⟨_, rfl, hR.new hh⟩
  | add hL hn => exact ⟨_, rfl, listAdd_represents hR hL hn⟩
  | addTail hL hn => exact ⟨_, rfl, listAddTail_represents hR hL hn⟩
  | addAfter hL hn => exact ⟨_, rfl, listAddAfter_represents hR hL hn⟩
  | empty hL => exact ⟨s, by rw [exec, listEmpty_eq (hR.ring hL)], hR⟩
  | del hL => exact ⟨_, rfl, listDel_represents hR hL⟩
  | delFrom hL =>
    refine ⟨_, ?_, listDel_represents hR hL⟩
    rw [exec, listDelFrom_eq hR hL, Option.map_some]
  | top hL => exact ⟨s, by rw [exec, listTop_eq (hR.ring hL)], hR⟩
  | pop hL =>
    obtain ⟨hans, hrep⟩ := listPop_represents hR hL
    exact ⟨_, by rw [exec, hans], hrep⟩
  | tail hL => exact ⟨s, by rw [exec, listTail_eq (hR.ring hL)], hR⟩
  | next hL => exact ⟨s, by rw [exec, listNext_eq (hR.ring hL)], hR⟩
  | prev hL => exact ⟨s, by rw [exec, listPrev_eq (hR.ring hL)], hR⟩
  | appendList ht hf hne => exact ⟨_, rfl, listAppendList_represents hR ht hf hne⟩
  | prependList ht hf hne => exact ⟨_, rfl, listPrependList_represents hR ht hf hne⟩

/-- A run of such calls. -/
theorem execAll_run {L' : α → Option (List α)} {cs : List (Call α)} {rs : List (Answer α)}
    (hR : Represents s L) (hrun : Run L cs L' rs) :
    ∃ s', execAll s cs = some (s', rs) ∧ Represents s' L' := by
  induction hrun generalizing s with
  | nil => exact ⟨s, rfl, hR⟩
  | cons hstep _ ih =>
    obtain ⟨s₁, hexec, hR₁⟩ := exec_step hR hstep
    obtain ⟨s₂, hrest, hR₂⟩ := ih hR₁
    exact ⟨s₂, by simp [execAll, hexec, hrest], hR₂⟩

end OnStore

/-! ### The loops -/

section Loops

variable {s : Links α} {h : α}

theorem forEachFrom_ring {body : α → σ → σ} {xs ys : List α} (hr : Ring s h (xs ++ ys)) {fuel : ℕ}
    (hf : ys.length < fuel) (x : σ) :
    forEachFrom s h body fuel (firstOr h ys) x = some (ys.foldl (fun x i => body i x) x) := by
  induction ys generalizing xs fuel x with
  | nil =>
    obtain ⟨fuel, rfl⟩ := Nat.exists_eq_succ_of_ne_zero (Nat.ne_zero_of_lt hf)
    exact if_pos rfl
  | cons i ys ih =>
    obtain ⟨fuel, rfl⟩ := Nat.exists_eq_succ_of_ne_zero (Nat.ne_zero_of_lt hf)
    have hr' : Ring s h ((xs ++ [i]) ++ ys) := by simpa using hr
    show forEachFrom s h body (fuel + 1) i x = _
    rw [forEachFrom, if_neg hr.ne_head, hr.next_mem]
    exact ih hr' (Nat.lt_of_succ_lt_succ hf) (body i x)

theorem forEachRevFrom_ring {body : α → σ → σ} {xs ys : List α} (hr : Ring s h (xs ++ ys))
    {fuel : ℕ} (hf : xs.length < fuel) (x : σ) :
    forEachRevFrom s h body fuel (lastOr h xs) x = some (xs.foldr body x) := by
  induction xs using List.reverseRecOn generalizing ys fuel x with
  | nil =>
    obtain ⟨fuel, rfl⟩ := Nat.exists_eq_succ_of_ne_zero (Nat.ne_zero_of_lt hf)
    exact if_pos rfl
  | append_singleton xs i ih =>
    obtain ⟨fuel, rfl⟩ := Nat.exists_eq_succ_of_ne_zero (Nat.ne_zero_of_lt hf)
    have hr' : Ring s h (xs ++ i :: ys) := by simpa using hr
    rw [List.length_append, List.length_singleton] at hf
    rw [lastOr_concat, forEachRevFrom, if_neg hr'.ne_head, hr'.prev_mem,
      ih hr' (Nat.lt_of_succ_lt_succ hf), List.foldr_append]
    rfl

/-- A loop visits the entries in order. -/
theorem listForEach_eq {xs : List α} (hr : Ring s h xs) (body : α → σ → σ) {fuel : ℕ}
    (hf : xs.length < fuel) (x : σ) :
    listForEach s h body fuel x = some (xs.foldl (fun x i => body i x) x) := by
  rw [listForEach, hr.next_head]
  exact forEachFrom_ring (show Ring s h ([] ++ xs) from hr) hf x

/-- A loop backwards visits them the other way round. -/
theorem listForEachRev_eq {xs : List α} (hr : Ring s h xs) (body : α → σ → σ) {fuel : ℕ}
    (hf : xs.length < fuel) (x : σ) :
    listForEachRev s h body fuel x = some (xs.foldr body x) := by
  have hr' : Ring s h (xs ++ []) := by rwa [List.append_nil]
  rw [listForEachRev, hr.prev_head]
  exact forEachRevFrom_ring hr' hf x

/-- Any run of calls, from memory with arbitrary content, returns what the
header says, and leaves lists that can be walked in both directions. -/
theorem list_run {L : α → Option (List α)} {cs : List (Call α)} {rs : List (Answer α)}
    (s : Links α) (hrun : Run (fun _ => none) cs L rs) :
    ∃ s', execAll s cs = some (s', rs) ∧ ∀ h xs, L h = some xs →
      ∀ (τ : Type) (body : α → τ → τ) (x : τ) (fuel : ℕ), xs.length < fuel →
        listForEach s' h body fuel x = some (xs.foldl (fun x i => body i x) x) ∧
        listForEachRev s' h body fuel x = some (xs.foldr body x) := by
  have hR : Represents s (fun _ => none) := ⟨fun hL => (by cases hL), fun hL => (by cases hL)⟩
  obtain ⟨s', hexec, hR'⟩ := execAll_run hR hrun
  refine ⟨s', hexec, fun h xs hL τ body x fuel hf => ⟨?_, ?_⟩⟩
  · exact listForEach_eq (hR'.ring hL) body hf x
  · exact listForEachRev_eq (hR'.ring hL) body hf x

/-- Two entries go on the list of `0`, all of it moves to the list of `1`, and
the first entry is taken off again. -/
theorem list_run_example : ∃ s' : Links ℕ,
    execAll ⟨id, id⟩ [.init 0, .addTail 0 2, .add 0 3, .init 1, .prependList 1 0, .pop 1] =
      some (s', [.void, .void, .void, .void, .void, .entry (some 3)]) ∧
    listForEach s' 1 (fun i x => x + i) 5 0 = some 2 := by
  let L : List ℕ → ℕ → Option (List ℕ) := fun xs => update (fun _ => none) 0 (some xs)
  have hL : ∀ xs ys, update (L xs) 0 (some ys) = L ys := fun xs ys => Function.update_idem ..
  have h₂ : Step (L []) (.addTail 0 2) (L [2]) .void :=
    hL [] [2] ▸ .addTail (Function.update_self ..) (free_of_single (by decide))
  have h₃ : Step (L [2]) (.add 0 3) (L [3, 2]) .void :=
    hL [2] [3, 2] ▸ .add (Function.update_self ..) (free_of_single (by decide))
  have h₄ : Step (L [3, 2]) (.init 1) (update (L [3, 2]) 1 (some [])) .void :=
    .init fun h' xs _ hL hm =>
      free_of_single (by decide) h' xs hL (List.mem_cons_of_mem _ hm)
  let L' := update (update (update (L [3, 2]) 1 (some [])) 1 (some [3, 2])) 0 (some [])
  have h₅ : Step (update (L [3, 2]) 1 (some [])) (.prependList 1 0) L' .void :=
    @Step.prependList ℕ _ _ 1 0 [] [3, 2] (Function.update_self 1 ..) rfl Nat.one_ne_zero
  have h₆ : Step L' (.pop 1) (update L' 1 (some [2])) (.entry (some 3)) :=
    .pop (show L' 1 = some [3, 2] from rfl)
  obtain ⟨s', hexec, hwalk⟩ := list_run ⟨id, id⟩ (.cons (.init (by simp)) (.cons h₂ (.cons h₃
    (.cons h₄ (.cons h₅ (.cons h₆ .nil))))))
  exact ⟨s', hexec, (hwalk 1 [2] (Function.update_self ..) ℕ (fun i x => x + i) 0 5 (by decide)).1⟩

/-- What is left of a list whose entries are deleted as the body says, and what
the body has made of its state. -/
def keep (body : α → σ → Bool × σ) : List α → σ → List α × σ
  | [], x => ([], x)
  | i :: is, x =>
    let (del, x') := body i x
    let (ks, x'') := keep body is x'
    (if del then ks else i :: ks, x'')

theorem forEachSafeFrom_represents {body : α → σ → Bool × σ} {L : α → Option (List α)}
    {xs ys : List α} (hR : Represents s L) (hL : L h = some (xs ++ ys)) {fuel : ℕ}
    (hf : ys.length < fuel) (x : σ) :
    ∃ s', forEachSafeFrom h body fuel s (firstOr h ys) (s.next (firstOr h ys)) x =
        some (s', (keep body ys x).2) ∧
      Represents s' (update L h (some (xs ++ (keep body ys x).1))) := by
  induction ys generalizing s L xs fuel x with
  | nil =>
    obtain ⟨fuel, rfl⟩ := Nat.exists_eq_succ_of_ne_zero (Nat.ne_zero_of_lt hf)
    refine ⟨s, if_pos rfl, ?_⟩
    show Represents s (update L h (some (xs ++ [])))
    rwa [← hL, Function.update_eq_self]
  | cons i ys ih =>
    obtain ⟨fuel, rfl⟩ := Nat.exists_eq_succ_of_ne_zero (Nat.ne_zero_of_lt hf)
    have hr := hR.ring hL
    have hf' : ys.length < fuel := Nat.lt_of_succ_lt_succ hf
    show ∃ s', forEachSafeFrom h body (fuel + 1) s i (s.next i) x = _ ∧ _
    rw [forEachSafeFrom, if_neg hr.ne_head, hr.next_mem, keep]
    obtain ⟨del, x'⟩ := body i x
    cases del with
    | true =>
      -- the entry goes; `nxt` was read before
      obtain ⟨s', hrun, hR'⟩ := ih (listDel_represents hR hL) (Function.update_self ..) hf' x'
      rw [Function.update_idem] at hR'
      exact ⟨s', hrun, hR'⟩
    | false =>
      have hL' : L h = some ((xs ++ [i]) ++ ys) := by simpa using hL
      obtain ⟨s', hrun, hR'⟩ := ih hR hL' hf' x'
      rw [List.append_assoc, List.singleton_append] at hR'
      exact ⟨s', hrun, hR'⟩

/-- A safe loop visits every entry once and in order, and may delete the one it
is at; all other lists stay as they are. -/
theorem list_for_each_safe_deletes {L : α → Option (List α)} {xs : List α} (hR : Represents s L)
    (hL : L h = some xs) (body : α → σ → Bool × σ) {fuel : ℕ} (hf : xs.length < fuel) (x : σ) :
    ∃ s', listForEachSafe s h body fuel x = some (s', (keep body xs x).2) ∧
      Represents s' (update L h (some (keep body xs x).1)) := by
  rw [listForEachSafe, (hR.ring hL).next_head]
  exact forEachSafeFrom_represents hR (show L h = some ([] ++ xs) from hL) hf x

theorem list_for_each_safe_deletes_example :
    ∃ s' : Links ℕ,
      listForEachSafe (listAddTail (listAddTail (listHeadInit ⟨id, id⟩ 0) 0 1) 0 2) 0
        (fun i x => (i == 1, x + i)) 3 0 = some (s', 3) ∧
      ∃ L, Represents s' L ∧ L 0 = some [2] := by
  have h₀ : Represents (⟨id, id⟩ : Links ℕ) (fun _ => none) :=
    ⟨fun hL => (by cases hL), fun hL => (by cases hL)⟩
  have h₁ : Represents (listHeadInit ⟨id, id⟩ 0) (update (fun _ => none) 0 (some [])) :=
    h₀.new (by simp)
  have h₂ := listAddTail_represents h₁ (Function.update_self ..)
    (free_of_single (show 1 ∉ [0] by decide))
  rw [Function.update_idem] at h₂
  have h₃ := listAddTail_represents h₂ (Function.update_self ..)
    (free_of_single (show 2 ∉ [0, 1] by decide))
  obtain ⟨s', hrun, hR⟩ := list_for_each_safe_deletes h₃ (Function.update_self ..)
    (fun i x => (i == 1, x + i)) (show [1, 2].length < 3 by decide) 0
  exact ⟨s', hrun, _, hR, Function.update_self ..⟩

/-! ### The consistency check -/

/-- The check has come along `xs` and found every pointer back in order. -/
theorem checkFrom_iff [Fintype α] {xs : List α} (hc : (h :: xs).IsChain s.Adj) (hh : h ∉ xs)
    {fuel : ℕ} (hf : Fintype.card α < fuel + (xs.length + 1)) :
    ∃ b, checkFrom s h fuel (lastOr h xs) (s.next (lastOr h xs)) = some b ∧
      (b = true ↔ ∃ ws, Ring s h (xs ++ ws)) := by
  have hnodup := nodup_of_chain hc hh
  induction fuel generalizing xs with
  | zero =>
    have hcard := hnodup.length_le_card
    rw [List.length_cons] at hcard
    omega
  | succ fuel ih =>
    rw [checkFrom]
    have hadj : ∀ ws, Ring s h (xs ++ ws) → s.Adj (lastOr h xs) (firstOr h ws) :=
      fun ws hr => (ring_append_iff.mp hr).2.2.2
    by_cases hn : s.next (lastOr h xs) = h
    · refine ⟨_, if_pos hn, ?_⟩
      rw [decide_eq_true_iff]
      constructor
      · intro hp
        refine ⟨[], ring_append_iff.mpr ⟨by rwa [List.append_nil], hc, ?_, hn, hp⟩⟩
        exact List.isChain_singleton h
      · rintro ⟨ws, hr⟩
        have hfirst := (hadj ws hr).1.symm.trans hn
        have hback := (hadj ws hr).2
        rwa [hfirst] at hback
    · rw [if_neg hn]
      by_cases hp : s.prev (s.next (lastOr h xs)) = lastOr h xs
      · rw [if_neg (not_not.mpr hp)]
        generalize hnode : s.next (lastOr h xs) = n at hn hp ⊢
        have hc' : (h :: (xs ++ [n])).IsChain s.Adj := by
          rw [← List.cons_append]
          refine hc.append (List.isChain_singleton n) ?_
          intro a ha b hb
          rw [getLast?_cons, Option.mem_some_iff] at ha
          rw [List.head?_singleton, Option.mem_some_iff] at hb
          rw [← ha, ← hb]
          exact ⟨hnode, hp⟩
        have hh' : h ∉ xs ++ [n] := by
          simp only [List.mem_append, List.mem_singleton, not_or]
          exact ⟨hh, Ne.symm hn⟩
        have hlen : (xs ++ [n]).length = xs.length + 1 := by simp
        obtain ⟨b, hb, hiff⟩ := ih hc' hh' (by omega) (nodup_of_chain hc' hh')
        rw [lastOr_concat] at hb
        refine ⟨b, hb, hiff.trans ?_⟩
        constructor
        · rintro ⟨ws, hr⟩
          exact ⟨n :: ws, by simpa using hr⟩
        · rintro ⟨ws, hr⟩
          have hfirst : n = firstOr h ws := hnode.symm.trans (hadj ws hr).1
          cases ws with
          | nil => exact absurd hfirst hn
          | cons w ws =>
            refine ⟨ws, ?_⟩
            rw [show n = w from hfirst]
            simpa using hr
      · rw [if_pos hp]
        refine ⟨false, rfl, ?_⟩
        simp only [Bool.false_eq_true, false_iff, not_exists]
        intro ws hr
        have hback := (hadj ws hr).2
        rw [← (hadj ws hr).1] at hback
        exact hp hback

/-- On every memory the check ends after at most as many steps as there are
nodes, and it accepts exactly the heads of proper lists. -/
theorem list_check_node_iff [Fintype α] (s : Links α) (h : α) {fuel : ℕ}
    (hf : Fintype.card α ≤ fuel) :
    (listCheckNode s h fuel = some true ↔ ∃ xs, Ring s h xs) ∧
      (listCheckNode s h fuel = some false ↔ ¬ ∃ xs, Ring s h xs) := by
  obtain ⟨b, hb, hiff⟩ := checkFrom_iff (List.isChain_singleton h) List.not_mem_nil
    (show Fintype.card α < fuel + ([].length + 1) from Nat.lt_succ_of_le hf)
  have hval : listCheckNode s h fuel = some b := hb
  rw [hval, ← show (b = true ↔ ∃ xs, Ring s h xs) from hiff]
  cases b <;> simp

theorem list_check_node_iff_example :
    (∃ xs, Ring (⟨![1, 2, 0], ![2, 0, 1]⟩ : Links (Fin 3)) 0 xs) ∧
      ¬ ∃ xs, Ring (⟨![1, 2, 1], ![2, 0, 1]⟩ : Links (Fin 3)) 0 xs :=
  ⟨(list_check_node_iff _ 0 le_rfl).1.mp (by decide),
    (list_check_node_iff _ 0 le_rfl).2.mp (by decide)⟩

end Loops

end CcanList

end Accfg
