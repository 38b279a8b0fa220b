/-
Programs that own what they are given.

A program gets blocks and descriptors from the system, looks into them and gives
them back.  A heap holds those it has; a block that is given back twice, or used
after it was given back, is a fault.  What the system does otherwise, how long a
directory is or whether there is memory, are answers of `Outcomes`.

`Triple O P m Q E` says that `m`, which owns `P`, ends with a result and a
possession that satisfy `Q`, or at a fault that satisfies `E`, and that it leaves
alone whatever else there is.

* `Triple.bind`, `Triple.frame` — one program after another, and what is kept;
* `Triple.malloc_bind`, `Triple.release_bind`, `Triple.touch_bind` — one step;
* `Triple.freeAll` — giving back a list, some of which may be null;
* `Balanced.bind` — calling what gives back all it gets;
* `Triple.foldlM`, `Triple.forEach`, `Triple.mapM` — loops.
-/
import Mathlib.Data.Multiset.AddSub
import Mathlib.Algebra.BigOperators.Group.Multiset.Basic
import Mathlib.Algebra.BigOperators.Group.List.Basic
import Mathlib.Tactic.Abel

namespace Ownership

/-- What was given: at which place of the program, and as which number. -/
structure Cell (σ : Type) where
  site : σ
  id : ℕ
  deriving DecidableEq, Repr

inductive Fault where
  | doubleFree
  | useAfterFree
  | nullPointer
  deriving DecidableEq, Repr

/-- Whether there is memory for the block of a number, and the answers to the
questions in their order. -/
structure Outcomes where
  memory : ℕ → Bool
  answer : ℕ → ℕ

/-- There is always memory. -/
def Outcomes.Plenty (O : Outcomes) : Prop := ∀ n, O.memory n = true

/-- What the program has been given and has not given back. -/
structure Heap (σ : Type) where
  live : Multiset (Cell σ)
  next : ℕ
  asked : ℕ
  nodup : live.Nodup
  fresh : ∀ c ∈ live, c.id < next

namespace Heap

variable {σ : Type}

def empty : Heap σ := ⟨0, 0, 0, Multiset.nodup_zero, fun _ hc => absurd hc (Multiset.notMem_zero _)⟩

/-- A new block. -/
def insert (h : Heap σ) (s : σ) : Heap σ where
  live := ⟨s, h.next⟩ ::ₘ h.live
  next := h.next + 1
  asked := h.asked
  nodup := Multiset.nodup_cons.mpr ⟨fun hc => lt_irrefl _ (h.fresh _ hc), h.nodup⟩
  fresh := by
    intro c hc
    rcases Multiset.mem_cons.mp hc with rfl | hc
    · exact Nat.lt_succ_self _
    · exact Nat.lt_succ_of_lt (h.fresh c hc)

/-- A block was asked for and not given. -/
def skip (h : Heap σ) : Heap σ :=
  { h with next := h.next + 1, fresh := fun c hc => Nat.lt_succ_of_lt (h.fresh c hc) }

def remove [DecidableEq σ] (h : Heap σ) (c : Cell σ) : Heap σ where
  live := h.live.erase c
  next := h.next
  asked := h.asked
  nodup := h.nodup.erase c
  fresh := fun d hd => h.fresh d (Multiset.mem_of_mem_erase hd)

end Heap

/-! ### Programs -/

abbrev Prog (σ α : Type) := ReaderT Outcomes (StateT (Heap σ) (Except Fault)) α

section Steps

variable {σ α : Type}

/-- Ask the system. -/
def ask : Prog σ ℕ := fun O h => .ok (O.answer h.asked, { h with asked := h.asked + 1 })

/-- Get a descriptor, or what else does not need memory. -/
def acquire (s : σ) : Prog σ (Cell σ) := fun _ h => .ok (⟨s, h.next⟩, h.insert s)

/-- Get a block, if there is memory. -/
def malloc (s : σ) : Prog σ (Option (Cell σ)) := fun O h =>
  if O.memory h.next then .ok (some ⟨s, h.next⟩, h.insert s) else .ok (none, h.skip)

def crash : Prog σ α := fun _ _ => .error .nullPointer

variable [DecidableEq σ]

/-- Give a block back. -/
def release (c : Cell σ) : Prog σ Unit := fun _ h =>
  if c ∈ h.live then .ok ((), h.remove c) else .error .doubleFree

/-- Read or write a block. -/
def touch (c : Cell σ) : Prog σ Unit := fun _ h =>
  if c ∈ h.live then .ok ((), h) else .error .useAfterFree

/-- Follow a pointer that may be null. -/
def follow : Option (Cell σ) → Prog σ Unit
  | some c => touch c
  | none => crash

/-- `free`, which does nothing with a null pointer. -/
def free : Option (Cell σ) → Prog σ Unit
  | some c => release c
  | none => pure ()

def freeAll : List (Option (Cell σ)) → Prog σ Unit
  | [] => pure ()
  | c :: cs => do
    free c
    freeAll cs

end Steps

/-! ### What is owned -/

section Own

variable {σ : Type}

/-- The block behind a pointer that may be null. -/
def own : Option (Cell σ) → Multiset (Cell σ)
  | some c => {c}
  | none => 0

@[simp] theorem own_some (c : Cell σ) : own (some c) = {c} := rfl

@[simp] theorem own_none : own (none : Option (Cell σ)) = 0 := rfl

/-- The blocks behind a list of pointers. -/
def ownAll (cs : List (Option (Cell σ))) : Multiset (Cell σ) := (cs.map own).sum

@[simp] theorem ownAll_nil : ownAll ([] : List (Option (Cell σ))) = 0 := rfl

@[simp] theorem ownAll_cons (c : Option (Cell σ)) (cs : List (Option (Cell σ))) :
    ownAll (c :: cs) = own c + ownAll cs := by
  rw [ownAll, ownAll, List.map_cons, List.sum_cons]

theorem ownAll_append (cs ds : List (Option (Cell σ))) :
    ownAll (cs ++ ds) = ownAll cs + ownAll ds := by
  rw [ownAll, ownAll, ownAll, List.map_append, List.sum_append]

/-- A sum over a list, at one place of which something else is put. -/
theorem sum_map_set {α M : Type*} [AddCommMonoid M] (f : α → M) {l : List α} {i : ℕ} {a : α}
    (h : l[i]? = some a) :
    ∃ R, (l.map f).sum = f a + R ∧ ∀ b, ((l.set i b).map f).sum = f b + R := by
  induction l generalizing i with
  | nil => simp at h
  | cons x l ih =>
    cases i with
    | zero =>
      obtain rfl : x = a := by simpa using h
      exact ⟨(l.map f).sum, by simp, fun b => by simp⟩
    | succ i =>
      obtain ⟨R, hsum, hset⟩ := ih (by simpa using h)
      refine ⟨f x + R, ?_, fun b => ?_⟩
      · rw [List.map_cons, List.sum_cons, hsum]
        abel
      · rw [List.set_cons_succ, List.map_cons, List.sum_cons, hset]
        abel

end Own

/-! ### Triples -/

section Rules

variable {σ α β : Type}

/-- A run that ended with the frame `F` untouched. -/
def Ends (F : Multiset (Cell σ)) (Q : α → Multiset (Cell σ) → Prop) (E : Fault → Prop) :
    Except Fault (α × Heap σ) → Prop
  | .ok (a, h) => ∃ R, h.live = R + F ∧ Q a R
  | .error e => E e

def Triple (O : Outcomes) (P : Multiset (Cell σ)) (m : Prog σ α)
    (Q : α → Multiset (Cell σ) → Prop) (E : Fault → Prop) : Prop :=
  ∀ (F : Multiset (Cell σ)) (h : Heap σ), h.live = P + F → Ends F Q E (m O h)

namespace Triple

variable {O : Outcomes} {P P' F : Multiset (Cell σ)} {m : Prog σ α} {k : α → Prog σ β}
  {Q : α → Multiset (Cell σ) → Prop} {Q' : β → Multiset (Cell σ) → Prop} {E : Fault → Prop}

/-- What a triple says of a run that begins with no more than it owns. -/
theorem ends (hm : Triple O P m Q E) {h : Heap σ} (hP : h.live = P) : Ends 0 Q E (m O h) :=
  hm 0 h (by rw [hP, add_zero])

theorem pure {a : α} (hQ : Q a P) : Triple O P (Pure.pure a) Q E :=
  fun _ _ hP => ⟨P, hP, hQ⟩

theorem bind (hm : Triple O P m Q E) (hk : ∀ a R, Q a R → Triple O R (k a) Q' E) :
    Triple O P (m >>= k) Q' E := by
  intro F h hP
  show Ends F Q' E (m O h >>= fun r => k r.1 O r.2)
  have hrun := hm F h hP
  generalize m O h = r at hrun ⊢
  obtain e | ⟨a, h'⟩ := r
  · exact hrun
  · obtain ⟨R, hR, hQ⟩ := hrun
    exact hk a R hQ F h' hR

/-- One program after another that owns something certain when it ends. -/
theorem bind_eq (hm : Triple O P m (fun _ R => R = P') E) (hk : ∀ a, Triple O P' (k a) Q' E) :
    Triple O P (m >>= k) Q' E := by
  refine hm.bind ?_
  rintro a _ rfl
  exact hk a

theorem weaken {Q₁ : α → Multiset (Cell σ) → Prop} {E₁ : Fault → Prop} (hm : Triple O P m Q₁ E₁)
    (hQ : ∀ a R, Q₁ a R → Q a R) (hE : ∀ e, E₁ e → E e) : Triple O P m Q E := by
  intro F h hP
  have hrun := hm F h hP
  generalize m O h = r at hrun ⊢
  obtain e | ⟨a, h'⟩ := r
  · exact hE e hrun
  · obtain ⟨R, hR, hR'⟩ := hrun
    exact ⟨R, hR, hQ a R hR'⟩

theorem discard {Q : Unit → Multiset (Cell σ) → Prop} (hm : Triple O P m (fun _ => Q ()) E) :
    Triple O P (discard m) Q E := by
  intro F h hP
  show Ends F Q E (Except.map _ (m O h))
  have hrun := hm F h hP
  generalize m O h = r at hrun ⊢
  obtain e | ⟨a, h'⟩ := r
  · exact hrun
  · exact hrun

/-- What a program does not own it leaves alone. -/
theorem frame (hm : Triple O P m Q E) (F : Multiset (Cell σ)) :
    Triple O (P + F) m (fun a R => ∃ R', R = R' + F ∧ Q a R') E := by
  intro G h hP
  have hrun := hm (F + G) h (by rw [hP, add_assoc])
  generalize m O h = r at hrun ⊢
  obtain e | ⟨a, h'⟩ := r
  · exact hrun
  · obtain ⟨R, hR, hQ⟩ := hrun
    exact ⟨R + F, by rw [hR, add_assoc], R, rfl, hQ⟩

/-- A program that is called owns a part. -/
theorem call_bind (F : Multiset (Cell σ)) (hm : Triple O P m Q E) (hF : P' = P + F)
    (hk : ∀ a R, Q a R → Triple O (R + F) (k a) Q' E) : Triple O P' (m >>= k) Q' E := by
  subst hF
  refine (hm.frame F).bind ?_
  rintro a _ ⟨R, rfl, hQ⟩
  exact hk a R hQ

/-- What is owned can be listed in another order. -/
theorem perm (h : P = P') (hm : Triple O P' m Q E) : Triple O P m Q E := h ▸ hm

/-! #### Steps -/

theorem live_insert {h : Heap σ} {F : Multiset (Cell σ)} (hP : h.live = P + F) (s : σ) :
    (h.insert s).live = {⟨s, h.next⟩} + P + F := by
  show ⟨s, h.next⟩ ::ₘ h.live = _
  rw [hP, add_assoc, Multiset.singleton_add]

theorem acquire {s : σ} :
    Triple O P (Ownership.acquire s) (fun c R => c.site = s ∧ R = {c} + P) E :=
  fun _ _ hP => ⟨_, live_insert hP s, rfl, rfl⟩

theorem acquire_bind {s : σ} {k : Cell σ → Prog σ β}
    (hk : ∀ c, c.site = s → Triple O ({c} + P) (k c) Q' E) :
    Triple O P (Ownership.acquire s >>= k) Q' E := by
  refine acquire.bind ?_
  rintro c _ ⟨hc, rfl⟩
  exact hk c hc

theorem malloc {s : σ} :
    Triple O P (Ownership.malloc s)
      (fun r R => (r = none → ¬ O.Plenty) ∧ (∀ c, r = some c → c.site = s) ∧ R = own r + P) E := by
  intro F h hP
  by_cases hmem : O.memory h.next
  · rw [Ownership.malloc, if_pos hmem]
    refine ⟨_, live_insert hP s, nofun, ?_, rfl⟩
    rintro c ⟨⟩
    rfl
  · rw [Ownership.malloc, if_neg hmem]
    exact ⟨P, hP, fun _ hO => hmem (hO _), nofun, by rw [own_none, zero_add]⟩

theorem malloc_bind {s : σ} {k : Option (Cell σ) → Prog σ β}
    (hnone : ¬ O.Plenty → Triple O P (k none) Q' E)
    (hsome : ∀ c, c.site = s → Triple O ({c} + P) (k (some c)) Q' E) :
    Triple O P (Ownership.malloc s >>= k) Q' E := by
  refine malloc.bind ?_
  rintro (_ | c) _ ⟨hO, hc, rfl⟩
  · exact (hnone (hO rfl)).perm (by rw [own_none, zero_add])
  · exact hsome c (hc c rfl)

theorem crash (hE : E .nullPointer) : Triple O P (Ownership.crash : Prog σ α) Q E :=
  fun _ _ _ => hE

theorem crash_bind (hE : E .nullPointer) : Triple O P (Ownership.crash >>= k) Q' E :=
  (crash (Q := fun _ _ => False) hE).bind fun _ _ hno => hno.elim

section Give

variable [DecidableEq σ]

theorem release {c : Cell σ} :
    Triple O ({c} + P) (Ownership.release c) (fun _ R => R = P) E := by
  intro F h hP
  have hlive : h.live = c ::ₘ (P + F) := by rw [hP, add_assoc, Multiset.singleton_add]
  rw [Ownership.release, if_pos (hlive ▸ Multiset.mem_cons_self c _)]
  refine ⟨P, ?_, rfl⟩
  show h.live.erase c = P + F
  rw [hlive, Multiset.erase_cons_head]

theorem release_bind {c : Cell σ} {k : Unit → Prog σ β} (P : Multiset (Cell σ))
    (hP : P' = {c} + P) (hk : Triple O P (k ()) Q' E) :
    Triple O P' (Ownership.release c >>= k) Q' E := by
  subst hP
  exact release.bind_eq fun _ => hk

/-- A block that is looked into, and may have been given back. -/
theorem touch {c : Cell σ} (hc : c ∉ P → E .useAfterFree) :
    Triple O P (Ownership.touch c) (fun _ R => R = P) E := by
  intro F h hP
  by_cases hlive : c ∈ h.live
  · rw [Ownership.touch, if_pos hlive]
    exact ⟨P, hP, rfl⟩
  · rw [Ownership.touch, if_neg hlive]
    refine hc fun hmem => hlive ?_
    rw [hP]
    exact Multiset.mem_add.mpr (.inl hmem)

theorem touch_bind {c : Cell σ} {k : Unit → Prog σ β} (hc : c ∉ P → E .useAfterFree)
    (hk : Triple O P (k ()) Q' E) : Triple O P (Ownership.touch c >>= k) Q' E :=
  (touch hc).bind_eq fun _ => hk

theorem free_bind {c : Option (Cell σ)} {k : Unit → Prog σ β} (P : Multiset (Cell σ))
    (hP : P' = own c + P) (hk : Triple O P (k ()) Q' E) :
    Triple O P' (Ownership.free c >>= k) Q' E := by
  cases c with
  | none =>
    obtain rfl : P' = P := by rw [hP, own_none, zero_add]
    exact hk
  | some c => exact release_bind P hP hk

/-- Giving back a list of blocks, of which some may be null. -/
theorem freeAll {cs : List (Option (Cell σ))} :
    Triple O (ownAll cs + P) (Ownership.freeAll cs) (fun _ R => R = P) E := by
  induction cs with
  | nil => exact pure (zero_add P)
  | cons c cs ih =>
    refine free_bind (ownAll cs + P) ?_ ih
    rw [ownAll_cons, add_assoc]

theorem freeAll_bind {cs : List (Option (Cell σ))} {k : Unit → Prog σ β} (P : Multiset (Cell σ))
    (hP : P' = ownAll cs + P) (hk : Triple O P (k ()) Q' E) :
    Triple O P' (Ownership.freeAll cs >>= k) Q' E := by
  subst hP
  exact freeAll.bind_eq fun _ => hk

end Give

/-! #### Loops -/

/-- `I` holds of what a loop has made so far and owns. -/
theorem foldlM {ε τ : Type} {f : τ → ε → Prog σ τ} {I : τ → Multiset (Cell σ) → Prop}
    {l : List ε} (h : ∀ e ∈ l, ∀ t R, I t R → Triple O R (f t e) I E) {t : τ} (ht : I t P) :
    Triple O P (l.foldlM f t) I E := by
  induction l generalizing t P with
  | nil => exact pure ht
  | cons e l ih =>
    rw [List.foldlM_cons]
    refine (h e List.mem_cons_self t P ht).bind fun t' R hR => ?_
    exact ih (fun e' he' => h e' (List.mem_cons_of_mem _ he')) hR

/-- A loop that gives back what hangs on each element. -/
theorem forEach {ε : Type} {f : ε → Prog σ Unit} {w : ε → Multiset (Cell σ)} {l : List ε}
    (h : ∀ e ∈ l, ∀ F, P ≤ F → Triple O (w e + F) (f e) (fun _ R => R = F) E) :
    Triple O ((l.map w).sum + P) (l.foldlM (fun _ e => f e) ()) (fun _ R => R = P) E := by
  induction l with
  | nil => exact pure (by rw [List.map_nil, List.sum_nil, zero_add])
  | cons e l ih =>
    rw [List.foldlM_cons, List.map_cons, List.sum_cons, add_assoc]
    refine (h e List.mem_cons_self _ (Multiset.le_add_left P _)).bind_eq fun _ => ?_
    exact ih fun e' he' => h e' (List.mem_cons_of_mem _ he')

/-- A loop that makes one thing of each element, with what hangs on it. -/
theorem mapM {ε τ : Type} {f : ε → Prog σ τ} {w : ε → Multiset (Cell σ)} {ok : τ → Prop}
    {w' : τ → Multiset (Cell σ)} {l : List ε}
    (h : ∀ e ∈ l, Triple O (w e) (f e) (fun t R => ok t ∧ R = w' t) E) :
    Triple O (l.map w).sum (l.mapM f)
      (fun ts R => (∀ t ∈ ts, ok t) ∧ R = (ts.map w').sum) E := by
  induction l with
  | nil =>
    rw [List.mapM_nil]
    exact pure ⟨fun _ ht => absurd ht List.not_mem_nil, rfl⟩
  | cons e l ih =>
    rw [List.mapM_cons, List.map_cons, List.sum_cons]
    refine call_bind (l.map w).sum (h e List.mem_cons_self) rfl ?_
    rintro t _ ⟨ht, rfl⟩
    have htail := ih fun e' he' => h e' (List.mem_cons_of_mem _ he')
    refine call_bind (w' t) htail (add_comm _ _) ?_
    rintro ts _ ⟨hts, rfl⟩
    refine pure ⟨?_, ?_⟩
    · intro t' ht'
      rcases List.mem_cons.mp ht' with rfl | ht'
      · exact ht
      · exact hts t' ht'
    · rw [List.map_cons, List.sum_cons, add_comm]

end Triple

/-! ### Programs that give back all they get -/

/-- The program ends, and owns nothing more or less then. -/
def Balanced (m : Prog σ α) : Prop :=
  ∀ (O : Outcomes) (P : Multiset (Cell σ)) (E : Fault → Prop), Triple O P m (fun _ R => R = P) E

namespace Balanced

variable {O : Outcomes} {P : Multiset (Cell σ)} {m : Prog σ α} {k : α → Prog σ β}
  {Q : β → Multiset (Cell σ) → Prop} {E : Fault → Prop}

theorem bind (hm : Balanced m) (hk : ∀ a, Triple O P (k a) Q E) : Triple O P (m >>= k) Q E :=
  (hm O P E).bind_eq hk

theorem pure (a : α) : Balanced (Pure.pure a : Prog σ α) := fun _ _ _ => .pure rfl

theorem seq (hm : Balanced m) (hk : ∀ a, Balanced (k a)) : Balanced (m >>= k) :=
  fun O P E => hm.bind fun a => hk a O P E

theorem ask : Balanced (Ownership.ask : Prog σ ℕ) := fun _ P _ _ _ hP => ⟨P, hP, rfl⟩

theorem discard (hm : Balanced m) : Balanced (discard m) :=
  fun O P E => .discard (hm O P E)

theorem foldlM {ε τ : Type} {f : τ → ε → Prog σ τ} (h : ∀ t e, Balanced (f t e)) (l : List ε)
    (t : τ) : Balanced (l.foldlM f t) := by
  intro O P E
  refine Triple.foldlM (I := fun _ R => R = P) ?_ rfl
  rintro e _ t _ rfl
  exact h t e O _ E

end Balanced

end Rules

end Ownership
