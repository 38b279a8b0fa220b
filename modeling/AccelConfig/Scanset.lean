/-
Words that `sscanf` scans, and buffers they are stored in.

A conversion takes the longest run of characters that it can, and leaves the
rest: `scanset` is `%[...]`, for a set of characters, and `scanWord` is `%s`,
which skips blanks first.  Neither knows how large a buffer is; `store` does.

* `scanset_eq_some_iff`, `scanWord_eq_some_iff` — what is scanned, without the
  loop that scans it;
* `store_eq_some_iff` — a buffer suffices if the text is shorter than it, since
  a terminator follows.
-/
import AccelConfig.CNumeral

open CNumeral

namespace Scanset

variable {p : Char → Bool} {cs word rest : List Char}

/-- No character of a set stands at the head. -/
def EndsFor (p : Char → Bool) (rest : List Char) : Prop := ∀ c ∈ rest.head?, p c = false

instance (p : Char → Bool) (rest : List Char) : Decidable (EndsFor p rest) :=
  inferInstanceAs (Decidable (∀ c ∈ rest.head?, p c = false))

/-- `%[...]`: a word, which is not empty, and what follows it. -/
def scanset (p : Char → Bool) (cs : List Char) : Option (List Char × List Char) :=
  match cs.takeWhile p with
  | [] => none
  | word => some (word, cs.dropWhile p)

/-- `%s`. -/
def scanWord (cs : List Char) : Option (List Char × List Char) :=
  scanset (fun c => !isBlank c) (cs.dropWhile isBlank)

/-! ### Longest runs -/

theorem takeWhile_of_endsFor (h : EndsFor p rest) : rest.takeWhile p = [] := by
  cases rest with
  | nil => rfl
  | cons c rest =>
    have hc : p c = false := by simpa [EndsFor] using h
    rw [List.takeWhile_cons, hc]
    rfl

theorem dropWhile_of_endsFor (h : EndsFor p rest) : rest.dropWhile p = rest := by
  cases rest with
  | nil => rfl
  | cons c rest =>
    have hc : p c = false := by simpa [EndsFor] using h
    rw [List.dropWhile_cons, hc]
    rfl

theorem takeWhile_run (hword : ∀ c ∈ word, p c = true) (hrest : EndsFor p rest) :
    (word ++ rest).takeWhile p = word := by
  rw [List.takeWhile_append_of_pos hword, takeWhile_of_endsFor hrest, List.append_nil]

theorem dropWhile_run (hword : ∀ c ∈ word, p c = true) (hrest : EndsFor p rest) :
    (word ++ rest).dropWhile p = rest := by
  rw [List.dropWhile_append_of_pos hword, dropWhile_of_endsFor hrest]

theorem endsFor_dropWhile (p : Char → Bool) (cs : List Char) : EndsFor p (cs.dropWhile p) := by
  intro c hc
  have hnot := List.head?_dropWhile_not p cs
  rw [Option.mem_def.mp hc] at hnot
  simpa using hnot

/-! ### Conversions -/

theorem scanset_eq_some_iff : scanset p cs = some (word, rest) ↔
    cs = word ++ rest ∧ word ≠ [] ∧ (∀ c ∈ word, p c = true) ∧ EndsFor p rest := by
  constructor
  · intro h
    rw [scanset] at h
    split at h
    · cases h
    next hne =>
    obtain ⟨hword, hrest⟩ := Prod.mk.inj (Option.some.inj h)
    subst hword hrest
    refine ⟨List.takeWhile_append_dropWhile.symm, hne, ?_, endsFor_dropWhile p cs⟩
    exact List.all_eq_true.mp List.all_takeWhile
  · rintro ⟨rfl, hne, hword, hrest⟩
    rw [scanset, takeWhile_run hword hrest, dropWhile_run hword hrest]
    split
    · exact absurd rfl hne
    · rfl

theorem scanWord_eq_some_iff : scanWord cs = some (word, rest) ↔
    ∃ pad, cs = pad ++ word ++ rest ∧ (∀ c ∈ pad, isBlank c = true) ∧ word ≠ [] ∧
      (∀ c ∈ word, isBlank c = false) ∧ EndsFor (fun c => !isBlank c) rest := by
  have hbang : (∀ c ∈ word, (!isBlank c) = true) ↔ ∀ c ∈ word, isBlank c = false := by
    simp only [Bool.not_eq_true']
  rw [scanWord, scanset_eq_some_iff, hbang]
  constructor
  · rintro ⟨hcs, hne, hword, hrest⟩
    refine ⟨cs.takeWhile isBlank, ?_, List.all_eq_true.mp List.all_takeWhile, hne, hword, hrest⟩
    rw [List.append_assoc, ← hcs, List.takeWhile_append_dropWhile]
  · rintro ⟨pad, rfl, hpad, hne, hword, hrest⟩
    refine ⟨?_, hne, hword, hrest⟩
    -- the word starts with no blank
    have hends : EndsFor isBlank (word ++ rest) := by
      obtain ⟨c, word, rfl⟩ := List.exists_cons_of_ne_nil hne
      intro c' hc'
      have heq : c = c' := by simpa using hc'
      exact heq ▸ hword c List.mem_cons_self
    rw [List.append_assoc, dropWhile_run hpad hends]

/-! ### Buffers -/

/-- Store a text and its terminator in a buffer; `none` if it is overrun. -/
def store (size : ℕ) (text : List Char) : Option Unit :=
  if text.length < size then some () else none

theorem store_eq_some_iff {size : ℕ} {text : List Char} :
    store size text = some () ↔ text.length < size := by
  rw [store]
  split
  · next h => exact ⟨fun _ => h, fun _ => rfl⟩
  · next h => exact ⟨fun hnone => (nomatch hnone), fun hlt => absurd hlt h⟩

end Scanset
