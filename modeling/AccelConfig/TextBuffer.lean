/-
Buffers that grow, and the texts they hold.

A `strbuf` is a length, a capacity and the memory behind `buf`; the functions on it
are those of the source, with its machine arithmetic, its asserts and every access
checked against the memory.  What it is for is said by `Op.Makes`, on texts.

* `strbufGrow_gives` — room for what is to come, and the text as it was;
* `strbufSplice_gives`, `strbufAddf_gives`, `strbufRead_gives` — one function each;
* `run_gives` — after any sequence of operations the buffer holds the text, inside
  its memory and with a NUL behind it, and nothing but `die` ends the run early;
* `strbufInit_not_terminated` — the exception: memory got ahead of any text;
* `fixFilename_gives` — what `fix_filename` makes is the path it should be.
-/
import AccelConfig.ParseOptions

namespace Accfg.TextBuffer

/-- How a run can end early. -/
inductive Stop where
  | die (message : String)
  | assert
  | outOfBounds
  deriving DecidableEq, Repr

/-- What `realloc` gives, by the number of the call and the size, and what is in
the memory that nobody has written.  No object is larger than `PTRDIFF_MAX`. -/
structure Memory where
  granted : ℕ → ℕ → Bool
  garbage : ℕ → ℕ → Char
  granted_lt : ∀ k n, granted k n = true → n < 2 ^ 63

abbrev Run (α : Type) := ReaderT Memory (StateT ℕ (Except Stop)) α

def stop {α : Type} (e : Stop) : Run α := fun _ _ => .error e

def die {α : Type} (message : String) : Run α := stop (.die message)

/-- Arithmetic of `size_t`. -/
def sizeT (n : ℕ) : ℕ := n % 2 ^ 64

def nul : Char := Char.ofNat 0

/-! ### Memory -/

/-- `memcpy` and stores into the memory behind a pointer. -/
def memcpy (buf : List Char) (pos : ℕ) (data : List Char) : Run (List Char) :=
  if pos + data.length ≤ buf.length then
    return buf.take pos ++ data ++ buf.drop (pos + data.length)
  else stop .outOfBounds

/-- `memmove` within a buffer. -/
def memmove (buf : List Char) (dst src n : ℕ) : Run (List Char) :=
  if src + n ≤ buf.length then memcpy buf dst ((buf.drop src).take n)
  else stop .outOfBounds

/-- `xrealloc`. -/
def xrealloc (ptr : List Char) (size : ℕ) : Run (List Char) := fun M k =>
  if M.granted k size then
    .ok (ptr.take size ++ (List.range (size - ptr.length)).map (M.garbage k), k + 1)
  else .error (.die "Out of memory, realloc failed")

/-- `alloc_nr` -/
def allocNr (x : ℕ) : ℕ := sizeT (sizeT (x + 16) * 3) / 2

/-- `ALLOC_GROW` -/
def allocGrow (x : List Char) (nr alloc : ℕ) : Run (List Char × ℕ) :=
  if alloc < nr then do
    let alloc := if allocNr alloc < nr then nr else allocNr alloc
    return (← xrealloc x alloc, alloc)
  else return (x, alloc)

/-! ### Buffers -/

/-- `struct strbuf` -/
structure Strbuf where
  alloc : ℕ
  len : ℕ
  buf : List Char

/-- `STRBUF_INIT`, and `strbuf_init` without a hint: `buf` is `strbuf_slopbuf`. -/
def Strbuf.empty : Strbuf := ⟨0, 0, [nul]⟩

/-- `strbuf_grow` -/
def strbufGrow (sb : Strbuf) (extra : ℕ) : Run Strbuf :=
  if sizeT (sb.len + extra + 1) ≤ sb.len then die "you want to use way too much memory"
  else do
    let buf := if sb.alloc = 0 then [] else sb.buf
    let r ← allocGrow buf (sizeT (sb.len + extra + 1)) sb.alloc
    return { sb with buf := r.1, alloc := r.2 }

/-- `strbuf_init` -/
def strbufInit (hint : ℕ) : Run Strbuf :=
  if hint = 0 then return .empty else strbufGrow .empty hint

/-- `strbuf_avail` -/
def Strbuf.avail (sb : Strbuf) : ℕ := if sb.alloc = 0 then 0 else sb.alloc - sb.len - 1

/-- `sb->buf[sb->len] = '\0'` -/
def Strbuf.close (sb : Strbuf) : Run Strbuf := do
  return { sb with buf := ← memcpy sb.buf sb.len [nul] }

/-- `strbuf_setlen` -/
def strbufSetlen (sb : Strbuf) (len : ℕ) : Run Strbuf := do
  let sb ← (if sb.alloc = 0 then strbufGrow sb 0 else pure sb)
  if len < sb.alloc then Strbuf.close { sb with len := len }
  else stop .assert

/-- `strbuf_release` -/
def strbufRelease (sb : Strbuf) : Strbuf := if sb.alloc = 0 then sb else .empty

/-- `strbuf_detach`; the buffer is given away, or null if there is none. -/
def strbufDetach (sb : Strbuf) : Option (List Char) × ℕ × Strbuf :=
  (if sb.alloc = 0 then none else some sb.buf, sb.len, .empty)

/-- `strbuf_addch` -/
def strbufAddch (sb : Strbuf) (c : Char) : Run Strbuf := do
  let sb ← strbufGrow sb 1
  let buf ← memcpy sb.buf sb.len [c]
  Strbuf.close { sb with buf := buf, len := sb.len + 1 }

/-- `strbuf_splice`; `data` may be null. -/
def strbufSplice (sb : Strbuf) (pos len : ℕ) (data : Option (List Char)) (dlen : ℕ) :
    Run Strbuf :=
  if sizeT (pos + len) < pos then die "you want to use way too much memory"
  else if sb.len < pos then die "`pos' is too far after the end of the buffer"
  else if sb.len < sizeT (pos + len) then
    die "`pos + len' is too far after the end of the buffer"
  else do
    let sb ← (if len ≤ dlen then strbufGrow sb (dlen - len) else pure sb)
    let buf ← memmove sb.buf (pos + dlen) (pos + len) (sb.len - pos - len)
    let buf ← (match data with
      | some data => memcpy buf pos data
      | none => pure buf)
    strbufSetlen { sb with buf := buf } (sb.len + dlen - len)

/-- `strbuf_remove` -/
def strbufRemove (sb : Strbuf) (pos len : ℕ) : Run Strbuf := strbufSplice sb pos len none 0

/-- `strbuf_add`, and `strbuf_addstr` -/
def strbufAdd (sb : Strbuf) (data : List Char) : Run Strbuf := do
  let sb ← strbufGrow sb data.length
  let buf ← memcpy sb.buf sb.len data
  strbufSetlen { sb with buf := buf } (sb.len + data.length)

/-- `vsnprintf` of a text into `size` bytes: as much of it as there is room for,
and a NUL. -/
def vsnprintf (buf : List Char) (pos size : ℕ) (text : List Char) : Run (List Char) :=
  if size = 0 then return buf else memcpy buf pos (text.take (size - 1) ++ [nul])

/-- `strbuf_addf`; `text` is what the format and its arguments stand for. -/
def strbufAddf (sb : Strbuf) (text : List Char) : Run Strbuf := do
  let sb ← (if sb.avail = 0 then strbufGrow sb 64 else pure sb)
  if 2 ^ 31 ≤ text.length then die "your vsnprintf is broken"
  else do
    let buf ← vsnprintf sb.buf sb.len (sb.alloc - sb.len) text
    let sb := { sb with buf := buf }
    if sb.avail < text.length then do
      let sb ← strbufGrow sb text.length
      let buf ← vsnprintf sb.buf sb.len (sb.alloc - sb.len) text
      if sb.avail < text.length then die "this should not happen, your vsnprintf is broken"
      else strbufSetlen { sb with buf := buf } (sb.len + text.length)
    else strbufSetlen sb (sb.len + text.length)

/-- A file that is read: what is left in it, how much a `read` gives at most, and
which of them fail. -/
structure Input where
  data : List Char
  chunk : ℕ → ℕ
  fails : ℕ → Bool

/-- The loop of `strbuf_read`; the flag says whether the end was reached. -/
def readLoop (f : Input) (sb : Strbuf) (data : List Char) (k : ℕ) : Run (Bool × Strbuf) :=
  if f.fails k then return (false, sb)
  else
    let n := min (max 1 (f.chunk k)) (min (sb.alloc - sb.len - 1) data.length)
    if n = 0 then return (true, sb)
    else do
      let buf ← memcpy sb.buf sb.len (data.take n)
      let sb ← strbufGrow { sb with buf := buf, len := sb.len + n } 8192
      readLoop f sb (data.drop n) (k + 1)
termination_by data.length
decreasing_by
  rw [List.length_drop]
  omega

/-- `strbuf_read`; without a result it is `-1`. -/
def strbufRead (sb : Strbuf) (f : Input) (hint : ℕ) : Run (Option ℕ × Strbuf) := do
  let oldlen := sb.len
  let oldalloc := sb.alloc
  let sb ← strbufGrow sb (if hint = 0 then 8192 else hint)
  let r ← readLoop f sb f.data 0
  match r with
  | (true, sb) => return (some (sb.len - oldlen), ← sb.close)
  | (false, sb) =>
    if oldalloc = 0 then return (none, strbufRelease sb)
    else return (none, ← strbufSetlen sb oldlen)

/-! ### What a run gives -/

/-- The run gives something with `Q`, or ends early in a way that `E` allows. -/
structure Gives {α : Type} (M : Memory) (m : Run α) (Q : α → Prop) (E : Stop → Prop) :
    Prop where
  run : ∀ k, match m M k with
    | .ok (a, _) => Q a
    | .error e => E e

section Rules

variable {α β : Type} {M : Memory} {m : Run α} {k : α → Run β} {Q : α → Prop} {Q' : β → Prop}
  {E : Stop → Prop}

theorem Gives.pure {a : α} (h : Q a) : Gives M (pure a) Q E := ⟨fun _ => h⟩

theorem Gives.stop {e : Stop} (h : E e) : Gives M (stop e) Q E := ⟨fun _ => h⟩

theorem Gives.bind (hm : Gives M m Q E) (hk : ∀ a, Q a → Gives M (k a) Q' E) :
    Gives M (m >>= k) Q' E := by
  constructor
  intro n
  have hrun := hm.run n
  show match (m M n >>= fun r => k r.1 M r.2) with
    | .ok (b, _) => Q' b
    | .error e => E e
  generalize m M n = r at hrun ⊢
  obtain e | ⟨a, n'⟩ := r
  · exact hrun
  · exact (hk a hrun).run n'

theorem Gives.weaken {Q₁ : α → Prop} {E₁ : Stop → Prop} (hm : Gives M m Q₁ E₁)
    (hQ : ∀ a, Q₁ a → Q a) (hE : ∀ e, E₁ e → E e) : Gives M m Q E := by
  constructor
  intro n
  have hrun := hm.run n
  generalize m M n = r at hrun ⊢
  obtain e | ⟨a, n'⟩ := r
  · exact hE e hrun
  · exact hQ a hrun

end Rules

variable {M : Memory} {E : Stop → Prop} {sb sb' : Strbuf}

theorem memcpy_gives {buf data : List Char} {pos : ℕ} (h : pos + data.length ≤ buf.length) :
    Gives M (memcpy buf pos data)
      (· = buf.take pos ++ data ++ buf.drop (pos + data.length)) E := by
  rw [memcpy, if_pos h]
  exact .pure rfl

/-- There was too much to hold, or no memory for at most half as much again. -/
def Short (M : Memory) (need : ℕ) (e : Stop) : Prop :=
  e = .die "you want to use way too much memory" ∧ 2 ^ 64 ≤ need ∨
    e = .die "Out of memory, realloc failed" ∧
      ∃ k n, n ≤ 3 * (need + 16) / 2 ∧ M.granted k n = false

theorem Short.mono {need need' : ℕ} {e : Stop} (h : Short M need e) (hle : need ≤ need') :
    Short M need' e := by
  obtain ⟨rfl, hbig⟩ | ⟨rfl, k, n, hn, hk⟩ := h
  · exact .inl ⟨rfl, hbig.trans hle⟩
  · exact .inr ⟨rfl, k, n, hn.trans (by omega), hk⟩

namespace Strbuf

/-- A buffer with memory of its own for more than its text. -/
structure Room (sb : Strbuf) : Prop where
  len_lt : sb.len < sb.alloc
  alloc_lt : sb.alloc < 2 ^ 63
  length_buf : sb.buf.length = sb.alloc

/-- What every function keeps of the lengths. -/
def Sized (sb : Strbuf) : Prop := sb = empty ∨ sb.Room

/-- The text that is held. -/
def text (sb : Strbuf) : List Char := sb.buf.take sb.len

def Terminated (sb : Strbuf) : Prop := sb.buf[sb.len]? = some nul

theorem sized_empty : empty.Sized := .inl rfl

theorem Sized.len_lt (h : sb.Sized) : sb.len < 2 ^ 63 := by
  obtain rfl | h := h
  · decide
  · exact h.len_lt.trans h.alloc_lt

theorem Sized.room (h : sb.Sized) (halloc : sb.alloc ≠ 0) : sb.Room :=
  h.resolve_left fun hempty => halloc (hempty ▸ rfl)

theorem Sized.eq_empty (h : sb.Sized) (halloc : sb.alloc = 0) : sb = empty :=
  h.resolve_right fun hroom => absurd hroom.len_lt (by omega)

theorem Sized.length_text (h : sb.Sized) : sb.text.length = sb.len := by
  obtain rfl | h := h
  · rfl
  · rw [text, List.length_take, h.length_buf, min_eq_left h.len_lt.le]

end Strbuf

/-- A buffer has room for `extra` more, and its text is the same. -/
structure Grown (sb : Strbuf) (extra : ℕ) (sb' : Strbuf) : Prop where
  room : sb'.Room
  len : sb'.len = sb.len
  extra_lt : sb.len + extra < sb'.alloc
  text : sb'.text = sb.text
  terminated : sb.alloc ≠ 0 → sb.Terminated → sb'.Terminated

theorem sizeT_of_lt {n : ℕ} (h : n < 2 ^ 64) : sizeT n = n := Nat.mod_eq_of_lt h

theorem allocNr_le (x : ℕ) : allocNr x ≤ 3 * (x + 16) / 2 := by
  have h₁ : sizeT (x + 16) ≤ x + 16 := Nat.mod_le _ _
  have h₂ : sizeT (sizeT (x + 16) * 3) ≤ sizeT (x + 16) * 3 := Nat.mod_le _ _
  rw [allocNr]
  omega

/-- `strbuf_grow` finds out whether the size would wrap around. -/
theorem sizeT_le_iff {len extra : ℕ} (hlen : len < 2 ^ 63) (hextra : extra < 2 ^ 64) :
    sizeT (len + extra + 1) ≤ len ↔ 2 ^ 64 ≤ len + extra + 1 := by
  rw [sizeT]
  omega

/-- `realloc` keeps what was there. -/
theorem xrealloc_gives {ptr : List Char} {size : ℕ} (hsize : ptr.length ≤ size)
    (hE : ∀ k, M.granted k size = false → E (.die "Out of memory, realloc failed")) :
    Gives M (xrealloc ptr size)
      (fun buf => buf.length = size ∧ size < 2 ^ 63 ∧ ptr <+: buf) E := by
  constructor
  intro k
  rw [xrealloc]
  cases hk : M.granted k size with
  | false => exact hE k hk
  | true =>
    refine ⟨?_, M.granted_lt k size hk, ?_⟩
    · simp only [List.take_of_length_le hsize, List.length_append, List.length_map,
        List.length_range]
      omega
    · rw [List.take_of_length_le hsize]
      exact List.prefix_append _ _

theorem allocGrow_gives {x : List Char} {nr alloc : ℕ} (hx : x.length = alloc)
    (hnr : alloc < nr)
    (hE : ∀ k n, n ≤ 3 * (nr + 16) / 2 → M.granted k n = false →
      E (.die "Out of memory, realloc failed")) :
    Gives M (allocGrow x nr alloc)
      (fun r => r.1.length = r.2 ∧ nr ≤ r.2 ∧ r.2 < 2 ^ 63 ∧ x <+: r.1) E := by
  have hle := allocNr_le alloc
  have hsize : nr ≤ (if allocNr alloc < nr then nr else allocNr alloc) ∧
      (if allocNr alloc < nr then nr else allocNr alloc) ≤ 3 * (nr + 16) / 2 := by
    split <;> omega
  simp only [allocGrow, if_pos hnr]
  refine .bind (xrealloc_gives (by omega) fun k hk => hE k _ hsize.2 hk) ?_
  rintro buf ⟨hlength, hlt, hbegins⟩
  exact .pure ⟨hlength, hsize.1, hlt, hbegins⟩

/-- A longer memory with the same beginning holds the same text. -/
theorem Grown.of_begins {buf : List Char} {alloc extra : ℕ}
    (hlen : sb.alloc ≠ 0 → sb.len < sb.buf.length)
    (hempty : sb.alloc = 0 → sb.len = 0) (hlength : buf.length = alloc)
    (hextra : sb.len + extra < alloc) (hlt : alloc < 2 ^ 63)
    (hbegins : (if sb.alloc = 0 then [] else sb.buf) <+: buf) :
    Grown sb extra { sb with buf := buf, alloc := alloc } := by
  obtain halloc | halloc := eq_or_ne sb.alloc 0
  · refine ⟨⟨by simp only; omega, hlt, hlength⟩, rfl, hextra, ?_, fun h => absurd halloc h⟩
    simp only [Strbuf.text, hempty halloc, List.take_zero]
  · rw [if_neg halloc] at hbegins
    obtain ⟨rest, rfl⟩ := hbegins
    refine ⟨⟨by simp only; omega, hlt, hlength⟩, rfl, hextra, ?_, fun _ hnul => ?_⟩
    · exact List.take_append_of_le_length (hlen halloc).le
    · rw [Strbuf.Terminated] at hnul ⊢
      rw [← hnul]
      exact List.getElem?_append_left (hlen halloc)

theorem strbufGrow_gives (h : sb.Sized) {extra : ℕ} (hextra : extra < 2 ^ 64) :
    Gives M (strbufGrow sb extra) (Grown sb extra) (Short M (sb.len + extra + 1)) := by
  have hlen : sb.alloc ≠ 0 → sb.len < sb.buf.length := fun halloc =>
    (h.room halloc).length_buf ▸ (h.room halloc).len_lt
  have hempty : sb.alloc = 0 → sb.len = 0 := fun halloc =>
    h.elim (fun he => he ▸ rfl) fun hr => absurd hr.len_lt (by omega)
  by_cases hwrap : sizeT (sb.len + extra + 1) ≤ sb.len
  · rw [strbufGrow, if_pos hwrap]
    exact .stop (.inl ⟨rfl, (sizeT_le_iff h.len_lt hextra).mp hwrap⟩)
  have hneed : sizeT (sb.len + extra + 1) = sb.len + extra + 1 :=
    sizeT_of_lt (by rw [sizeT_le_iff h.len_lt hextra] at hwrap; omega)
  have hlength : (if sb.alloc = 0 then [] else sb.buf).length = sb.alloc := by
    split
    · next halloc => exact halloc.symm
    · next halloc => exact (h.room halloc).length_buf
  rw [strbufGrow, if_neg hwrap, hneed]
  by_cases hroom : sb.alloc < sb.len + extra + 1
  · refine .bind (allocGrow_gives hlength hroom fun k n hn hk => .inr ⟨rfl, k, n, hn, hk⟩) ?_
    rintro ⟨buf, alloc⟩ ⟨hbuf, halloc, halloc_lt, hbegins⟩
    exact .pure (.of_begins hlen hempty hbuf (by simp only at halloc; omega) halloc_lt hbegins)
  · simp only [allocGrow, if_neg hroom]
    have hr := h.room (by omega)
    exact .pure (.of_begins hlen hempty hlength (by omega) hr.alloc_lt (List.prefix_refl _))

/-! ### One function each -/

/-- A buffer as all functions but `strbuf_grow` leave it. -/
structure Strbuf.Is (sb : Strbuf) (t : List Char) : Prop where
  room : sb.Room
  text : sb.text = t
  terminated : sb.Terminated

/-- What has just been written behind the text is part of the new text. -/
theorem take_written {buf data rest : List Char} {pos n : ℕ} (h : pos ≤ buf.length)
    (hn : data.length = n) :
    (buf.take pos ++ data ++ rest).take (pos + n) = buf.take pos ++ data := by
  refine List.take_left' ?_
  rw [List.length_append, List.length_take, min_eq_left h, hn]

theorem length_written {buf data : List Char} {pos : ℕ} (h : pos + data.length ≤ buf.length) :
    (buf.take pos ++ data ++ buf.drop (pos + data.length)).length = buf.length := by
  simp only [List.length_append, List.length_take, List.length_drop]
  omega

/-- The NUL behind the text leaves the text alone. -/
theorem Strbuf.close_gives (h : sb.Room) : Gives M sb.close (·.Is sb.text) E := by
  have hlen := h.len_lt
  have hlength := h.length_buf
  have hfits : sb.len + [nul].length ≤ sb.buf.length := by
    rw [hlength]
    exact hlen
  have htake : (sb.buf.take sb.len).length = sb.len := by
    rw [List.length_take]
    omega
  refine .bind (memcpy_gives hfits) ?_
  rintro buf rfl
  refine .pure ⟨⟨hlen, h.alloc_lt, (length_written hfits).trans hlength⟩, ?_, ?_⟩
  · rw [Strbuf.text, List.append_assoc]
    exact List.take_left' htake
  · rw [Strbuf.Terminated, List.append_assoc, List.getElem?_append_right htake.le, htake,
      Nat.sub_self]
    rfl

theorem strbufSetlen_gives (h : sb.Room) {len : ℕ} (hlen : len < sb.alloc) :
    Gives M (strbufSetlen sb len) (·.Is (sb.buf.take len)) E := by
  have halloc : sb.alloc ≠ 0 := by omega
  simp only [strbufSetlen, if_neg halloc, pure_bind, if_pos hlen]
  exact Strbuf.close_gives ⟨hlen, h.alloc_lt, h.length_buf⟩

/-- The first `strbuf_setlen` gets the memory. -/
theorem strbufSetlen_empty : Gives M (strbufSetlen .empty 0) (·.Is []) (Short M 1) := by
  refine .bind (strbufGrow_gives Strbuf.sized_empty (Nat.two_pow_pos 64)) fun sb₁ hg => ?_
  rw [if_pos (Nat.zero_lt_of_lt hg.extra_lt)]
  exact Strbuf.close_gives ⟨Nat.zero_lt_of_lt hg.extra_lt, hg.room.alloc_lt, hg.room.length_buf⟩

/-- With memory of its own replaced by as much of it, a buffer has the same room. -/
theorem Strbuf.Room.with_buf (h : sb.Room) {buf : List Char} (hbuf : buf.length = sb.alloc) :
    Strbuf.Room { sb with buf := buf } :=
  ⟨h.len_lt, h.alloc_lt, hbuf⟩

/-- Bytes are put behind the text, and the length is set. -/
theorem append_gives (h : sb.Room) {data : List Char} (hfits : sb.len + data.length < sb.alloc) :
    Gives M (do
        let buf ← memcpy sb.buf sb.len data
        strbufSetlen { sb with buf := buf } (sb.len + data.length))
      (·.Is (sb.text ++ data)) E := by
  have hle : sb.len + data.length ≤ sb.buf.length := by
    rw [h.length_buf]
    exact hfits.le
  refine .bind (memcpy_gives hle) ?_
  rintro buf rfl
  have hset := strbufSetlen_gives (M := M) (E := E)
    (h.with_buf ((length_written hle).trans h.length_buf)) hfits
  rwa [take_written (by omega) rfl] at hset

theorem strbufAdd_gives (h : sb.Sized) {data : List Char} (hdata : data.length < 2 ^ 63) :
    Gives M (strbufAdd sb data) (·.Is (sb.text ++ data))
      (Short M (sb.len + data.length + 1)) := by
  refine .bind (strbufGrow_gives h (by omega)) fun sb₁ hg => ?_
  rw [← hg.text]
  exact append_gives hg.room (hg.len ▸ hg.extra_lt)

/-- A buffer with bytes put behind its text, and counted. -/
def Strbuf.grownBy (sb : Strbuf) (data : List Char) (n : ℕ) : Strbuf :=
  { sb with
    len := sb.len + n
    buf := sb.buf.take sb.len ++ data ++ sb.buf.drop (sb.len + data.length) }

theorem Strbuf.Room.grownBy (h : sb.Room) {data : List Char} {n : ℕ} (hn : data.length = n)
    (hfits : sb.len + n < sb.alloc) : (sb.grownBy data n).Room := by
  have hle : sb.len + data.length ≤ sb.buf.length := by
    rw [hn, h.length_buf]
    exact hfits.le
  exact ⟨hfits, h.alloc_lt, (length_written hle).trans h.length_buf⟩

theorem Strbuf.Room.text_grownBy (h : sb.Room) {data : List Char} {n : ℕ}
    (hn : data.length = n) : (sb.grownBy data n).text = sb.text ++ data :=
  take_written (h.length_buf ▸ h.len_lt.le) hn

theorem strbufAddch_gives (h : sb.Sized) {c : Char} :
    Gives M (strbufAddch sb c) (·.Is (sb.text ++ [c])) (Short M (sb.len + 1 + 1)) := by
  refine .bind (strbufGrow_gives h (by decide)) fun sb₁ hg => ?_
  have hroom : sb₁.len + 1 < sb₁.alloc := hg.len ▸ hg.extra_lt
  have hfits : sb₁.len + [c].length ≤ sb₁.buf.length := by
    rw [hg.room.length_buf]
    exact hroom.le
  refine .bind (memcpy_gives hfits) ?_
  rintro buf rfl
  rw [← hg.text, ← hg.room.text_grownBy (show [c].length = 1 from rfl)]
  exact Strbuf.close_gives (hg.room.grownBy rfl hroom)

/-- How `strbuf_splice` refuses, or fails. -/
def Refused (M : Memory) (length pos len dlen : ℕ) (e : Stop) : Prop :=
  e = .die "you want to use way too much memory" ∧ 2 ^ 64 ≤ pos + len ∨
    e = .die "`pos' is too far after the end of the buffer" ∧ length < pos ∨
    e = .die "`pos + len' is too far after the end of the buffer" ∧ length < pos + len ∨
    Short M (length + dlen + 1) e

/-- What `strbuf_splice` makes of the memory: of what is moved only the part behind
`pos` stays, and `d` is put before it. -/
theorem take_spliced {buf d : List Char} {pos len n : ℕ} (hlen : pos + len ≤ n)
    (hn : n ≤ buf.length) (hd : n + d.length - len ≤ buf.length) {moved : List Char}
    (hmoved : moved = buf.take (pos + d.length) ++ (buf.drop (pos + len)).take (n - pos - len) ++
      buf.drop (pos + d.length + (n - pos - len))) :
    (moved.take pos ++ d ++ moved.drop (pos + d.length)).take (n + d.length - len) =
      (buf.take n).take pos ++ d ++ (buf.take n).drop (pos + len) := by
  have hbegin : (buf.take pos).length = pos := by
    rw [List.length_take]
    omega
  have hkept : (buf.take (pos + d.length)).length = pos + d.length := by
    rw [List.length_take]
    omega
  have htail : (buf.take n).drop (pos + len) = (buf.drop (pos + len)).take (n - pos - len) := by
    rw [List.drop_take, Nat.sub_add_eq]
  have hrest : ((buf.take n).drop (pos + len)).length = n - pos - len := by
    rw [List.length_drop, List.length_take]
    omega
  have htake : moved.take pos = buf.take pos := by
    rw [hmoved, List.append_assoc, List.take_append_of_le_length (by omega), List.take_take,
      min_eq_left (by omega)]
  have hdrop : moved.drop (pos + d.length) = (buf.take n).drop (pos + len) ++
      buf.drop (pos + d.length + (n - pos - len)) := by
    rw [hmoved, List.append_assoc, List.drop_left' hkept, htail]
  rw [htake, hdrop, List.take_take, min_eq_left (by omega), ← List.append_assoc]
  refine List.take_left' ?_
  simp only [List.length_append, hbegin, hrest]
  omega

/-- There is room for the text as it was, and as it will be. -/
theorem spliceGrow_gives (h : sb.Sized) {pos len dlen : ℕ} (hin : pos + len ≤ sb.len)
    (hdlen : dlen < 2 ^ 63) :
    Gives M (if len ≤ dlen then strbufGrow sb (dlen - len) else pure sb)
      (fun sb₁ => sb₁.Room ∧ sb₁.len = sb.len ∧ sb₁.text = sb.text ∧
        sb.len + dlen - len < sb₁.alloc) (Short M (sb.len + dlen + 1)) := by
  split
  · refine (strbufGrow_gives h (by omega)).weaken
      (fun sb₁ hg => ⟨hg.room, hg.len, hg.text, ?_⟩) fun e he => he.mono (by omega)
    have hextra := hg.extra_lt
    omega
  · next hshrinks =>
    have hroom : sb.Room := h.room fun halloc => by
      have hlen : sb.len = 0 := congrArg Strbuf.len (h.eq_empty halloc)
      omega
    have hlen := hroom.len_lt
    exact .pure ⟨hroom, rfl, rfl, by omega⟩

/-- What is behind the place is moved, and `data` is put there. -/
theorem spliceMove_gives (h : sb.Room) {pos len dlen : ℕ} {data : Option (List Char)}
    (hin : pos + len ≤ sb.len) (halloc : sb.len + dlen - len < sb.alloc)
    (hdata : (data.getD []).length = dlen) :
    Gives M (do
        let buf ← memmove sb.buf (pos + dlen) (pos + len) (sb.len - pos - len)
        let buf ← (match data with
          | some data => memcpy buf pos data
          | none => pure buf)
        strbufSetlen { sb with buf := buf } (sb.len + dlen - len))
      (·.Is (sb.text.take pos ++ data.getD [] ++ sb.text.drop (pos + len))) E := by
  have hlen := h.len_lt
  have hlength := h.length_buf
  have hpart : ((sb.buf.drop (pos + len)).take (sb.len - pos - len)).length =
      sb.len - pos - len := by
    rw [List.length_take, List.length_drop, hlength]
    omega
  have hmove : pos + dlen + ((sb.buf.drop (pos + len)).take (sb.len - pos - len)).length ≤
      sb.buf.length := by
    omega
  rw [memmove, if_pos (by omega)]
  refine .bind (memcpy_gives hmove) ?_
  intro moved hmoved
  have hlength_moved : moved.length = sb.alloc := by
    rw [hmoved, length_written hmove, hlength]
  rw [hpart] at hmoved
  have hfits : pos + (data.getD []).length ≤ moved.length := by omega
  have hput : Gives M (match data with | some data => memcpy moved pos data | none => pure moved)
      (· = moved.take pos ++ data.getD [] ++ moved.drop (pos + (data.getD []).length)) E := by
    cases data with
    | some d => exact memcpy_gives hfits
    | none => exact .pure (by simp)
  refine .bind hput ?_
  rintro buf rfl
  have hset := strbufSetlen_gives (M := M) (E := E)
    (h.with_buf ((length_written hfits).trans hlength_moved)) halloc
  rw [← hdata, take_spliced hin (by omega) (by omega) (hdata ▸ hmoved)] at hset
  rw [← hdata]
  exact hset

/-- `pos` and `len` are a place in the text; what stands there is replaced. -/
theorem strbufSplice_gives (h : sb.Sized) {pos len dlen : ℕ} {data : Option (List Char)}
    (hpos : pos < 2 ^ 64) (hlen : len < 2 ^ 64) (hdlen : dlen < 2 ^ 63)
    (hdata : (data.getD []).length = dlen) :
    Gives M (strbufSplice sb pos len data dlen)
      (·.Is (sb.text.take pos ++ data.getD [] ++ sb.text.drop (pos + len)))
      (Refused M sb.len pos len dlen) := by
  by_cases hwrap : sizeT (pos + len) < pos
  · rw [strbufSplice, if_pos hwrap]
    exact .stop (.inl ⟨rfl, by rw [sizeT] at hwrap; omega⟩)
  have hsum : sizeT (pos + len) = pos + len := sizeT_of_lt (by rw [sizeT] at hwrap; omega)
  by_cases hfar : sb.len < pos
  · rw [strbufSplice, if_neg hwrap, if_pos hfar]
    exact .stop (.inr (.inl ⟨rfl, hfar⟩))
  by_cases hfar' : sb.len < pos + len
  · rw [strbufSplice, if_neg hwrap, if_neg hfar, hsum, if_pos hfar']
    exact .stop (.inr (.inr (.inl ⟨rfl, hfar'⟩)))
  rw [strbufSplice, if_neg hwrap, if_neg hfar, hsum, if_neg hfar']
  have hin : pos + len ≤ sb.len := Nat.le_of_not_lt hfar'
  refine .bind ((spliceGrow_gives h hin hdlen).weaken (fun sb₁ hg => hg)
    fun e he => .inr (.inr (.inr he))) ?_
  rintro sb₁ ⟨hroom, hlen₁, htext, halloc⟩
  rw [← htext]
  exact spliceMove_gives hroom (hlen₁ ▸ hin) (hlen₁ ▸ halloc) hdata

/-- `vsnprintf` behind the text leaves the text alone, and writes all of its own
where there is room for it. -/
theorem vsnprintf_gives (h : sb.Room) {text : List Char} :
    Gives M (vsnprintf sb.buf sb.len (sb.alloc - sb.len) text)
      (fun buf => buf.length = sb.alloc ∧ buf.take sb.len = sb.text ∧
        (sb.len + text.length < sb.alloc → buf.take (sb.len + text.length) = sb.text ++ text))
      E := by
  have hlen := h.len_lt
  have hlength := h.length_buf
  have hfits : sb.len + (text.take (sb.alloc - sb.len - 1) ++ [nul]).length ≤ sb.buf.length := by
    rw [List.length_append, List.length_take, List.length_singleton]
    omega
  rw [vsnprintf, if_neg (by omega)]
  refine (memcpy_gives hfits).weaken ?_ fun e he => he
  rintro buf rfl
  refine ⟨(length_written hfits).trans hlength, ?_, fun hroom => ?_⟩
  · rw [List.append_assoc]
    exact List.take_left' (by rw [List.length_take]; omega)
  · rw [List.take_of_length_le (show text.length ≤ sb.alloc - sb.len - 1 by omega),
      ← List.append_assoc (sb.buf.take sb.len), List.append_assoc (_ ++ text)]
    exact List.take_left' (by rw [List.length_append, List.length_take]; omega)

theorem Strbuf.Room.avail (h : sb.Room) : sb.avail = sb.alloc - sb.len - 1 :=
  if_neg (Nat.ne_of_gt (Nat.zero_lt_of_lt h.len_lt))

/-- How `strbuf_addf` fails: `vsnprintf` has no count for a text that long. -/
def Unprinted (M : Memory) (length : ℕ) (text : List Char) (e : Stop) : Prop :=
  Short M (length + max 64 text.length + 1) e ∨
    e = .die "your vsnprintf is broken" ∧ 2 ^ 31 ≤ text.length

theorem strbufAddf_gives (h : sb.Sized) {text : List Char} :
    Gives M (strbufAddf sb text) (·.Is (sb.text ++ text)) (Unprinted M sb.len text) := by
  have hgrow : Gives M (if sb.avail = 0 then strbufGrow sb 64 else pure sb)
      (fun sb₁ => sb₁.Room ∧ sb₁.len = sb.len ∧ sb₁.text = sb.text)
      (Unprinted M sb.len text) := by
    split
    · exact (strbufGrow_gives h (by decide)).weaken
        (fun sb₁ hg => ⟨hg.room, hg.len, hg.text⟩) fun e he => .inl (he.mono (by omega))
    · next havail =>
      exact .pure ⟨h.room fun halloc => havail (if_pos halloc), rfl, rfl⟩
  refine .bind hgrow ?_
  rintro sb₁ ⟨hroom, hlen, htext⟩
  by_cases hbig : 2 ^ 31 ≤ text.length
  · rw [if_pos hbig]
    exact .stop (.inr ⟨rfl, hbig⟩)
  rw [if_neg hbig]
  refine .bind (vsnprintf_gives hroom) ?_
  rintro buf ⟨hbuf, hkept, hwhole⟩
  have hroom₁ := hroom.with_buf hbuf
  simp only [hroom₁.avail]
  by_cases hshort : sb₁.alloc - sb₁.len - 1 < text.length
  · -- the text did not fit: again, with room for it
    rw [if_pos hshort]
    have hagain := strbufGrow_gives (M := M) (.inr hroom₁)
      (show text.length < 2 ^ 64 by omega)
    refine .bind (hagain.weaken (fun sb₂ hg => hg)
      fun e he => .inl (he.mono (by simp only; omega))) fun sb₂ hg => ?_
    refine .bind (vsnprintf_gives hg.room) ?_
    rintro buf₂ ⟨hbuf₂, -, hwhole₂⟩
    have hfits : sb₂.len + text.length < sb₂.alloc := hg.len ▸ hg.extra_lt
    have hroom₂ := hg.room.with_buf hbuf₂
    rw [hg.room.avail]
    rw [if_neg (by omega)]
    have hset := strbufSetlen_gives (M := M) (E := Unprinted M sb.len text) hroom₂ hfits
    rw [hwhole₂ hfits, hg.text] at hset
    rw [← htext, ← hkept]
    exact hset
  · rw [if_neg hshort]
    have hfits : sb₁.len + text.length < sb₁.alloc := by
      have := hroom.len_lt
      omega
    have hset := strbufSetlen_gives (M := M) (E := Unprinted M sb.len text) hroom₁ hfits
    rw [hwhole hfits] at hset
    exact htext ▸ hset

/-- The loop appends what it reads; where a `read` fails, it has added to the text. -/
theorem readLoop_gives (f : Input) (h : sb.Room) (havail : sb.len + 1 < sb.alloc)
    (data : List Char) (k : ℕ) :
    Gives M (readLoop f sb data k)
      (fun r => r.2.Room ∧ if r.1 then r.2.text = sb.text ++ data
        else sb.text <+: r.2.text ∧ ∃ k, f.fails k)
      (Short M (sb.len + data.length + 8192 + 1)) := by
  induction hn : data.length using Nat.strong_induction_on generalizing sb data k with
  | _ n ih =>
  subst hn
  rw [readLoop]
  cases hfail : f.fails k with
  | true => exact .pure ⟨h, List.prefix_refl _, k, hfail⟩
  | false =>
    rw [if_neg Bool.false_ne_true]
    set count := min (max 1 (f.chunk k)) (min (sb.alloc - sb.len - 1) data.length) with hcount
    have hle : sb.len + count < sb.alloc ∧ count ≤ data.length := by omega
    by_cases hend : count = 0
    · have hnone : data = [] := List.length_eq_zero_iff.mp (by omega)
      rw [if_pos hend, hnone]
      exact .pure ⟨h, by rw [if_pos rfl, List.append_nil]⟩
    · rw [if_neg hend]
      have hcount : (data.take count).length = count := List.length_take_of_le hle.2
      have hfits : sb.len + (data.take count).length ≤ sb.buf.length := by
        rw [hcount, h.length_buf]
        exact hle.1.le
      refine .bind (memcpy_gives hfits) ?_
      rintro buf rfl
      have hroom := h.grownBy hcount hle.1
      have htext := h.text_grownBy hcount
      have hlen₁ : (sb.grownBy (data.take count) count).len = sb.len + count := rfl
      have hrest : (data.drop count).length = data.length - count := List.length_drop
      refine .bind ((strbufGrow_gives (.inr hroom) (by norm_num)).weaken (fun sb₂ hg => hg)
        fun e he => he.mono (by omega)) fun sb₂ hg => ?_
      have hlen₂ : sb₂.len = sb.len + count := hg.len
      have hextra := hg.extra_lt
      -- less is left in the file, and more is in the text
      refine (ih (data.drop count).length (by omega) hg.room
        (by omega)
        (data.drop count) (k + 1) rfl).weaken ?_ fun e he => he.mono (by omega)
      rintro ⟨done, sb₃⟩ ⟨hroom₃, hread⟩
      refine ⟨hroom₃, ?_⟩
      cases done with
      | true =>
        rw [if_pos rfl] at hread ⊢
        rw [hread, hg.text, htext, List.append_assoc, List.take_append_drop]
      | false =>
        rw [if_neg Bool.false_ne_true, hg.text, htext] at hread
        exact ⟨(List.prefix_append _ _).trans hread.1, hread.2⟩

/-- The whole file is behind the text, or a `read` failed and the text is as it was. -/
theorem strbufRead_gives (h : sb.Sized) (f : Input) {hint : ℕ} (hhint : hint < 2 ^ 63) :
    Gives M (strbufRead sb f hint)
      (fun r => match r.1 with
        | some n => n = f.data.length ∧ r.2.Is (sb.text ++ f.data)
        | none => (∃ k, f.fails k) ∧
          (sb.alloc = 0 ∧ r.2 = .empty ∨ sb.alloc ≠ 0 ∧ r.2.Is sb.text))
      (Short M (sb.len + f.data.length + max hint 8192 + 1)) := by
  have hextra : 0 < (if hint = 0 then 8192 else hint) ∧
      (if hint = 0 then 8192 else hint) ≤ max hint 8192 := by
    split <;> omega
  refine .bind ((strbufGrow_gives h (by omega)).weaken (fun sb₁ hg => hg)
    fun e he => he.mono (by omega)) fun sb₁ hg => ?_
  have hlen := hg.len
  have hroom := hg.extra_lt
  refine .bind ((readLoop_gives f hg.room (by omega) f.data 0).weaken (fun r hr => hr)
    fun e he => he.mono (by omega)) ?_
  rintro ⟨done, sb₂⟩ ⟨hroom₂, hread⟩
  rw [hg.text] at hread
  cases done with
  | true =>
    rw [if_pos rfl] at hread
    have hlen₂ : sb₂.len = sb.len + f.data.length := by
      rw [← Strbuf.Sized.length_text (.inr hroom₂), hread, List.length_append, h.length_text]
    refine .bind (Strbuf.close_gives hroom₂) fun sb₃ hclosed => .pure ⟨?_, hread ▸ hclosed⟩
    rw [hlen₂, Nat.add_sub_cancel_left]
  | false =>
    rw [if_neg Bool.false_ne_true] at hread
    obtain ⟨⟨rest, hrest⟩, hfail⟩ := hread
    by_cases halloc : sb.alloc = 0
    · simp only [if_pos halloc, strbufRelease, if_neg (Nat.ne_zero_of_lt hroom₂.len_lt)]
      exact .pure ⟨hfail, .inl ⟨halloc, rfl⟩⟩
    · simp only [if_neg halloc]
      have hle : sb.len ≤ sb₂.len := by
        rw [← Strbuf.Sized.length_text (.inr hroom₂), ← h.length_text, ← hrest,
          List.length_append]
        exact Nat.le_add_right _ _
      refine .bind (strbufSetlen_gives hroom₂ (hle.trans_lt hroom₂.len_lt)) fun sb₃ hset => ?_
      have htake : sb₂.buf.take sb.len = sb.text := by
        rw [← List.take_left' h.length_text, hrest, Strbuf.text, List.take_take,
          min_eq_left hle]
      exact .pure ⟨hfail, .inr ⟨halloc, htake ▸ hset⟩⟩

/-! ### Runs -/

/-- What is done with a buffer. -/
inductive Op where
  | grow (extra : ℕ)
  | setlen (len : ℕ)
  | addch (c : Char)
  | add (data : List Char)
  | addf (text : List Char)
  | remove (pos len : ℕ)
  | read (f : Input) (hint : ℕ)
  | release
  | detach

namespace Op

def run (sb : Strbuf) : Op → Run Strbuf
  | grow extra => strbufGrow sb extra
  | setlen len => strbufSetlen sb len
  | addch c => strbufAddch sb c
  | add data => strbufAdd sb data
  | addf text => strbufAddf sb text
  | remove pos len => strbufRemove sb pos len
  | read f hint => do return (← strbufRead sb f hint).2
  | release => return strbufRelease sb
  | detach => return (strbufDetach sb).2.2

/-- What is made of a text. -/
def Makes (t : List Char) : Op → List Char → Prop
  | grow _, t' => t' = t
  | setlen len, t' => t' = t.take len
  | addch c, t' => t' = t ++ [c]
  | add data, t' => t' = t ++ data
  | addf text, t' => t' = t ++ text
  | remove pos len, t' => t' = t.take pos ++ t.drop (pos + len)
  | read f _, t' => t' = t ++ f.data ∨ (∃ k, f.fails k) ∧ t' = t
  | release, t' => t' = []
  | detach, t' => t' = []

/-- What the caller has to see to. -/
def Allowed (t : List Char) : Op → Prop
  | grow extra => extra < 2 ^ 64
  | setlen len => len ≤ t.length
  | add data => data.length < 2 ^ 63
  | remove pos len => pos < 2 ^ 64 ∧ len < 2 ^ 64
  | read _ hint => hint < 2 ^ 63
  | _ => True

/-- How it can end early. -/
def Fails (M : Memory) (t : List Char) (e : Stop) : Op → Prop
  | grow extra => Short M (t.length + extra + 1) e
  | setlen _ => Short M 1 e
  | addch _ => Short M (t.length + 1 + 1) e
  | add data => Short M (t.length + data.length + 1) e
  | addf text => Short M (t.length + max 64 text.length + 1) e ∨
      e = .die "your vsnprintf is broken" ∧ 2 ^ 31 ≤ text.length
  | remove pos len => Refused M t.length pos len 0 e
  | read f hint => Short M (t.length + f.data.length + max hint 8192 + 1) e
  | _ => False

end Op

/-- The buffer is a C string, or it is empty and has been grown only. -/
def Strbuf.Ended (sb : Strbuf) (grew : Prop) : Prop := sb.Terminated ∨ grew ∧ sb.text = []

theorem Strbuf.Is.sized {t : List Char} (h : sb.Is t) : sb.Sized := .inr h.room

theorem Strbuf.empty_terminated : Strbuf.empty.Terminated := rfl

/-- What a buffer is after one operation. -/
structure Op.Leaves (op : Op) (sb sb' : Strbuf) : Prop where
  sized : sb'.Sized
  makes : op.Makes sb.text sb'.text
  ended : ∀ {grew : Prop}, sb.Ended grew → sb'.Ended (grew ∨ ∃ extra, op = .grow extra)

theorem Op.Leaves.of_is {op : Op} {t : List Char} (h : sb'.Is t) (ht : op.Makes sb.text t) :
    op.Leaves sb sb' :=
  ⟨h.sized, h.text ▸ ht, fun _ => .inl h.terminated⟩

theorem Op.Leaves.of_empty {op : Op} (ht : op.Makes sb.text []) : op.Leaves sb .empty :=
  ⟨Strbuf.sized_empty, ht, fun _ => .inl Strbuf.empty_terminated⟩

theorem Op.run_leaves (h : sb.Sized) (op : Op) (hop : op.Allowed sb.text) :
    Gives M (op.run sb) (op.Leaves sb) (op.Fails M sb.text ·) := by
  have hlen := h.length_text
  cases op with
  | grow extra =>
    refine (strbufGrow_gives h hop).weaken (fun sb' hg => ?_) fun e he => ?_
    · refine ⟨.inr hg.room, hg.text, fun hended => ?_⟩
      by_cases halloc : sb.alloc = 0
      · obtain rfl := h.eq_empty halloc
        exact .inr ⟨.inr ⟨extra, rfl⟩, hg.text⟩
      · obtain hnul | ⟨hgrew, hempty⟩ := hended
        · exact .inl (hg.terminated halloc hnul)
        · exact .inr ⟨.inl hgrew, hg.text.trans hempty⟩
    · rwa [Op.Fails, hlen]
  | setlen len =>
    have hle : len ≤ sb.len := hlen ▸ hop
    by_cases halloc : sb.alloc = 0
    · obtain rfl := h.eq_empty halloc
      obtain rfl : len = 0 := Nat.le_zero.mp hle
      exact strbufSetlen_empty.weaken (fun sb' hs => .of_is hs rfl) fun e he => he
    · have hroom := h.room halloc
      refine (strbufSetlen_gives hroom (hle.trans_lt hroom.len_lt)).weaken
        (fun sb' hs => .of_is hs ?_) fun e (he : False) => he.elim
      rw [Op.Makes, Strbuf.text, List.take_take, min_eq_left hle]
  | addch c =>
    refine (strbufAddch_gives h).weaken (fun sb' hs => .of_is hs rfl) fun e he => ?_
    rwa [Op.Fails, hlen]
  | add data =>
    refine (strbufAdd_gives h hop).weaken (fun sb' hs => .of_is hs rfl) fun e he => ?_
    rwa [Op.Fails, hlen]
  | addf text =>
    refine (strbufAddf_gives h).weaken (fun sb' hs => .of_is hs rfl) fun e he => ?_
    rwa [Op.Fails, hlen]
  | remove pos len =>
    have hnone : ((none : Option (List Char)).getD []).length = 0 := rfl
    refine (strbufSplice_gives h hop.1 hop.2 (by norm_num) hnone).weaken
      (fun sb' hs => Op.Leaves.of_is hs ?_) fun e he => ?_
    · rw [Op.Makes, Option.getD_none, List.append_nil]
    · rwa [Op.Fails, hlen]
  | read f hint =>
    refine .bind ((strbufRead_gives h f hop).weaken (fun r hr => hr) fun e he => ?_) ?_
    · rwa [Op.Fails, hlen]
    · rintro ⟨n | n, sb'⟩ hr
      · obtain ⟨hfail, ⟨halloc, rfl⟩ | ⟨-, hs⟩⟩ := hr
        · exact .pure (.of_empty (.inr ⟨hfail, by rw [h.eq_empty halloc]; rfl⟩))
        · exact .pure (.of_is hs (.inr ⟨hfail, rfl⟩))
      · exact .pure (.of_is hr.2 (.inl rfl))
  | release =>
    have hrelease : strbufRelease sb = .empty := by
      rw [strbufRelease]
      split
      · next halloc => exact h.eq_empty halloc
      · rfl
    exact .pure (hrelease ▸ .of_empty rfl)
  | detach => exact .pure (.of_empty rfl)

/-- One operation after the other. -/
def runOps (sb : Strbuf) (ops : List Op) : Run Strbuf := ops.foldlM Op.run sb

/-- What the operations make of a text, one after the other. -/
def Makes : List Op → List Char → List Char → Prop
  | [], t, t' => t' = t
  | op :: ops, t, t' => ∃ t₁, op.Makes t t₁ ∧ Makes ops t₁ t'

/-- The caller sees to each, whatever text it comes to. -/
def Allowed : List Op → List Char → Prop
  | [], _ => True
  | op :: ops, t => op.Allowed t ∧ ∀ t₁, op.Makes t t₁ → Allowed ops t₁

/-- One of them fails at the text that it comes to. -/
def Fails (M : Memory) : List Op → List Char → Stop → Prop
  | [], _, _ => False
  | op :: ops, t, e => op.Fails M t e ∨ ∃ t₁, op.Makes t t₁ ∧ Fails M ops t₁ e

theorem Short.die {need : ℕ} {e : Stop} (h : Short M need e) : ∃ message, e = .die message := by
  obtain ⟨rfl, -⟩ | ⟨rfl, -⟩ := h
  · exact ⟨_, rfl⟩
  · exact ⟨_, rfl⟩

/-- No assert fails and nothing outside the memory is touched. -/
theorem Op.Fails.die {op : Op} {t : List Char} {e : Stop} (h : op.Fails M t e) :
    ∃ message, e = .die message := by
  cases op with
  | grow extra => exact Short.die h
  | setlen len => exact Short.die h
  | addch c => exact Short.die h
  | add data => exact Short.die h
  | addf text =>
    obtain h | ⟨rfl, -⟩ := h
    · exact h.die
    · exact ⟨_, rfl⟩
  | remove pos len =>
    obtain ⟨rfl, -⟩ | ⟨rfl, -⟩ | ⟨rfl, -⟩ | h := h
    · exact ⟨_, rfl⟩
    · exact ⟨_, rfl⟩
    · exact ⟨_, rfl⟩
    · exact h.die
  | read f hint => exact Short.die h
  | release => exact h.elim
  | detach => exact h.elim

theorem Fails.die {ops : List Op} {t : List Char} {e : Stop} (h : Fails M ops t e) :
    ∃ message, e = .die message := by
  induction ops generalizing t with
  | nil => exact h.elim
  | cons op ops ih =>
    obtain h | ⟨t₁, -, h⟩ := h
    · exact h.die
    · exact ih h

theorem Strbuf.Ended.mono {grew grew' : Prop} (h : sb.Ended grew) (himp : grew → grew') :
    sb.Ended grew' :=
  h.imp_right fun ⟨hgrew, hempty⟩ => ⟨himp hgrew, hempty⟩

/-- What a run leaves, and how it fails, from any buffer. -/
theorem runOps_gives (h : sb.Sized) {grew : Prop} (hended : sb.Ended grew) {ops : List Op}
    (hops : Allowed ops sb.text) :
    Gives M (runOps sb ops)
      (fun sb' => sb'.Sized ∧ Makes ops sb.text sb'.text ∧
        sb'.Ended (grew ∨ ∃ extra, .grow extra ∈ ops))
      (Fails M ops sb.text) := by
  induction ops generalizing sb grew with
  | nil => exact .pure ⟨h, rfl, hended.mono .inl⟩
  | cons op ops ih =>
    rw [runOps, List.foldlM_cons]
    refine .bind ((op.run_leaves h hops.1).weaken (fun sb₁ hs => hs) fun e he => .inl he)
      fun sb₁ hs => ?_
    refine (ih hs.sized (hs.ended hended) (hops.2 _ hs.makes)).weaken ?_
      fun e he => .inr ⟨_, hs.makes, he⟩
    rintro sb' ⟨hsized, hmakes, hended'⟩
    refine ⟨hsized, ⟨_, hs.makes, hmakes⟩, hended'.mono ?_⟩
    rintro ((hgrew | ⟨extra, rfl⟩) | ⟨extra, hmem⟩)
    · exact .inl hgrew
    · exact .inr ⟨extra, List.mem_cons_self⟩
    · exact .inr ⟨extra, List.mem_cons_of_mem _ hmem⟩

/-- **After any operations on a new buffer it holds the text that they make**, in
memory of its own that is longer, with a NUL behind it unless it is empty and has
been grown.  A run ends early only by `die`, and for one of the reasons of the
operation it was at. -/
theorem run_gives (M : Memory) {ops : List Op} (hops : Allowed ops []) (k : ℕ) :
    match runOps .empty ops M k with
    | .ok (sb, _) => Makes ops [] sb.text ∧ sb.text.length = sb.len ∧
        (sb = .empty ∨ sb.len < sb.alloc ∧ sb.buf.length = sb.alloc) ∧
        (sb.buf[sb.len]? = some nul ∨ sb.text = [] ∧ ∃ extra, .grow extra ∈ ops)
    | .error e => Fails M ops [] e ∧ ∃ message, e = .die message := by
  have hrun := (runOps_gives (M := M) Strbuf.sized_empty
    (show Strbuf.empty.Ended False from .inl Strbuf.empty_terminated) hops).run k
  generalize runOps .empty ops M k = r at hrun ⊢
  obtain e | ⟨sb, k'⟩ := r
  · exact ⟨hrun, Fails.die hrun⟩
  · obtain ⟨hsized, hmakes, hended⟩ := hrun
    refine ⟨hmakes, hsized.length_text, ?_, ?_⟩
    · exact hsized.imp_right fun hroom => ⟨hroom.len_lt, hroom.length_buf⟩
    · exact hended.imp_right fun ⟨hgrew, hempty⟩ => ⟨hempty, hgrew.resolve_left id⟩

theorem xrealloc_fresh {size : ℕ} :
    Gives M (xrealloc [] size) (fun buf => ∃ k, buf = (List.range size).map (M.garbage k))
      fun _ => True := by
  constructor
  intro k
  rw [xrealloc]
  cases M.granted k size with
  | false => trivial
  | true =>
    refine ⟨k, ?_⟩
    show [].take size ++ (List.range (size - 0)).map (M.garbage k) = _
    rw [List.take_nil, List.nil_append, Nat.sub_zero]

/-- The exception: memory that was got ahead of any text holds what it held, so
that `strbuf_init` with a hint makes a buffer that is no C string. -/
theorem strbufInit_not_terminated {hint : ℕ} (hhint : hint ≠ 0)
    (hgarbage : ∀ k, M.garbage k 0 ≠ nul) :
    Gives M (strbufInit hint) (fun sb => ¬ sb.Terminated) fun _ => True := by
  rw [strbufInit, if_neg hhint]
  by_cases hwrap : sizeT (Strbuf.empty.len + hint + 1) ≤ Strbuf.empty.len
  · rw [strbufGrow, if_pos hwrap]
    exact .stop trivial
  have hneed : Strbuf.empty.alloc < sizeT (Strbuf.empty.len + hint + 1) := Nat.lt_of_not_le hwrap
  rw [strbufGrow, if_neg hwrap]
  simp only [allocGrow, if_pos hneed]
  set size := if allocNr Strbuf.empty.alloc < sizeT (Strbuf.empty.len + hint + 1) then
    sizeT (Strbuf.empty.len + hint + 1) else allocNr Strbuf.empty.alloc with hsize
  have hpos : 0 < size := by
    rw [hsize]
    split
    · exact hneed
    · decide
  refine .bind (Q := fun r => ∃ k, r.1 = (List.range size).map (M.garbage k))
    (.bind xrealloc_fresh fun buf hbuf => .pure hbuf) ?_
  rintro ⟨buf, alloc⟩ ⟨k, rfl : buf = _⟩
  refine .pure fun hterminated => hgarbage k ?_
  have hfirst : ((List.range size).map (M.garbage k))[0]? = some (M.garbage k 0) := by
    rw [List.getElem?_map, List.getElem?_range hpos]
    rfl
  exact Option.some.inj (hfirst.symm.trans hterminated)

/-- Memory that is there up to the size that no object exceeds. -/
def plenty : Memory where
  granted _ n := decide (n < 2 ^ 63)
  garbage _ _ := '?'
  granted_lt _ _ h := of_decide_eq_true h

/-- A prefix is put together and taken off again. -/
theorem run_gives_example : ∃ sb k,
    runOps .empty [.add "wq0".toList, .addch '.', .addf "1".toList, .remove 0 2] plenty 0 =
      .ok (sb, k) ∧ sb.text = "0.1".toList ∧ sb.buf[sb.len]? = some nul := by
  have hadd : "wq0".toList.length < 2 ^ 63 := by decide
  have hremove : 0 < 2 ^ 64 ∧ 2 < 2 ^ 64 := by decide
  have hops : Allowed [.add "wq0".toList, .addch '.', .addf "1".toList, .remove 0 2] [] :=
    ⟨hadd, fun _ _ => ⟨trivial, fun _ _ => ⟨trivial, fun _ _ => ⟨hremove, fun _ _ => trivial⟩⟩⟩⟩
  have hrun := run_gives plenty hops 0
  have hok : (runOps .empty [.add "wq0".toList, .addch '.', .addf "1".toList, .remove 0 2]
      plenty 0).toOption.isSome = true := by decide +kernel
  generalize runOps .empty _ plenty 0 = r at hrun hok ⊢
  obtain e | ⟨sb, k⟩ := r
  · exact absurd hok Bool.false_ne_true
  · obtain ⟨⟨t₁, rfl, t₂, rfl, t₃, rfl, t₄, htext, rfl⟩, -, -, hnul⟩ := hrun
    have htext' : sb.text = "0.1".toList := htext.trans (by decide)
    refine ⟨sb, k, rfl, htext', hnul.resolve_right fun ⟨hempty, _⟩ => ?_⟩
    rw [hempty] at htext'
    exact absurd htext' (by decide)

/-! ### Paths -/

/-- The string that a pointer into memory stands for. -/
def cString (buf : List Char) : List Char := buf.takeWhile (· ≠ nul)

/-- `prefix_filename` -/
def prefixFilename (pfx : Option (List Char)) (arg : List Char) : Run (Option (List Char)) := do
  let path ← (match pfx with
    | some pfx => if arg.head? = some '/' then pure .empty else strbufAdd .empty pfx
    | none => pure .empty)
  let path ← strbufAdd path arg
  return (strbufDetach path).1

/-- `fix_filename`, with the string that is in `*file` afterwards. -/
def fixFilename (pfx file : Option (List Char)) : Run (Option (List Char)) :=
  match pfx, file with
  | some pfx, some file =>
    if file.head? = some '/' || file = ['-'] then return some file
    else do return (← prefixFilename (some pfx) file).map cString
  | _, _ => return file

/-- What is detached from a buffer is a C string. -/
theorem Strbuf.Is.cString_buf {t : List Char} (h : sb.Is t) (ht : nul ∉ t) :
    cString sb.buf = t := by
  obtain ⟨hlt, hnul⟩ := List.getElem?_eq_some_iff.mp h.terminated
  have hall : ∀ c ∈ t, decide (c ≠ nul) = true := fun c hc =>
    decide_eq_true fun heq => ht (heq ▸ hc)
  have hsplit : sb.buf = t ++ nul :: sb.buf.drop (sb.len + 1) := by
    rw [← hnul, ← List.drop_eq_getElem_cons hlt, ← h.text, Strbuf.text, List.take_append_drop]
  rw [cString, hsplit, List.takeWhile_append_of_pos hall, List.takeWhile_cons_of_neg (by simp),
    List.append_nil]

theorem prefixFilename_gives {pfx : Option (List Char)} {arg : List Char}
    (hpfx : (pfx.getD []).length < 2 ^ 63) (harg : arg.length < 2 ^ 63)
    (hnul : nul ∉ pfx.getD [] ++ arg) :
    Gives M (prefixFilename pfx arg)
      (fun r => r.map cString = some (ParseOptions.prefixFilename (pfx.getD []) arg))
      (Short M ((pfx.getD []).length + arg.length + 1)) := by
  have hstart : Gives M (match pfx with
        | some pfx => if arg.head? = some '/' then pure .empty else strbufAdd .empty pfx
        | none => pure .empty)
      (fun path => path.Sized ∧ path.text = if arg.head? = some '/' then [] else pfx.getD [])
      (Short M ((pfx.getD []).length + arg.length + 1)) := by
    cases pfx with
    | none => exact .pure ⟨Strbuf.sized_empty, by rw [Option.getD_none, ite_self]; rfl⟩
    | some pfx =>
      dsimp only
      split
      · exact .pure ⟨Strbuf.sized_empty, rfl⟩
      · refine (strbufAdd_gives Strbuf.sized_empty hpfx).weaken (fun path h => ⟨h.sized, h.text⟩)
          fun e he => he.mono ?_
        show 0 + pfx.length + 1 ≤ _
        rw [Option.getD_some]
        omega
  refine .bind hstart fun path ⟨hsized, htext⟩ => ?_
  have hlen : path.len ≤ (pfx.getD []).length := by
    rw [← hsized.length_text, htext]
    split
    · exact Nat.zero_le _
    · exact le_rfl
  refine .bind ((strbufAdd_gives hsized harg).weaken (fun sb h => h)
    fun e he => he.mono (by omega)) fun sb h => .pure ?_
  have hpath : path.text ++ arg = ParseOptions.prefixFilename (pfx.getD []) arg := by
    rw [htext, ParseOptions.prefixFilename]
    split
    · exact List.nil_append arg
    · rfl
  have hno : nul ∉ path.text ++ arg := by
    rw [htext]
    split
    · exact fun hmem => hnul (List.mem_append_right _ (by simpa using hmem))
    · exact hnul
  rw [strbufDetach, if_neg (Nat.ne_zero_of_lt h.room.len_lt), Option.map_some, h.cString_buf hno,
    hpath]

/-- The path that a buffer was built for is the one that it should be. -/
theorem fixFilename_gives {pfx file : Option (List Char)}
    (hpfx : (pfx.getD []).length < 2 ^ 63) (hfile : (file.getD []).length < 2 ^ 63)
    (hnul : nul ∉ pfx.getD [] ++ file.getD []) :
    Gives M (fixFilename pfx file) (· = ParseOptions.fixFilename pfx file)
      (Short M ((pfx.getD []).length + (file.getD []).length + 1)) := by
  cases pfx with
  | none => exact .pure rfl
  | some pfx =>
    cases file with
    | none => exact .pure rfl
    | some file =>
      rw [fixFilename, ParseOptions.fixFilename]
      split
      · exact .pure rfl
      · exact .bind (prefixFilename_gives hpfx hfile hnul) fun r hr => .pure hr

end Accfg.TextBuffer
