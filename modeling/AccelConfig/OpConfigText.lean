/-
Operation masks as texts.

`accfg_wq_set_op_config` prints the eight words of a mask with `%x`, and
`util_bitmask_to_string` prints them with `%08x`; `accfg_wq_get_op_config`
scans eight words with `%x`, and refuses a text in which there are fewer.

* `accfgWqGetOpConfig_of_serves` — what is made of a text;
* `opConfig_roundTrip` — both texts are read back, and a shorter one is refused;
* `get_set_opConfig` — a mask that was set is got back, if the file keeps it.
-/
import Mathlib.Data.List.FinRange
import Mathlib.Data.List.Forall2
import AccelConfig.HexWords
import AccelConfig.StoreKernel

open CNumeral HexWords

namespace Accfg

variable {κ : Type} (K : Kernel κ)

/-! ### The functions -/

/-- `%08x`. -/
def hexText08 (w : BitVec 32) : List Char := (hexText w).leftpad 8 '0'

/-- The text of `util_bitmask_to_string`. -/
def utilBitmaskToString (bitArray : Fin 8 → BitVec 32) : List Char :=
  join ',' (List.ofFn fun i => hexText08 (bitArray i))

/-- The end of `accfg_wq_get_op_config`, once the text is there: what could be
scanned is stored, even if it is not enough. -/
def scanOpConfig (oc : List Char) (opConfig : Fin 8 → BitVec 32) : ℤ × (Fin 8 → BitVec 32) :=
  let words := scanWords 32 ',' 8 oc
  (if words.length ≠ 8 then - EIO else 0, fun i => (words[(i : ℕ)]?).getD (opConfig i))

/-- `accfg_wq_get_op_config`. -/
def accfgWqGetOpConfig (c : ChildId) (opConfig : Fin 8 → BitVec 32) (s : Sys κ) :
    ℤ × (Fin 8 → BitVec 32) × Sys κ :=
  match sysCall (K.openDir (.wq c) s.kernel) s with
  | (none, s) => (-s.errno, opConfig, s)
  | (some (), s) =>
    match accfgGetParamStr K (.wq c) "op_config" s with
    | (none, s) => (- EIO, opConfig, s)
    | (some oc, s) =>
      let r := scanOpConfig oc.toList opConfig
      (r.1, r.2, s)

/-! ### What is read -/

/-- The calls of `accfg_wq_get_op_config` succeed, and the file has the
content. -/
def Serves (c : ChildId) (buf : List Char) (s : Sys κ) : Prop :=
  ∃ k₁ k₂ k₃, K.openDir (.wq c) s.kernel = (.ok (), k₁) ∧
    K.openFile (.attr (.wq c) "op_config") .read k₁ = (.ok (), k₂) ∧
    K.read (.attr (.wq c) "op_config") k₂ = (.ok buf, k₃)

variable {K}

/-- What is scanned: the first line, as far as it is read. -/
theorem accfgWqGetOpConfig_of_serves {c : ChildId} {buf : List Char} {s : Sys κ}
    (h : Serves K c buf s) (hne : buf ≠ []) (old : Fin 8 → BitVec 32) :
    ∃ s', accfgWqGetOpConfig K c old s =
      ((scanOpConfig ((buf.take (MAX_PARAM_LEN - 1)).takeWhile (· ≠ '\n')) old).1,
        (scanOpConfig ((buf.take (MAX_PARAM_LEN - 1)).takeWhile (· ≠ '\n')) old).2, s') := by
  obtain ⟨k₁, k₂, k₃, hdir, hopen, hread⟩ := h
  obtain ⟨ch, cs, rfl⟩ := List.exists_cons_of_ne_nil hne
  refine ⟨{ s with kernel := k₃ }, ?_⟩
  rw [accfgWqGetOpConfig, hdir, sysCall]
  dsimp only
  rw [accfgGetParamStr, hopen, sysCall]
  dsimp only
  rw [readParam, hread, sysCall]
  dsimp only
  rw [String.toList_ofList]

/-- An empty file is refused. -/
theorem accfgWqGetOpConfig_of_empty {c : ChildId} {s : Sys κ} (h : Serves K c [] s)
    (old : Fin 8 → BitVec 32) : ∃ s', accfgWqGetOpConfig K c old s = (- ( EIO : ℤ), old, s') := by
  obtain ⟨k₁, k₂, k₃, hdir, hopen, hread⟩ := h
  refine ⟨{ s with kernel := k₃ }, ?_⟩
  rw [accfgWqGetOpConfig, hdir, sysCall]
  dsimp only
  rw [accfgGetParamStr, hopen, sysCall]
  dsimp only
  rw [readParam, hread, sysCall]

/-! ### The two texts -/

theorem separates_comma : Separates ',' := ⟨by decide, by decide, stopsHex_cons.mpr (by decide)⟩

/-- A text that is made of words like those of the mask. -/
theorem scanOpConfig_join {texts : List (List Char)} {bits : Fin 8 → BitVec 32}
    (h : List.Forall₂ ReadsWord texts (List.ofFn bits)) (old : Fin 8 → BitVec 32) :
    scanOpConfig (join ',' texts) old = (0, bits) := by
  have hwords : scanWords 32 ',' 8 (join ',' texts) = List.ofFn bits := by
    have hscan := scanWords_join separates_comma.stops h
    rwa [List.length_ofFn] at hscan
  rw [scanOpConfig, hwords, List.length_ofFn]
  refine Prod.ext rfl (funext fun i => ?_)
  dsimp only
  rw [List.getElem?_ofFn, dif_pos i.isLt, Option.getD_some]

theorem forall₂_ofFn {α β : Type} {R : α → β → Prop} {n : ℕ} {f : Fin n → α} {g : Fin n → β}
    (h : ∀ i, R (f i) (g i)) : List.Forall₂ R (List.ofFn f) (List.ofFn g) := by
  rw [List.ofFn_eq_map, List.ofFn_eq_map, List.forall₂_map_left_iff, List.forall₂_map_right_iff,
    List.forall₂_same]
  exact fun i _ => h i

theorem readsWord_hexText (w : BitVec 32) : ReadsWord (hexText w) w :=
  reads_toDigits (by decide) 0 w

theorem readsWord_hexText08 (w : BitVec 32) : ReadsWord (hexText08 w) w := by
  rw [hexText08, List.leftpad]
  exact reads_toDigits (by decide) _ w

/-- One of the two texts of a mask. -/
def IsOpConfigText (bits : Fin 8 → BitVec 32) (text : List Char) : Prop :=
  text = opConfigText bits ∨ text = utilBitmaskToString bits

/-- Both texts are eight short words of digits, each of which reads as the word
of the mask. -/
theorem IsOpConfigText.exists_texts {bits : Fin 8 → BitVec 32} {text : List Char}
    (h : IsOpConfigText bits text) :
    ∃ texts, text = join ',' texts ∧ List.Forall₂ ReadsWord texts (List.ofFn bits) ∧
      texts.length = 8 ∧ ∀ t ∈ texts, t.length ≤ 8 ∧ ∀ c ∈ t, isHex c = true := by
  have hlen : ∀ w : BitVec 32, (hexText w).length ≤ 8 := fun w =>
    (Nat.length_toDigits_le_iff (by decide) (by decide)).mpr w.isLt
  have hhex : ∀ w : BitVec 32, ∀ c ∈ hexText w, isHex c = true := fun w c hc =>
    isHex_of_mem_toDigits hc
  rcases h with rfl | rfl
  · refine ⟨_, rfl, forall₂_ofFn fun i => readsWord_hexText (bits i), List.length_ofFn, ?_⟩
    intro t ht
    obtain ⟨i, rfl⟩ := List.mem_ofFn.mp ht
    exact ⟨hlen _, hhex _⟩
  · refine ⟨_, rfl, forall₂_ofFn fun i => readsWord_hexText08 (bits i), List.length_ofFn, ?_⟩
    intro t ht
    obtain ⟨i, rfl⟩ := List.mem_ofFn.mp ht
    constructor
    · rw [hexText08, List.length_leftpad]
      exact max_le le_rfl (hlen _)
    · intro c hc
      rcases List.mem_append.mp hc with hc | hc
      · rw [List.eq_of_mem_replicate hc]
        decide
      · exact hhex _ c hc

/-- Neither text is cut, with a newline behind it or without. -/
theorem IsOpConfigText.line {bits : Fin 8 → BitVec 32} {text nl : List Char}
    (h : IsOpConfigText bits text) (hnl : nl = [] ∨ nl = ['\n']) :
    ((text ++ nl).take (MAX_PARAM_LEN - 1)).takeWhile (· ≠ '\n') = text := by
  obtain ⟨texts, rfl, -, hcount, htexts⟩ := h.exists_texts
  have hlen : (join ',' texts).length ≤ 72 := by
    have hle := length_join_le ',' fun t ht => (htexts t ht).1
    rwa [hcount] at hle
  have hshort : (join ',' texts ++ nl).length ≤ MAX_PARAM_LEN - 1 := by
    have hone : nl.length ≤ 1 := by rcases hnl with rfl | rfl <;> simp
    rw [List.length_append]
    exact le_trans (Nat.add_le_add hlen hone) (by decide)
  have hno : ∀ c ∈ join ',' texts, decide (c ≠ '\n') = true := by
    intro c hc
    rw [decide_eq_true_eq]
    rintro rfl
    rcases mem_join hc with hsep | ⟨t, ht, hmem⟩
    · exact absurd hsep (by decide)
    · exact absurd ((htexts t ht).2 _ hmem) (by decide)
  rw [List.take_of_length_le hshort, List.takeWhile_append_of_pos hno]
  rcases hnl with rfl | rfl <;> simp

theorem IsOpConfigText.ne_nil {bits : Fin 8 → BitVec 32} {text : List Char}
    (h : IsOpConfigText bits text) : text ≠ [] := by
  obtain ⟨texts, rfl, hreads, hcount, -⟩ := h.exists_texts
  have hscan := scanWords_join separates_comma.stops hreads
  intro hnil
  rw [hnil, List.length_ofFn] at hscan
  have hlen := congrArg List.length hscan
  rw [List.length_ofFn] at hlen
  exact absurd hlen (by decide)

/-- A text of a mask is read back. -/
theorem accfgWqGetOpConfig_of_isText {bits : Fin 8 → BitVec 32} {text nl : List Char}
    (htext : IsOpConfigText bits text) (hnl : nl = [] ∨ nl = ['\n']) {c : ChildId} {s : Sys κ}
    (h : Serves K c (text ++ nl) s) (old : Fin 8 → BitVec 32) :
    ∃ s', accfgWqGetOpConfig K c old s = (0, bits, s') := by
  have hne : text ++ nl ≠ [] := fun hnil => htext.ne_nil (List.append_eq_nil_iff.mp hnil).1
  obtain ⟨s', hget⟩ := accfgWqGetOpConfig_of_serves h hne old
  obtain ⟨texts, rfl, hreads, -, -⟩ := htext.exists_texts
  rw [htext.line hnl, scanOpConfig_join hreads] at hget
  exact ⟨s', hget⟩

/-- A text with fewer than eight words is refused. -/
theorem accfgWqGetOpConfig_of_few {buf : List Char} (hfew : countWords ',' buf < 8) {c : ChildId}
    {s : Sys κ} (h : Serves K c buf s) (old : Fin 8 → BitVec 32) :
    (accfgWqGetOpConfig K c old s).1 = - EIO := by
  by_cases hnil : buf = []
  · subst hnil
    obtain ⟨s', hget⟩ := accfgWqGetOpConfig_of_empty h old
    rw [hget]
  · obtain ⟨s', hget⟩ := accfgWqGetOpConfig_of_serves h hnil old
    generalize hline : (buf.take (MAX_PARAM_LEN - 1)).takeWhile (· ≠ '\n') = line at hget
    -- what is scanned is the beginning of the content
    obtain ⟨more, rfl⟩ : ∃ more, buf = line ++ more := by
      have hprefix : line <+: buf := by
        rw [← hline]
        exact (List.takeWhile_prefix _).trans (List.take_prefix _ _)
      obtain ⟨more, hmore⟩ := hprefix
      exact ⟨more, hmore.symm⟩
    have hle := (length_scanWords_le separates_comma 32 8 line).trans
      (countWords_le_append ',' line more)
    rw [hget, scanOpConfig]
    exact if_pos (by omega)

/-- Both texts of a mask are read back as the mask, with a newline behind them
or without; and a text with fewer than eight words is refused. -/
theorem opConfig_roundTrip (K : Kernel κ) (c : ChildId) (s : Sys κ) (old : Fin 8 → BitVec 32) :
    (∀ bits text nl, IsOpConfigText bits text → nl = [] ∨ nl = ['\n'] →
      Serves K c (text ++ nl) s → ∃ s', accfgWqGetOpConfig K c old s = (0, bits, s')) ∧
    ∀ buf, countWords ',' buf < 8 → Serves K c buf s →
      (accfgWqGetOpConfig K c old s).1 = - EIO :=
  ⟨fun _ _ _ htext hnl h => accfgWqGetOpConfig_of_isText htext hnl h old,
    fun _ hfew h => accfgWqGetOpConfig_of_few hfew h old⟩

/-! ### One file -/

/-- A kernel with one file, whose content is the state. -/
def fileKernel : Kernel (List Char) where
  access _ k := (.ok (), k)
  openFile _ _ k := (.ok (), k)
  openDir _ k := (.ok (), k)
  read _ k := (.ok k, k)
  write _ buf _ := (.ok buf.length, buf)
  lstat _ k := (.ok (), k)
  realpath _ k := (.ok (), k)

/-- A fresh process, and the file. -/
def withFile (buf : List Char) : Sys (List Char) := ⟨buf, 0, 0, none, []⟩

theorem serves_fileKernel (c : ChildId) (buf : List Char) :
    Serves fileKernel c buf (withFile buf) :=
  ⟨buf, buf, buf, rfl, rfl, rfl⟩

theorem opConfig_roundTrip_fileKernel :
    (let bits : Fin 8 → BitVec 32 := fun i => BitVec.ofNat 32 (0x10 * i)
      ∃ s', accfgWqGetOpConfig fileKernel ⟨⟨.dsa, 0⟩, 0⟩ (fun _ => 0)
        (withFile (utilBitmaskToString bits ++ ['\n'])) = (0, bits, s')) ∧
    (accfgWqGetOpConfig fileKernel ⟨⟨.dsa, 0⟩, 0⟩ (fun _ => 0)
      (withFile ['1', ',', 'f', ',', '2', '\n'])).1 = - EIO :=
  ⟨(opConfig_roundTrip fileKernel _ _ _).1 _ _ _ (Or.inr rfl) (Or.inr rfl) (serves_fileKernel _ _),
    (opConfig_roundTrip fileKernel _ _ _).2 _ (by decide) (serves_fileKernel _ _)⟩

/-! ### Set and got back -/

/-- Where files keep what is written to them, a mask that is set is got back. -/
theorem get_set_opConfig {c : ChildId} {s : Sys Tree} {text : List Char}
    (h : s.kernel.file (.attr (.wq c) "op_config") = some text) (bits old : Fin 8 → BitVec 32) :
    ∃ s₁ s₂, accfgWqSetOpConfig storeKernel c bits s = (0, s₁) ∧
      accfgWqGetOpConfig storeKernel c old s₁ = (0, bits, s₂) := by
  obtain ⟨s₁, hset, hfile⟩ : ∃ s₁, accfgWqSetOpConfig storeKernel c bits s = (0, s₁) ∧
      s₁.kernel.file (.attr (.wq c) "op_config") = some (opConfigText bits) := by
    refine ⟨{ s with
      kernel := s.kernel.set (.attr (.wq c) "op_config") (opConfigText bits)
      written := s.written ++ [(.attr (.wq c) "op_config", opConfigText bits)] }, ?_, ?_⟩
    · rw [accfgWqSetOpConfig, accfgWqSetOpConfigStr, String.toList_ofList]
      have hdir : sysCall (storeKernel.openDir (.wq c) s.kernel) s = (some (), s) := rfl
      rw [hdir]
      dsimp only
      rw [accfgSetParam, writeFile_present .readWrite _ h]
      rfl
    · show (s.kernel.set _ _).file _ = _
      rw [Tree.file_set_self, h, Option.map_some]
  have hserves : Serves storeKernel c (opConfigText bits ++ ['\n']) s₁ := by
    refine ⟨s₁.kernel, s₁.kernel, s₁.kernel, rfl, ?_, ?_⟩
    · simp only [storeKernel, Tree.lookUp, hfile, Option.isSome_some, if_true]
    · simp only [storeKernel, hfile]
  obtain ⟨s₂, hget⟩ := accfgWqGetOpConfig_of_isText (Or.inl rfl) (Or.inr rfl) hserves old
  exact ⟨s₁, s₂, hset, hget⟩

end Accfg
