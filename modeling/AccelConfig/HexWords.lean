/-
Hexadecimal words behind one another, as the C library prints and reads them.

`scanHex` is the conversion `%x` of `sscanf`, and `scanWords` that many of them
with one character between each two.

* `scanHex_digits` — digits are read up to the first character that is none;
* `numeral_hexDigits` — a printed number is read back, whatever zeros stand in
  front of it;
* `scanWords_join` — words that are joined are read back;
* `length_scanWords_le` — no more words are read than there are.
-/
import AccelConfig.CNumeral

open CNumeral

namespace HexWords

/-! ### Scanning -/

/-- A hexadecimal digit. -/
def isHex (c : Char) : Bool := digitVal c < 16

/-- A `0x` in front of the digits is skipped. -/
def skipPrefix : List Char → List Char
  | '0' :: x :: cs => if x = 'x' ∨ x = 'X' then cs else '0' :: x :: cs
  | cs => cs

/-- `%x`: blanks, a sign, `0x`, and at least one digit. -/
def scanHex (cs : List Char) : Option (ℤ × List Char) :=
  match scanSign (cs.dropWhile isBlank) with
  | (neg, body) =>
    match (skipPrefix body).takeWhile isHex with
    | [] => none
    | ds => some (signed neg (numeral 16 ds), (skipPrefix body).dropWhile isHex)

/-- `%x`, stored in a word. -/
def scanWord (w : ℕ) (cs : List Char) : Option (BitVec w × List Char) :=
  (scanHex cs).map fun (z, rest) => ((unsignedLong z).setWidth w, rest)

/-- So many times `%x`, and a character between each two. -/
def scanWords (w : ℕ) (sep : Char) : ℕ → List Char → List (BitVec w)
  | 0, _ => []
  | n + 1, cs =>
    match scanWord w cs with
    | none => []
    | some (x, []) => [x]
    | some (x, c :: rest) => if c = sep then x :: scanWords w sep n rest else [x]

/-! ### Digits -/

theorem toNat_of_isHex {c : Char} (h : isHex c = true) : 48 ≤ c.toNat := by
  have h : digitVal c < 16 := of_decide_eq_true h
  rw [digitVal] at h
  split at h
  · next hd =>
    have hrange := Bool.and_eq_true_iff.mp hd
    exact UInt32.le_iff_toNat_le.mp (of_decide_eq_true hrange.1)
  · split at h
    · next hl =>
      have hrange := Bool.and_eq_true_iff.mp hl
      have hc : 97 ≤ c.toNat := UInt32.le_iff_toNat_le.mp (of_decide_eq_true hrange.1)
      omega
    · split at h
      · next hu =>
        have hrange : c.val ≥ 'A'.val ∧ c.val ≤ 'Z'.val := of_decide_eq_true hu
        have hc : 65 ≤ c.toNat := UInt32.le_iff_toNat_le.mp hrange.1
        omega
      · omega

theorem isBlank_of_isHex {c : Char} (h : isHex c = true) : isBlank c = false := by
  have hc := toNat_of_isHex h
  cases hb : isBlank c with
  | false => rfl
  | true =>
    simp only [isBlank, Bool.or_eq_true, decide_eq_true_eq, Bool.and_eq_true] at hb
    rcases hb with rfl | ⟨-, hle⟩
    · exact absurd hc (by decide)
    · have : c.toNat ≤ 13 := hle
      omega

theorem ne_sign_of_isHex {c : Char} (h : isHex c = true) : c ≠ '-' ∧ c ≠ '+' := by
  have hc := toNat_of_isHex h
  constructor
  · rintro rfl
    exact absurd hc (by decide)
  · rintro rfl
    exact absurd hc (by decide)

theorem scanSign_of_isHex {c : Char} {cs : List Char} (h : isHex c = true) :
    scanSign (c :: cs) = (false, c :: cs) := by
  obtain ⟨hminus, hplus⟩ := ne_sign_of_isHex h
  rw [scanSign]
  · exact fun cs h => hminus (List.cons.inj h).1
  · exact fun cs h => hplus (List.cons.inj h).1

/-- No character stands at the head that a digit or its prefix could be taken
for. -/
def StopsHex (rest : List Char) : Prop := ∀ c ∈ rest.head?, isHex c = false ∧ c ≠ 'x' ∧ c ≠ 'X'

theorem stopsHex_nil : StopsHex [] := by simp [StopsHex]

theorem stopsHex_cons {c : Char} {rest : List Char} :
    StopsHex (c :: rest) ↔ isHex c = false ∧ c ≠ 'x' ∧ c ≠ 'X' := by
  simp [StopsHex]

theorem skipPrefix_digits {ds rest : List Char} (hd : ∀ c ∈ ds, isHex c = true)
    (hr : StopsHex rest) :
    ds ≠ [] → skipPrefix (ds ++ rest) = ds ++ rest := by
  intro hne
  have hx : ∀ c ∈ (ds ++ rest).tail.head?, c ≠ 'x' ∧ c ≠ 'X' := by
    intro c hc
    rcases ds with _ | ⟨d, _ | ⟨d', ds⟩⟩
    · exact absurd rfl hne
    · exact (hr c hc).2
    · obtain rfl : d' = c := by simpa using hc
      have hhex := hd d' (by simp)
      constructor
      · rintro rfl
        exact absurd hhex (by decide)
      · rintro rfl
        exact absurd hhex (by decide)
  generalize ds ++ rest = cs at hx
  unfold skipPrefix
  split
  · next x cs =>
    have hne := hx x (by simp)
    rw [if_neg (not_or.mpr hne)]
  · rfl

/-- Digits are read, up to the first character that is none. -/
theorem scanHex_digits {ds rest : List Char} (hne : ds ≠ []) (hd : ∀ c ∈ ds, isHex c = true)
    (hr : StopsHex rest) : scanHex (ds ++ rest) = some ((numeral 16 ds : ℤ), rest) := by
  obtain ⟨htake, hdrop⟩ := span_exact hd fun c hc => (hr c hc).1
  have hprefix := skipPrefix_digits hd hr hne
  rcases ds with _ | ⟨d, ds⟩
  · exact absurd rfl hne
  have hhex := hd d List.mem_cons_self
  have hblank : (d :: ds ++ rest).dropWhile isBlank = d :: ds ++ rest := by
    rw [List.cons_append, List.dropWhile_cons_of_neg (by simp [isBlank_of_isHex hhex])]
  rw [scanHex, hblank, List.cons_append, scanSign_of_isHex hhex]
  dsimp only
  rw [← List.cons_append, hprefix, htake, hdrop]
  rfl

/-! ### Reading what was printed -/

theorem numeral_append (b : ℕ) (xs : List Char) (c : Char) :
    numeral b (xs ++ [c]) = b * numeral b xs + digitVal c := by
  rw [numeral, List.foldl_append]
  rfl

theorem digitVal_digitChar : ∀ d < 16, digitVal (Nat.digitChar d) = d := by decide

theorem isHex_of_mem_toDigits {n : ℕ} {c : Char} (h : c ∈ Nat.toDigits 16 n) : isHex c = true := by
  induction n using Nat.strongRecOn with
  | ind n ih =>
    rw [Nat.toDigits_eq_if (by decide)] at h
    split at h
    · next hlt =>
      obtain rfl := List.mem_singleton.mp h
      rw [isHex, digitVal_digitChar n hlt]
      exact decide_eq_true hlt
    · next hge =>
      rcases List.mem_append.mp h with h | h
      · exact ih (n / 16) (by omega) h
      · obtain rfl := List.mem_singleton.mp h
        have hlt : n % 16 < 16 := Nat.mod_lt n (by decide)
        rw [isHex, digitVal_digitChar _ hlt]
        exact decide_eq_true hlt

theorem numeral_hexDigits (n : ℕ) : numeral 16 (Nat.toDigits 16 n) = n := by
  induction n using Nat.strongRecOn with
  | ind n ih =>
    rw [Nat.toDigits_eq_if (by decide)]
    split
    · next hlt =>
      show 16 * 0 + digitVal (Nat.digitChar n) = n
      rw [digitVal_digitChar n hlt, Nat.mul_zero, Nat.zero_add]
    · next hge =>
      rw [numeral_append, ih (n / 16) (by omega), digitVal_digitChar _ (Nat.mod_lt n (by decide))]
      omega

/-- The text reads as the word, whatever stands behind it. -/
def ReadsWord {w : ℕ} (text : List Char) (x : BitVec w) : Prop :=
  ∀ rest, StopsHex rest → scanWord w (text ++ rest) = some (x, rest)

/-- A printed word is read back, with zeros in front of it or without. -/
theorem reads_toDigits {w : ℕ} (hw : w ≤ 64) (k : ℕ) (x : BitVec w) :
    ReadsWord (List.replicate k '0' ++ Nat.toDigits 16 x.toNat) x := by
  intro rest hr
  have hd : ∀ c ∈ List.replicate k '0' ++ Nat.toDigits 16 x.toNat, isHex c = true := by
    intro c hc
    rcases List.mem_append.mp hc with hc | hc
    · rw [List.eq_of_mem_replicate hc]
      decide
    · exact isHex_of_mem_toDigits hc
  have hne : List.replicate k '0' ++ Nat.toDigits 16 x.toNat ≠ [] :=
    List.append_ne_nil_of_right_ne_nil _ Nat.toDigits_ne_nil
  have hlt : x.toNat < 2 ^ 64 := lt_of_lt_of_le x.isLt (Nat.pow_le_pow_right (by decide) hw)
  have hword : (unsignedLong (x.toNat : ℤ)).setWidth w = x := by
    rw [unsignedLong, if_pos (by rwa [Int.natAbs_natCast])]
    refine BitVec.eq_of_toNat_eq ?_
    rw [BitVec.toNat_setWidth, BitVec.toNat_ofInt, ← Int.natCast_mod, Int.toNat_natCast,
      Nat.mod_eq_of_lt hlt, Nat.mod_eq_of_lt x.isLt]
  rw [scanWord, scanHex_digits hne hd hr, Option.map_some, numeral_zeros, numeral_hexDigits]
  dsimp only
  rw [hword]

/-- Texts with the separator between each two. -/
def join (sep : Char) (texts : List (List Char)) : List Char := (texts.intersperse [sep]).flatten

theorem join_cons_cons (sep : Char) (text text' : List Char) (texts : List (List Char)) :
    join sep (text :: text' :: texts) = text ++ sep :: join sep (text' :: texts) := rfl

theorem length_join_le (sep : Char) {texts : List (List Char)} {k : ℕ}
    (h : ∀ text ∈ texts, text.length ≤ k) : (join sep texts).length ≤ texts.length * (k + 1) := by
  induction texts with
  | nil => exact Nat.zero_le _
  | cons text texts ih =>
    have hrest := ih fun t ht => h t (List.mem_cons_of_mem text ht)
    have hfirst := h text List.mem_cons_self
    rw [List.length_cons, Nat.succ_mul]
    cases texts with
    | nil =>
      have hjoin : join sep [text] = text := List.append_nil text
      rw [hjoin]
      omega
    | cons text' texts =>
      rw [join_cons_cons, List.length_append, List.length_cons]
      omega

theorem mem_join {sep : Char} {texts : List (List Char)} {c : Char} (h : c ∈ join sep texts) :
    c = sep ∨ ∃ text ∈ texts, c ∈ text := by
  induction texts with
  | nil => exact absurd h List.not_mem_nil
  | cons text texts ih =>
    cases texts with
    | nil =>
      have hjoin : join sep [text] = text := List.append_nil text
      rw [hjoin] at h
      exact Or.inr ⟨text, List.mem_cons_self, h⟩
    | cons text' texts =>
      rw [join_cons_cons, List.mem_append, List.mem_cons] at h
      rcases h with h | h | h
      · exact Or.inr ⟨text, List.mem_cons_self, h⟩
      · exact Or.inl h
      · exact (ih h).imp_right fun ⟨t, ht, hc⟩ => ⟨t, List.mem_cons_of_mem text ht, hc⟩

/-- Words that are joined are read back. -/
theorem scanWords_join {w : ℕ} {sep : Char} (hsep : StopsHex [sep]) {texts : List (List Char)}
    {xs : List (BitVec w)} (h : List.Forall₂ ReadsWord texts xs) :
    scanWords w sep xs.length (join sep texts) = xs := by
  induction h with
  | nil => rfl
  | @cons text x texts xs hread hrest ih =>
    cases hrest with
    | nil =>
      have hscan := hread [] stopsHex_nil
      rw [List.append_nil] at hscan
      have hjoin : join sep [text] = text := List.append_nil text
      rw [List.length_singleton, scanWords, hjoin, hscan]
    | @cons text' x' texts xs hread' hrest =>
      have hstops : StopsHex (sep :: join sep (text' :: texts)) := by
        intro c hc
        exact hsep c hc
      rw [List.length_cons, scanWords, join_cons_cons, hread _ hstops]
      dsimp only
      rw [if_pos rfl, ih]

/-! ### How many words there are -/

/-- Behind blanks and a sign, a hexadecimal digit. -/
def startsHex (piece : List Char) : Bool :=
  (scanSign (piece.dropWhile isBlank)).2.head?.any isHex

/-- A character that is no part of a number, and not skipped in front of one. -/
structure Separates (sep : Char) : Prop where
  blank : isBlank sep = false
  sign : sep ≠ '-' ∧ sep ≠ '+'
  stops : StopsHex [sep]

theorem startsHex_iff {piece : List Char} : startsHex piece = true ↔
    ∃ pad sign c more, piece = pad ++ (sign ++ c :: more) ∧ (∀ c ∈ pad, isBlank c = true) ∧
      (sign = [] ∨ sign = ['+'] ∨ sign = ['-']) ∧ isHex c = true := by
  constructor
  · intro h
    obtain ⟨sign, hsign, hsplit, -⟩ := scanSign_split (piece.dropWhile isBlank)
    rw [startsHex] at h
    generalize (scanSign (piece.dropWhile isBlank)).2 = body at h hsplit
    rcases body with _ | ⟨c, more⟩
    · simp at h
    · refine ⟨piece.takeWhile isBlank, sign, c, more, ?_, List.all_eq_true.mp List.all_takeWhile,
        hsign, by simpa using h⟩
      rw [← hsplit, List.takeWhile_append_dropWhile]
  · rintro ⟨pad, sign, c, more, rfl, hpad, hsign, hc⟩
    have hblank : (pad ++ (sign ++ c :: more)).dropWhile isBlank = sign ++ c :: more := by
      rw [List.dropWhile_append_of_pos hpad]
      rcases hsign with rfl | rfl | rfl
      · rw [List.nil_append, List.dropWhile_cons_of_neg (by simp [isBlank_of_isHex hc])]
      · rfl
      · rfl
    have hbody : (scanSign (sign ++ c :: more)).2 = c :: more := by
      rcases hsign with rfl | rfl | rfl
      · rw [List.nil_append, scanSign_of_isHex hc]
      · rfl
      · rfl
    rw [startsHex, hblank, hbody]
    simpa using hc

theorem startsHex_append {piece : List Char} (h : startsHex piece = true) (more : List Char) :
    startsHex (piece ++ more) = true := by
  obtain ⟨pad, sign, c, rest, rfl, hpad, hsign, hc⟩ := startsHex_iff.mp h
  refine startsHex_iff.mpr ⟨pad, sign, c, rest ++ more, ?_, hpad, hsign, hc⟩
  simp only [List.append_assoc, List.cons_append]

/-- What is skipped is a prefix, or nothing. -/
theorem skipPrefix_split (cs : List Char) :
    ∃ pre, (pre = [] ∨ pre = ['0', 'x'] ∨ pre = ['0', 'X']) ∧ cs = pre ++ skipPrefix cs := by
  unfold skipPrefix
  split
  · next x cs =>
    split
    · next hx =>
      obtain rfl | rfl := hx
      · exact ⟨_, Or.inr (Or.inl rfl), rfl⟩
      · exact ⟨_, Or.inr (Or.inr rfl), rfl⟩
    · exact ⟨[], Or.inl rfl, rfl⟩
  · exact ⟨[], Or.inl rfl, rfl⟩

/-- What a conversion takes starts like a number, and has no separator in it. -/
theorem scanHex_split {sep : Char} (hsep : Separates sep) {cs rest : List Char} {z : ℤ}
    (h : scanHex cs = some (z, rest)) :
    ∃ taken, cs = taken ++ rest ∧ sep ∉ taken ∧ startsHex taken = true := by
  obtain ⟨sign, hsign, hsplit, -⟩ := scanSign_split (cs.dropWhile isBlank)
  rw [scanHex] at h
  generalize scanSign (cs.dropWhile isBlank) = r at h hsplit
  obtain ⟨neg, body⟩ := r
  obtain ⟨pre, hpre, hbody⟩ := skipPrefix_split body
  dsimp only at h hsplit
  have hhex : ∀ c ∈ (skipPrefix body).takeWhile isHex, isHex c = true :=
    List.all_eq_true.mp List.all_takeWhile
  have hcut := List.takeWhile_append_dropWhile (p := isHex) (l := skipPrefix body)
  generalize (skipPrefix body).takeWhile isHex = ds at h hhex hcut
  rcases ds with _ | ⟨d, ds⟩
  · cases h
  obtain ⟨-, hrest⟩ := Prod.mk.inj (Option.some_inj.mp h)
  rw [hrest] at hcut
  -- the number begins with the zero of its prefix, or with its first digit
  obtain ⟨c, more, hnum, hc⟩ : ∃ c more, pre ++ d :: ds = c :: more ∧ isHex c = true := by
    rcases hpre with rfl | rfl | rfl
    · exact ⟨d, ds, rfl, hhex d List.mem_cons_self⟩
    · exact ⟨'0', 'x' :: d :: ds, rfl, by decide⟩
    · exact ⟨'0', 'X' :: d :: ds, rfl, by decide⟩
  have hpad : ∀ c ∈ cs.takeWhile isBlank, isBlank c = true :=
    List.all_eq_true.mp List.all_takeWhile
  refine ⟨cs.takeWhile isBlank ++ (sign ++ (pre ++ d :: ds)), ?_, ?_, ?_⟩
  · calc cs = cs.takeWhile isBlank ++ cs.dropWhile isBlank := List.takeWhile_append_dropWhile.symm
      _ = cs.takeWhile isBlank ++ (sign ++ (pre ++ (d :: ds ++ rest))) := by
        rw [hsplit, hcut, ← hbody]
      _ = _ := by simp only [List.append_assoc]
  · obtain ⟨hdigit, hx, hX⟩ := hsep.stops sep rfl
    intro hmem
    rcases List.mem_append.mp hmem with hmem | hmem
    · exact absurd (hpad sep hmem) (by simp [hsep.blank])
    rcases List.mem_append.mp hmem with hmem | hmem
    · rcases hsign with rfl | rfl | rfl
      · exact List.not_mem_nil hmem
      · exact hsep.sign.2 (List.mem_singleton.mp hmem)
      · exact hsep.sign.1 (List.mem_singleton.mp hmem)
    rcases List.mem_append.mp hmem with hmem | hmem
    · have hzero : sep ≠ '0' := by
        rintro rfl
        exact absurd hdigit (by decide)
      rcases hpre with rfl | rfl | rfl
      · exact List.not_mem_nil hmem
      · simp only [List.mem_cons, List.not_mem_nil, or_false] at hmem
        exact hmem.elim hzero hx
      · simp only [List.mem_cons, List.not_mem_nil, or_false] at hmem
        exact hmem.elim hzero hX
    · exact absurd (hhex sep hmem) (by simp [hdigit])
  · rw [hnum]
    exact startsHex_iff.mpr ⟨_, sign, c, more, rfl, hpad, hsign, hc⟩

/-- The pieces that start like a number. -/
def countWords (sep : Char) (cs : List Char) : ℕ := (cs.splitOn sep).countP startsHex

theorem countWords_append_cons (sep : Char) (xs cs : List Char) :
    countWords sep (xs ++ sep :: cs) = countWords sep xs + countWords sep cs := by
  rw [countWords, List.splitOn_append_cons_self, List.countP_append]
  rfl

theorem countWords_of_notMem {sep : Char} {cs : List Char} (h : sep ∉ cs) :
    countWords sep cs = if startsHex cs = true then 1 else 0 := by
  rw [countWords, List.splitOn_eq_singleton h, List.countP_singleton]

/-- A text has no fewer words than what it begins with. -/
theorem countWords_le_append (sep : Char) (cs more : List Char) :
    countWords sep cs ≤ countWords sep (cs ++ more) := by
  induction hn : cs.length using Nat.strongRecOn generalizing cs with
  | ind n ih =>
    by_cases hmem : sep ∈ cs
    · obtain ⟨xs, ys, rfl⟩ := List.append_of_mem hmem
      have hlt : ys.length < n := by
        rw [← hn, List.length_append, List.length_cons]
        omega
      rw [List.append_assoc, List.cons_append, countWords_append_cons, countWords_append_cons]
      exact Nat.add_le_add_left (ih _ hlt ys rfl) _
    · rw [countWords_of_notMem hmem]
      split
      · next hhex =>
        by_cases hmore : sep ∈ more
        · obtain ⟨xs, ys, rfl, hxs⟩ := List.eq_append_cons_of_mem hmore
          have hfirst : sep ∉ cs ++ xs := by
            rw [List.mem_append]
            exact not_or.mpr ⟨hmem, hxs⟩
          rw [← List.append_assoc, countWords_append_cons, countWords_of_notMem hfirst,
            if_pos (startsHex_append hhex xs)]
          exact Nat.le_add_right _ _
        · have hall : sep ∉ cs ++ more := by
            rw [List.mem_append]
            exact not_or.mpr ⟨hmem, hmore⟩
          rw [countWords_of_notMem hall, if_pos (startsHex_append hhex more)]
      · exact Nat.zero_le _

/-- No more words are read than there are. -/
theorem length_scanWords_le {sep : Char} (hsep : Separates sep) (w n : ℕ) (cs : List Char) :
    (scanWords w sep n cs).length ≤ countWords sep cs := by
  induction n generalizing cs with
  | zero => exact Nat.zero_le _
  | succ n ih =>
    rw [scanWords]
    cases hscan : scanWord w cs with
    | none => exact Nat.zero_le _
    | some r =>
      obtain ⟨x, rest⟩ := r
      obtain ⟨⟨z, rest'⟩, hhex, heq⟩ := Option.map_eq_some_iff.mp hscan
      obtain ⟨-, rfl⟩ := Prod.mk.inj heq
      obtain ⟨taken, rfl, hnot, hstart⟩ := scanHex_split hsep hhex
      have hone : countWords sep taken = 1 := by rw [countWords_of_notMem hnot, if_pos hstart]
      have hle : 1 ≤ countWords sep (taken ++ rest') := by
        rw [← hone]
        exact countWords_le_append sep taken rest'
      cases rest' with
      | nil => exact hle
      | cons c rest =>
        dsimp only
        split
        · next hc =>
          rw [hc, countWords_append_cons, hone, List.length_cons, Nat.add_comm 1]
          exact Nat.succ_le_succ (ih rest)
        · exact hle

end HexWords
