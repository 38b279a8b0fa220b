/-
Numerals that say in which base they are written.

With a base argument of 0 the C library reads an integer constant of C: a decimal
one, an octal one behind a `0`, or a hexadecimal one behind a `0x`.  It takes as much
of the text as it can.

* `Literal.scan`, `longest_of_scan` — the digits that are taken are those of the longest
  constant at the head of the text;
* `Accepts.read` — which number is read, and what is left;
* `exists_accepts_iff` — the texts that are read, short of a minus sign.
-/
import AccelConfig.CNumeral

namespace CNumeral

/-- An integer constant of C, and its number. -/
inductive Literal : List Char → ℕ → Prop
  | decimal {ds : List Char} :
      ds ≠ [] → ds.head? ≠ some '0' → (∀ c ∈ ds, digitVal c < 10) → Literal ds (numeral 10 ds)
  | octal {ds : List Char} : (∀ c ∈ ds, digitVal c < 8) → Literal ('0' :: ds) (numeral 8 ds)
  | hex {x : Char} {ds : List Char} :
      x = 'x' ∨ x = 'X' → ds ≠ [] → (∀ c ∈ ds, digitVal c < 16) →
        Literal ('0' :: x :: ds) (numeral 16 ds)

/-- No longer constant stands at the head of the text. -/
def Longest (text rest : List Char) : Prop :=
  ∀ text' n', Literal text' n' → text' <+: text ++ rest → text'.length ≤ text.length

/-- The text starts with a numeral without a minus sign, as long as it can be, and the
rest is left. -/
def Accepts (cs : List Char) (n : ℕ) (rest : List Char) : Prop :=
  ∃ pad sign text, cs = pad ++ (sign ++ (text ++ rest)) ∧ (∀ c ∈ pad, isBlank c = true) ∧
    (sign = [] ∨ sign = ['+']) ∧ Literal text n ∧ Longest text rest

/-- Where `strtol(cs, &end, 0)` and its relatives leave `end`. -/
def strtolEnd (cs : List Char) : List Char :=
  match scanSign (cs.dropWhile isBlank) with
  | (_, body) =>
    match detectBase body with
    | (b, ds) =>
      -- nothing is taken where there is no digit, not even the blanks
      if noDigits cs then cs else ds.dropWhile (fun c => digitVal c < b)

/-! ### Which base is detected -/

theorem Literal.head_isDigit {text : List Char} {n : ℕ} (h : Literal text n) :
    ∃ c cs, text = c :: cs ∧ c.isDigit = true := by
  cases h with
  | decimal hne _ hds =>
    obtain ⟨c, cs, rfl⟩ := List.exists_cons_of_ne_nil hne
    exact ⟨c, cs, rfl, isDigit_of_digitVal_lt_ten (hds c List.mem_cons_self)⟩
  | octal => exact ⟨'0', _, rfl, by decide⟩
  | hex => exact ⟨'0', _, rfl, by decide⟩

theorem detectBase_decimal {cs : List Char} (h : cs.head? ≠ some '0') :
    detectBase cs = (10, cs) := by
  unfold detectBase
  split
  · exact absurd rfl h
  · exact absurd rfl h
  · rfl

theorem detectBase_octal {cs : List Char}
    (h : ∀ x d tail, cs = x :: d :: tail → ¬((x = 'x' ∨ x = 'X') ∧ digitVal d < 16)) :
    detectBase ('0' :: cs) = (8, '0' :: cs) := by
  rcases cs with _ | ⟨x, _ | ⟨d, tail⟩⟩
  · rfl
  · rfl
  · rw [detectBase, if_neg (h x d tail rfl)]

theorem detectBase_hex {x d : Char} {tail : List Char} (hx : x = 'x' ∨ x = 'X')
    (hd : digitVal d < 16) : detectBase ('0' :: x :: d :: tail) = (16, d :: tail) := by
  rw [detectBase, if_pos ⟨hx, hd⟩]

theorem not_x_of_digit {x : Char} (h : digitVal x < 16) : ¬(x = 'x' ∨ x = 'X') := by
  rintro (rfl | rfl)
  · exact absurd h (by decide)
  · exact absurd h (by decide)

/-! ### What is read -/

/-- A constant that one more character would make longer is not the longest. -/
theorem Longest.not_longer {text rest : List Char} {c : Char} {n : ℕ} (hlong : Longest text rest)
    (hc : c ∈ rest.head?) : ¬Literal (text ++ [c]) n := by
  intro hlit
  obtain ⟨tail, rfl⟩ := List.head?_eq_some_iff.mp hc
  have hlen := hlong _ _ hlit ⟨tail, by rw [List.append_assoc]; rfl⟩
  rw [List.length_append, List.length_singleton] at hlen
  omega

theorem below_append {b : ℕ} {ds : List Char} {c : Char} (hds : ∀ d ∈ ds, digitVal d < b)
    (hc : digitVal c < b) : ∀ d ∈ ds ++ [c], digitVal d < b := by
  intro d hd
  rcases List.mem_append.mp hd with hd | hd
  · exact hds d hd
  · rwa [List.mem_singleton.mp hd]

/-- What the longest constant at the head of a text is made of. -/
theorem Literal.scan {text rest : List Char} {n : ℕ} (h : Literal text n)
    (hlong : Longest text rest) :
    ∃ b ds, detectBase (text ++ rest) = (b, ds ++ rest) ∧ ds ≠ [] ∧ numeral b ds = n ∧
      (∀ c ∈ ds, digitVal c < b) ∧ ∀ c ∈ rest.head?, ¬digitVal c < b := by
  cases h with
  | decimal hne hhead hds =>
    have hhead' : (text ++ rest).head? ≠ some '0' := by
      rwa [List.head?_append_of_ne_nil text hne]
    refine ⟨10, text, detectBase_decimal hhead', hne, rfl, hds, fun c hc hdigit => ?_⟩
    have hlit : Literal (text ++ [c]) (numeral 10 (text ++ [c])) := by
      refine Literal.decimal (by simp) ?_ (below_append hds hdigit)
      rwa [List.head?_append_of_ne_nil text hne]
    exact hlong.not_longer hc hlit
  | @octal ds hds =>
    refine ⟨8, '0' :: ds, detectBase_octal fun x d tail hcs => ?_, List.cons_ne_nil _ _,
      numeral_zeros 8 1 ds, ?_, fun c hc hdigit => ?_⟩
    · rintro ⟨hx, hd⟩
      cases ds with
      | nil =>
        -- a hexadecimal constant would be longer
        have hcs' : rest = x :: d :: tail := hcs
        have hlit : Literal ['0', x, d] (numeral 16 [d]) :=
          Literal.hex hx (List.cons_ne_nil _ _) fun c hc => by rwa [List.mem_singleton.mp hc]
        have hlen := hlong _ _ hlit ⟨tail, by rw [hcs']; rfl⟩
        exact absurd hlen (by simp)
      | cons y ds =>
        obtain rfl : y = x := (List.cons.inj hcs).1
        exact not_x_of_digit (lt_of_lt_of_le (hds y List.mem_cons_self) (by decide)) hx
    · intro c hc
      rcases List.mem_cons.mp hc with rfl | hc
      · decide
      · exact hds c hc
    · exact hlong.not_longer hc (Literal.octal (below_append hds hdigit))
  | @hex x ds hx hne hds =>
    obtain ⟨d, ds, rfl⟩ := List.exists_cons_of_ne_nil hne
    refine ⟨16, d :: ds, detectBase_hex hx (hds d List.mem_cons_self), hne, rfl, hds,
      fun c hc hdigit => ?_⟩
    exact hlong.not_longer hc (Literal.hex hx (by simp) (below_append hds hdigit))

/-- Digits at the head of a text are not more than those before the first that is none. -/
theorem length_le_of_prefix {b : ℕ} {ds ds' rest : List Char} (hpre : ds' <+: ds ++ rest)
    (hds' : ∀ c ∈ ds', digitVal c < b) (hrest : ∀ c ∈ rest.head?, ¬digitVal c < b) :
    ds'.length ≤ ds.length := by
  obtain ⟨more, hmore⟩ := hpre
  rcases List.append_eq_append_iff.mp hmore with ⟨mid, rfl, -⟩ | ⟨mid, rfl, rfl⟩
  · rw [List.length_append]
    exact Nat.le_add_right _ _
  · cases mid with
    | nil => rw [List.append_nil]
    | cons c mid =>
      have hmem : c ∈ ds ++ c :: mid := List.mem_append_right ds List.mem_cons_self
      exact absurd (hds' c hmem) (hrest c rfl)

theorem length_of_hex {b : ℕ} {text ds rest tail : List Char} {x d : Char}
    (hbase : detectBase (text ++ rest) = (b, ds ++ rest))
    (hbody : text ++ rest = '0' :: x :: d :: tail) (hx : x = 'x' ∨ x = 'X')
    (hd : digitVal d < 16) : text.length = ds.length + 2 := by
  have htail : ds ++ rest = d :: tail := by
    rw [hbody, detectBase_hex hx hd] at hbase
    exact (Prod.mk.inj hbase).2.symm
  have hlen := congrArg List.length hbody
  have hlen' := congrArg List.length htail
  simp only [List.length_append, List.length_cons] at hlen hlen'
  omega

/-- Where the detected base has digits no more, the longest constant ends. -/
theorem longest_of_scan {b : ℕ} {text ds rest : List Char}
    (hbase : detectBase (text ++ rest) = (b, ds ++ rest))
    (hrest : ∀ c ∈ rest.head?, ¬digitVal c < b) : Longest text rest := by
  rintro text' n' hlit ⟨more, hmore⟩
  have hwhole : ∀ {b'}, detectBase (text ++ rest) = (b', text ++ rest) → b' = b ∧ ds = text := by
    intro b' h
    obtain ⟨hb, hds⟩ := Prod.mk.inj (h.symm.trans hbase)
    exact ⟨hb, (List.append_cancel_right hds).symm⟩
  cases hlit with
  | decimal hne hhead hds' =>
    have hhead' : (text ++ rest).head? ≠ some '0' := by
      rwa [← hmore, List.head?_append_of_ne_nil text' hne]
    obtain ⟨rfl, rfl⟩ := hwhole (detectBase_decimal hhead')
    exact length_le_of_prefix ⟨more, hmore⟩ hds' hrest
  | @octal ds' hds' =>
    by_cases hhex : ∃ x d tail, ds' ++ more = x :: d :: tail ∧ (x = 'x' ∨ x = 'X') ∧ digitVal d < 16
    · obtain ⟨x, d, tail, hcs, hx, hd⟩ := hhex
      have hbody : text ++ rest = '0' :: x :: d :: tail := by rw [← hmore, List.cons_append, hcs]
      have hlen := length_of_hex hbase hbody hx hd
      cases ds' with
      | nil =>
        rw [List.length_singleton]
        omega
      | cons y ds' =>
        obtain rfl : y = x := (List.cons.inj hcs).1
        exact absurd hx (not_x_of_digit (lt_of_lt_of_le (hds' y List.mem_cons_self) (by decide)))
    · have hdet : detectBase (text ++ rest) = (8, text ++ rest) := by
        rw [← hmore, List.cons_append]
        exact detectBase_octal fun x d tail hcs h => hhex ⟨x, d, tail, hcs, h⟩
      obtain ⟨rfl, rfl⟩ := hwhole hdet
      refine length_le_of_prefix ⟨more, hmore⟩ (fun c hc => ?_) hrest
      rcases List.mem_cons.mp hc with rfl | hc
      · decide
      · exact hds' c hc
  | @hex x ds' hx hne hds' =>
    obtain ⟨d, ds', rfl⟩ := List.exists_cons_of_ne_nil hne
    have hbody : text ++ rest = '0' :: x :: d :: (ds' ++ more) := hmore.symm
    have hlen := length_of_hex hbase hbody hx (hds' d List.mem_cons_self)
    obtain ⟨rfl, htail⟩ := Prod.mk.inj
      (hbase.symm.trans (hbody ▸ detectBase_hex hx (hds' d List.mem_cons_self)))
    have hshort : (d :: ds').length ≤ ds.length := length_le_of_prefix ⟨more, htail.symm⟩ hds' hrest
    rw [List.length_cons, List.length_cons]
    omega

/-! ### Blanks and a sign in front -/

theorem Literal.skip {text pad sign : List Char} {n : ℕ} (h : Literal text n) (rest : List Char)
    (hpad : ∀ c ∈ pad, isBlank c = true) (hsign : sign = [] ∨ sign = ['+']) :
    scanSign ((pad ++ (sign ++ (text ++ rest))).dropWhile isBlank) = (false, text ++ rest) := by
  obtain ⟨c, cs, rfl, hc⟩ := h.head_isDigit
  have hdigit : ∀ d ∈ [c], d.isDigit = true := fun d hd => by rwa [List.mem_singleton.mp hd]
  obtain ⟨hblank, hscan⟩ := dropWhile_blank_digits (cs ++ rest) (List.cons_ne_nil c []) hdigit
  rw [List.dropWhile_append_of_pos hpad]
  rcases hsign with rfl | rfl
  · have hskip : ([] ++ (c :: cs ++ rest)).dropWhile isBlank = c :: cs ++ rest := hblank
    rw [hskip]
    exact hscan
  · rfl

/-- The numeral is read as its number, and what stands behind it is left. -/
theorem Accepts.read {cs rest : List Char} {n : ℕ} (h : Accepts cs n rest) :
    strtol0 cs = n ∧ noDigits cs = false ∧ strtolEnd cs = rest := by
  obtain ⟨pad, sign, text, rfl, hpad, hsign, hlit, hlong⟩ := h
  obtain ⟨b, ds, hbase, hne, rfl, hds, hrest⟩ := hlit.scan hlong
  obtain ⟨htake, hdrop⟩ := span_exact (p := fun c => decide (digitVal c < b))
    (fun c hc => decide_eq_true (hds c hc)) fun c hc => decide_eq_false (hrest c hc)
  have hsome : noDigits (pad ++ (sign ++ (text ++ rest))) = false := by
    rw [noDigits, hlit.skip rest hpad hsign]
    dsimp only
    rw [hbase]
    dsimp only
    rw [htake]
    exact List.isEmpty_eq_false_iff.mpr hne
  refine ⟨?_, hsome, ?_⟩
  · rw [strtol0, hlit.skip rest hpad hsign]
    dsimp only
    rw [hbase]
    dsimp only
    rw [htake]
    rfl
  · rw [strtolEnd, hlit.skip rest hpad hsign, hsome]
    dsimp only
    rw [hbase]
    exact hdrop

/-- The digits in the detected base are a constant, with the prefix in front of them. -/
theorem exists_literal {body : List Char} {b : ℕ} {ds : List Char}
    (hbase : detectBase body = (b, ds)) (hne : ds.takeWhile (fun c => digitVal c < b) ≠ []) :
    ∃ text n, Literal text n ∧ body = text ++ ds.dropWhile (fun c => digitVal c < b) := by
  have hcut := List.takeWhile_append_dropWhile (p := fun c => decide (digitVal c < b)) (l := ds)
  have hds : ∀ c ∈ ds.takeWhile (fun c => digitVal c < b), digitVal c < b := fun c hc =>
    of_decide_eq_true (List.all_eq_true.mp List.all_takeWhile c hc)
  unfold detectBase at hbase
  split at hbase
  · split at hbase
    · next x d cs hx =>
      obtain ⟨rfl, rfl⟩ := Prod.mk.inj hbase
      refine ⟨_, _, Literal.hex hx.1 hne hds, ?_⟩
      rw [List.cons_append, List.cons_append, hcut]
    · next x d cs _ =>
      obtain ⟨rfl, rfl⟩ := Prod.mk.inj hbase
      refine ⟨_, _, Literal.octal fun c hc => hds c (List.mem_cons_of_mem '0' hc), ?_⟩
      exact hcut.symm
  · next cs _ =>
    obtain ⟨rfl, rfl⟩ := Prod.mk.inj hbase
    refine ⟨_, _, Literal.octal fun c hc => hds c (List.mem_cons_of_mem '0' hc), ?_⟩
    exact hcut.symm
  · next hoct =>
    obtain ⟨rfl, rfl⟩ := Prod.mk.inj hbase
    refine ⟨_, _, Literal.decimal hne (fun hzero => ?_) hds, hcut.symm⟩
    obtain ⟨tail, htail⟩ := List.head?_eq_some_iff.mp hzero
    rw [htail] at hcut
    exact hoct _ hcut.symm

theorem head_dropWhile {b : ℕ} {ds : List Char} :
    ∀ c ∈ (ds.dropWhile fun c => digitVal c < b).head?, ¬digitVal c < b := by
  intro c hc
  have hnot := List.head?_dropWhile_not (fun c => decide (digitVal c < b)) ds
  rw [Option.mem_def.mp hc] at hnot
  exact of_decide_eq_false hnot

/-- Every text that starts with a numeral without a minus sign is covered. -/
theorem exists_accepts_iff {cs : List Char} :
    (∃ n rest, Accepts cs n rest) ↔
      noDigits cs = false ∧ (scanSign (cs.dropWhile isBlank)).1 = false := by
  constructor
  · rintro ⟨n, rest, h⟩
    refine ⟨h.read.2.1, ?_⟩
    obtain ⟨pad, sign, text, rfl, hpad, hsign, hlit, -⟩ := h
    rw [hlit.skip rest hpad hsign]
  · rintro ⟨hsome, hplus⟩
    obtain ⟨sign, hsign, hsplit, hneg⟩ := scanSign_split (cs.dropWhile isBlank)
    rw [noDigits] at hsome
    generalize scanSign (cs.dropWhile isBlank) = r at hsome hplus hsplit hneg
    obtain ⟨neg, body⟩ := r
    dsimp only at hsome hplus hsplit hneg
    have hcut := List.takeWhile_append_dropWhile (p := isBlank) (l := cs)
    rcases hbase : detectBase body with ⟨b, ds⟩
    rw [hbase] at hsome
    obtain ⟨text, n, hlit, hbody⟩ := exists_literal hbase (List.isEmpty_eq_false_iff.mp hsome)
    have hlong : Longest text (ds.dropWhile fun c => digitVal c < b) := by
      refine @longest_of_scan b _ (ds.takeWhile fun c => digitVal c < b) _ ?_ head_dropWhile
      rw [← hbody, hbase, List.takeWhile_append_dropWhile]
    refine ⟨n, _, cs.takeWhile isBlank, sign, text, ?_, List.all_eq_true.mp List.all_takeWhile, ?_,
      hlit, hlong⟩
    · rw [← hbody, ← hsplit, hcut]
    · rcases hsign with h | h | h
      · exact Or.inl h
      · exact Or.inr h
      · rw [hplus, h] at hneg
        exact absurd (hneg.mpr rfl) (by decide)

end CNumeral
