/-
Which option a long argument asks for.

`parse_long_opt` goes through the table once, and remembers the options whose
names the argument shortens while it looks for one whose name it gives in full.

* `findLong_eq` — what one turn of the loop finds;
* `parse_long_opt_resolves` — the option is the one that is named in full, with
  or without `no-`, or else the only one that the argument shortens.
-/
import AccelConfig.OptionTables

namespace Accfg

namespace ParseOptions

variable {ν : Type}

/-! ### Names and prefixes -/

theorem argName_isPrefix (arg : List Char) : argName arg <+: arg := List.takeWhile_prefix _

/-- A list without `=` begins the argument if it begins the name in it. -/
theorem prefix_argName_iff {arg name : List Char} (hname : '=' ∉ name) :
    name <+: argName arg ↔ name <+: arg := by
  constructor
  · intro h
    exact h.trans (List.takeWhile_prefix _)
  · rintro ⟨rest, rfl⟩
    have hall : ∀ c ∈ name, decide (c ≠ '=') = true := by
      intro c hc
      rw [decide_eq_true_iff]
      exact ne_of_mem_of_not_mem hc hname
    rw [argName, List.takeWhile_append_of_pos hall]
    exact List.prefix_append _ _

theorem argName_append {name rest : List Char} (hname : '=' ∉ name) :
    argName (name ++ rest) = name ++ argName rest := by
  have hall : ∀ c ∈ name, decide (c ≠ '=') = true := by
    intro c hc
    rw [decide_eq_true_iff]
    exact ne_of_mem_of_not_mem hc hname
  rw [argName, List.takeWhile_append_of_pos hall, argName]

theorem argValue_append {name rest : List Char} (hname : '=' ∉ name) :
    argValue (name ++ rest) = argValue rest := by
  have hall : ∀ c ∈ name, decide (c ≠ '=') = true := by
    intro c hc
    rw [decide_eq_true_iff]
    exact ne_of_mem_of_not_mem hc hname
  rw [argValue, List.dropWhile_append_of_pos hall, argValue]

theorem argName_self {name : List Char} (hname : '=' ∉ name) : argName name = name := by
  rw [← List.append_nil name, argName_append hname]
  rfl

theorem argValue_self {name : List Char} (hname : '=' ∉ name) : argValue name = none := by
  rw [← List.append_nil name, argValue_append hname]
  rfl

theorem skipPrefix_eq_some_iff {text pfx rest : List Char} :
    skipPrefix text pfx = some rest ↔ text = pfx ++ rest := by
  rw [skipPrefix]
  constructor
  · intro h
    split_ifs at h with hp
    obtain ⟨r, rfl⟩ := hp
    rw [List.drop_left, Option.some_inj] at h
    rw [h]
  · rintro rfl
    rw [if_pos (List.prefix_append _ _), List.drop_left]

theorem skipPrefix_eq_none_iff {text pfx : List Char} :
    skipPrefix text pfx = none ↔ ¬pfx <+: text := by
  rw [skipPrefix]
  split_ifs with hp
  · simp [hp]
  · simp [hp]

/-- What is behind a name decides whether it was named in full. -/
theorem ofRest_eq (unset : Bool) (rest : List Char) :
    Found.ofRest unset rest =
      if argName rest = [] then .exact unset (argValue rest) else .other := by
  cases rest with
  | nil => rfl
  | cons c rest =>
    by_cases hc : c = '='
    · subst hc
      rfl
    · have hne : argName (c :: rest) ≠ [] := by
        rw [argName, List.takeWhile_cons_of_pos (by simpa using hc)]
        exact List.cons_ne_nil _ _
      rw [if_neg hne]
      unfold Found.ofRest
      split
      · next h => cases h
      · next h => cases h; exact absurd rfl hc
      · rfl

/-! ### One option -/

/-- The argument shortens the name, with the sign of the short form. -/
def shortens (arg name : List Char) : Option Bool :=
  if argName arg <+: name then some false
  else if arg <+: "no-".toList then some true
  else if "no-".toList <+: arg ∧ arg.drop 3 <+: name then some true
  else none

/-- What an argument says about an option of the name. -/
def said (arg name : List Char) : Found :=
  if argName arg = name then .exact false (argValue arg)
  else if argName arg = "no-".toList ++ name then .exact true (argValue arg)
  else
    match shortens arg name with
    | some unset => .abbreviated unset
    | none => .other

section Plain

variable {arg name : List Char}

theorem PlainName.no_of_prefix (hname : PlainName name) (rest : List Char) :
    ¬"no-".toList <+: name ++ rest := by
  obtain ⟨-, hshort, hno, -⟩ := hname
  intro h
  obtain h | h := List.prefix_or_prefix_of_prefix (List.prefix_append name rest) h
  · exact hshort h
  · exact hno h

theorem argName_ne_no (h : ¬"no-".toList <+: arg) : argName arg ≠ "no-".toList ++ name := by
  intro heq
  refine h ?_
  exact (List.prefix_append _ _).trans (heq ▸ argName_isPrefix arg)

/-- The name may be followed by a value, and by nothing else. -/
theorem ofRest_false_eq_said (hname : PlainName name) (rest : List Char) :
    Found.ofRest false rest = said (name ++ rest) name := by
  obtain ⟨heq, hshort, hno, -⟩ := id hname
  have hpre : name <+: name ++ rest := List.prefix_append _ _
  have hnot := hname.no_of_prefix rest
  have hnamed : argName (name ++ rest) = name ↔ argName rest = [] := by
    rw [argName_append heq]
    exact List.append_right_eq_self
  rw [ofRest_eq, said, argValue_append heq]
  by_cases hfull : argName rest = []
  · rw [if_pos hfull, if_pos (hnamed.mpr hfull)]
  · have hnone : shortens (name ++ rest) name = none := by
      rw [shortens, if_neg, if_neg, if_neg]
      · exact fun h => hnot h.1
      · exact fun h => hshort (hpre.trans h)
      · intro h
        have hself := (prefix_argName_iff heq).mpr hpre
        exact hfull (hnamed.mp (h.eq_of_length_le hself.length_le))
    rw [if_neg hfull, if_neg fun h => hfull (hnamed.mp h), if_neg (argName_ne_no hnot), hnone]

/-- So may the name behind `no-`. -/
theorem ofRest_true_eq_said (hname : PlainName name) (rest : List Char)
    (h₁ : ¬argName ("no-".toList ++ (name ++ rest)) <+: name)
    (h₂ : ¬"no-".toList ++ (name ++ rest) <+: "no-".toList) :
    Found.ofRest true rest = said ("no-".toList ++ (name ++ rest)) name := by
  obtain ⟨heq, -, -, -⟩ := hname
  have hnoeq : '=' ∉ "no-".toList ++ name := by
    intro hm
    obtain hm | hm := List.mem_append.mp hm
    · exact absurd hm (by decide)
    · exact heq hm
  have hbody : argName ("no-".toList ++ (name ++ rest)) = "no-".toList ++ name ++ argName rest := by
    rw [← List.append_assoc, argName_append hnoeq]
  have hne : argName ("no-".toList ++ (name ++ rest)) ≠ name := by
    intro h
    rw [h] at h₁
    exact h₁ List.prefix_rfl
  have hnamed : argName ("no-".toList ++ (name ++ rest)) = "no-".toList ++ name ↔
      argName rest = [] := by
    rw [hbody]
    exact List.append_right_eq_self
  rw [ofRest_eq, said, if_neg hne]
  by_cases hfull : argName rest = []
  · rw [if_pos hfull, if_pos (hnamed.mpr hfull), ← List.append_assoc, argValue_append hnoeq]
  · have hlonger : ¬("no-".toList ++ (name ++ rest)).drop 3 <+: name := by
      intro h
      have hle : (name ++ rest).length ≤ name.length := h.length_le
      rw [List.length_append] at hle
      obtain rfl : rest = [] := List.eq_nil_of_length_eq_zero (by omega)
      exact hfull rfl
    rw [if_neg hfull, if_neg fun h => hfull (hnamed.mp h), shortens, if_neg h₁, if_neg h₂,
      if_neg fun h => hlonger h.2]

/-- What comes behind `no-` is looked at as the argument itself was. -/
theorem findShortened_no (hname : PlainName name) (body : List Char)
    (h₁ : ¬argName ("no-".toList ++ body) <+: name)
    (h₂ : ¬"no-".toList ++ body <+: "no-".toList) :
    findShortened ("no-".toList ++ body) name = said ("no-".toList ++ body) name := by
  have hdrop : ("no-".toList ++ body).drop 3 = body := rfl
  rw [findShortened, if_neg h₁, if_neg h₂, if_neg (not_not.mpr (List.prefix_append _ _)), hdrop]
  cases hskip : skipPrefix body name with
  | some rest =>
    obtain rfl := skipPrefix_eq_some_iff.mp hskip
    exact ofRest_true_eq_said hname rest h₁ h₂
  | none =>
    have hbody : argName ("no-".toList ++ body) = "no-".toList ++ argName body :=
      argName_append (by decide)
    have hne : argName ("no-".toList ++ body) ≠ name := fun h => h₁ (h ▸ List.prefix_rfl)
    have hneg : argName ("no-".toList ++ body) ≠ "no-".toList ++ name := by
      intro h
      rw [hbody, List.append_cancel_left_eq] at h
      exact skipPrefix_eq_none_iff.mp hskip (h ▸ argName_isPrefix body)
    rw [said, if_neg hne, if_neg hneg, shortens, if_neg h₁, if_neg h₂, hdrop]
    dsimp only
    by_cases h₄ : body <+: name
    · rw [if_pos h₄, if_pos ⟨List.prefix_append _ _, h₄⟩]
    · rw [if_neg h₄, if_neg fun h => h₄ h.2]

theorem findShortened_eq_said (hname : PlainName name) (hpre : ¬name <+: arg) :
    findShortened arg name = said arg name := by
  have hne : argName arg ≠ name := fun h => hpre (h ▸ argName_isPrefix arg)
  obtain ⟨-, hshort, hno, -⟩ := id hname
  by_cases h₁ : argName arg <+: name
  · have hneg : argName arg ≠ "no-".toList ++ name := by
      intro h
      exact hno ((List.prefix_append _ _).trans (h ▸ h₁))
    rw [findShortened, if_pos h₁, said, if_neg hne, if_neg hneg, shortens, if_pos h₁]
  by_cases h₂ : arg <+: "no-".toList
  · have hneg : argName arg ≠ "no-".toList ++ name := by
      intro h
      have hle := ((argName_isPrefix arg).trans h₂).length_le
      rw [h, List.length_append] at hle
      have hnil : name = [] := List.eq_nil_of_length_eq_zero (by omega)
      exact hshort (hnil ▸ List.nil_prefix)
    rw [findShortened, if_neg h₁, if_pos h₂, said, if_neg hne, if_neg hneg, shortens, if_neg h₁,
      if_pos h₂]
  by_cases h₃ : "no-".toList <+: arg
  · obtain ⟨body, rfl⟩ := h₃
    exact findShortened_no hname body h₁ h₂
  · rw [findShortened, if_neg h₁, if_neg h₂, if_pos h₃, said, if_neg hne,
      if_neg (argName_ne_no h₃), shortens, if_neg h₁, if_neg h₂, if_neg fun h => h₃ h.1]

end Plain

/-- What is found of a plain name, by what the argument says. -/
theorem findLong_eq (arg : List Char) {opt : OptionEntry ν} (hopt : opt.Named) :
    findLong arg opt = said arg opt.name := by
  obtain ⟨⟨harg, -⟩, ⟨hlong, hname⟩, -⟩ := hopt
  rw [findLong, hlong]
  dsimp only
  rw [if_neg harg]
  cases hrest : skipPrefix arg opt.name with
  | some rest =>
    obtain rfl := skipPrefix_eq_some_iff.mp hrest
    exact ofRest_false_eq_said hname rest
  | none =>
    dsimp only
    rw [if_neg hname.2.2.1]
    exact findShortened_eq_said hname (skipPrefix_eq_none_iff.mp hrest)

/-! ### The table -/

/-- The argument names the option in full, with the sign of the name. -/
def inFull (arg name : List Char) : Option Bool :=
  if argName arg = name then some false
  else if argName arg = "no-".toList ++ name then some true
  else none

/-- The options that the argument shortens. -/
def shortened (arg : List Char) (options : List (OptionEntry ν)) : List (Candidate ν) :=
  options.filterMap fun opt => (shortens arg opt.name).map (opt, ·)

theorem findLong_of_inFull {arg : List Char} {opt : OptionEntry ν} {unset : Bool}
    (hopt : opt.Named) (h : inFull arg opt.name = some unset) :
    findLong arg opt = .exact unset (argValue arg) := by
  rw [inFull] at h
  rw [findLong_eq arg hopt, said]
  split_ifs at h ⊢ with h₁ h₂
  · cases h
    rfl
  · cases h
    rfl

theorem findLong_of_not_inFull {arg : List Char} {opt : OptionEntry ν} (hopt : opt.Named)
    (h : inFull arg opt.name = none) :
    findLong arg opt =
      match shortens arg opt.name with
      | some unset => .abbreviated unset
      | none => .other := by
  rw [inFull] at h
  rw [findLong_eq arg hopt, said]
  split_ifs at h ⊢
  rfl

/-- What the loop remembers of the options that were shortened. -/
def remember (seen : Option (Candidate ν) × Option (Candidate ν)) (c : Candidate ν) :
    Option (Candidate ν) × Option (Candidate ν) :=
  (some c, if seen.1.isSome then seen.1 else seen.2)

theorem foldl_remember_isSome (cs : List (Candidate ν)) (c c' : Candidate ν) :
    ∃ d d', cs.foldl remember (some c, some c') = (some d, some d') := by
  induction cs generalizing c c' with
  | nil => exact ⟨c, c', rfl⟩
  | cons e cs ih => exact ih e c

theorem inFull_eq_none_of_ne {arg : List Char} {o o' : OptionEntry ν} {unset : Bool}
    (ho : o.Named) (ho' : o'.Named) (hne : o'.name ≠ o.name)
    (h : inFull arg o.name = some unset) : inFull arg o'.name = none := by
  obtain ⟨-, ⟨-, -, -, hno, -⟩, -⟩ := ho
  obtain ⟨-, ⟨-, -, -, hno', -⟩, -⟩ := ho'
  rw [inFull] at h ⊢
  split_ifs at h with h₁ h₂
  · rw [if_neg fun h' => hne (h'.symm.trans h₁), if_neg]
    intro h'
    exact hno ⟨o'.name, h'.symm.trans h₁⟩
  · rw [if_neg, if_neg]
    · intro h'
      exact hne (List.append_cancel_left (h'.symm.trans h₂))
    · intro h'
      exact hno' ⟨o.name, h₂.symm.trans h'⟩

section Loop

variable [DecidableEq ν]

/-- The first option that is named in full is taken, whatever was shortened
before. -/
theorem longLoop_exact {arg : List Char} {before after : List (OptionEntry ν)}
    {opt : OptionEntry ν} {unset : Bool} (hnamed : ∀ o ∈ before ++ opt :: after, o.Named)
    (hbefore : ∀ o ∈ before, inFull arg o.name = none)
    (hopt : inFull arg opt.name = some unset) (p : Ctx ν)
    (abbrevOption ambiguousOption : Option (Candidate ν)) :
    longLoop arg p (before ++ opt :: after) abbrevOption ambiguousOption =
      getValue opt { unset := unset } { p with opt := (argValue arg).or p.opt } := by
  induction before generalizing p abbrevOption ambiguousOption with
  | nil =>
    rw [List.nil_append, longLoop,
      findLong_of_inFull (hnamed opt (by simp)) hopt]
  | cons o before ih =>
    have hnamed' : ∀ o ∈ before ++ opt :: after, o.Named := fun o ho =>
      hnamed o (List.mem_cons_of_mem _ ho)
    have hbefore' : ∀ o ∈ before, inFull arg o.name = none := fun o ho =>
      hbefore o (List.mem_cons_of_mem _ ho)
    rw [List.cons_append, longLoop, findLong_of_not_inFull (hnamed o (by simp))
      (hbefore o List.mem_cons_self)]
    cases shortens arg o.name with
    | none => exact ih hnamed' hbefore' p _ _
    | some sign =>
      dsimp only
      rw [ih hnamed' hbefore']
      cases sign with
      | true => rfl
      | false =>
        -- the value was stored already, and is stored again
        have hor : (argValue arg).or ((argValue arg).or p.opt) = (argValue arg).or p.opt := by
          cases argValue arg <;> rfl
        simp only [Bool.false_eq_true, if_false, hor]

/-- No option is named in full. -/
theorem longLoop_shortened {arg : List Char} {options : List (OptionEntry ν)}
    (hnamed : ∀ o ∈ options, o.Named) (hnone : ∀ o ∈ options, inFull arg o.name = none)
    (p : Ctx ν) (abbrevOption ambiguousOption : Option (Candidate ν)) :
    longLoop arg p options abbrevOption ambiguousOption =
      finishLong
        { p with opt := if (shortened arg options).any (!·.2) then (argValue arg).or p.opt
                        else p.opt } arg
        ((shortened arg options).foldl remember (abbrevOption, ambiguousOption)).1
        ((shortened arg options).foldl remember (abbrevOption, ambiguousOption)).2 := by
  induction options generalizing p abbrevOption ambiguousOption with
  | nil => rfl
  | cons o options ih =>
    have ih' := ih (fun o ho => hnamed o (List.mem_cons_of_mem _ ho))
      fun o ho => hnone o (List.mem_cons_of_mem _ ho)
    rw [longLoop, findLong_of_not_inFull (hnamed o List.mem_cons_self)
      (hnone o List.mem_cons_self), shortened, List.filterMap_cons]
    cases shortens arg o.name with
    | none => exact ih' p _ _
    | some sign =>
      dsimp only
      rw [ih']
      cases sign with
      | true => rfl
      | false =>
        have hor : (argValue arg).or ((argValue arg).or p.opt) = (argValue arg).or p.opt := by
          cases argValue arg <;> rfl
        simp only [Bool.false_eq_true, if_false, hor, ite_self]
        rfl

/-- An option that is named in full gets the argument, wherever it is in the table. -/
theorem parseLongOpt_inFull {options : List (OptionEntry ν)} (hnamed : WellNamed options)
    {p : Ctx ν} (hopt : p.opt = none) {arg : List Char} {opt : OptionEntry ν}
    (hmem : opt ∈ options) {unset : Bool} (hfull : inFull arg opt.name = some unset) :
    parseLongOpt p arg options =
      getValue opt { unset := unset } { p with opt := argValue arg } := by
  obtain ⟨heach, hnodup, -⟩ := hnamed
  obtain ⟨before, after, rfl⟩ := List.append_of_mem hmem
  have hbefore : ∀ o ∈ before, inFull arg o.name = none := by
    intro o ho
    refine inFull_eq_none_of_ne (heach opt hmem) (heach o (List.mem_append_left _ ho)) ?_ hfull
    intro heq
    rw [List.map_append, List.map_cons] at hnodup
    refine (List.nodup_append.mp hnodup).2.2 o.name (List.mem_map_of_mem ho) opt.name
      List.mem_cons_self heq
  rw [parseLongOpt, longLoop_exact heach hbefore hfull, hopt, Option.or_none]

/-- A long argument asks for the option that it names in full, with or without
`no-`; else for the only one that it shortens.  If it shortens several that is
an error, and if it shortens none it is unknown. -/
theorem parse_long_opt_resolves {options : List (OptionEntry ν)} (hnamed : WellNamed options)
    (p : Ctx ν) (hopt : p.opt = none) (arg : List Char) :
    (∀ opt ∈ options, ∀ unset, inFull arg opt.name = some unset →
      parseLongOpt p arg options =
        getValue opt { unset := unset } { p with opt := argValue arg }) ∧
    ((∀ opt ∈ options, inFull arg opt.name = none) →
      match shortened arg options with
      | [] => parseLongOpt p arg options = (.unknown, p)
      | [c] => parseLongOpt p arg options =
          getValue c.1 { unset := c.2 } { p with opt := if c.2 then none else argValue arg }
      | _ => (parseLongOpt p arg options).1 = .err ∧
          (parseLongOpt p arg options).2.vars = p.vars) := by
  refine ⟨fun opt hmem unset hfull => parseLongOpt_inFull hnamed hopt hmem hfull, fun hnone => ?_⟩
  have hloop := longLoop_shortened hnamed.1 hnone p none none
  rw [← parseLongOpt, hopt, Option.or_none] at hloop
  rw [hloop]
  obtain _ | ⟨c, _ | ⟨c', cs⟩⟩ := shortened arg options
  · show finishLong { p with opt := none } arg none none = (.unknown, p)
    rw [← hopt]
    rfl
  · show finishLong { p with opt := if [c].any (!·.2) then argValue arg else none } arg (some c)
      none = _
    cases hc : c.2
    · simp [finishLong, hc]
    · simp [finishLong, hc]
  · obtain ⟨d, d', hfold⟩ := foldl_remember_isSome cs c' c
    have hfold' : (c :: c' :: cs).foldl remember (none, none) = (some d, some d') := hfold
    rw [hfold']
    exact ⟨rfl, rfl⟩

/-- `--thresh=7` is `--threshold=7`, and `--pr=1` could be two options. -/
theorem parse_long_opt_resolves_example :
    parseLongOpt (parseOptionsStart 1 (fun _ => none) none {} default) "thresh=7".toList
        configWqOptions =
      getValue (optUinteger 't' "threshold" .threshold) {}
        { parseOptionsStart 1 (fun _ => none) none {} default with opt := some "7".toList } ∧
    (parseLongOpt (parseOptionsStart 1 (fun _ => none) none {} default) "pr=1".toList
      configWqOptions).1 = .err := by
  have hwq : WellNamed configWqOptions := wellNamed_tables.2.1.2.2.1
  constructor
  · exact (parse_long_opt_resolves hwq _ rfl "thresh=7".toList).2 (by decide)
  · exact ((parse_long_opt_resolves hwq _ rfl "pr=1".toList).2 (by decide)).1

end Loop

end ParseOptions

end Accfg
