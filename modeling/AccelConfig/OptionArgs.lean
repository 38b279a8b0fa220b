/-
What `parse_options` leaves in the array of arguments.

The arguments that are no options are packed into the front of the array while
the rest of it is still to be read.  `View p kept toks` says that the front
holds `kept` and that `toks` are still to come.

* `stepArg_view` — what one argument does to the view;
* `parse_options_left` — what is left is what was given, less the options and
  their values, and everything from a `--` on.
-/
import AccelConfig.OptionTables

namespace Accfg

namespace ParseOptions

variable {ν : Type}

open Function (update)

/-! ### The array -/

/-- The front of the array and what is still to be read. -/
structure View (p : Ctx ν) (kept toks : List (List Char)) : Prop where
  cpidx : p.cpidx = kept.length
  argc : p.argc = toks.length
  le : p.cpidx ≤ p.argv
  front : ∀ i < kept.length, p.cells i = kept[i]?
  rest : ∀ i < toks.length, p.cells (p.argv + i) = toks[i]?

/-- `ctx->argc--, ctx->argv++` -/
def Ctx.advance (p : Ctx ν) : Ctx ν := { p with argc := p.argc - 1, argv := p.argv + 1 }

/-- `ctx->out[ctx->cpidx++] = text` -/
def Ctx.store (p : Ctx ν) (text : List Char) : Ctx ν :=
  { p with cells := update p.cells p.cpidx (some text), cpidx := p.cpidx + 1 }

namespace View

variable {p p' : Ctx ν} {kept toks : List (List Char)} {t : List Char}

theorem congr (h : View p kept toks) (hcells : p'.cells = p.cells) (hargv : p'.argv = p.argv)
    (hargc : p'.argc = p.argc) (hcpidx : p'.cpidx = p.cpidx) : View p' kept toks := by
  constructor
  · rw [hcpidx, h.cpidx]
  · rw [hargc, h.argc]
  · rw [hcpidx, hargv]
    exact h.le
  · rw [hcells]
    exact h.front
  · rw [hcells, hargv]
    exact h.rest

theorem cells_argv (h : View p kept (t :: toks)) : p.cells p.argv = some t :=
  h.rest 0 (Nat.zero_lt_succ _)

theorem arg_zero (h : View p kept (t :: toks)) : p.arg 0 = t := by
  rw [Ctx.arg, Nat.add_zero, h.cells_argv, Option.getD_some]

theorem cells_next {t' : List Char} (h : View p kept (t :: t' :: toks)) :
    p.cells (p.argv + 1) = some t' := h.rest 1 (by simp)

theorem argc_pos (h : View p kept (t :: toks)) : p.argc ≠ 0 := by
  rw [h.argc]
  exact Nat.succ_ne_zero _

theorem advance (h : View p kept (t :: toks)) : View p.advance kept toks := by
  refine ⟨h.cpidx, ?_, h.le.trans (Nat.le_succ _), h.front, fun i hi => ?_⟩
  · show p.argc - 1 = toks.length
    rw [h.argc, List.length_cons, Nat.add_sub_cancel]
  · show p.cells (p.argv + 1 + i) = toks[i]?
    rw [Nat.add_assoc, Nat.add_comm 1 i, h.rest (i + 1) (Nat.succ_lt_succ hi)]
    rfl

/-- A word is stored no further than where it was read. -/
theorem store_advance (h : View p kept (t :: toks)) :
    View (p.store t).advance (kept ++ [t]) toks := by
  have hnext := h.advance
  refine ⟨?_, hnext.argc, Nat.succ_le_succ h.le, fun i hi => ?_, fun i hi => ?_⟩
  · show p.cpidx + 1 = (kept ++ [t]).length
    rw [h.cpidx, List.length_append, List.length_singleton]
  · show update p.cells p.cpidx (some t) i = (kept ++ [t])[i]?
    rw [List.length_append, List.length_singleton] at hi
    by_cases hlt : i < kept.length
    · rw [Function.update_of_ne (h.cpidx ▸ hlt.ne), h.front i hlt, List.getElem?_append_left hlt]
    · obtain rfl : i = kept.length := by omega
      rw [← h.cpidx, Function.update_self, h.cpidx, List.getElem?_append_right le_rfl,
        Nat.sub_self]
      rfl
  · show update p.cells p.cpidx (some t) (p.argv + 1 + i) = toks[i]?
    have hle := h.le
    rw [Function.update_of_ne (by omega)]
    exact hnext.rest i hi

theorem keepArg_advance (h : View p kept (t :: toks)) :
    View (keepArg p).advance (kept ++ [t]) toks := by
  have hkeep : keepArg p = p.store t := by rw [keepArg, h.cells_argv, Ctx.store]
  rw [hkeep]
  exact h.store_advance

/-- The rest is moved behind what was kept, and `NULL` behind that. -/
theorem parseOptionsEnd (h : View p kept toks) :
    (ParseOptions.parseOptionsEnd p).1 = (kept ++ toks).length ∧
      ∀ i ≤ (kept ++ toks).length,
        (ParseOptions.parseOptionsEnd p).2.cells i = (kept ++ toks)[i]? := by
  have hlen : p.cpidx + p.argc = (kept ++ toks).length := by
    rw [List.length_append, h.cpidx, h.argc]
  refine ⟨hlen, fun i hi => ?_⟩
  show update (fun i => if p.cpidx ≤ i ∧ i < p.cpidx + p.argc then
    p.cells (p.argv + (i - p.cpidx)) else p.cells i) (p.cpidx + p.argc) none i = _
  rw [hlen]
  obtain rfl | hlt := Nat.eq_or_lt_of_le hi
  · rw [Function.update_self, List.getElem?_eq_none le_rfl]
  · rw [Function.update_of_ne hlt.ne]
    by_cases hk : p.cpidx ≤ i
    · have hi' : i - kept.length < toks.length := by
        rw [List.length_append] at hlt
        rw [h.cpidx] at hk
        omega
      rw [if_pos ⟨hk, hlt⟩, h.cpidx, h.rest _ hi',
        List.getElem?_append_right (h.cpidx ▸ hk)]
    · have hi' : i < kept.length := h.cpidx ▸ Nat.lt_of_not_le hk
      rw [if_neg fun hc => hk hc.1, h.front i hi', List.getElem?_append_left hi']

end View

/-! ### What a value takes -/

/-- The array and the place in it are the same. -/
structure Same (p p' : Ctx ν) : Prop where
  cells : p'.cells = p.cells
  cpidx : p'.cpidx = p.cpidx
  flags : p'.flags = p.flags
  argv : p'.argv = p.argv
  argc : p'.argc = p.argc

theorem Same.changed (p : Ctx ν) (opt : Option (List Char)) (vars : Vars ν)
    (errors : List String) : Same p { p with opt := opt, vars := vars, errors := errors } :=
  ⟨rfl, rfl, rfl, rfl, rfl⟩

theorem Same.trans {p q p' : Ctx ν} (h : Same p q) (h' : Same q p') : Same p p' :=
  ⟨h'.cells.trans h.cells, h'.cpidx.trans h.cpidx, h'.flags.trans h.flags, h'.argv.trans h.argv,
    h'.argc.trans h.argc⟩

theorem Same.view {p p' : Ctx ν} {kept toks : List (List Char)} (h : Same p p')
    (hv : View p kept toks) : View p' kept toks := hv.congr h.cells h.argv h.argc h.cpidx

/-- At most one more argument is taken, and the array stays as it is. -/
structure Reads (p p' : Ctx ν) : Prop where
  cells : p'.cells = p.cells
  cpidx : p'.cpidx = p.cpidx
  flags : p'.flags = p.flags
  taken : (p'.argv = p.argv ∧ p'.argc = p.argc) ∨
    (1 < p.argc ∧ p'.argv = p.argv + 1 ∧ p'.argc = p.argc - 1)

theorem Same.reads {p p' : Ctx ν} (h : Same p p') : Reads p p' :=
  ⟨h.cells, h.cpidx, h.flags, Or.inl ⟨h.argv, h.argc⟩⟩

theorem Reads.then_same {p q p' : Ctx ν} (h : Reads p q) (h' : Same q p') : Reads p p' := by
  refine ⟨h'.cells.trans h.cells, h'.cpidx.trans h.cpidx, h'.flags.trans h.flags, ?_⟩
  rw [h'.argv, h'.argc]
  exact h.taken

theorem Same.then_reads {p q p' : Ctx ν} (h : Same p q) (h' : Reads q p') : Reads p p' := by
  refine ⟨h'.cells.trans h.cells, h'.cpidx.trans h.cpidx, h'.flags.trans h.flags, ?_⟩
  rw [← h.argv, ← h.argc]
  exact h'.taken

/-- An argument that is taken for a value is the next one. -/
theorem Reads.view {p p' : Ctx ν} {kept toks : List (List Char)} {t : List Char}
    (h : Reads p p') (hv : View p kept (t :: toks)) :
    ∃ t' toks', View p' kept (t' :: toks') ∧ t' :: toks' <:+ t :: toks := by
  obtain ⟨hargv, hargc⟩ | ⟨hlt, hargv, hargc⟩ := h.taken
  · exact ⟨t, toks, hv.congr h.cells hargv hargc h.cpidx, List.suffix_rfl⟩
  · obtain _ | ⟨t', toks'⟩ := toks
    · rw [hv.argc] at hlt
      exact absurd hlt (lt_irrefl 1)
    · exact ⟨t', toks', hv.advance.congr h.cells hargv hargc h.cpidx, List.suffix_cons t _⟩

section Values

theorem opterror_same (opt : OptionEntry ν) (reason : String) (w : Written) (p : Ctx ν) :
    Same p (opterror opt reason w p).2 := by
  rw [opterror]
  split_ifs <;> exact .changed ..

theorem callBack_same (opt : OptionEntry ν) (arg : Option (List Char)) (unset : Bool)
    (p : Ctx ν) : Same p (callBack opt arg unset p).2 := ⟨rfl, rfl, rfl, rfl, rfl⟩

theorem getArg_reads (opt : OptionEntry ν) (w : Written) (p : Ctx ν) :
    Reads p (getArg opt w p).1.2 := by
  rw [getArg]
  split
  · exact (Same.changed p ..).reads
  · split_ifs with _ hlt
    · exact (Same.changed p ..).reads
    · exact ⟨rfl, rfl, rfl, Or.inr ⟨hlt, rfl, rfl⟩⟩
    · exact (opterror_same opt _ w p).reads

/-- What is done with an argument changes no more of the array. -/
theorem getArg_then_reads (opt : OptionEntry ν) (w : Written) (p : Ctx ν)
    (f : Ctx ν → Option (List Char) → Ret × Ctx ν) (hf : ∀ q arg, Same q (f q arg).2) :
    Reads p (match getArg opt w p with
      | ((.ok, q), arg) => f q arg
      | (r, _) => r).2 := by
  have harg := getArg_reads opt w p
  generalize getArg opt w p = r at harg
  obtain ⟨⟨ret, q⟩, arg⟩ := r
  cases ret with
  | ok => exact harg.then_same (hf q arg)
  | err | unknown | exit | crash => exact harg

theorem getNumber_reads (opt : OptionEntry ν) (w : Written) (zero dflt : Vars ν → Vars ν)
    (scan : List Char → Vars ν → Vars ν × List Char) (p : Ctx ν) :
    Reads p (getNumber opt w zero dflt scan p).2 := by
  rw [getNumber]
  split_ifs
  · exact (Same.changed p ..).reads
  · exact (Same.changed p ..).reads
  · have harg := getArg_reads opt w p
    generalize getArg opt w p = r at harg
    obtain ⟨⟨ret, q⟩, arg⟩ := r
    cases ret with
    | ok =>
      cases arg with
      | none => exact harg
      | some arg =>
        dsimp only
        split_ifs
        · exact Reads.then_same harg (.changed q ..)
        · exact Reads.then_same harg (Same.trans (.changed q ..) (opterror_same opt _ w _))
    | err | unknown | exit | crash => exact harg

variable [DecidableEq ν] (opt : OptionEntry ν) (w : Written) (p : Ctx ν)

theorem getValue_reads : Reads p (getValue opt w p).2 := by
  rw [getValue]
  split
  · exact (opterror_same opt _ w p).reads
  split
  · exact (opterror_same opt _ w p).reads
  split
  · exact (opterror_same opt _ w p).reads
  dsimp only
  cases opt.type with
  | bit | boolean | incr | setUint | setPtr | argument | group => exact (Same.changed p ..).reads
  | string =>
    dsimp only
    split_ifs
    · exact (Same.changed p ..).reads
    · exact (Same.changed p ..).reads
    · exact getArg_then_reads opt w p _ fun q arg => .changed q ..
  | filename =>
    dsimp only
    split_ifs
    · exact (Same.changed p ..).reads
    · exact (Same.changed p ..).reads
    · exact getArg_then_reads opt w p _ fun q arg => .changed q ..
  | callback =>
    dsimp only
    split_ifs
    · exact (callBack_same opt none true p).reads
    · exact (callBack_same opt none false p).reads
    · exact (callBack_same opt none false p).reads
    · exact getArg_then_reads opt w p _ fun q arg => callBack_same opt arg false q
  | integer | uinteger | long | u64 => exact getNumber_reads opt w _ _ _ p

theorem parseShortOpt_reads (options : List (OptionEntry ν)) :
    Reads p (parseShortOpt p options).2 := by
  induction options with
  | nil => exact (Same.changed p ..).reads
  | cons opt options ih =>
    rw [parseShortOpt]
    dsimp only
    split
    · exact Same.then_reads (.changed p ..) (getValue_reads opt _ _)
    · exact ih

theorem finishLong_reads (arg : List Char) (abbrevOption ambiguousOption : Option (Candidate ν)) :
    Reads p (finishLong p arg abbrevOption ambiguousOption).2 := by
  unfold finishLong
  split
  · exact (Same.changed p ..).reads
  · exact getValue_reads _ _ p
  · exact (Same.changed p ..).reads

/-- An `OPTION_ARGUMENT` is kept; any other option takes at most one more
argument. -/
theorem longLoop_reads (arg : List Char) (options : List (OptionEntry ν))
    (abbrevOption ambiguousOption : Option (Candidate ν)) :
    Reads p (longLoop arg p options abbrevOption ambiguousOption).2 ∨
      ((longLoop arg p options abbrevOption ambiguousOption).1 = .ok ∧
        Same (p.store ('-' :: '-' :: arg))
          (longLoop arg p options abbrevOption ambiguousOption).2) := by
  induction options generalizing p abbrevOption ambiguousOption with
  | nil => exact Or.inl (finishLong_reads p arg _ _)
  | cons opt options ih =>
    rw [longLoop]
    cases findLong arg opt with
    | other => exact ih p _ _
    | badArgument => exact Or.inl (opterror_same opt _ _ p).reads
    | argument => exact Or.inr ⟨rfl, .changed _ ..⟩
    | exact unset value =>
      exact Or.inl (Same.then_reads (.changed p ..) (getValue_reads opt _ _))
    | abbreviated unset =>
      dsimp only
      have hsame : Same p (if unset then p else { p with opt := (argValue arg).or p.opt }) := by
        split_ifs
        · exact .changed p ..
        · exact .changed p ..
      obtain hreads | ⟨hok, hstore⟩ := ih (if unset then p else
        { p with opt := (argValue arg).or p.opt }) (some (opt, unset))
        (if abbrevOption.isSome then abbrevOption else ambiguousOption)
      · exact Or.inl (hsame.then_reads hreads)
      · refine Or.inr ⟨hok, Same.trans ?_ hstore⟩
        exact ⟨by rw [Ctx.store, hsame.cells, hsame.cpidx]; rfl,
          by rw [Ctx.store, hsame.cpidx]; rfl, hsame.flags, hsame.argv, hsame.argc⟩

end Values

/-! ### One argument -/

/-- An argument that is no option. -/
def isWord : List Char → Bool
  | '-' :: _ :: _ => false
  | _ => true

/-- Where the loop may stop: at the end, behind or at a `--`, or at a word. -/
def StopsAt (flags : ParseFlags) (t : List Char) (toks toks' : List (List Char)) : Prop :=
  (toks' = toks ∧ t = ['-', '-'] ∧ flags.keepDashdash = false) ∨
  (toks' = t :: toks ∧ t = ['-', '-'] ∧ flags.keepDashdash = true) ∨
  (toks' = t :: toks ∧ isWord t = true ∧ flags.stopAtNonOption = true)

/-- What one argument does: the loop goes on, behind it and what it has taken,
or it stops. -/
structure StepView (p : Ctx ν) (kept : List (List Char)) (t : List Char)
    (toks : List (List Char)) (r : Option Stop × Ctx ν) : Prop where
  flags : r.2.flags = p.flags
  next : r.1 = none → ∃ k toks', View r.2.advance (kept ++ k) toks' ∧ k.Sublist [t] ∧ toks' <:+ toks
  done : r.1 = some .done → ∃ toks', View r.2 kept toks' ∧ StopsAt p.flags t toks toks'

section Step

variable {p q : Ctx ν} {kept toks toks' : List (List Char)} {t t' : List Char}

theorem StepView.of_view (hq : q.flags = p.flags) (hv : View q kept (t' :: toks'))
    (hsuf : t' :: toks' <:+ t :: toks) : StepView p kept t toks (none, q) := by
  refine ⟨hq, fun _ => ⟨[], toks', ?_, List.nil_sublist _, ?_⟩, fun hd => (by cases hd)⟩
  · rw [List.append_nil]
    exact hv.advance
  · obtain he | hsuf := List.suffix_cons_iff.mp hsuf
    · cases he
      exact List.suffix_rfl
    · exact (List.suffix_cons t' toks').trans hsuf

theorem StepView.of_stop {stop : Stop} (hstop : stop ≠ .done) (h : q.flags = p.flags) :
    StepView p kept t toks (some stop, q) := by
  refine ⟨h, fun hn => (by cases hn), fun hd => ?_⟩
  cases hd
  exact absurd rfl hstop

/-- The switch on the result. -/
theorem afterOpt_view {r : Ret × Ctx ν} {onUnknown onOk : Ctx ν → Option Stop × Ctx ν}
    (hflags : r.2.flags = p.flags)
    (hunknown : r.1 = .unknown → StepView p kept t toks (onUnknown r.2))
    (hok : r.1 = .ok → StepView p kept t toks (onOk r.2)) :
    StepView p kept t toks (afterOpt r onUnknown onOk) := by
  obtain ⟨ret, q⟩ := r
  cases ret with
  | ok => exact hok rfl
  | err => exact .of_stop (by decide) hflags
  | unknown => exact hunknown rfl
  | exit n => exact .of_stop (by simp) hflags
  | crash => exact .of_stop (by decide) hflags

theorem unknownArg_view (hq : q.flags = p.flags) (hknown : p.flags.keepUnknown = false) :
    StepView p kept t toks (unknownArg q) := by
  rw [unknownArg, hq, hknown]
  exact .of_stop (by decide) hq

variable [DecidableEq ν] (options : List (OptionEntry ν))

theorem shortLoop_view (hknown : p.flags.keepUnknown = false) {fuel : ℕ}
    (hq : q.flags = p.flags) (hv : View q kept (t' :: toks'))
    (hsuf : t' :: toks' <:+ t :: toks) : StepView p kept t toks (shortLoop options fuel q) := by
  induction fuel generalizing q t' toks' with
  | zero => exact .of_view hq hv hsuf
  | succ fuel ih =>
    rw [shortLoop]
    split
    · exact .of_view hq hv hsuf
    split
    · exact .of_stop (by decide) hq
    have hreads := parseShortOpt_reads q options
    have hq' := hreads.flags.trans hq
    obtain ⟨t₁, toks₁, hv₁, hsuf₁⟩ := hreads.view hv
    refine afterOpt_view hq' (fun _ => ?_) fun _ => ih hq' hv₁ (hsuf₁.trans hsuf)
    exact unknownArg_view hq' hknown

theorem shortArg_view (hknown : p.flags.keepUnknown = false) (hv : View p kept (t :: toks))
    (letters : List Char) : StepView p kept t toks (shortArg options letters p) := by
  rw [shortArg]
  split
  · exact .of_stop (by decide) rfl
  have hreads : Reads p (parseShortOpt { p with opt := some letters } options).2 :=
    Same.then_reads (.changed p ..) (parseShortOpt_reads _ options)
  obtain ⟨t₁, toks₁, hv₁, hsuf₁⟩ := hreads.view hv
  refine afterOpt_view hreads.flags (fun _ => unknownArg_view hreads.flags hknown) fun _ => ?_
  split
  · exact .of_stop (by simp) hreads.flags
  · exact shortLoop_view options hknown hreads.flags hv₁ hsuf₁

theorem longArg_view (hknown : p.flags.keepUnknown = false) {arg : List Char}
    (hv : View p kept (('-' :: '-' :: arg) :: toks)) :
    StepView p kept ('-' :: '-' :: arg) toks (longArg options arg p) := by
  rw [longArg]
  split
  · exact .of_stop (by decide) rfl
  split
  · exact .of_stop (by decide) rfl
  split
  · exact .of_stop (by decide) rfl
  split
  · exact .of_stop (by decide) rfl
  obtain hreads | ⟨hok, hstore⟩ := longLoop_reads p arg options none none
  · obtain ⟨t₁, toks₁, hv₁, hsuf₁⟩ := hreads.view hv
    exact afterOpt_view hreads.flags (fun _ => unknownArg_view hreads.flags hknown)
      fun _ => .of_view hreads.flags hv₁ hsuf₁
  · -- the name itself is kept
    have hflags : (parseLongOpt p arg options).2.flags = p.flags := hstore.flags
    have hnot : (parseLongOpt p arg options).1 ≠ .unknown := by
      rw [parseLongOpt, hok]
      decide
    refine afterOpt_view hflags (fun hu => absurd hu hnot) fun _ => ?_
    refine ⟨hflags, fun _ => ⟨[_], toks, ?_, List.Sublist.refl _, List.suffix_rfl⟩,
      fun hd => (by cases hd)⟩
    exact hv.store_advance.congr hstore.cells (congrArg (· + 1) hstore.argv)
      (congrArg (· - 1) hstore.argc) hstore.cpidx

/-- One argument. -/
theorem stepArg_view (hknown : p.flags.keepUnknown = false) (hv : View p kept (t :: toks)) :
    StepView p kept t toks (stepArg options p) := by
  rw [stepArg, hv.arg_zero]
  split
  · split
    · next hkeep =>
      exact ⟨rfl, fun hn => (by cases hn), fun _ => ⟨_, hv, Or.inr (Or.inl ⟨rfl, rfl, hkeep⟩)⟩⟩
    · next hkeep =>
      refine ⟨rfl, fun hn => (by cases hn), fun _ => ⟨toks, hv.advance, Or.inl ⟨rfl, rfl, ?_⟩⟩⟩
      exact Bool.eq_false_iff.mpr hkeep
  · exact longArg_view options hknown hv
  · exact shortArg_view options hknown hv _
  · next hlong hshort =>
    have hword : isWord t = true := by
      rw [isWord]
      exact hshort
    split
    · next hstop =>
      exact ⟨rfl, fun hn => (by cases hn),
        fun _ => ⟨_, hv, Or.inr (Or.inr ⟨rfl, hword, hstop⟩)⟩⟩
    · exact ⟨rfl, fun _ => ⟨[t], toks, hv.keepArg_advance, List.Sublist.refl _, List.suffix_rfl⟩,
        fun hd => (by cases hd)⟩

/-! ### All arguments -/

/-- Where the loop stopped, after `consumed` and before `toks`. -/
def StoppedAt (flags : ParseFlags) (consumed toks : List (List Char)) : Prop :=
  toks = [] ∨ (consumed.getLast? = some ['-', '-'] ∧ flags.keepDashdash = false) ∨
    (toks.head? = some ['-', '-'] ∧ flags.keepDashdash = true) ∨
    ((∃ t ∈ toks.head?, isWord t = true) ∧ flags.stopAtNonOption = true)

/-- The loop goes through the arguments, and keeps some of them in their
order. -/
theorem stepLoop_view {fuel : ℕ} (hknown : p.flags.keepUnknown = false) (hv : View p kept toks)
    (hf : toks.length ≤ fuel) (hdone : (stepLoop options fuel p).1 = .done) :
    ∃ k consumed toks', View (stepLoop options fuel p).2 (kept ++ k) toks' ∧
      toks = consumed ++ toks' ∧ k.Sublist consumed ∧ StoppedAt p.flags consumed toks' := by
  induction fuel generalizing p kept toks with
  | zero =>
    obtain rfl := List.eq_nil_of_length_eq_zero (Nat.le_zero.mp hf)
    refine ⟨[], [], [], ?_, rfl, List.nil_sublist _, Or.inl rfl⟩
    rw [List.append_nil]
    exact hv
  | succ fuel ih =>
    cases toks with
    | nil =>
      have hzero : p.argc = 0 := hv.argc
      refine ⟨[], [], [], ?_, rfl, List.nil_sublist _, Or.inl rfl⟩
      rw [List.append_nil, stepLoop, if_pos hzero]
      exact hv
    | cons t toks =>
      have hstep := stepArg_view options hknown hv
      rw [stepLoop, if_neg hv.argc_pos] at hdone ⊢
      generalize stepArg options p = r at hstep hdone ⊢
      obtain ⟨_ | stop, q⟩ := r
      · obtain ⟨k, toks₁, hv₁, hk, ⟨d, rfl⟩⟩ := hstep.next rfl
        have hlen : toks₁.length ≤ fuel := by
          simp only [List.length_cons, List.length_append] at hf
          omega
        have hknown₁ : q.advance.flags.keepUnknown = false := by
          rw [← hknown, ← hstep.flags]
          rfl
        obtain ⟨k', consumed, toks', hv', rfl, hk', hstop⟩ := ih hknown₁ hv₁ hlen hdone
        refine ⟨k ++ k', t :: d ++ consumed, toks', ?_, by simp, ?_, ?_⟩
        · rw [← List.append_assoc]
          exact hv'
        · refine List.Sublist.append (hk.trans ?_) hk'
          exact List.singleton_sublist.mpr List.mem_cons_self
        · have hflags : q.advance.flags = p.flags := hstep.flags
          rw [hflags] at hstop
          obtain h | ⟨hlast, hkeep⟩ | h | h := hstop
          · exact Or.inl h
          · refine Or.inr (Or.inl ⟨?_, hkeep⟩)
            rw [List.getLast?_append, hlast, Option.some_or]
          · exact Or.inr (Or.inr (Or.inl h))
          · exact Or.inr (Or.inr (Or.inr h))
      · obtain rfl : stop = .done := hdone
        obtain ⟨toks', hv', hstop⟩ := hstep.done rfl
        obtain ⟨rfl, rfl, hkeep⟩ | ⟨rfl, rfl, hkeep⟩ | ⟨rfl, hword, hkeep⟩ := hstop
        · refine ⟨[], [_], toks', ?_, rfl, List.nil_sublist _, Or.inr (Or.inl ⟨rfl, hkeep⟩)⟩
          rw [List.append_nil]
          exact hv'
        · refine ⟨[], [], _, ?_, rfl, List.nil_sublist _, Or.inr (Or.inr (Or.inl ⟨rfl, hkeep⟩))⟩
          rw [List.append_nil]
          exact hv'
        · refine ⟨[], [], _, ?_, rfl, List.nil_sublist _,
            Or.inr (Or.inr (Or.inr ⟨⟨t, rfl, hword⟩, hkeep⟩))⟩
          rw [List.append_nil]
          exact hv'

end Step

section Left

variable (prog : List Char) (args : List (List Char)) (pfx : Option (List Char))
  (options : List (OptionEntry ν)) (flags : ParseFlags) (vars : Vars ν)

/-- The command line, as `main` gets it. -/
def cellsOf (prog : List Char) (args : List (List Char)) : ℕ → Option (List Char) :=
  fun i => (prog :: args)[i]?

/-- What is kept of the name of the program. -/
def keptArgv0 (prog : List Char) (flags : ParseFlags) : List (List Char) :=
  if flags.keepArgv0 then [prog] else []

theorem parseOptionsStart_view :
    View (parseOptionsStart (args.length + 1) (cellsOf prog args) pfx flags vars)
      (keptArgv0 prog flags) args := by
  refine ⟨?_, rfl, ?_, fun i hi => ?_, fun i hi => ?_⟩
  · rw [parseOptionsStart, keptArgv0]
    split_ifs <;> rfl
  · rw [parseOptionsStart]
    split_ifs
    · exact le_rfl
    · exact Nat.zero_le _
  · rw [keptArgv0] at hi ⊢
    split_ifs at hi ⊢
    · obtain rfl : i = 0 := Nat.lt_one_iff.mp hi
      rfl
    · exact absurd hi (Nat.not_lt_zero i)
  · show cellsOf prog args (1 + i) = args[i]?
    rw [Nat.add_comm]
    rfl

variable [DecidableEq ν]

/-- `parse_options` leaves in the array some of the arguments that it went
through, in their order, then all those that it did not come to, then `NULL`;
it stops before the end only as its flags say, or behind a `--`. -/
theorem parse_options_left {n : ℕ} (hknown : flags.keepUnknown = false)
    (hleft : (parseOptionsPrefix (args.length + 1) (cellsOf prog args) pfx options flags vars).1 =
      .left n) :
    ∃ kept consumed rest, args = consumed ++ rest ∧ kept.Sublist consumed ∧
      StoppedAt flags consumed rest ∧
      n = (keptArgv0 prog flags ++ kept ++ rest).length ∧
      ∀ i ≤ n, (parseOptionsPrefix (args.length + 1) (cellsOf prog args) pfx options flags
        vars).2.cells i = (keptArgv0 prog flags ++ kept ++ rest)[i]? := by
  have hstart := parseOptionsStart_view prog args pfx flags vars
  generalize hp : parseOptionsStart (args.length + 1) (cellsOf prog args) pfx flags vars = p
    at hstart
  have hflags : p.flags = flags := by
    rw [← hp]
    rfl
  have hopt : View { p with opt := none } (keptArgv0 prog flags) args :=
    Same.view (.changed p none p.vars p.errors) hstart
  have hloop := stepLoop_view options (hflags ▸ hknown) hopt hstart.argc.ge
  unfold parseOptionsPrefix at hleft ⊢
  rw [hp, hknown, Bool.false_and, if_neg Bool.false_ne_true] at hleft ⊢
  rw [parseOptionsStep] at hleft ⊢
  generalize stepLoop options p.argc { p with opt := none } = r at hleft hloop ⊢
  obtain ⟨_ | _ | _ | _ | _ | m | _, q⟩ := r
  case done =>
    obtain ⟨kept, consumed, rest, hview, hargs, hsub, hstop⟩ := hloop rfl
    obtain ⟨hlen, hcells⟩ := hview.parseOptionsEnd
    have hn : (parseOptionsEnd q).1 = n := Parsed.left.inj hleft
    rw [hn] at hlen
    refine ⟨kept, consumed, rest, hargs, hsub, hflags ▸ hstop, hlen, fun i hi => ?_⟩
    exact hcells i (hlen ▸ hi)
  all_goals cases hleft

theorem parse_options_left_example :
    ∃ kept consumed rest, ["dsa0".toList, "-v".toList, "dsa1".toList, "--".toList, "-f".toList] =
        consumed ++ rest ∧ kept.Sublist consumed ∧ StoppedAt {} consumed rest ∧
      3 = (keptArgv0 "disable-device".toList {} ++ kept ++ rest).length ∧
      ∀ i ≤ 3, (parseOptionsPrefix 6 (cellsOf "disable-device".toList
        ["dsa0".toList, "-v".toList, "dsa1".toList, "--".toList, "-f".toList]) none
        deviceDisableOptions {} default).2.cells i =
          (keptArgv0 "disable-device".toList {} ++ kept ++ rest)[i]? :=
  parse_options_left _ _ none deviceDisableOptions {} default rfl (by decide)

end Left

end ParseOptions

end Accfg
