/-
The plan of a walk.

Which scalars a walk can meet, and what a failure at one of them leads to, is
fixed by the tree alone.  `planParse` and its companions compute that as a
`Plan`, a small program with `configure_json_value` as its only action:

* `jsonParse_eq_run`, `jsonParseArray_eq_run` — the walk runs its plan;
* `jsonParseArray_inv` — what `configure` preserves, the walk preserves.

Everything about arbitrary trees is proved by induction on the plan; the
recursion of the walk itself, which does not follow the tree, is unfolded
only here.
-/
import AccelConfig.JsonWalk

open StopAtFailure

namespace Accfg

variable {σ : Type*}

/-- What a walk does: end, call `configure`, go on after a success, or go on
whatever was returned. -/
inductive Plan where
  | exit (e : Exit)
  | call (val : Json) (key : Option String)
  | seq (p q : Plan)
  | drop (p q : Plan)

namespace Plan

/-- Carry out a plan. -/
def run (configure : Json → Option String → σ → Exit × σ) : Plan → σ → Exit × σ
  | exit e, st => (e, st)
  | call val key, st => configure val key st
  | seq p q, st => andThen (run configure p st) (run configure q)
  | drop p q, st => dropThen (run configure p st) (run configure q)

/-- The calls a plan can make, one after the other. -/
def calls : Plan → List (Json × Option String)
  | exit _ => []
  | call val key => [(val, key)]
  | seq p q => calls p ++ calls q
  | drop p q => calls p ++ calls q

variable {configure : Json → Option String → σ → Exit × σ}

theorem run_inv {P : σ → Prop} {p : Plan}
    (h : ∀ c ∈ p.calls, ∀ st, P st → P (configure c.1 c.2 st).2) {st : σ} (hs : P st) :
    P (p.run configure st).2 := by
  induction p generalizing st with
  | exit e => exact hs
  | call val key => exact h (val, key) (by simp [calls]) st hs
  | seq p q ihp ihq =>
    exact andThen_inv (ihp (fun c hc => h c (by simp [calls, hc])) hs)
      fun s => ihq fun c hc => h c (by simp [calls, hc])
  | drop p q ihp ihq =>
    have hp := ihp (fun c hc => h c (by simp [calls, hc])) hs
    show P (dropThen (p.run configure st) (q.run configure)).2
    revert hp
    rcases p.run configure st with ⟨_ | _, s⟩
    · exact fun hp => ihq (fun c hc => h c (by simp [calls, hc])) hp
    · exact fun hp => hp

/-- What holds at the end of a run, and cannot have come about on the way, held
at its start. -/
theorem run_start_of_end {I Q : σ → Prop} {p : Plan}
    (hI : ∀ val key st, I st → I (configure val key st).2)
    (hQ : ∀ val key st, I st → Q (configure val key st).2 → Q st) {st : σ} (hs : I st)
    (hend : Q (p.run configure st).2) : Q st := by
  induction p generalizing st with
  | exit e => exact hend
  | call val key => exact hQ val key st hs hend
  | seq p q ihp ihq =>
    have hp := run_inv (fun c _ => hI c.1 c.2 : ∀ c ∈ p.calls, _) hs
    refine ihp hs ?_
    rw [run] at hend
    revert hp hend
    rcases p.run configure st with ⟨_ | _, s⟩
    · next rc =>
      intro hend hp
      by_cases hrc : rc = 0
      · subst hrc
        rw [andThen_ok] at hend
        exact ihq hp hend
      · rw [andThen_fail hrc] at hend
        exact hend
    · exact fun hend _ => hend
  | drop p q ihp ihq =>
    have hp := run_inv (fun c _ => hI c.1 c.2 : ∀ c ∈ p.calls, _) hs
    refine ihp hs ?_
    rw [run] at hend
    revert hp hend
    rcases p.run configure st with ⟨_ | _, s⟩
    · exact fun hend hp => ihq hp hend
    · exact fun hend _ => hend

/-- Two `configure`s that agree wherever the one leaves the state good run
alike if the one's run ends in a good state. -/
theorem run_congr_of_end {configure' : Json → Option String → σ → Exit × σ} {I Q : σ → Prop}
    {p : Plan} (hI : ∀ val key st, I st → I (configure val key st).2)
    (hQ : ∀ val key st, I st → Q (configure val key st).2 → Q st)
    (hc : ∀ val key st, I st → Q (configure val key st).2 →
      configure val key st = configure' val key st) {st : σ} (hs : I st)
    (hend : Q (p.run configure st).2) : p.run configure st = p.run configure' st := by
  induction p generalizing st with
  | exit e => rfl
  | call val key => exact hc val key st hs hend
  | seq p q ihp ihq =>
    have hp := run_inv (fun c _ => hI c.1 c.2 : ∀ c ∈ p.calls, _) hs
    have hihp := ihp hs
    rw [run] at hend
    show andThen (p.run configure st) _ = andThen (p.run configure' st) _
    revert hp hend hihp
    rcases p.run configure st with ⟨_ | _, s⟩
    · next rc =>
      intro hend hp hihp
      -- the second part runs only after a 0; then its end is the end of both
      by_cases hrc : rc = 0
      · subst hrc
        rw [andThen_ok] at hend
        rw [← hihp (run_start_of_end hI hQ hp hend), andThen_ok, andThen_ok]
        exact ihq hp hend
      · rw [andThen_fail hrc] at hend
        rw [← hihp hend, andThen_fail hrc, andThen_fail hrc]
    -- the process ended in the first part
    · intro hend _ hihp
      rw [← hihp hend]
      rfl
  | drop p q ihp ihq =>
    have hp := run_inv (fun c _ => hI c.1 c.2 : ∀ c ∈ p.calls, _) hs
    have hihp := ihp hs
    rw [run] at hend
    show dropThen (p.run configure st) _ = dropThen (p.run configure' st) _
    revert hp hend hihp
    rcases p.run configure st with ⟨_ | _, s⟩
    · intro hend hp hihp
      rw [← hihp (run_start_of_end hI hQ hp hend)]
      exact ihq hp hend
    · intro hend _ hihp
      rw [← hihp hend]
      rfl

/-- A `configure` that works on more, and does the same on the part that `π`
looks at, runs the same on it. -/
theorem run_proj {τ : Type*} {π : τ → σ} {configure' : Json → Option String → τ → Exit × τ}
    (h : ∀ val key t, configure val key (π t)
      = ((configure' val key t).1, π (configure' val key t).2)) (p : Plan) (t : τ) :
    p.run configure (π t) = ((p.run configure' t).1, π (p.run configure' t).2) := by
  induction p generalizing t with
  | exit e => rfl
  | call val key => exact h val key t
  | seq p q ihp ihq =>
    rw [run, run, ihp]
    rcases p.run configure' t with ⟨_ | _, t₁⟩
    · next rc =>
      by_cases hrc : rc = 0
      · subst hrc
        exact ihq t₁
      · rw [andThen_fail hrc, andThen_fail hrc]
    · rfl
  | drop p q ihp ihq =>
    rw [run, run, ihp]
    rcases p.run configure' t with ⟨_ | _, t₁⟩
    · exact ihq t₁
    · rfl

end Plan

/-! ### The plan of a tree -/

mutual

/-- The plan of `json_parse`. -/
def planParse (jobj : Json) : Plan :=
  match jobj with
  | .object ms => planMembers (.object ms) ms
  | _ => .exit .die
  termination_by (sizeOf jobj, 3, 0)

/-- The plan of the loop of `json_parse`. -/
def planMembers (jobj : Json) (ms : List (String × Json)) : Plan :=
  match ms with
  | [] => .exit (.ret 0)
  | (key, val) :: rest =>
    match val with
    | .object _ =>
      match h : jobj.getEx key with
      | none => .exit (.ret (-1))
      | some child => .drop (planParse child) (planMembers child rest)
    | .array _ => .seq (planArray jobj (some key)) (planMembers jobj rest)
    | .null => planMembers jobj rest
    | val => .seq (.call val (some key)) (planMembers jobj rest)
  termination_by (sizeOf jobj, 2, ms.length)
  decreasing_by
    · have := Json.sizeOf_getEx_lt h
      decreasing_tactic
    · have := Json.sizeOf_getEx_lt h
      decreasing_tactic
    all_goals decreasing_tactic

/-- The plan of `json_parse_array`. -/
def planArray (jobj : Json) (key : Option String) : Plan :=
  match key with
  | some key =>
    match h : jobj.getEx key with
    | none => .exit (.ret (-1))
    | some (.array items) => if items.isEmpty then .exit (.ret (-1)) else planItems items
    | some _ => .exit .die
  | none =>
    match jobj with
    | .array items => if items.isEmpty then .exit (.ret (-1)) else planItems items
    | _ => .exit .die
  termination_by (sizeOf jobj, 1, 0)
  decreasing_by
    · exact Prod.Lex.left _ _ (Json.sizeOf_items_lt h)
    · apply Prod.Lex.left
      simp only [Json.array.sizeOf_spec]
      omega

/-- The plan of the loop of `json_parse_array`. -/
def planItems (items : List Json) : Plan :=
  match items with
  | [] => .exit (.ret 0)
  | jvalue :: rest =>
    match jvalue with
    | .null => .exit (.ret (-1))
    | .array vs => .seq (planArray (.array vs) none) (planItems rest)
    | .object ms => .seq (planParse (.object ms)) (planItems rest)
    | jvalue => .seq (.call jvalue none) (planItems rest)
  termination_by (sizeOf items, 0, 0)

end

variable (configure : Json → Option String → σ → Exit × σ)

mutual

/-- `json_parse` runs its plan. -/
theorem jsonParse_eq_run (jobj : Json) :
    jsonParse configure jobj = (planParse jobj).run configure := by
  funext st
  match jobj with
  | .object ms =>
    rw [jsonParse, planParse]
    exact congrFun (jsonMembers_eq_run (.object ms) ms) st
  | .null | .bool _ | .int _ | .double _ _ | .string _ | .array _ =>
    simp [jsonParse, planParse, Plan.run]
  termination_by (sizeOf jobj, 3, 0)

theorem jsonMembers_eq_run (jobj : Json) (ms : List (String × Json)) :
    jsonMembers configure jobj ms = (planMembers jobj ms).run configure := by
  funext st
  match ms with
  | [] => simp [planMembers, Plan.run]
  | (key, .object vs) :: rest =>
    rw [jsonMembers_object, planMembers]
    cases h : jobj.getEx key with
    | none => rfl
    | some child =>
      have := Json.sizeOf_getEx_lt h
      show dropThen _ _ = dropThen _ _
      rw [jsonParse_eq_run child, jsonMembers_eq_run child rest]
  | (key, .array vs) :: rest =>
    rw [jsonMembers_array, planMembers, jsonParseArray_eq_run jobj, jsonMembers_eq_run jobj rest]
    rfl
  | (key, .null) :: rest =>
    rw [jsonMembers_null, planMembers, jsonMembers_eq_run jobj rest]
  | (key, .bool b) :: rest =>
    rw [jsonMembers_scalar configure jobj key rfl, planMembers, jsonMembers_eq_run jobj rest]
    · rfl
    all_goals simp
  | (key, .int n) :: rest =>
    rw [jsonMembers_scalar configure jobj key rfl, planMembers, jsonMembers_eq_run jobj rest]
    · rfl
    all_goals simp
  | (key, .double n s) :: rest =>
    rw [jsonMembers_scalar configure jobj key rfl, planMembers, jsonMembers_eq_run jobj rest]
    · rfl
    all_goals simp
  | (key, .string s) :: rest =>
    rw [jsonMembers_scalar configure jobj key rfl, planMembers, jsonMembers_eq_run jobj rest]
    · rfl
    all_goals simp
  termination_by (sizeOf jobj, 2, ms.length)

/-- `json_parse_array` runs its plan. -/
theorem jsonParseArray_eq_run (jobj : Json) (key : Option String) :
    jsonParseArray configure jobj key = (planArray jobj key).run configure := by
  funext st
  match key with
  | some key =>
    rw [jsonParseArray, planArray]
    cases h : jobj.getEx key with
    | none => rfl
    | some v =>
      match v, h with
      | .array items, h =>
        have hlt := Json.sizeOf_items_lt h
        show (if items.isEmpty then _ else _) = Plan.run _ (if items.isEmpty then _ else _) st
        split
        · rfl
        · rw [jsonItems_eq_run items]
      | .null, _ | .bool _, _ | .int _, _ | .double _ _, _ | .string _, _ | .object _, _ => rfl
  | none =>
    match jobj with
    | .array items =>
      rw [jsonParseArray, planArray]
      split
      · rfl
      · rw [jsonItems_eq_run items]
    | .null | .bool _ | .int _ | .double _ _ | .string _ | .object _ =>
      simp [jsonParseArray, planArray, Plan.run]
  termination_by (sizeOf jobj, 1, 0)
  decreasing_by
    · exact Prod.Lex.left _ _ hlt
    · apply Prod.Lex.left
      simp only [Json.array.sizeOf_spec]
      omega

theorem jsonItems_eq_run (items : List Json) :
    jsonItems configure items = (planItems items).run configure := by
  funext st
  match items with
  | [] => simp [planItems, Plan.run]
  | .null :: rest => rw [jsonItems, planItems]; rfl
  | .array vs :: rest =>
    rw [jsonItems, planItems, jsonParseArray_eq_run (.array vs), jsonItems_eq_run rest]
    rfl
  | .object ms :: rest =>
    rw [jsonItems, planItems, jsonParse_eq_run (.object ms), jsonItems_eq_run rest]
    rfl
  | .bool b :: rest =>
    rw [jsonItems, planItems, jsonItems_eq_run rest]
    · rfl
    all_goals simp
  | .int n :: rest =>
    rw [jsonItems, planItems, jsonItems_eq_run rest]
    · rfl
    all_goals simp
  | .double n s :: rest =>
    rw [jsonItems, planItems, jsonItems_eq_run rest]
    · rfl
    all_goals simp
  | .string s :: rest =>
    rw [jsonItems, planItems, jsonItems_eq_run rest]
    · rfl
    all_goals simp
  termination_by (sizeOf items, 0, 0)

end

/-! ### Rules for arbitrary trees -/

variable {configure}

/-- What every call preserves, the walk preserves. -/
theorem jsonParseArray_inv {P : σ → Prop}
    (h : ∀ val key st, P st → P (configure val key st).2) (jobj : Json) (key : Option String)
    {st : σ} (hs : P st) : P (jsonParseArray configure jobj key st).2 := by
  rw [jsonParseArray_eq_run]
  exact Plan.run_inv (fun c _ => h c.1 c.2) hs

end Accfg
