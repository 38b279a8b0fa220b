/-
Which trees load-config walks completely.

A complete walk passes every scalar member to `configure_json_value` once, in
document order, stops at the first call that fails and reports that failure.
The branch of `json_parse` for a member that is an object loses the child's
failure and searches later arrays in the wrong object:

* `jsonItems_eq_runAll` — in a tree without such members the walk is the run
  of its scalars in document order;
* `exists_dropped_failure` — a plan that drops a result has a call whose
  failure the whole walk reports as success;
* `parseConfig_complete` — the two together: the first is sufficient, and
  where every object holds a scalar it is necessary.
-/
import AccelConfig.WalkPlan

open StopAtFailure

namespace Accfg

/-- A call of `configure_json_value`: its value and its key. -/
abbrev Call := Json × Option String

/-! ### Config trees -/

/-- This value is an object. -/
def isObject : Json → Bool
  | .object _ => true
  | _ => false

mutual

/-- The scalar members of all objects in a value, in document order. -/
def scalars : Json → List Call
  | .object ms => memberScalars ms
  | .array vs => itemScalars vs
  | _ => []

def memberScalars : List (String × Json) → List Call
  | [] => []
  | (key, val) :: rest =>
    (if val.isScalar then [(val, some key)] else scalars val) ++ memberScalars rest

def itemScalars : List Json → List Call
  | [] => []
  | v :: vs => scalars v ++ itemScalars vs

end

variable (P : List (String × Json) → Prop)

mutual

/-- The members of every object in the value satisfy `P`. -/
def EveryObject : Json → Prop
  | .object ms => P ms ∧ EveryMember ms
  | .array vs => EveryItem vs
  | _ => True

def EveryMember : List (String × Json) → Prop
  | [] => True
  | (_, val) :: rest => EveryObject val ∧ EveryMember rest

def EveryItem : List Json → Prop
  | [] => True
  | v :: vs => EveryObject v ∧ EveryItem vs

end

/-- Member names are distinct, as in a hash table, and an array is a non-empty
array of objects. -/
def ConfigShape (ms : List (String × Json)) : Prop :=
  (ms.map Prod.fst).Nodup ∧
    ∀ m ∈ ms, ∀ vs, m.2 = .array vs → vs ≠ [] ∧ ∀ v ∈ vs, isObject v = true

/-- No member is itself an object. -/
def NoObjectMember (ms : List (String × Json)) : Prop := ∀ m ∈ ms, isObject m.2 = false

/-- Some member is a scalar, such as the `dev` entry of a component. -/
def HoldsScalar (ms : List (String × Json)) : Prop := ∃ m ∈ ms, m.2.isScalar = true

variable {P}

@[simp] theorem scalars_null : scalars .null = [] := by rw [scalars] <;> simp

theorem everyMember_iff {ms : List (String × Json)} :
    EveryMember P ms ↔ ∀ m ∈ ms, EveryObject P m.2 := by
  induction ms with
  | nil => simp [EveryMember]
  | cons m ms ih => simp [EveryMember, ih]

theorem everyItem_iff {vs : List Json} : EveryItem P vs ↔ ∀ v ∈ vs, EveryObject P v := by
  induction vs with
  | nil => simp [EveryItem]
  | cons v vs ih => simp [EveryItem, ih]

theorem everyObject_object {ms : List (String × Json)} :
    EveryObject P (.object ms) ↔ P ms ∧ ∀ m ∈ ms, EveryObject P m.2 := by
  rw [EveryObject, everyMember_iff]

theorem everyObject_array {vs : List Json} :
    EveryObject P (.array vs) ↔ ∀ v ∈ vs, EveryObject P v := by
  rw [EveryObject, everyItem_iff]

theorem lookup_of_mem {ms : List (String × Json)} (hn : (ms.map Prod.fst).Nodup)
    {m : String × Json} (hm : m ∈ ms) : ms.lookup m.1 = some m.2 := by
  induction ms with
  | nil => simp at hm
  | cons a ms ih =>
    obtain ⟨k, v⟩ := a
    rw [List.map_cons, List.nodup_cons] at hn
    rw [List.lookup_cons]
    cases List.mem_cons.mp hm with
    | inl h =>
      subst h
      simp
    | inr h =>
      have hne : m.1 ≠ k := fun e => hn.1 (List.mem_map.mpr ⟨m, h, e⟩)
      rw [beq_eq_false_iff_ne.mpr hne]
      exact ih hn.2 h

/-- In an object of distinct names a member is found under its own name. -/
theorem getEx_of_mem {ms : List (String × Json)} (h : ConfigShape ms) {m : String × Json}
    (hm : m ∈ ms) : (Json.object ms).getEx m.1 = some m.2 := lookup_of_mem h.1 hm

/-! ### Trees without object members -/

section Flat

variable {σ : Type*} (configure : Json → Option String → σ → Exit × σ)

mutual

theorem jsonMembers_eq_runAll (full ms : List (String × Json)) (hsub : ∀ m ∈ ms, m ∈ full)
    (hshape : ConfigShape full) (hflat : NoObjectMember full)
    (hs : ∀ m ∈ ms, EveryObject ConfigShape m.2) (hf : ∀ m ∈ ms, EveryObject NoObjectMember m.2)
    (st : σ) :
    jsonMembers configure (.object full) ms st
      = runAll (fun c => configure c.1 c.2) (memberScalars ms) st := by
  match ms with
  | [] => rw [jsonMembers_nil, memberScalars, runAll_nil]
  | (key, val) :: rest =>
    have hrest := jsonMembers_eq_runAll full rest (fun m hm => hsub m (List.mem_cons_of_mem _ hm))
      hshape hflat (fun m hm => hs m (List.mem_cons_of_mem _ hm))
      (fun m hm => hf m (List.mem_cons_of_mem _ hm))
    have hmem := hsub (key, val) List.mem_cons_self
    rw [memberScalars, runAll_append]
    by_cases hsc : val.isScalar = true
    · rw [jsonMembers_scalar configure _ key hsc, if_pos hsc, runAll_cons, andThen_assoc]
      congr 1
      funext s
      rw [runAll_nil, andThen_ok]
      exact hrest s
    · rw [if_neg hsc]
      match val, hs _ List.mem_cons_self, hf _ List.mem_cons_self, hmem with
      | .null, _, _, _ =>
        rw [jsonMembers_null, scalars_null, runAll_nil, andThen_ok]
        exact hrest st
      | .array vs, hs, hf, hmem =>
        obtain ⟨hne, hobj⟩ := hshape.2 _ hmem vs rfl
        have hit := jsonItems_eq_runAll vs hobj (everyObject_array.mp hs) (everyObject_array.mp hf)
        rw [jsonMembers_array, jsonParseArray_key, getEx_of_mem hshape hmem]
        show andThen (jsonParseArray configure (.array vs) none st) _ = _
        rw [jsonParseArray_array configure hne, scalars, hit st]
        congr 1
        funext s
        exact hrest s
      | .object vs, _, _, hmem => exact absurd (hflat _ hmem) (by simp [isObject])
      | .bool _, _, _, _ | .int _, _, _, _ | .double _ _, _, _, _ | .string _, _, _, _ =>
        exact absurd rfl hsc
  termination_by sizeOf ms

/-- Without object members, the walk over an array of objects is the run of
their scalars in document order. -/
theorem jsonItems_eq_runAll (vs : List Json) (hobj : ∀ v ∈ vs, isObject v = true)
    (hs : ∀ v ∈ vs, EveryObject ConfigShape v) (hf : ∀ v ∈ vs, EveryObject NoObjectMember v)
    (st : σ) :
    jsonItems configure vs st = runAll (fun c => configure c.1 c.2) (itemScalars vs) st := by
  match vs with
  | [] => rw [jsonItems_nil, itemScalars, runAll_nil]
  | .object ms :: rest =>
    have hrest := jsonItems_eq_runAll rest (fun v hv => hobj v (List.mem_cons_of_mem _ hv))
      (fun v hv => hs v (List.mem_cons_of_mem _ hv)) (fun v hv => hf v (List.mem_cons_of_mem _ hv))
    obtain ⟨hshape, hs'⟩ := everyObject_object.mp (hs _ List.mem_cons_self)
    obtain ⟨hflat, hf'⟩ := everyObject_object.mp (hf _ List.mem_cons_self)
    rw [jsonItems_object, jsonParse_object, itemScalars, scalars, runAll_append,
      jsonMembers_eq_runAll ms ms (fun _ h => h) hshape hflat hs' hf']
    congr 1
    funext s
    exact hrest s
  | .null :: _ | .bool _ :: _ | .int _ :: _ | .double _ _ :: _ | .string _ :: _ | .array _ :: _ =>
    exact absurd (hobj _ List.mem_cons_self) (by simp [isObject])
  termination_by sizeOf vs

end

end Flat

/-! ### Recording the calls -/

/-- A `configure` that notes the call and answers what `oc` says for the calls
made so far. -/
def record (oc : List Call → ℤ) (val : Json) (key : Option String) (h : List Call) :
    Exit × List Call :=
  (.ret (oc (h ++ [(val, key)])), h ++ [(val, key)])

namespace Plan

/-- How a plan ends when every call succeeds. -/
def exit0 : Plan → Exit
  | exit e => e
  | call _ _ => .ret 0
  | seq p q =>
    match p.exit0 with
    | .ret rc => if rc = 0 then q.exit0 else .ret (-1)
    | .die => .die
  | drop p q =>
    match p.exit0 with
    | .ret _ => q.exit0
    | .die => .die

/-- The calls a plan makes when every call succeeds. -/
def calls0 : Plan → List Call
  | exit _ => []
  | call val key => [(val, key)]
  | seq p q => p.calls0 ++ if p.exit0 = .ret 0 then q.calls0 else []
  | drop p q => p.calls0 ++ if p.exit0 = .die then [] else q.calls0

/-- A call is made inside a result that is dropped. -/
def Drops : Plan → Prop
  | exit _ | call _ _ => False
  | seq p q => p.Drops ∨ q.Drops
  | drop p q => p.calls0 ≠ [] ∨ q.Drops

/-- While no call fails, a plan does what `exit0` and `calls0` say. -/
theorem run_record_zero {oc : List Call → ℤ} {p : Plan} {h : List Call}
    (hz : ∀ h' : List Call, h.length < h'.length → h'.length ≤ (h ++ p.calls0).length → oc h' = 0) :
    p.run (record oc) h = (p.exit0, h ++ p.calls0) := by
  induction p generalizing h with
  | exit e => simp [run, exit0, calls0]
  | call val key =>
    have : oc (h ++ [(val, key)]) = 0 := hz _ (by simp) (by simp [calls0])
    simp [run, exit0, calls0, record, this]
  | seq p q ihp ihq =>
    have hp : p.run (record oc) h = _ := ihp fun h' h₁ h₂ => hz h' h₁ <| le_trans h₂ <| by
      simp [calls0]
    rw [run, hp, exit0, calls0]
    cases he : p.exit0 with
    | die => simp
    | ret rc =>
      obtain rfl | hrc := eq_or_ne rc 0
      -- the calls of the second part come after those of the first
      · have hq : q.run (record oc) (h ++ p.calls0) = _ := ihq fun h' h₁ h₂ => by
          simp only [List.length_append] at h₁ h₂
          exact hz h' (by omega) (by simp only [calls0, he, List.length_append]; simp; omega)
        rw [andThen_ok, hq]
        simp
      · simp [andThen_fail hrc, hrc]
  | drop p q ihp ihq =>
    have hp : p.run (record oc) h = _ := ihp fun h' h₁ h₂ => hz h' h₁ <| le_trans h₂ <| by
      simp [calls0]
    rw [run, hp, exit0, calls0]
    cases he : p.exit0 with
    | die => simp [dropThen]
    | ret rc =>
      have hq : q.run (record oc) (h ++ p.calls0) = _ := ihq fun h' h₁ h₂ => by
        simp only [List.length_append] at h₁ h₂
        exact hz h' (by omega) (by simp only [calls0, he, List.length_append]; simp; omega)
      rw [dropThen, hq]
      simp

/-- Failing calls do not change how a plan ends, but for the code returned. -/
theorem run_record_exit {oc : List Call → ℤ} {p : Plan} (hp : p.exit0 ≠ .die) (h : List Call) :
    (p.run (record oc) h).1 = p.exit0 ∨ ∃ rc, rc ≠ 0 ∧ (p.run (record oc) h).1 = .ret rc := by
  induction p generalizing h with
  | exit e => exact Or.inl rfl
  | call val key =>
    obtain hz | hz := eq_or_ne (oc (h ++ [(val, key)])) 0
    · exact Or.inl (by simp [run, record, exit0, hz])
    · exact Or.inr ⟨_, hz, rfl⟩
  | seq p q ihp ihq =>
    cases he : p.exit0 with
    | die => simp [exit0, he] at hp
    | ret rc₀ =>
      have hr := ihp (by simp [he]) h
      rw [he] at hr
      rw [run, exit0, he]
      generalize p.run (record oc) h = r at hr ⊢
      obtain ⟨_ | _, s⟩ := r
      · next rc =>
        obtain rfl | hrc := eq_or_ne rc 0
        · obtain h0 | ⟨_, hne, h0⟩ := hr
          · obtain rfl : 0 = rc₀ := by simpa using h0
            rw [andThen_ok]
            exact ihq (by simpa [exit0, he] using hp) s
          · exact absurd (by simpa using h0.symm) hne
        -- the loop turns any failure into -1
        · exact Or.inr ⟨-1, by decide, by rw [andThen_fail hrc]⟩
      · simp at hr
  | drop p q ihp ihq =>
    cases he : p.exit0 with
    | die => simp [exit0, he] at hp
    | ret rc₀ =>
      have hr := ihp (by simp [he]) h
      rw [he] at hr
      rw [run, exit0, he]
      generalize p.run (record oc) h = r at hr ⊢
      obtain ⟨_ | _, s⟩ := r
      · exact ihq (by simpa [exit0, he] using hp) s
      · simp at hr

theorem run_record_ret (oc : List Call → ℤ) {p : Plan} {rc₀ : ℤ} (hp : p.exit0 = .ret rc₀)
    (h : List Call) : ∃ rc s, p.run (record oc) h = (.ret rc, s) := by
  have hexit : (p.run (record oc) h).1 = p.exit0 ∨ _ := run_record_exit (by simp [hp]) h
  rw [hp] at hexit
  generalize p.run (record oc) h = r at hexit
  obtain ⟨_ | _, s⟩ := r
  · exact ⟨_, s, rfl⟩
  · simp at hexit

/-- A run only adds to the record. -/
theorem prefix_run_record (oc : List Call → ℤ) (p : Plan) (h : List Call) :
    h <+: (p.run (record oc) h).2 :=
  run_inv (fun _ _ _ hs => hs.trans (List.prefix_append _ _)) (List.prefix_refl h)

/-- The first call of a plan is made whatever the calls return. -/
theorem first_call_made {oc : List Call → ℤ} {p : Plan} {c : Call} {cs : List Call}
    (hc : p.calls0 = c :: cs) (h : List Call) : h ++ [c] <+: (p.run (record oc) h).2 := by
  -- a plan that calls nothing leaves the record alone, so the other half makes the call
  have hnil : ∀ p : Plan, p.calls0 = [] → p.run (record oc) h = (p.exit0, h) := by
    intro p hp
    rw [run_record_zero fun h' h₁ h₂ => ?_, hp, List.append_nil]
    rw [hp, List.append_nil] at h₂
    omega
  induction p generalizing cs with
  | exit e => simp [calls0] at hc
  | call val key =>
    obtain ⟨rfl, -⟩ : (val, key) = c ∧ [] = cs := by simpa [calls0] using hc
    exact List.prefix_refl _
  | seq p q ihp ihq =>
    rw [run]
    cases hp : p.calls0 with
    | cons c' cs' =>
      obtain ⟨rfl, -⟩ : c' = c ∧ _ = cs := by simpa only [calls0, hp, List.cons_append,
        List.cons.injEq] using hc
      have hmade := ihp hp
      have hmore : ∀ s, h ++ [c'] <+: s → h ++ [c'] <+: (q.run (record oc) s).2 :=
        fun s hs => hs.trans (prefix_run_record oc q s)
      exact andThen_inv hmade hmore
    | nil =>
      rw [hnil p hp]
      rw [calls0, hp, List.nil_append] at hc
      split at hc
      · next he =>
        rw [he, andThen_ok]
        exact ihq hc
      · simp at hc
  | drop p q ihp ihq =>
    rw [run]
    cases hp : p.calls0 with
    | cons c' cs' =>
      obtain ⟨rfl, -⟩ : c' = c ∧ _ = cs := by simpa only [calls0, hp, List.cons_append,
        List.cons.injEq] using hc
      have hmade := ihp hp
      generalize p.run (record oc) h = r at hmade ⊢
      obtain ⟨_ | _, s⟩ := r
      · exact hmade.trans (prefix_run_record oc q s)
      · exact hmade
    | nil =>
      rw [hnil p hp]
      rw [calls0, hp, List.nil_append] at hc
      split at hc
      · simp at hc
      · next he =>
        obtain ⟨rc, he⟩ : ∃ rc, p.exit0 = .ret rc := by
          cases hx : p.exit0 with
          | ret rc => exact ⟨rc, rfl⟩
          | die => exact absurd hx he
        rw [he]
        exact ihq hc

/-- The outcome in which exactly the `n`-th call fails. -/
def failAt (n : ℕ) (h : List Call) : ℤ := if h.length = n then -1 else 0

theorem run_past_failure {n : ℕ} {p : Plan} {h : List Call} (hn : n ≤ h.length) :
    p.run (record (failAt n)) h = (p.exit0, h ++ p.calls0) :=
  run_record_zero fun h' h₁ _ => if_neg (by omega)

theorem run_before_failure {n : ℕ} {p : Plan} {h : List Call} (hn : (h ++ p.calls0).length < n) :
    p.run (record (failAt n)) h = (p.exit0, h ++ p.calls0) :=
  run_record_zero fun h' _ h₂ => if_neg (by omega)

/-- A plan that drops a result has a call whose failure it reports as a
success. -/
theorem exists_dropped_failure {p : Plan} (hd : p.Drops) (h0 : p.exit0 = .ret 0) (h : List Call) :
    ∃ n, h.length < n ∧ n ≤ (h ++ p.calls0).length ∧ ∃ s : List Call, n ≤ s.length ∧
      p.run (record (failAt n)) h = (.ret 0, s) := by
  induction p generalizing h with
  | exit e => exact hd.elim
  | call val key => exact hd.elim
  | seq p q ihp ihq =>
    obtain ⟨hp, hq⟩ : p.exit0 = .ret 0 ∧ q.exit0 = .ret 0 := by
      rw [exit0] at h0
      split at h0
      · next rc he =>
        split at h0
        · next hrc => exact ⟨by rw [he, hrc], h0⟩
        · simp at h0
      · simp at h0
    have hcalls : (seq p q).calls0 = p.calls0 ++ q.calls0 := by simp [calls0, hp]
    rw [hcalls]
    cases hd with
    | inl hd =>
      obtain ⟨n, hlo, hhi, s, hs, hrun⟩ := ihp hd hp h
      refine ⟨n, hlo, ?_, s ++ q.calls0, ?_, ?_⟩
      · simp only [List.length_append] at hhi ⊢
        omega
      · simp only [List.length_append]
        omega
      · rw [run, hrun, andThen_ok, run_past_failure hs, hq]
    | inr hd =>
      obtain ⟨n, hlo, hhi, s, hs, hrun⟩ := ihq hd hq (h ++ p.calls0)
      refine ⟨n, ?_, ?_, s, hs, ?_⟩
      · simp only [List.length_append] at hlo
        omega
      · simpa using hhi
      · rw [run, run_before_failure hlo, hp, andThen_ok, hrun]
  | drop p q ihp ihq =>
    obtain ⟨rc₀, hp, hq⟩ : ∃ rc, p.exit0 = .ret rc ∧ q.exit0 = .ret 0 := by
      rw [exit0] at h0
      split at h0
      · next rc he => exact ⟨rc, he, h0⟩
      · simp at h0
    have hcalls : (drop p q).calls0 = p.calls0 ++ q.calls0 := by simp [calls0, hp]
    rw [hcalls]
    cases hd with
    | inl hd =>
      -- let the first call inside the dropped result fail
      obtain ⟨c, cs, hc⟩ := List.exists_cons_of_ne_nil hd
      have hmade : h ++ [c] <+: (p.run (record (failAt (h.length + 1))) h).2 :=
        first_call_made hc h
      obtain ⟨rc, s, hrun⟩ := run_record_ret (failAt (h.length + 1)) hp h
      rw [hrun] at hmade
      have hlen : h.length + 1 ≤ s.length := by simpa using hmade.length_le
      refine ⟨h.length + 1, by omega, by simp [hc], s ++ q.calls0, ?_, ?_⟩
      · simp only [List.length_append]
        omega
      · rw [run, hrun, dropThen, run_past_failure hlen, hq]
    | inr hd =>
      obtain ⟨n, hlo, hhi, s, hs, hrun⟩ := ihq hd hq (h ++ p.calls0)
      refine ⟨n, ?_, ?_, s, hs, ?_⟩
      · simp only [List.length_append] at hlo
        omega
      · simpa using hhi
      · rw [run, run_before_failure hlo, hp, dropThen, hrun]

end Plan

/-! ### Trees with object members -/

theorem planMembers_scalar (jobj : Json) (key : String) {val : Json} (h : val.isScalar = true)
    (rest : List (String × Json)) :
    planMembers jobj ((key, val) :: rest)
      = .seq (.call val (some key)) (planMembers jobj rest) := by
  cases val with
  | null | array vs | object ms => simp [Json.isScalar] at h
  | bool b => rw [planMembers] <;> simp
  | int n => rw [planMembers] <;> simp
  | double n s => rw [planMembers] <;> simp
  | string s => rw [planMembers] <;> simp

theorem planMembers_object {jobj : Json} {key : String} {child : Json}
    (h : jobj.getEx key = some child) (vs : List (String × Json))
    (rest : List (String × Json)) :
    planMembers jobj ((key, .object vs) :: rest)
      = .drop (planParse child) (planMembers child rest) := by
  rw [planMembers]
  split
  · next h' => rw [h] at h'; cases h'
  · next h' => rw [h] at h'; cases h'; rfl

theorem planMembers_array {jobj : Json} {key : String} {vs : List Json}
    (h : jobj.getEx key = some (.array vs)) (hne : vs ≠ []) (rest : List (String × Json)) :
    planMembers jobj ((key, .array vs) :: rest)
      = .seq (planItems vs) (planMembers jobj rest) := by
  rw [planMembers, planArray]
  congr 1
  split
  · next h' => rw [h] at h'; cases h'
  · next h' =>
    rw [h] at h'
    cases h'
    rw [if_neg (by simpa using hne)]
  · next h' => rw [h] at h'; cases h'; simp_all

mutual

/-- An object that holds a scalar leads to a call: its first member that is not
`null` already does. -/
theorem planMembers_calls_ne_nil (full ms : List (String × Json)) (hsub : ∀ m ∈ ms, m ∈ full)
    (hshape : ConfigShape full) (hs : ∀ m ∈ ms, EveryObject ConfigShape m.2)
    (hh : ∀ m ∈ ms, EveryObject HoldsScalar m.2) (hsc : HoldsScalar ms) :
    (planMembers (.object full) ms).calls0 ≠ [] := by
  match ms with
  | [] =>
    obtain ⟨m, hm, -⟩ := hsc
    simp at hm
  | (key, val) :: rest =>
    have hmem := hsub (key, val) List.mem_cons_self
    obtain hval | hval := Bool.eq_false_or_eq_true val.isScalar
    · rw [planMembers_scalar _ key hval, Plan.calls0]
      simp [Plan.calls0]
    · match val, hs _ List.mem_cons_self, hh _ List.mem_cons_self, hmem with
      | .null, _, _, _ =>
        rw [planMembers]
        refine planMembers_calls_ne_nil full rest (fun m hm => hsub m (List.mem_cons_of_mem _ hm))
          hshape (fun m hm => hs m (List.mem_cons_of_mem _ hm))
          (fun m hm => hh m (List.mem_cons_of_mem _ hm)) ?_
        obtain ⟨m, hm, hms⟩ := hsc
        cases hm with
        | head => simp [Json.isScalar] at hms
        | tail _ hm => exact ⟨m, hm, hms⟩
      | .array vs, hs, hh, hmem =>
        obtain ⟨hne, hobj⟩ := hshape.2 _ hmem vs rfl
        rw [planMembers_array (getEx_of_mem hshape hmem) hne, Plan.calls0]
        exact List.append_ne_nil_of_left_ne_nil (planItems_calls_ne_nil vs hne hobj
          (everyObject_array.mp hs) (everyObject_array.mp hh)) _
      | .object vs, hs, hh, hmem =>
        obtain ⟨hshape', hs'⟩ := everyObject_object.mp hs
        obtain ⟨hsc', hh'⟩ := everyObject_object.mp hh
        rw [planMembers_object (getEx_of_mem hshape hmem), planParse, Plan.calls0]
        exact List.append_ne_nil_of_left_ne_nil
          (planMembers_calls_ne_nil vs vs (fun _ h => h) hshape' hs' hh' hsc') _
      | .bool _, _, _, _ | .int _, _, _, _ | .double _ _, _, _, _ | .string _, _, _, _ =>
        simp [Json.isScalar] at hval
  termination_by sizeOf ms

theorem planItems_calls_ne_nil (vs : List Json) (hne : vs ≠ [])
    (hobj : ∀ v ∈ vs, isObject v = true) (hs : ∀ v ∈ vs, EveryObject ConfigShape v)
    (hh : ∀ v ∈ vs, EveryObject HoldsScalar v) : (planItems vs).calls0 ≠ [] := by
  match vs with
  | [] => exact absurd rfl hne
  | .object ms :: rest =>
    obtain ⟨hshape, hs'⟩ := everyObject_object.mp (hs _ List.mem_cons_self)
    obtain ⟨hsc, hh'⟩ := everyObject_object.mp (hh _ List.mem_cons_self)
    rw [planItems, planParse, Plan.calls0]
    exact List.append_ne_nil_of_left_ne_nil
      (planMembers_calls_ne_nil ms ms (fun _ h => h) hshape hs' hh' hsc) _
  | .null :: _ | .bool _ :: _ | .int _ :: _ | .double _ _ :: _ | .string _ :: _ | .array _ :: _ =>
    exact absurd (hobj _ List.mem_cons_self) (by simp [isObject])
  termination_by sizeOf vs

end

mutual

/-- An object member drops a result, at whatever depth it stands. -/
theorem planMembers_drops (full ms : List (String × Json)) (hsub : ∀ m ∈ ms, m ∈ full)
    (hshape : ConfigShape full) (hs : ∀ m ∈ ms, EveryObject ConfigShape m.2)
    (hh : ∀ m ∈ ms, EveryObject HoldsScalar m.2)
    (hbad : ∃ m ∈ ms, isObject m.2 = true ∨ ¬EveryObject NoObjectMember m.2) :
    (planMembers (.object full) ms).Drops := by
  match ms with
  | [] =>
    obtain ⟨m, hm, -⟩ := hbad
    simp at hm
  | (key, .null) :: rest =>
    rw [planMembers]
    refine planMembers_drops full rest (fun m hm => hsub m (List.mem_cons_of_mem _ hm)) hshape
      (fun m hm => hs m (List.mem_cons_of_mem _ hm))
      (fun m hm => hh m (List.mem_cons_of_mem _ hm)) ?_
    exact ((List.exists_mem_cons_iff _ _ _).mp hbad).resolve_left (by simp [isObject, EveryObject])
  | (key, .array vs) :: rest =>
    have hmem := hsub _ List.mem_cons_self
    obtain ⟨hne, hobj⟩ := hshape.2 _ hmem vs rfl
    rw [planMembers_array (getEx_of_mem hshape hmem) hne]
    -- below one of the items, or further on
    cases (List.exists_mem_cons_iff _ _ _).mp hbad with
    | inl h =>
      have h : ¬EveryObject NoObjectMember (.array vs) := h.resolve_left (by simp [isObject])
      rw [everyObject_array] at h
      push Not at h
      exact Or.inl (planItems_drops vs hobj (everyObject_array.mp (hs _ List.mem_cons_self))
        (everyObject_array.mp (hh _ List.mem_cons_self)) h)
    | inr h =>
      exact Or.inr (planMembers_drops full rest (fun m hm => hsub m (List.mem_cons_of_mem _ hm))
        hshape (fun m hm => hs m (List.mem_cons_of_mem _ hm))
        (fun m hm => hh m (List.mem_cons_of_mem _ hm)) h)
  -- here the result is dropped, and a scalar below makes a call
  | (key, .object vs) :: rest =>
    have hmem := hsub _ List.mem_cons_self
    obtain ⟨hshape', hs'⟩ := everyObject_object.mp (hs _ List.mem_cons_self)
    obtain ⟨hsc', hh'⟩ := everyObject_object.mp (hh _ List.mem_cons_self)
    rw [planMembers_object (getEx_of_mem hshape hmem), planParse]
    exact Or.inl (planMembers_calls_ne_nil vs vs (fun _ h => h) hshape' hs' hh' hsc')
  -- a scalar is no object and holds none
  | (key, .bool _) :: rest | (key, .int _) :: rest | (key, .double _ _) :: rest
  | (key, .string _) :: rest =>
    rw [planMembers_scalar _ key rfl]
    refine Or.inr (planMembers_drops full rest (fun m hm => hsub m (List.mem_cons_of_mem _ hm))
      hshape (fun m hm => hs m (List.mem_cons_of_mem _ hm))
      (fun m hm => hh m (List.mem_cons_of_mem _ hm)) ?_)
    exact ((List.exists_mem_cons_iff _ _ _).mp hbad).resolve_left (by simp [isObject, EveryObject])
  termination_by sizeOf ms

theorem planItems_drops (vs : List Json) (hobj : ∀ v ∈ vs, isObject v = true)
    (hs : ∀ v ∈ vs, EveryObject ConfigShape v) (hh : ∀ v ∈ vs, EveryObject HoldsScalar v)
    (hbad : ∃ v ∈ vs, ¬EveryObject NoObjectMember v) : (planItems vs).Drops := by
  match vs with
  | [] =>
    obtain ⟨v, hv, -⟩ := hbad
    simp at hv
  | .object ms :: rest =>
    obtain ⟨hshape, hs'⟩ := everyObject_object.mp (hs _ List.mem_cons_self)
    obtain ⟨hsc, hh'⟩ := everyObject_object.mp (hh _ List.mem_cons_self)
    rw [planItems, planParse]
    cases (List.exists_mem_cons_iff _ _ _).mp hbad with
    | inl h =>
      refine Or.inl (planMembers_drops ms ms (fun _ h => h) hshape hs' hh' ?_)
      rw [everyObject_object] at h
      by_contra hall
      push Not at hall
      exact h ⟨fun m hm => by simpa using (hall m hm).1, fun m hm => (hall m hm).2⟩
    | inr h =>
      exact Or.inr (planItems_drops rest (fun v hv => hobj v (List.mem_cons_of_mem _ hv))
        (fun v hv => hs v (List.mem_cons_of_mem _ hv))
        (fun v hv => hh v (List.mem_cons_of_mem _ hv)) h)
  | .null :: _ | .bool _ :: _ | .int _ :: _ | .double _ _ :: _ | .string _ :: _ | .array _ :: _ =>
    exact absurd (hobj _ List.mem_cons_self) (by simp [isObject])
  termination_by sizeOf vs

end

/-! ### Complete walks -/

/-- Whatever the calls return: while all return 0 the scalars are passed in
document order and the load returns 0; at the first that does not, the load
stops and fails. -/
def Complete (items : List Json) : Prop :=
  ∀ oc : List Call → ℤ,
    let cs := itemScalars items
    let r := parseConfig (record oc) (some (some (.array items))) []
    ((∀ i < cs.length, oc (cs.take (i + 1)) = 0) → r = (.ret 0, cs)) ∧
      ∀ i < cs.length, (∀ j < i, oc (cs.take (j + 1)) = 0) → oc (cs.take (i + 1)) ≠ 0 →
        r.2 = cs.take (i + 1) ∧ ∃ rc, rc ≠ 0 ∧ r.1 = .ret rc

/-- A run of recorded calls that all succeed. -/
theorem runAll_record_ok {oc : List Call → ℤ} (cs : List Call) (h : List Call)
    (hz : ∀ i < cs.length, oc (h ++ cs.take (i + 1)) = 0) :
    runAll (fun c => record oc c.1 c.2) cs h = (.ret 0, h ++ cs) := by
  induction cs generalizing h with
  | nil => simp
  | cons c cs ih =>
    have h0 : oc (h ++ [c]) = 0 := hz 0 (by simp)
    rw [runAll_cons, record, h0, andThen_ok, ih]
    · simp
    · intro i hi
      simpa using hz (i + 1) (by simpa using hi)

/-- A run of recorded calls stops at the first failure. -/
theorem runAll_record_fail {oc : List Call → ℤ} (cs : List Call) {i : ℕ} (hi : i < cs.length)
    (hz : ∀ j < i, oc (cs.take (j + 1)) = 0) (hne : oc (cs.take (i + 1)) ≠ 0) :
    runAll (fun c => record oc c.1 c.2) cs [] = (.ret (-1), cs.take (i + 1)) := by
  have hok : runAll (fun c => record oc c.1 c.2) (cs.take i) [] = (.ret 0, cs.take i) := by
    refine runAll_record_ok (cs.take i) [] fun j hj => ?_
    rw [List.length_take] at hj
    rw [List.nil_append, List.take_take, min_eq_left (by omega)]
    exact hz j (by omega)
  have htake : cs.take i ++ [cs[i]] = cs.take (i + 1) := List.take_append_getElem hi
  rw [← List.take_append_drop i cs, runAll_append, List.take_append_drop, hok, andThen_ok,
    List.drop_eq_getElem_cons hi, runAll_cons, record, htake, andThen_fail hne]

/-- Without object members every walk is complete. -/
theorem complete_of_noObjectMember {items : List Json} (hne : items ≠ [])
    (hobj : ∀ v ∈ items, isObject v = true) (hs : ∀ v ∈ items, EveryObject ConfigShape v)
    (hf : ∀ v ∈ items, EveryObject NoObjectMember v) : Complete items := by
  intro oc cs r
  have hr : r = (parseResult (runAll (fun c => record oc c.1 c.2) cs []).1,
      (runAll (fun c => record oc c.1 c.2) cs []).2) := by
    show parseConfig (record oc) _ _ = _
    rw [parseConfig_array _ hne, jsonItems_eq_runAll _ items hobj hs hf]
  constructor
  · intro hz
    rw [hr, runAll_record_ok cs [] (by simpa using hz)]
    rfl
  · intro i hi hz hbad
    rw [hr, runAll_record_fail cs hi hz hbad]
    exact ⟨rfl, -1, by decide, rfl⟩

theorem planItems_exit0 {vs : List Json} {rc : ℤ} (hobj : ∀ v ∈ vs, isObject v = true)
    (h : (planItems vs).exit0 = .ret rc) : rc = 0 ∨ rc = -1 := by
  induction vs with
  | nil =>
    rw [planItems] at h
    exact Or.inl (Exit.ret.inj h).symm
  | cons v vs ih =>
    obtain ⟨ms, rfl⟩ : ∃ ms, v = .object ms := by
      have := hobj v List.mem_cons_self
      cases v <;> simp_all [isObject]
    rw [planItems, Plan.exit0] at h
    split at h
    · split at h
      · exact ih (fun v hv => hobj v (List.mem_cons_of_mem _ hv)) h
      · exact Or.inr (Exit.ret.inj h).symm
    · simp at h

/-- Where every object holds a scalar, complete walks are those of non-empty
arrays without object members. -/
theorem noObjectMember_of_complete {items : List Json}
    (hobj : ∀ v ∈ items, isObject v = true) (hs : ∀ v ∈ items, EveryObject ConfigShape v)
    (hh : ∀ v ∈ items, EveryObject HoldsScalar v) (hc : Complete items) :
    items ≠ [] ∧ ∀ v ∈ items, EveryObject NoObjectMember v := by
  have hne : items ≠ [] := by
    intro h
    subst h
    have h0 := (hc fun _ => 0).1 (fun _ _ => rfl)
    simp [parseConfig, jsonParseArray, parseResult] at h0
  refine ⟨hne, ?_⟩
  by_contra hbad
  have hrun (oc : List Call → ℤ) : parseConfig (record oc) (some (some (.array items))) []
      = (parseResult ((planItems items).run (record oc) []).1,
        ((planItems items).run (record oc) []).2) := by
    rw [parseConfig_array _ hne, jsonItems_eq_run]
  -- the walk without failures tells which calls are planned
  have hz : (planItems items).exit0 = .ret 0 ∧ (planItems items).calls0 = itemScalars items := by
    have h0 := (hc fun _ => 0).1 (fun _ _ => rfl)
    rw [hrun, Plan.run_record_zero (fun _ _ _ => rfl), List.nil_append, Prod.mk.injEq] at h0
    cases he : (planItems items).exit0 with
    | die => simp [he, parseResult] at h0
    | ret rc =>
      obtain rfl | rfl := planItems_exit0 hobj he
      · exact ⟨rfl, h0.2⟩
      · simp [he, parseResult] at h0
  have hd : (planItems items).Drops := planItems_drops items hobj hs hh (by simpa using hbad)
  obtain ⟨n, hlo, hhi, s, -, hfail⟩ := Plan.exists_dropped_failure hd hz.1 []
  rw [List.nil_append, hz.2] at hhi
  have hlen (i : ℕ) (hi : i < (itemScalars items).length) :
      ((itemScalars items).take (i + 1)).length = i + 1 := by
    rw [List.length_take]
    omega
  obtain ⟨i, rfl⟩ : ∃ i, n = i + 1 := ⟨n - 1, by simp at hlo; omega⟩
  obtain ⟨-, rc, hrc, hexit⟩ := (hc (Plan.failAt (i + 1))).2 i hhi
    (fun j hj => if_neg (by rw [hlen j (by omega)]; omega))
    (by rw [Plan.failAt, if_pos (hlen i hhi)]; decide)
  rw [hrun, hfail] at hexit
  exact hrc (Exit.ret.inj hexit).symm

/-- A tree without object members is walked completely; where every object
holds a scalar, no other tree is. -/
theorem parseConfig_complete {items : List Json} (hobj : ∀ v ∈ items, isObject v = true)
    (hs : ∀ v ∈ items, EveryObject ConfigShape v) :
    (items ≠ [] ∧ (∀ v ∈ items, EveryObject NoObjectMember v) → Complete items) ∧
      ((∀ v ∈ items, EveryObject HoldsScalar v) →
        (Complete items ↔ items ≠ [] ∧ ∀ v ∈ items, EveryObject NoObjectMember v)) := by
  constructor
  · intro ⟨hne, hf⟩
    exact complete_of_noObjectMember hne hobj hs hf
  · intro hh
    constructor
    · exact noObjectMember_of_complete hobj hs hh
    · intro ⟨hne, hf⟩
      exact complete_of_noObjectMember hne hobj hs hf

/-- A device with one group, and one with a member that is an object. -/
def deviceWithGroup : Json :=
  .object [("dev", .string "dsa0"), ("groups", .array [.object [("dev", .string "group0.0")]])]

def deviceWithObject : Json :=
  .object [("dev", .string "dsa0"), ("group", .object [("dev", .string "group0.0")])]

theorem parseConfig_complete_deviceWithGroup : Complete [deviceWithGroup] := by
  refine (parseConfig_complete (by simp [deviceWithGroup, isObject]) ?_).1 ⟨by simp, ?_⟩
  · simp [deviceWithGroup, EveryObject, EveryMember, EveryItem, ConfigShape, isObject]
  · simp [deviceWithGroup, EveryObject, EveryMember, EveryItem, NoObjectMember, isObject]

theorem planItems_deviceWithObject :
    planItems [deviceWithObject] = .seq
      (.seq (.call (.string "dsa0") (some "dev"))
        (.drop (.seq (.call (.string "group0.0") (some "dev")) (.exit (.ret 0)))
          (.exit (.ret 0))))
      (.exit (.ret 0)) := by
  have hchild : deviceWithObject.getEx "group" = some (.object [("dev", .string "group0.0")]) :=
    rfl
  rw [deviceWithObject] at hchild ⊢
  rw [planItems, planParse, planMembers_scalar _ _ rfl, planMembers_object hchild, planParse,
    planMembers_scalar _ _ rfl]
  simp [planMembers, planItems]

/-- The failure of the nested `dev` entry is reported as a success. -/
theorem not_complete_deviceWithObject : ¬Complete [deviceWithObject] := by
  intro hc
  have hcs : itemScalars [deviceWithObject]
      = [(.string "dsa0", some "dev"), (.string "group0.0", some "dev")] := by
    simp [deviceWithObject, itemScalars, scalars, memberScalars, Json.isScalar]
  have hrun : (parseConfig (record (Plan.failAt 2))
      (some (some (.array [deviceWithObject]))) []).1 = .ret 0 := by
    rw [parseConfig_array _ (by simp), jsonItems_eq_run, planItems_deviceWithObject]
    rfl
  obtain ⟨-, rc, hrc, hexit⟩ := (hc (Plan.failAt 2)).2 1 (by rw [hcs]; decide)
    (by rw [hcs]; decide) (by rw [hcs]; decide)
  rw [hrun] at hexit
  exact hrc (Exit.ret.inj hexit).symm

end Accfg
