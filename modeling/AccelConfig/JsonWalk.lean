/-
The walk of load-config over the JSON tree.

`json_parse` and `json_parse_array` of `accfg/config.c` call
`configure_json_value` on the scalar members of every object they meet.  The
walk is written here for an arbitrary `configure`, since what it visits does
not depend on what is done there.

The branch for a member that is itself an object stores the child in the very
variable the later members are looked up in, and drops the child's result;
`jsonMembers` keeps both.  The look-up goes by key, so the model follows the
code where a later array of the same object is searched for in the child.
-/
import AccelConfig.StopAtFailure

open StopAtFailure

/-- A tree as the JSON tokener builds it.  An object is a hash table with its
members in document order; a double keeps its value truncated to an integer
and its text. -/
inductive Json where
  | null
  | bool (b : Bool)
  | int (n : ℤ)
  | double (trunc : ℤ) (text : String)
  | string (s : String)
  | array (items : List Json)
  | object (members : List (String × Json))
  deriving Repr

namespace Json

/-- `json_object_object_get_ex`: the member of that name, if this is an object
that has one. -/
def getEx : Json → String → Option Json
  | .object ms, key => ms.lookup key
  | _, _ => none

theorem sizeOf_lookup_lt {ms : List (String × Json)} {key : String} {v : Json}
    (h : ms.lookup key = some v) : sizeOf v < sizeOf ms := by
  induction ms with
  | nil => simp at h
  | cons m ms ih =>
    obtain ⟨k, u⟩ := m
    rw [List.lookup_cons] at h
    split at h
    · rw [Option.some_inj] at h
      subst h
      simp only [List.cons.sizeOf_spec, Prod.mk.sizeOf_spec]
      omega
    · have := ih h
      simp only [List.cons.sizeOf_spec]
      omega

theorem sizeOf_getEx_lt {j v : Json} {key : String} (h : j.getEx key = some v) :
    sizeOf v < sizeOf j := by
  unfold getEx at h
  split at h
  · have := sizeOf_lookup_lt h
    simp only [object.sizeOf_spec]
    omega
  · simp at h

theorem sizeOf_items_lt {j : Json} {items : List Json} {key : String}
    (h : j.getEx key = some (.array items)) : sizeOf items < sizeOf j := by
  have := sizeOf_getEx_lt h
  simp only [array.sizeOf_spec] at this
  omega

/-- The types that `json_parse` hands to `configure_json_value`. -/
def isScalar : Json → Bool
  | .bool _ | .int _ | .double _ _ | .string _ => true
  | _ => false

end Json

namespace Accfg

/-- The result of a nested object is not looked at: whatever it returned, the
walk goes on with `k`. -/
def dropThen {σ : Type*} (r : Exit × σ) (k : σ → Exit × σ) : Exit × σ :=
  match r with
  | (.ret _, st) => k st
  | (.die, st) => (.die, st)

variable {σ : Type*} (configure : Json → Option String → σ → Exit × σ)

mutual

/-- `json_parse`.  The iteration reads the members of `jobj`, which must be an
object: on anything else `json_object_get_object` returns `NULL`. -/
def jsonParse (jobj : Json) (st : σ) : Exit × σ :=
  match jobj with
  | .object ms => jsonMembers (.object ms) ms st
  | _ => (.die, st)
  termination_by (sizeOf jobj, 3, 0)

/-- The loop of `json_parse` over the remaining members; `jobj` is the variable
they are looked up in. -/
def jsonMembers (jobj : Json) (ms : List (String × Json)) (st : σ) : Exit × σ :=
  match ms with
  | [] => (.ret 0, st)
  | (key, val) :: rest =>
    match val with
    | .object _ =>
      match h : jobj.getEx key with
      | none => (.ret (-1), st)
      | some child =>
        -- the look-up has stored the child in `jobj`
        dropThen (jsonParse child st) (jsonMembers child rest)
    | .array _ => andThen (jsonParseArray jobj (some key) st) (jsonMembers jobj rest)
    | .null => jsonMembers jobj rest st
    | val => andThen (configure val (some key) st) (jsonMembers jobj rest)
  termination_by (sizeOf jobj, 2, ms.length)
  decreasing_by
    · have := Json.sizeOf_getEx_lt h
      decreasing_tactic
    · have := Json.sizeOf_getEx_lt h
      decreasing_tactic
    all_goals decreasing_tactic

/-- `json_parse_array`: with a key the array is that member of `jobj`, without
one it is `jobj` itself.  Taking the length of anything but an array fails an
assertion. -/
def jsonParseArray (jobj : Json) (key : Option String) (st : σ) : Exit × σ :=
  match key with
  | some key =>
    match h : jobj.getEx key with
    | none => (.ret (-1), st)
    | some (.array items) => if items.isEmpty then (.ret (-1), st) else jsonItems items st
    | some _ => (.die, st)
  | none =>
    match jobj with
    | .array items => if items.isEmpty then (.ret (-1), st) else jsonItems items st
    | _ => (.die, st)
  termination_by (sizeOf jobj, 1, 0)
  decreasing_by
    · exact Prod.Lex.left _ _ (Json.sizeOf_items_lt h)
    · apply Prod.Lex.left
      simp only [Json.array.sizeOf_spec]
      omega

/-- The loop of `json_parse_array`. -/
def jsonItems (items : List Json) (st : σ) : Exit × σ :=
  match items with
  | [] => (.ret 0, st)
  | jvalue :: rest =>
    match jvalue with
    | .null => (.ret (-1), st)
    | .array vs => andThen (jsonParseArray (.array vs) none st) (jsonItems rest)
    | .object ms => andThen (jsonParse (.object ms) st) (jsonItems rest)
    | jvalue => andThen (configure jvalue none st) (jsonItems rest)
  termination_by (sizeOf items, 0, 0)

end

/-- `parse_config` returns the walk's code only if it is negative. -/
def parseResult : Exit → Exit
  | .ret rc => .ret (if rc < 0 then rc else 0)
  | .die => .die

/-- `parse_config`.  `buf` is `conf->buf` and holds what `json_tokener_parse`
makes of its text: `some none` is a text the tokener gives up on. -/
def parseConfig (buf : Option (Option Json)) (st : σ) : Exit × σ :=
  match buf with
  | none => (.ret (-22), st)
  | some none => (.ret (-12), st)
  | some (some jobj) =>
    let r := jsonParseArray configure jobj none st
    (parseResult r.1, r.2)

/-! ### The walk one member at a time -/

@[simp] theorem jsonParse_object (ms : List (String × Json)) (st : σ) :
    jsonParse configure (.object ms) st = jsonMembers configure (.object ms) ms st := by
  rw [jsonParse]

@[simp] theorem jsonMembers_nil (jobj : Json) (st : σ) :
    jsonMembers configure jobj [] st = (.ret 0, st) := by rw [jsonMembers]

theorem jsonMembers_scalar (jobj : Json) (key : String) {val : Json} (h : val.isScalar = true)
    (rest : List (String × Json)) (st : σ) :
    jsonMembers configure jobj ((key, val) :: rest) st
      = andThen (configure val (some key) st) (jsonMembers configure jobj rest) := by
  cases val with
  | null | array vs | object ms => simp [Json.isScalar] at h
  | bool b => rw [jsonMembers] <;> simp
  | int n => rw [jsonMembers] <;> simp
  | double n s => rw [jsonMembers] <;> simp
  | string s => rw [jsonMembers] <;> simp

theorem jsonMembers_null (jobj : Json) (key : String) (rest : List (String × Json)) (st : σ) :
    jsonMembers configure jobj ((key, .null) :: rest) st
      = jsonMembers configure jobj rest st := by
  rw [jsonMembers]

theorem jsonMembers_array (jobj : Json) (key : String) (vs : List Json)
    (rest : List (String × Json)) (st : σ) :
    jsonMembers configure jobj ((key, .array vs) :: rest) st
      = andThen (jsonParseArray configure jobj (some key) st)
          (jsonMembers configure jobj rest) := by
  rw [jsonMembers]

theorem jsonMembers_object (jobj : Json) (key : String) (vs : List (String × Json))
    (rest : List (String × Json)) (st : σ) :
    jsonMembers configure jobj ((key, .object vs) :: rest) st
      = match jobj.getEx key with
        | none => (.ret (-1), st)
        | some child =>
          dropThen (jsonParse configure child st) (jsonMembers configure child rest) := by
  rw [jsonMembers]
  cases jobj.getEx key <;> rfl

@[simp] theorem jsonItems_nil (st : σ) : jsonItems configure [] st = (.ret 0, st) := by
  rw [jsonItems]

theorem jsonItems_object (ms : List (String × Json)) (rest : List Json) (st : σ) :
    jsonItems configure (.object ms :: rest) st
      = andThen (jsonParse configure (.object ms) st) (jsonItems configure rest) := by
  rw [jsonItems]

theorem jsonParseArray_key (jobj : Json) (key : String) (st : σ) :
    jsonParseArray configure jobj (some key) st
      = match jobj.getEx key with
        | none => (.ret (-1), st)
        | some v => jsonParseArray configure v none st := by
  rw [jsonParseArray]
  cases h : jobj.getEx key with
  | none => rfl
  | some v =>
    show _ = jsonParseArray configure v none st
    cases v <;> simp [jsonParseArray]

theorem jsonParseArray_array {items : List Json} (h : items ≠ []) (st : σ) :
    jsonParseArray configure (.array items) none st = jsonItems configure items st := by
  rw [jsonParseArray, if_neg (by simpa using h)]

theorem parseConfig_array {items : List Json} (h : items ≠ []) (st : σ) :
    parseConfig configure (some (some (.array items))) st
      = (parseResult (jsonItems configure items st).1, (jsonItems configure items st).2) := by
  rw [parseConfig, jsonParseArray_array configure h]

end Accfg
