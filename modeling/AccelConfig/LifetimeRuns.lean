/-
What the library owns over a whole run.

A process makes a context and calls the library in any order, with any outcome of
the system calls and allocations.

* `process_owns` — nothing is freed twice, and what is allocated hangs on the
  context or was lost at one of three places;
* `process_frees` — with memory, and without the calls that lose something, nothing
  is left when the last reference to the context is dropped;
* `process_lost` — what is lost stays allocated whatever is called later.
-/
import AccelConfig.LifetimeRules

namespace Accfg.Lifetimes

open Ownership

variable {O : Outcomes} {P : Multiset Block} {E : Fault → Prop}

/-! ### What is lost -/

/-- A disable that may be refused, which loses the path. -/
def Call.mayRefuse : Call → Bool
  | deviceControl enable force _ => !enable && !force
  | wqControl enable force _ _ => !enable && !force
  | _ => false

def Call.isOccupancy : Call → Bool
  | wqGetOccupancy _ _ => true
  | _ => false

/-- Blocks and descriptors that nothing points at any more, after some calls. -/
structure Lost (O : Outcomes) (calls : List Call) (L : Multiset Block) : Prop where
  sites : ∀ c ∈ L, (c.site = .devicePath ∧ ¬ O.Plenty) ∨ c.site = .unbindPath ∨
    c.site = .occupancyDfd
  unbind : L.countP (·.site = .unbindPath) ≤ calls.countP Call.mayRefuse
  occupancy : L.countP (·.site = .occupancyDfd) ≤ calls.countP Call.isOccupancy

namespace Lost

variable {calls calls' : List Call} {L L' : Multiset Block}

theorem zero : Lost O calls 0 :=
  ⟨fun _ hc => absurd hc (Multiset.notMem_zero _), by simp, by simp⟩

theorem append (h : Lost O calls L) (h' : Lost O calls' L') :
    Lost O (calls ++ calls') (L + L') where
  sites c hc := (Multiset.mem_add.mp hc).elim (h.sites c) (h'.sites c)
  unbind := by
    rw [Multiset.countP_add, List.countP_append]
    exact Nat.add_le_add h.unbind h'.unbind
  occupancy := by
    rw [Multiset.countP_add, List.countP_append]
    exact Nat.add_le_add h.occupancy h'.occupancy

theorem of_strays (h : Strays O L) : Lost O calls L where
  sites c hc := .inl (h c hc)
  unbind := by
    rw [Multiset.countP_eq_zero.mpr fun c hc => by rw [(h c hc).1]; decide]
    exact Nat.zero_le _
  occupancy := by
    rw [Multiset.countP_eq_zero.mpr fun c hc => by rw [(h c hc).1]; decide]
    exact Nat.zero_le _

theorem countP_single (c : Block) (s : Site) :
    Multiset.countP (·.site = s) {c} = if c.site = s then 1 else 0 := by
  rw [← Multiset.cons_zero, Multiset.countP_cons, Multiset.countP_zero, zero_add]

/-- The path of a refused disable. -/
theorem of_refused {call : Call} (h : call.mayRefuse) {c : Block} (hc : c.site = .unbindPath) :
    Lost O [call] {c} where
  sites c' hc' := by
    rw [Multiset.mem_singleton.mp hc']
    exact .inr (.inl hc)
  unbind := by simp [countP_single, hc, h]
  occupancy := by simp [countP_single, hc]

/-- The directory that `accfg_wq_get_occupancy` opens. -/
theorem of_occupancy {call : Call} (h : call.isOccupancy) {c : Block}
    (hc : c.site = .occupancyDfd) : Lost O [call] {c} where
  sites c' hc' := by
    rw [Multiset.mem_singleton.mp hc']
    exact .inr (.inr hc)
  unbind := by simp [countP_single, hc]
  occupancy := by simp [countP_single, hc, h]

end Lost

/-! ### Calls on an object -/

/-- The blocks of a device that every call on it may look into. -/
structure Device.Among (d : Device) (P : Multiset Block) : Prop where
  block : d.block ∈ P
  path : d.path ∈ P
  buf : d.buf ∈ P

theorem accfgDeviceGetCmdStatus_owns {d : Device} (hd : d.Among P) :
    Triple O P (accfgDeviceGetCmdStatus d) (fun _ R => R = P) E := by
  refine Triple.touch_bind (fun h => absurd hd.path h) ?_
  refine Triple.touch_bind (fun h => absurd hd.buf h) ?_
  exact balanced_sysfsAttr.discard O P E

theorem Device.Among.add {d : Device} (hd : d.Among P) (F : Multiset Block) : d.Among (F + P) :=
  ⟨by simp [hd.block], by simp [hd.path], by simp [hd.buf]⟩

theorem saveLastError_owns {d : Device} (hd : d.Among P) (e : Option Block) :
    Triple O (own e + P) (saveLastError d e) (fun e' R => R = own e' + P) E := by
  have hfill : ∀ c : Block, Triple O ({c} + P)
      (do accfgDeviceGetCmdStatus d; touch c; return some c) (fun e' R => R = own e' + P) E := by
    intro c
    refine (accfgDeviceGetCmdStatus_owns (hd.add {c})).bind_eq fun _ => ?_
    refine Triple.touch_bind (fun h => absurd ?_ h) (.pure rfl)
    simp
  refine Triple.touch_bind (fun h => absurd (hd.add (own e)).block h) ?_
  cases e with
  | some c => exact hfill c
  | none =>
    rw [own_none, zero_add]
    refine Triple.malloc_bind (fun _ => .pure ?_) fun c _ => hfill c
    rw [own_none, zero_add]

theorem attrCall_owns {block path buf : Block} {d : Device} (hblock : block ∈ P) (hpath : path ∈ P)
    (hbuf : buf ∈ P) (hd : d.Among P) (e : Option Block) :
    Triple O (own e + P) (attrCall block path buf d e) (fun r R => R = own r.2 + P) E := by
  have hmem : ∀ {c}, c ∈ P → c ∈ own e + P := fun hc => Multiset.mem_add.mpr (.inr hc)
  refine Triple.touch_bind (fun h => absurd (hmem hblock) h) ?_
  refine Triple.touch_bind (fun h => absurd (hmem hpath) h) ?_
  refine Triple.touch_bind (fun h => absurd (hmem hbuf) h) ?_
  refine Balanced.ask.bind fun n => ?_
  split
  · exact .pure rfl
  refine balanced_sysfsAttr.bind fun done => ?_
  split
  · exact .pure rfl
  · refine (saveLastError_owns hd e).bind ?_
    rintro e' _ rfl
    exact .pure rfl

theorem paramCall_owns {block path : Block} (hblock : block ∈ P) (hpath : path ∈ P) :
    Triple O P (paramCall block path) (fun _ R => R = P) E := by
  refine Triple.touch_bind (fun h => absurd hblock h) ?_
  refine Triple.touch_bind (fun h => absurd hpath h) ?_
  refine openFile_bind (.pure rfl) fun dfd _ => accfgGetParamStr_bind fun s => ?_
  refine Triple.release_bind (own s + P) (add_left_comm _ _ _) ?_
  cases s with
  | none => exact .pure (zero_add P)
  | some s =>
    refine Triple.touch_bind (fun h => absurd ?_ h) Triple.release
    simp

theorem accfgDeviceGetErrors_owns (hE : E .nullPointer) {d : Device} (hd : d.Among P) :
    Triple O P (accfgDeviceGetErrors d) (fun _ R => R = P) E := by
  refine Triple.touch_bind (fun h => absurd hd.block h) ?_
  refine Triple.touch_bind (fun h => absurd hd.path h) ?_
  refine openFile_bind (.pure rfl) fun dfd _ => accfgGetParamStr_bind fun s => ?_
  refine Triple.release_bind (own s + P) (add_left_comm _ _ _) ?_
  cases s with
  | none => exact Triple.crash_bind hE
  | some c =>
    refine Triple.touch_bind (fun h => absurd ?_ h) Triple.release
    simp

theorem accfgWqGetMode_owns (hE : E .nullPointer) {q : Wq} (hblock : q.block ∈ P)
    (hpath : q.path ∈ P) : Triple O P (accfgWqGetMode q) (fun _ R => R = P) E := by
  refine Triple.touch_bind (fun h => absurd hblock h) ?_
  refine Triple.touch_bind (fun h => absurd hpath h) ?_
  refine openFile_bind (.pure rfl) fun dfd _ => accfgGetParamStr_bind fun s => ?_
  cases s with
  | none => exact Triple.crash_bind hE
  | some c =>
    refine Triple.touch_bind (fun h => absurd ?_ h) ?_
    · simp
    · exact Triple.free_bind ({dfd} + P) rfl Triple.release

/-- The directory stays open. -/
theorem accfgWqGetOccupancy_owns {q : Wq} (hblock : q.block ∈ P) (hpath : q.path ∈ P) :
    Triple O P (accfgWqGetOccupancy q)
      (fun _ R => R = P ∨ ∃ c : Block, c.site = .occupancyDfd ∧ R = {c} + P) E := by
  refine Triple.touch_bind (fun h => absurd hblock h) ?_
  refine Triple.touch_bind (fun h => absurd hpath h) ?_
  refine openFile_bind (.pure (.inl rfl)) fun c hc => ?_
  refine (balanced_accfgGetParamLong _ _ _ _).weaken ?_ fun _ => id
  rintro _ _ rfl
  exact .inr ⟨c, hc, rfl⟩

theorem accfgWqRetrieveCdevMinor_owns {q : Wq} (hpath : q.path ∈ P) :
    Triple O P (accfgWqRetrieveCdevMinor q) (fun _ R => R = P) E := by
  refine Triple.touch_bind (fun h => absurd hpath h) ?_
  refine openFile_bind (.pure rfl) fun dfd _ => ?_
  refine (balanced_accfgGetParamLong _).bind fun _ => ?_
  exact Triple.release_bind P rfl (.pure rfl)

theorem accfgWqSetOpConfigStr_owns {q : Wq} (hblock : q.block ∈ P) (hpath : q.path ∈ P) :
    Triple O P (accfgWqSetOpConfigStr q) (fun _ R => R = P) E := by
  refine Triple.touch_bind (fun h => absurd hblock h) ?_
  refine Triple.touch_bind (fun h => absurd hpath h) ?_
  refine openFile_bind (.pure rfl) fun dfd _ => ?_
  exact balanced_accfgSetParam.discard.bind fun _ => Triple.release

theorem accfgWqDriverNameValidate_owns {d : Device} {q : Wq} (hq : q.block ∈ P)
    (hd : d.block ∈ P) : Triple O P (accfgWqDriverNameValidate d q) (fun _ R => R = P) E := by
  refine Triple.touch_bind (fun h => absurd hq h) ?_
  refine Triple.touch_bind (fun h => absurd hd h) ?_
  refine Triple.malloc_bind (fun _ => .pure rfl) fun path _ => ?_
  refine Triple.touch_bind (fun h => absurd ?_ h) Triple.release
  simp

theorem accfgWqGetUserDevPath_owns {d : Device} {q : Wq} (hq : q.block ∈ P) (hd : d.block ∈ P) :
    Triple O P (accfgWqGetUserDevPath d q) (fun _ R => R = P) E := by
  refine Triple.touch_bind (fun h => absurd hq h) ?_
  refine Triple.touch_bind (fun h => absurd hd h) ?_
  exact scandir_bind (.pure rfl) fun ds => Triple.freeAll

/-- One string of a work queue, and the rest of what it owns. -/
theorem Wq.owned_setStr (q : Wq) (f : WqStr) :
    ∃ R, q.owned = own (q.str f) + R ∧ ∀ s, (q.setStr f s).owned = own s + R := by
  have hsplit : ∀ q : Wq, q.owned = own (q.str .mode) + (own (q.str .name) +
      (own (q.str .driverName) + (own q.state + ({q.path} + ({q.buf} + {q.block}))))) := by
    intro q
    simp only [Wq.owned, Wq.blocks, ownAll_cons, ownAll_nil, own_some]
    abel
  cases f with
  | mode =>
    refine ⟨_, hsplit q, fun s => ?_⟩
    rw [hsplit]
    rfl
  | name =>
    refine ⟨_, (hsplit q).trans (add_left_comm _ _ _), fun s => ?_⟩
    rw [hsplit, add_left_comm]
    rfl
  | driverName =>
    have hrot : ∀ a b c d : Multiset Block, a + (b + (c + d)) = c + (a + (b + d)) := by
      intro a b c d
      abel
    refine ⟨_, (hsplit q).trans (hrot _ _ _ _), fun s => ?_⟩
    rw [hsplit, hrot]
    rfl

/-- The old string is given back and the new one hangs on the work queue, unless
there is no memory for it. -/
theorem accfgWqSetStrField_owns {f : WqStr} {d : Device} {q : Wq} (hd : d.Among P)
    (e : Option Block) :
    Triple O (own e + (q.owned + P)) (accfgWqSetStrField f d e q)
      (fun r R => R = own r.1 + (r.2.owned + P)) E := by
  have hmem : ∀ {c}, c ∈ q.owned → c ∈ own e + (q.owned + P) := fun hc =>
    Multiset.mem_add.mpr (.inr (Multiset.mem_add.mpr (.inl hc)))
  refine Triple.touch_bind (fun h => absurd (hmem q.block_mem_owned) h) ?_
  refine Triple.touch_bind (fun h => absurd (hmem q.path_mem_owned) h) ?_
  refine Triple.touch_bind (fun h => absurd (hmem q.buf_mem_owned) h) ?_
  refine Balanced.ask.bind fun n => ?_
  split
  · exact .pure rfl
  refine balanced_sysfsAttr.bind fun written => ?_
  have hfail : Triple O (own e + (q.owned + P)) (do return (← saveLastError d e, q))
      (fun r R => R = own r.1 + (r.2.owned + P)) E := by
    refine (saveLastError_owns (hd.add q.owned) e).bind ?_
    rintro e' _ rfl
    exact .pure rfl
  obtain ⟨R, hq, hset⟩ := q.owned_setStr f
  split
  · refine Triple.free_bind (own e + (R + P)) ?_ ?_
    · rw [hq]
      abel
    refine Triple.malloc.bind ?_
    rintro s _ ⟨-, -, rfl⟩
    refine .pure ?_
    show own s + (own e + (R + P)) = own e + ((q.setStr f s).owned + P)
    rw [hset]
    abel
  · refine Balanced.ask.bind fun n => ?_
    split
    · exact .pure rfl
    · exact hfail

/-- The blocks of a work queue that every call on it may look into. -/
structure Wq.Among (q : Wq) (P : Multiset Block) : Prop where
  block : q.block ∈ P
  path : q.path ∈ P
  buf : q.buf ∈ P

theorem accfgWqSetStrType_owns {d : Device} {q : Wq} (hq : q.Among P) (hd : d.Among P)
    (e : Option Block) :
    Triple O (own e + P) (accfgWqSetStrType d e q) (fun e' R => R = own e' + P) E := by
  refine (attrCall_owns hq.block hq.path hq.buf hd e).bind ?_
  rintro ⟨_ | _, e'⟩ _ rfl
  · exact .pure rfl
  refine Triple.malloc_bind (fun _ => .pure rfl) fun tmp _ => ?_
  refine (wqParseType_owns nofun ?_).bind_eq fun _ => ?_
  · rintro _ ⟨⟩
    simp
  · exact Triple.release_bind (own e' + P) rfl (.pure rfl)

/-- What a disable may end with: the path is given back, or lost where the
disable is refused. -/
def Disabled (enable force : Bool) (P : Multiset Block) (e : Option Block)
    (R : Multiset Block) : Prop :=
  R = own e + P ∨
    (!enable && !force) ∧ ∃ c : Block, c.site = .unbindPath ∧ R = own e + ({c} + P)

theorem Disabled.of_owns {enable force : Bool} {m : Prog Site (Option Block)} {R : Multiset Block}
    (hm : Triple O R m (fun e' R => R = own e' + P) E) : Triple O R m (Disabled enable force P) E :=
  hm.weaken (fun _ _ => .inl) fun _ => id

/-- The clients are counted, and the disable is refused or done. -/
theorem disable_owns {force : Bool} {attr : Prog Site (Bool × Option Block)}
    {write : Block → Option Block → Prog Site (Option Block)} {path : Block} {e : Option Block}
    (hpath : path.site = .unbindPath)
    (hattr : Triple O (own e + P) attr (fun r R => R = own r.2 + P) E)
    (hwrite : ∀ e, Triple O ({path} + (own e + P)) (write path e) (fun e' R => R = own e' + P) E) :
    Triple O ({path} + (own e + P))
      (do
        match ← attr with
        | (read, e) =>
          let clients ← ask
          if read ∧ 0 < clients ∧ ¬ force then return e
          else write path e)
      (Disabled false force P) E := by
  refine Triple.call_bind {path} hattr (add_comm _ _) ?_
  rintro ⟨read, e'⟩ _ rfl
  refine Balanced.ask.bind fun clients => ?_
  split
  next h =>
    refine .pure (.inr ⟨?_, path, hpath, ?_⟩)
    · simpa using h.2.2
    · rw [add_assoc, add_comm P]
  next => exact (Disabled.of_owns (hwrite e')).perm (add_comm _ _)

theorem accfgDeviceControl_writePath_owns {d : Device} (hd : d.Among P) (path : Block)
    (e : Option Block) :
    Triple O ({path} + (own e + P)) (accfgDeviceControl.writePath d path e)
      (fun e' R => R = own e' + P) E := by
  refine Triple.touch_bind (fun h => absurd ?_ h) ?_
  · simp
  refine balanced_sysfsAttr.bind fun written => ?_
  refine Triple.release_bind (own e + P) rfl ?_
  split
  · exact .pure rfl
  · exact saveLastError_owns hd e

theorem accfgDeviceControl_owns {enable force : Bool} {d : Device} (hd : d.Among P)
    (e : Option Block) :
    Triple O (own e + P) (accfgDeviceControl enable force d e) (Disabled enable force P) E := by
  refine Triple.touch_bind (fun h => absurd (hd.add (own e)).block h) ?_
  refine Triple.touch_bind (fun h => absurd (hd.add (own e)).path h) ?_
  cases enable with
  | true =>
    refine Triple.malloc_bind (fun _ => .pure (.inl rfl)) fun path _ => ?_
    exact Disabled.of_owns (accfgDeviceControl_writePath_owns hd path e)
  | false =>
    refine realpath_bind (.pure (.inl rfl)) fun path hpath => ?_
    exact disable_owns hpath (attrCall_owns hd.block hd.path hd.buf hd e)
      fun e => accfgDeviceControl_writePath_owns hd path e

theorem accfgWqControl_writePath_owns {d : Device} {q : Wq} (hq : q.Among P) (hd : d.Among P)
    (path : Block) (e : Option Block) :
    Triple O ({path} + (own e + P)) (accfgWqControl.writePath d q path e)
      (fun e' R => R = own e' + P) E := by
  refine Triple.touch_bind (fun h => absurd ?_ h) ?_
  · simp
  refine balanced_sysfsAttr.bind fun written => ?_
  split
  · refine Triple.release_bind (own e + P) rfl ?_
    refine (attrCall_owns hq.block hq.path hq.buf hd e).bind ?_
    rintro ⟨_ | _, e'⟩ _ rfl
    · exact .pure rfl
    refine Balanced.ask.bind fun n => ?_
    split
    · exact .pure rfl
    · have hpath : q.path ∈ own e' + P := Multiset.mem_add.mpr (.inr hq.path)
      exact (accfgWqRetrieveCdevMinor_owns hpath).discard.bind_eq fun _ => .pure rfl
  · refine Triple.call_bind {path} (saveLastError_owns hd e) (add_comm _ _) ?_
    rintro e' _ rfl
    exact Triple.release_bind (own e' + P) (add_comm _ _) (.pure rfl)

theorem accfgWqControl_owns {enable force : Bool} {d : Device} {q : Wq} (hq : q.Among P)
    (hd : d.Among P) (hname : ∀ c, q.str .driverName = some c → c ∈ P) (e : Option Block) :
    Triple O (own e + P) (accfgWqControl enable force d e q) (Disabled enable force P) E := by
  have hmem : ∀ {c}, c ∈ P → c ∈ own e + P := fun hc => Multiset.mem_add.mpr (.inr hc)
  refine Triple.touch_bind (fun h => absurd (hmem hq.block) h) ?_
  refine Triple.touch_bind (fun h => absurd (hmem hq.path) h) ?_
  cases enable with
  | true =>
    have hlook : Triple O (own e + P) (lookInto (q.str .driverName))
        (fun _ R => R = own e + P) E := by
      cases hstr : q.str .driverName with
      | none => exact .pure rfl
      | some c => exact Triple.touch fun h => absurd (hmem (hname c hstr)) h
    refine hlook.bind_eq fun _ => ?_
    refine Triple.malloc_bind (fun _ => .pure (.inl rfl)) fun path _ => ?_
    refine Balanced.ask.bind fun found => ?_
    split
    · exact Triple.release_bind (own e + P) rfl (.pure (.inl rfl))
    · exact Disabled.of_owns (accfgWqControl_writePath_owns hq hd path e)
  | false =>
    refine realpath_bind (.pure (.inl rfl)) fun path hpath => ?_
    exact disable_owns hpath (attrCall_owns hq.block hq.path hq.buf hd e)
      fun e => accfgWqControl_writePath_owns hq hd path e

/-! ### Calls on a context -/

/-- A call has left the error, an object and what was lost. -/
def Kept {α : Type} (O : Outcomes) (call : Call) (ok : α → Prop) (w : α → Multiset Block)
    (r : Option Block × α) (R : Multiset Block) : Prop :=
  ok r.2 ∧ ∃ L, R = own r.1 + (w r.2 + L) ∧ Lost O [call] L

/-- After some calls there is a context with what hangs on it, or none, and what
was lost. -/
def Left (O : Outcomes) (calls : List Call) (r : Option Context) (R : Multiset Block) : Prop :=
  (∀ ctx, r = some ctx → ctx.Sound O) ∧ ∃ L, R = r.elim 0 Context.owned + L ∧ Lost O calls L

variable {call : Call} {ctx : Context} {d : Device} {i j : ℕ}

theorem Kept.none_lost {α : Type} {ok : α → Prop} {w : α → Multiset Block} {r : Option Block × α}
    (hok : ok r.2) : Kept O call ok w r (own r.1 + w r.2) :=
  ⟨hok, 0, by rw [add_zero], .zero⟩

theorem Left.none_lost {ctx : Context} (h : ctx.Sound O) :
    Left O [call] (some ctx) ctx.owned :=
  ⟨fun _ hctx => Option.some.inj hctx ▸ h, 0, (add_zero _).symm, .zero⟩

theorem atPlace_owns {α β : Type} {l : List α} {b : β} {f : α → Prog Site β}
    {Q : β → Multiset Block → Prop} (hb : Q b P)
    (hf : ∀ a, l[i]? = some a → Triple O P (f a) Q E) : Triple O P (atPlace l i b f) Q E := by
  unfold atPlace
  split
  next => exact .pure hb
  next a ha => exact hf a ha

/-- There is no context any more. -/
theorem Left.gone {calls : List Call} {L : Multiset Block} (hL : Lost O calls L) :
    Left O calls none L := by
  refine ⟨fun ctx hctx => (Option.some_ne_none ctx hctx.symm).elim, L, ?_, hL⟩
  rw [Option.elim_none, zero_add]

/-- A call on a device of a context. -/
theorem onDevice_owns {f : Device → Option Block → Prog Site (Option Block × Device)}
    (h : ∀ d ∈ ctx.devices, d.Sound O → ∀ e,
      Triple O (own e + d.owned) (f d e) (Kept O call (Device.Sound O) Device.owned) E)
    (hctx : ctx.Sound O) : Triple O ctx.owned (onDevice i f ctx) (Left O [call]) E := by
  refine atPlace_owns (Left.none_lost hctx) fun d hd => ?_
  have hmem : d ∈ ctx.devices := List.mem_of_getElem? hd
  obtain ⟨R, hsum, hset⟩ := sum_map_set Device.owned hd
  have howned : ctx.owned = own ctx.errorCtx + d.owned + (R + {ctx.block}) := by
    rw [Context.owned, hsum, Context.ownBlocks, ownAll_cons, ownAll_cons, ownAll_nil, own_some]
    abel
  refine Triple.call_bind (R + {ctx.block}) (h d hmem (hctx d hmem) ctx.errorCtx) howned ?_
  rintro ⟨e, d'⟩ _ ⟨hd', L, rfl, hL⟩
  refine .pure ⟨?_, L, ?_, hL⟩
  · rintro _ ⟨⟩ d'' hd''
    rcases List.mem_or_eq_of_mem_set hd'' with hd'' | rfl
    · exact hctx d'' hd''
    · exact hd'
  · show _ = Context.owned { ctx with errorCtx := e, devices := ctx.devices.set i d' } + L
    rw [Context.owned, hset, Context.ownBlocks, ownAll_cons, ownAll_cons, ownAll_nil, own_some]
    abel

/-- A call on what is at a place of a list of a device. -/
theorem onDevice_atPlace_owns {α : Type} {l : Device → List α}
    {f : Device → Option Block → α → Prog Site (Option Block × Device)}
    (h : ∀ d ∈ ctx.devices, d.Sound O → ∀ e, ∀ a, (l d)[j]? = some a →
      Triple O (own e + d.owned) (f d e a) (Kept O call (Device.Sound O) Device.owned) E)
    (hctx : ctx.Sound O) :
    Triple O ctx.owned (onDevice i (fun d e => atPlace (l d) j (e, d) (f d e)) ctx)
      (Left O [call]) E :=
  onDevice_owns (fun d hmem hd e => atPlace_owns (Kept.none_lost hd) (h d hmem hd e)) hctx

/-- A call on a work queue of a device of a context. -/
theorem onWq_owns {f : Device → Option Block → Wq → Prog Site (Option Block × Wq)}
    (h : ∀ d q e P, d.Among P →
      Triple O (own e + (q.owned + P)) (f d e q)
        (Kept O call (fun _ => True) fun q => q.owned + P) E)
    (hctx : ctx.Sound O) : Triple O ctx.owned (onWq i j f ctx) (Left O [call]) E := by
  refine onDevice_owns (fun d _ hd e => atPlace_owns (Kept.none_lost hd) fun q hq => ?_) hctx
  obtain ⟨R, hsum, hset⟩ := sum_map_set Wq.owned hq
  have howned : ∀ d' : Device, d'.owned = (d'.wqs.map Wq.owned).sum +
      ((d'.groups.map Group.owned).sum + ((d'.engines.map Engine.owned).sum +
        ownAll d'.ownBlocks)) := fun d' => add_left_comm _ _ _
  have hamong : d.Among (R + ((d.groups.map Group.owned).sum + ((d.engines.map Engine.owned).sum +
      ownAll d.ownBlocks))) := by
    constructor <;> simp [Device.ownBlocks]
  rw [howned d, hsum, add_assoc]
  refine (h d q e _ hamong).bind ?_
  rintro ⟨e', q'⟩ _ ⟨-, L, rfl, hL⟩
  refine .pure ⟨hd, L, ?_, hL⟩
  show _ = own e' + (Device.owned { d with wqs := d.wqs.set j q' } + L)
  rw [howned, hset]
  dsimp only [Device.ownBlocks]
  abel

/-- Any call that gives back all it gets, and leaves the object. -/
theorem keep_owns {α : Type} {ok : α → Prop} {w : α → Multiset Block} {a : α} {m : Prog Site Unit}
    (hok : ok a) (hw : w a = P) (e : Option Block)
    (hm : ∀ P', P ≤ P' → Triple O P' m (fun _ R => R = P') E) :
    Triple O (own e + P) (keep a e m) (Kept O call ok w) E := by
  subst hw
  exact (hm _ (Multiset.le_add_left _ _)).bind_eq fun _ => .pure (Kept.none_lost hok)

theorem saving_owns {α : Type} {ok : α → Prop} {w : α → Multiset Block} {a : α}
    {m : Prog Site (Option Block)} (hok : ok a) (hw : w a = P) {e : Option Block}
    (hm : Triple O (own e + P) m (fun e' R => R = own e' + P) E) :
    Triple O (own e + P) (saving a m) (Kept O call ok w) E := by
  subst hw
  refine hm.bind ?_
  rintro e' _ rfl
  exact .pure (Kept.none_lost hok)

theorem attrSaving_owns {α : Type} {ok : α → Prop} {w : α → Multiset Block} {a : α}
    {m : Prog Site (Bool × Option Block)} (hok : ok a) (hw : w a = P) {e : Option Block}
    (hm : Triple O (own e + P) m (fun r R => R = own r.2 + P) E) :
    Triple O (own e + P) (attrSaving a m) (Kept O call ok w) E := by
  subst hw
  refine hm.bind ?_
  rintro r _ rfl
  exact .pure (Kept.none_lost hok)

/-- A disable that is refused loses the path. -/
theorem disabling_owns {α : Type} {ok : α → Prop} {w : α → Multiset Block} {a : α}
    {m : Prog Site (Option Block)} {enable force : Bool} (hok : ok a) (hw : w a = P)
    {e : Option Block} (hcall : (!enable && !force) = true → call.mayRefuse)
    (hm : Triple O (own e + P) m (Disabled enable force P) E) :
    Triple O (own e + P) (saving a m) (Kept O call ok w) E := by
  subst hw
  refine hm.bind ?_
  rintro e' _ (rfl | ⟨hrefused, c, hc, rfl⟩)
  · exact .pure (Kept.none_lost hok)
  · exact .pure ⟨hok, {c}, by rw [add_comm (w a)], Lost.of_refused (hcall hrefused) hc⟩

theorem Device.among_owned (d : Device) : d.Among d.owned :=
  ⟨d.block_mem_owned, d.path_mem_owned, d.buf_mem_owned⟩

theorem Device.Among.of_le {P' : Multiset Block} (h : d.Among P) (hP : P ≤ P') : d.Among P' :=
  ⟨Multiset.mem_of_le hP h.block, Multiset.mem_of_le hP h.path, Multiset.mem_of_le hP h.buf⟩

theorem Wq.among_owned {q : Wq} (hP : q.owned ≤ P) : q.Among P :=
  ⟨Multiset.mem_of_le hP q.block_mem_owned, Multiset.mem_of_le hP q.path_mem_owned,
    Multiset.mem_of_le hP q.buf_mem_owned⟩

/-- A call on a device that gives back all it gets. -/
theorem onDevice_keep_owns {m : Device → Prog Site Unit}
    (hm : ∀ d P, d.Among P → Triple O P (m d) (fun _ R => R = P) E) (hctx : ctx.Sound O) :
    Triple O ctx.owned (onDevice i (fun d e => keep d e (m d)) ctx) (Left O [call]) E :=
  onDevice_owns (fun d _ hd e => keep_owns hd rfl e fun P hP =>
    hm d P (d.among_owned.of_le hP)) hctx

/-- A call on a work queue that gives back all it gets. -/
theorem onWq_keep_owns {m : Device → Wq → Prog Site Unit}
    (hm : ∀ d q P, d.Among P → q.Among P → Triple O P (m d q) (fun _ R => R = P) E)
    (hctx : ctx.Sound O) :
    Triple O ctx.owned (onWq i j (fun d e q => keep q e (m d q)) ctx) (Left O [call]) E := by
  refine onWq_owns (fun d q e P hd => keep_owns trivial (by rfl) e fun P' hP' => ?_) hctx
  refine hm d q P' ((hd.add q.owned).of_le hP') (Wq.among_owned ?_)
  exact le_trans (Multiset.le_add_right _ _) hP'

/-- The faults that a call may end with. -/
def Context.Faults (ctx : Context) (e : Fault) : Prop :=
  e = .nullPointer ∨ e = .useAfterFree ∧ ctx.Stale

theorem Wq.str_mem_owned {q : Wq} {f : WqStr} {c : Block} (h : q.str f = some c) : c ∈ q.owned := by
  obtain ⟨R, hq, -⟩ := q.owned_setStr f
  rw [hq, h]
  simp

theorem Group.mem_owned (g : Group) : g.block ∈ g.owned ∧ g.path ∈ g.owned ∧ g.buf ∈ g.owned := by
  simp [Group.owned, Group.blocks]

theorem Engine.mem_owned (e : Engine) : e.block ∈ e.owned ∧ e.path ∈ e.owned ∧ e.buf ∈ e.owned := by
  simp [Engine.owned, Engine.blocks]

/-- A getter or setter of an attribute of a group or an engine. -/
theorem attrSaving_owns_of_le {block path buf : Block} {A : Multiset Block} (hd : d.Sound O)
    (hA : block ∈ A ∧ path ∈ A ∧ buf ∈ A) (hle : A ≤ d.owned) (e : Option Block) :
    Triple O (own e + d.owned) (attrSaving d (attrCall block path buf d e))
      (Kept O call (Device.Sound O) Device.owned) E := by
  have hmem : ∀ {c}, c ∈ A → c ∈ d.owned := fun hc => Multiset.mem_of_le hle hc
  refine attrSaving_owns hd rfl ?_
  exact attrCall_owns (hmem hA.1) (hmem hA.2.1) (hmem hA.2.2) d.among_owned e

theorem Device.owned_le_of_group {g : Group} (hg : g ∈ d.groups) : g.owned ≤ d.owned := by
  refine le_trans ?_ (Multiset.le_add_right _ _)
  exact Multiset.le_iff_exists_add.mpr
    ((List.append_of_mem hg).elim fun l₁ ⟨l₂, h⟩ =>
      ⟨(l₁.map Group.owned).sum + (l₂.map Group.owned).sum, by simp [h, add_left_comm]⟩)

theorem Device.owned_le_of_engine {g : Engine} (hg : g ∈ d.engines) : g.owned ≤ d.owned := by
  refine le_trans (le_trans ?_ (Multiset.le_add_right _ (ownAll d.ownBlocks)))
    (le_trans (Multiset.le_add_left _ _) (Multiset.le_add_left _ _))
  exact Multiset.le_iff_exists_add.mpr
    ((List.append_of_mem hg).elim fun l₁ ⟨l₂, h⟩ =>
      ⟨(l₁.map Engine.owned).sum + (l₂.map Engine.owned).sum, by simp [h, add_left_comm]⟩)

/-- The list of a device is made. -/
theorem listing_owns {m : Prog Site Device} (e : Option Block)
    (hm : Triple O d.owned m (Device.Has O) E) :
    Triple O (own e + d.owned) (do return (e, ← m)) (Kept O call (Device.Sound O) Device.owned)
      E := by
  refine Triple.call_bind (own e) hm (add_comm _ _) ?_
  rintro d' _ ⟨hd', rfl⟩
  refine (Triple.pure (Kept.none_lost hd')).perm ?_
  exact add_comm _ _

/-- A call keeps what the library owns together, and loses at most what a call of
its kind may lose. -/
theorem Call.run_owns (call : Call) (h : ctx.Sound O) :
    Triple O ctx.owned (call.run ctx) (Left O [call]) ctx.Faults := by
  have hnull : ctx.Faults .nullPointer := .inl rfl
  have hstale : ∀ d ∈ ctx.devices, d.Stale → ctx.Faults .useAfterFree :=
    fun d hd hstale => .inr ⟨rfl, d, hd, hstale⟩
  cases call with
  | ref =>
    refine Triple.touch_bind (fun hc => absurd ?_ hc) (.pure ⟨?_, 0, (add_zero _).symm, .zero⟩)
    · simp [Context.owned, Context.ownBlocks]
    · rintro _ ⟨⟩
      exact h
  | unref =>
    refine Triple.touch_bind (fun hc => absurd ?_ hc) ?_
    · simp [Context.owned, Context.ownBlocks]
    split
    · refine .pure ⟨?_, 0, (add_zero _).symm, .zero⟩
      rintro _ ⟨⟩
      exact h
    · refine Triple.perm (add_zero _).symm ?_
      exact (freeContext_owns ctx).bind_eq fun _ => .pure (Left.gone .zero)
  | deviceGetFirst =>
    refine (devicesInit_owns ⟨h, 0, (add_zero _).symm, .zero⟩).bind ?_
    rintro ctx' _ ⟨hctx', L, rfl, hL⟩
    refine .pure ⟨?_, L, rfl, .of_strays hL⟩
    rintro _ ⟨⟩
    exact hctx'
  | groupGetFirst i =>
    exact onDevice_owns (fun d _ hd e => listing_owns e (groupsInit_owns ⟨hd, rfl⟩)) h
  | wqGetFirst i =>
    refine onDevice_owns (fun d hmem hd e => listing_owns e ?_) h
    exact membersInit_owns (fun _ => rfl) (fun _ => rfl) (hstale d hmem)
      (fun _ _ => addWq_owns hnull) ⟨hd, rfl⟩
  | engineGetFirst i =>
    refine onDevice_owns (fun d hmem hd e => listing_owns e ?_) h
    exact membersInit_owns (fun _ => rfl) (fun _ => rfl) (hstale d hmem)
      (fun _ _ => addEngine_owns) ⟨hd, rfl⟩
  | deviceAttr i =>
    have hmem : ∀ d : Device, d.block ∈ d.owned ∧ d.path ∈ d.owned ∧ d.buf ∈ d.owned :=
      fun d => ⟨d.block_mem_owned, d.path_mem_owned, d.buf_mem_owned⟩
    exact onDevice_owns (fun d _ hd e => attrSaving_owns_of_le hd (hmem d) le_rfl e) h
  | groupAttr i j =>
    rw [Call.run]
    refine onDevice_atPlace_owns (fun d _ hd e g hg => ?_) h
    have hle := d.owned_le_of_group (List.mem_of_getElem? hg)
    exact attrSaving_owns_of_le hd g.mem_owned hle e
  | wqAttr i j =>
    refine onWq_owns (fun d q e P hd => attrSaving_owns trivial (by rfl) ?_) h
    have hq : q.Among (q.owned + P) := Wq.among_owned (Multiset.le_add_right _ _)
    exact attrCall_owns hq.block hq.path hq.buf (hd.add _) e
  | engineAttr i j =>
    rw [Call.run]
    refine onDevice_atPlace_owns (fun d _ hd e g hg => ?_) h
    have hle := d.owned_le_of_engine (List.mem_of_getElem? hg)
    exact attrSaving_owns_of_le hd g.mem_owned hle e
  | deviceParam i =>
    exact onDevice_keep_owns (fun d P hd => paramCall_owns hd.block hd.path) h
  | deviceGetErrors i =>
    exact onDevice_keep_owns (fun d P hd => accfgDeviceGetErrors_owns hnull hd) h
  | deviceControl enable force i =>
    refine onDevice_owns (fun d _ hd e => disabling_owns hd rfl id ?_) h
    exact accfgDeviceControl_owns d.among_owned e
  | wqParam i j =>
    exact onWq_keep_owns (fun d q P _ hq => paramCall_owns hq.block hq.path) h
  | wqGetMode i j =>
    exact onWq_keep_owns (fun d q P _ hq => accfgWqGetMode_owns hnull hq.block hq.path) h
  | wqGetOccupancy i j =>
    refine onWq_owns (fun d q e P _ => ?_) h
    have hq : q.Among (own e + (q.owned + P)) :=
      Wq.among_owned (le_trans (Multiset.le_add_right _ _) (Multiset.le_add_left _ _))
    refine (accfgWqGetOccupancy_owns hq.block hq.path).bind ?_
    rintro _ _ (rfl | ⟨c, hc, rfl⟩)
    · exact .pure (Kept.none_lost trivial)
    · refine .pure ⟨trivial, {c}, ?_, Lost.of_occupancy rfl hc⟩
      dsimp only
      abel
  | wqSetOpConfig i j =>
    exact onWq_keep_owns (fun d q P _ hq => accfgWqSetOpConfigStr_owns hq.block hq.path) h
  | wqSetStr f i j =>
    refine onWq_owns (fun d q e P hd => ?_) h
    refine (accfgWqSetStrField_owns hd e).weaken ?_ fun _ => id
    rintro r _ rfl
    exact Kept.none_lost trivial
  | wqSetStrType i j =>
    refine onWq_owns (fun d q e P hd => saving_owns trivial (by rfl) ?_) h
    exact accfgWqSetStrType_owns (Wq.among_owned (Multiset.le_add_right _ _)) (hd.add _) e
  | wqControl enable force i j =>
    refine onWq_owns (fun d q e P hd => disabling_owns trivial (by rfl) id ?_) h
    refine accfgWqControl_owns (Wq.among_owned (Multiset.le_add_right _ _)) (hd.add _) ?_ e
    exact fun c hc => Multiset.mem_add.mpr (.inl (Wq.str_mem_owned hc))
  | wqDriverNameValidate i j =>
    exact onWq_keep_owns (fun d q P hd hq => accfgWqDriverNameValidate_owns hq.block hd.block) h
  | wqGetUserDevPath i j =>
    exact onWq_keep_owns (fun d q P hd hq => accfgWqGetUserDevPath_owns hq.block hd.block) h
  | engineGetDevice i j =>
    rw [Call.run]
    refine onDevice_atPlace_owns (fun d hmem hd e g hg => ?_) h
    have hle := d.owned_le_of_engine (List.mem_of_getElem? hg)
    refine keep_owns hd rfl e fun P hP => ?_
    refine Triple.touch_bind (fun hb => absurd ?_ hb) ?_
    · exact Multiset.mem_of_le (le_trans hle hP) g.block_mem_owned
    cases hgroup : g.group with
    | none => exact Triple.crash hnull
    | some c =>
      refine Triple.touch fun hc => hstale d hmem ⟨c, .inr ⟨g, ?_, hgroup⟩, ?_⟩
      · exact List.mem_of_getElem? hg
      · rintro ⟨g', hg', rfl⟩
        refine hc (Multiset.mem_of_le (le_trans (d.owned_le_of_group hg') hP) ?_)
        exact g'.block_mem_owned

/-! ### Runs -/

theorem process_append (calls more : List Call) (O : Outcomes) (h : Heap Site) :
    process (calls ++ more) O h = process calls O h >>= fun r => more.foldlM step r.1 O r.2 := by
  have hprocess : process (calls ++ more) = process calls >>= fun ctx => more.foldlM step ctx := by
    rw [process, process, bind_assoc]
    exact bind_congr fun ctx => List.foldlM_append
  rw [hprocess]
  rfl

theorem Left.mono {calls : List Call} {r : Option Context} {R L : Multiset Block}
    (h : Left O [call] r R) (hL : Lost O calls L) : Left O (calls ++ [call]) r (R + L) := by
  obtain ⟨hsound, L', rfl, hL'⟩ := h
  refine ⟨hsound, L + L', ?_, hL.append hL'⟩
  rw [add_assoc, add_comm L']

/-- The faults that a run may end with: a string was missing or an engine had no group,
or the lists of a device were asked for whose last group was given up for want of
memory. -/
def RunFaults (O : Outcomes) (calls : List Call) (e : Fault) : Prop :=
  e = .nullPointer ∨ e = .useAfterFree ∧ ¬ O.Plenty ∧ ∃ done call rest ctx h,
    calls = done ++ call :: rest ∧ process done O .empty = .ok (some ctx, h) ∧ ctx.Stale

theorem RunFaults.append {calls : List Call} {e : Fault} (h : RunFaults O calls e)
    (more : List Call) : RunFaults O (calls ++ more) e := by
  obtain rfl | ⟨rfl, hO, done, call, rest, ctx, h, rfl, hrun, hstale⟩ := h
  · exact .inl rfl
  · refine .inr ⟨rfl, hO, done, call, rest ++ more, ctx, h, ?_, hrun, hstale⟩
    rw [List.append_assoc, List.cons_append]

theorem Context.sound_new (c : Block) : Context.Sound O ⟨c, 1, none, false, []⟩ :=
  fun _ hd => absurd hd List.not_mem_nil

theorem Context.owned_new (c : Block) : Context.owned ⟨c, 1, none, false, []⟩ = {c} := by
  simp [Context.owned, Context.ownBlocks]

theorem accfgNew_owns (O : Outcomes) : Triple O 0 accfgNew (Left O []) fun _ => False := by
  refine Triple.malloc_bind (fun _ => .pure ?_) fun c _ => .pure ?_
  · exact Left.gone .zero
  · refine ⟨fun ctx hctx => ?_, 0, ?_, .zero⟩
    · obtain rfl := Option.some.inj hctx
      exact Context.sound_new c
    · rw [Option.elim_some, Context.owned_new]

/-- How a process ends. -/
abbrev Outcome := Except Fault (Option Context × Heap Site)

/-- What is owned and lost when a process has made some calls, or the fault. -/
def Accounted (O : Outcomes) (calls : List Call) : Outcome → Prop
  | .ok (r, h) => Left O calls r h.live
  | .error e => RunFaults O calls e

/-- Each call keeps account of what is owned and lost. -/
theorem process_accounted (O : Outcomes) (calls : List Call) :
    Accounted O calls (process calls O .empty) := by
  induction calls using List.reverseRecOn with
  | nil =>
    have hends := (accfgNew_owns O).ends (h := .empty) rfl
    have hprocess : process [] O .empty = accfgNew O .empty := by
      rw [process]
      show (accfgNew >>= fun ctx => pure ctx) O .empty = _
      rw [bind_pure]
    rw [hprocess]
    generalize accfgNew O .empty = r at hends ⊢
    obtain e | ⟨r, h⟩ := r
    · exact hends.elim
    · obtain ⟨R, hR, hleft⟩ := hends
      show Left O [] r h.live
      rwa [hR, add_zero]
  | append_singleton calls call ih =>
    rw [process_append]
    generalize hr : process calls O .empty = r at ih ⊢
    obtain e | ⟨_ | ctx, h⟩ := r
    · exact ih.append [call]
    · obtain ⟨-, L, hlive, hL⟩ := ih
      show Left O (calls ++ [call]) none h.live
      rw [hlive, Option.elim_none, zero_add]
      exact Left.gone (by simpa using hL.append (Lost.zero : Lost O [call] 0))
    · obtain ⟨hsound, L, hlive, hL⟩ := ih
      have hends := call.run_owns (hsound ctx rfl) L h hlive
      have hstep : [call].foldlM step (some ctx) O h = call.run ctx O h := by
        show ((call.run ctx >>= fun ctx => pure ctx) : Prog Site _) O h = _
        rw [bind_pure]
      show Accounted O (calls ++ [call]) ([call].foldlM step (some ctx) O h)
      rw [hstep]
      generalize call.run ctx O h = r at hends ⊢
      obtain e | ⟨r, h'⟩ := r
      · obtain rfl | ⟨rfl, hstale⟩ := hends
        · exact .inl rfl
        · refine .inr ⟨rfl, fun hO => ?_, calls, call, [], ctx, h, rfl, hr, hstale⟩
          obtain ⟨d, hd, hstale⟩ := hstale
          exact hsound ctx rfl d hd hO hstale
      · obtain ⟨R, hR, hleft⟩ := hends
        show Left O (calls ++ [call]) r h'.live
        rw [hR]
        exact hleft.mono hL

/-- **Whatever is called and whatever the system answers, nothing is freed twice,
and what has been allocated and not freed hangs on the context or was lost**: the
path of a device for which there was no more memory, the path of a refused
disable, at most one for each, and the directory that `accfg_wq_get_occupancy`
opens, at most one for each. -/
theorem process_owns (O : Outcomes) (calls : List Call) :
    match process calls O .empty with
    | .ok (r, h) => ∃ lost, h.live = r.elim 0 Context.owned + lost ∧
        (∀ c ∈ lost, (c.site = .devicePath ∧ ¬ O.Plenty) ∨ c.site = .unbindPath ∨
          c.site = .occupancyDfd) ∧
        lost.countP (·.site = .unbindPath) ≤ calls.countP Call.mayRefuse ∧
        lost.countP (·.site = .occupancyDfd) ≤ calls.countP Call.isOccupancy
    | .error e => e = .nullPointer ∨ e = .useAfterFree ∧ ¬ O.Plenty := by
  have howns := process_accounted O calls
  generalize process calls O .empty = r at howns ⊢
  obtain e | ⟨r, h⟩ := r
  · obtain hnull | ⟨huse, hno, -⟩ := howns
    · exact .inl hnull
    · exact .inr ⟨huse, hno⟩
  · obtain ⟨-, lost, hlive, hlost⟩ := howns
    exact ⟨lost, hlive, hlost.sites, hlost.unbind, hlost.occupancy⟩

/-- One device with one group; the first question about clients, if it is asked
next, finds some. -/
def oneGroup (memory : ℕ → Bool) : Outcomes where
  memory := memory
  answer k := if k = 0 ∨ k = 39 then 2
    else if k ∈ [1, 2, 3, 35, 40, 41, 42, 43, 60, 61, 62, 63, 64] then 1 else 0

/-- How a process faults. -/
def fault : Outcome → Option Fault
  | .ok _ => none
  | .error e => some e

/-- The group is given up for want of its path, and looked into for its work
queues. -/
example : fault (process [.deviceGetFirst, .wqGetFirst 0] (oneGroup (· ≠ 14)) .empty)
    = some .useAfterFree := by decide +kernel

/-- All that is allocated hangs on the context, unless a string was missing or an
engine had no group. -/
def Tidy : Outcome → Prop
  | .ok (r, h) => h.live = r.elim 0 Context.owned
  | .error e => e = .nullPointer

/-- With memory, and without the calls that lose something, all that is allocated
hangs on the context; after the last reference nothing is left. -/
theorem process_frees {calls : List Call} (hO : O.Plenty)
    (hcalls : ∀ call ∈ calls, ¬ call.mayRefuse ∧ ¬ call.isOccupancy) :
    Tidy (process calls O .empty) := by
  have howns := process_accounted O calls
  generalize process calls O .empty = r at howns ⊢
  obtain e | ⟨r, h⟩ := r
  · obtain rfl | ⟨-, hno, -⟩ := howns
    · rfl
    · exact absurd hO hno
  · obtain ⟨-, L, hlive, hL⟩ := howns
    have hzero : L = 0 := by
      refine Multiset.eq_zero_of_forall_notMem fun c hc => ?_
      have hunbind := hL.unbind
      have hoccupancy := hL.occupancy
      rw [List.countP_eq_zero.mpr fun call hcall => (hcalls call hcall).1, Nat.le_zero,
        Multiset.countP_eq_zero] at hunbind
      rw [List.countP_eq_zero.mpr fun call hcall => (hcalls call hcall).2, Nat.le_zero,
        Multiset.countP_eq_zero] at hoccupancy
      rcases hL.sites c hc with ⟨-, hno⟩ | hsite | hsite
      · exact hno hO
      · exact hunbind c hc hsite
      · exact hoccupancy c hc hsite
    show h.live = _
    rw [hlive, hzero, add_zero]

theorem process_frees_group :
    Tidy (process [.deviceGetFirst, .wqGetFirst 0, .unref] (oneGroup fun _ => true) .empty) :=
  process_frees (fun _ => rfl) (by decide)

/-- A run from a context that is there already. -/
theorem steps_own (calls : List Call) {r : Option Context}
    (hr : ∀ ctx, r = some ctx → ctx.Sound O) :
    Triple O (r.elim 0 Context.owned) (calls.foldlM step r) (Left O calls) fun _ => True := by
  induction calls generalizing r with
  | nil => exact .pure ⟨hr, 0, (add_zero _).symm, .zero⟩
  | cons call calls ih =>
    have hstep : Triple O (r.elim 0 Context.owned) (step r call) (Left O [call]) fun _ => True := by
      cases r with
      | none => exact .pure (Left.gone .zero)
      | some ctx => exact (call.run_owns (hr ctx rfl)).weaken (fun _ _ => id) fun _ _ => trivial
    rw [List.foldlM_cons]
    refine hstep.bind ?_
    rintro r' _ ⟨hr', L, rfl, hL⟩
    refine ((ih hr').frame L).weaken ?_ fun _ => id
    rintro r'' _ ⟨_, rfl, hsound, L', rfl, hL'⟩
    refine ⟨hsound, L + L', ?_, hL.append hL'⟩
    rw [add_assoc, add_comm L']

/-- A block is allocated and does not hang on the context. -/
def Stranded (c : Block) : Outcome → Prop
  | .ok (r, h) => c ∈ h.live ∧ c ∉ r.elim 0 Context.owned
  | .error _ => False

instance (c : Block) : DecidablePred (Stranded c)
  | .ok (r, h) => inferInstanceAs (Decidable (c ∈ h.live ∧ c ∉ r.elim 0 Context.owned))
  | .error _ => inferInstanceAs (Decidable False)

/-- **What is lost is lost for good**: a block that is allocated and does not hang
on the context stays so, whatever is called later. -/
theorem process_lost {calls more : List Call} {c : Block}
    (hlost : Stranded c (process calls O .empty))
    (hmore : fault (process (calls ++ more) O .empty) = none) :
    Stranded c (process (calls ++ more) O .empty) := by
  have hleft := process_accounted O calls
  rw [process_append] at hmore ⊢
  generalize process calls O .empty = res at hlost hleft hmore ⊢
  obtain e | ⟨r, h⟩ := res
  · exact hlost.elim
  obtain ⟨hlive, hown⟩ := hlost
  obtain ⟨hsound, L, hL, -⟩ := hleft
  have hcL : c ∈ L := by
    rw [hL] at hlive
    exact (Multiset.mem_add.mp hlive).resolve_left hown
  have hends := steps_own more hsound L h hL
  show Stranded c (more.foldlM step r O h)
  generalize hres : more.foldlM step r O h = res at hends ⊢
  obtain e | ⟨r', h'⟩ := res
  · exact absurd ((congrArg fault hres).symm.trans hmore) (Option.some_ne_none e)
  obtain ⟨_, hlive', -, L', rfl, -⟩ := hends
  have hcL' : c ∈ L' + L := Multiset.mem_add.mpr (.inr hcL)
  rw [add_assoc] at hlive'
  refine ⟨?_, fun howned => ?_⟩
  · rw [hlive']
    exact Multiset.mem_add.mpr (.inr hcL')
  · have hnodup := h'.nodup
    rw [hlive'] at hnodup
    exact Multiset.disjoint_left.mp (Multiset.nodup_add.mp hnodup).2.2 howned hcL'

/-- The path of a refused disable outlives the context. -/
theorem process_lost_refused : Stranded ⟨.unbindPath, 16⟩
    (process ([.deviceGetFirst, .deviceControl false false 0] ++ [.unref])
      (oneGroup fun _ => true) .empty) :=
  process_lost (by decide +kernel) (by decide +kernel)

end Accfg.Lifetimes
