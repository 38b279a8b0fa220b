/-
What the functions of the library own when they end.

* `Strays` — what a failed `add_device` leaves behind;
* `addDevice_owns`, `addGroup_owns`, `addWq_owns`, `addEngine_owns` — a new object
  and all that hangs on it, or nothing;
* `freeContext_owns` — everything that hangs on a context is given back once.
-/
import AccelConfig.Lifetimes

namespace Accfg.Lifetimes

open Ownership

variable {O : Outcomes} {P : Multiset Block} {E : Fault → Prop} {β : Type}
  {Q : β → Multiset Block → Prop}

/-! ### Files -/

theorem openFile_bind {s : Site} {k : Option Block → Prog Site β} (hnone : Triple O P (k none) Q E)
    (hsome : ∀ c, c.site = s → Triple O ({c} + P) (k (some c)) Q E) :
    Triple O P (openFile s >>= k) Q E := by
  rw [openFile, bind_assoc]
  refine Balanced.ask.bind fun n => ?_
  by_cases hn : n = 0
  · rw [if_pos hn, pure_bind]
    exact hnone
  · rw [if_neg hn, bind_assoc]
    refine Triple.acquire_bind fun c hc => ?_
    rw [pure_bind]
    exact hsome c hc

theorem transfer_owns (fd : Block) : Triple O ({fd} + P) (transfer fd) (fun _ R => R = P) E :=
  Balanced.ask.bind fun _ => Triple.release_bind P rfl (.pure rfl)

theorem balanced_sysfsAttr : Balanced sysfsAttr :=
  fun _ _ _ => openFile_bind (.pure rfl) fun fd _ => transfer_owns fd

theorem balanced_accfgSetParam : Balanced accfgSetParam := balanced_sysfsAttr

theorem balanced_accfgGetParamLong (name : String) : Balanced (accfgGetParamLong name) := by
  intro O P E
  refine openFile_bind ?_ fun fd _ => ?_
  · refine Balanced.ask.bind fun n => ?_
    split
    · exact openFile_bind (.pure rfl) fun _ _ => (transfer_owns _).discard
    · exact .pure rfl
  · exact (transfer_owns _).discard

theorem balanced_accfgGetParamUnsignedLlong : Balanced accfgGetParamUnsignedLlong :=
  fun _ _ _ => openFile_bind (.pure rfl) fun _ _ => (transfer_owns _).discard

theorem balanced_readLongs (names : List String) : Balanced (readLongs names) :=
  .foldlM (fun _ name => balanced_accfgGetParamLong name) names ()

theorem accfgGetParamStr_bind {s : Site} {k : Option Block → Prog Site β}
    (hk : ∀ r, Triple O (own r + P) (k r) Q E) : Triple O P (accfgGetParamStr s >>= k) Q E := by
  have hnone : Triple O P (k none) Q E := by
    refine Triple.perm ?_ (hk none)
    rw [own_none, zero_add]
  rw [accfgGetParamStr, bind_assoc]
  refine openFile_bind ?_ fun fd _ => ?_
  · exact hnone
  · show Triple O ({fd} + P)
      ((transfer fd >>= fun b => if b then malloc s else pure none) >>= k) Q E
    rw [bind_assoc]
    refine (transfer_owns fd).bind ?_
    rintro (_ | _) _ rfl
    · exact hnone
    · exact Triple.malloc_bind (fun _ => hnone) fun c _ => hk (some c)

theorem realpath_bind {s : Site} {k : Option Block → Prog Site β} (hnone : Triple O P (k none) Q E)
    (hsome : ∀ c, c.site = s → Triple O ({c} + P) (k (some c)) Q E) :
    Triple O P (realpath s >>= k) Q E := by
  rw [realpath, bind_assoc]
  refine Balanced.ask.bind fun n => ?_
  by_cases hn : n = 0
  · rw [if_pos hn, pure_bind]
    exact hnone
  · rw [if_neg hn]
    exact Triple.malloc_bind (fun _ => hnone) hsome

theorem balanced_scanBase : Balanced scanBase := by
  intro O P E
  refine Triple.malloc_bind (fun _ => .pure rfl) fun c _ => ?_
  exact Balanced.ask.bind fun n => Triple.release_bind P rfl (.pure rfl)

/-! ### Objects that are freed -/

@[simp] theorem Group.block_mem_owned (g : Group) : g.block ∈ g.owned := by
  simp [Group.owned, Group.blocks]

@[simp] theorem Wq.block_mem_owned (q : Wq) : q.block ∈ q.owned := by
  simp [Wq.owned, Wq.blocks]

@[simp] theorem Wq.path_mem_owned (q : Wq) : q.path ∈ q.owned := by
  simp [Wq.owned, Wq.blocks]

@[simp] theorem Wq.buf_mem_owned (q : Wq) : q.buf ∈ q.owned := by
  simp [Wq.owned, Wq.blocks]

@[simp] theorem Engine.block_mem_owned (e : Engine) : e.block ∈ e.owned := by
  simp [Engine.owned, Engine.blocks]

theorem freeGroup_owns {d : Device} {g : Group} (hd : d.block ∈ P) :
    Triple O (g.owned + P) (freeGroup d g) (fun _ R => R = P) E := by
  refine Triple.touch_bind (fun h => absurd ?_ h) (Triple.touch_bind (fun h => absurd ?_ h) ?_)
  · simp
  · simp [hd]
  · exact Triple.freeAll

theorem freeWq_owns {d : Device} {q : Wq} (hd : d.block ∈ P) :
    Triple O (q.owned + P) (freeWq d q) (fun _ R => R = P) E := by
  refine Triple.touch_bind (fun h => absurd ?_ h) (Triple.touch_bind (fun h => absurd ?_ h) ?_)
  · simp
  · simp [hd]
  · exact Triple.freeAll

theorem freeEngine_owns {d : Device} {e : Engine} (hd : d.block ∈ P) :
    Triple O (e.owned + P) (freeEngine d e) (fun _ R => R = P) E := by
  refine Triple.touch_bind (fun h => absurd ?_ h) (Triple.touch_bind (fun h => absurd ?_ h) ?_)
  · simp
  · simp [hd]
  · exact Triple.freeAll

/-- A device is given back with all that hangs on it. -/
theorem freeDevice_owns (d : Device) :
    Triple O (d.owned + P) (freeDevice d) (fun _ R => R = P) E := by
  have hd : ∀ {F : Multiset Block}, ownAll d.ownBlocks + P ≤ F → d.block ∈ F := by
    intro F hF
    refine Multiset.mem_of_le hF ?_
    simp [Device.ownBlocks]
  rw [Device.owned, add_assoc, add_assoc, add_assoc]
  refine (Triple.forEach fun g _ F hF => freeGroup_owns (hd ?_)).bind_eq fun _ => ?_
  · exact le_trans (le_trans (Multiset.le_add_left _ _) (Multiset.le_add_left _ _)) hF
  refine (Triple.forEach fun q _ F hF => freeWq_owns (hd ?_)).bind_eq fun _ => ?_
  · exact le_trans (Multiset.le_add_left _ _) hF
  refine (Triple.forEach fun e _ F hF => freeEngine_owns (hd hF)).bind_eq fun _ => ?_
  exact Triple.freeAll

/-- A context is given back with all that hangs on it. -/
theorem freeContext_owns (ctx : Context) :
    Triple O (ctx.owned + P) (freeContext ctx) (fun _ R => R = P) E := by
  rw [Context.owned, add_assoc]
  exact (Triple.forEach fun d _ F _ => freeDevice_owns d).bind_eq fun _ => Triple.freeAll

/-! ### Objects that are made -/

/-- A pointer to a group that is kept in the device or one of its engines. -/
def Device.PointsTo (d : Device) (c : Block) : Prop :=
  d.group = some c ∨ ∃ e ∈ d.engines, e.group = some c

def Device.HasGroup (d : Device) (c : Block) : Prop := ∃ g ∈ d.groups, g.block = c

/-- The device keeps a pointer to a group that it does not have. -/
def Device.Stale (d : Device) : Prop := ∃ c, d.PointsTo c ∧ ¬ d.HasGroup c

def Context.Stale (ctx : Context) : Prop := ∃ d ∈ ctx.devices, d.Stale

/-- While there is memory no pointer is stale. -/
def Device.Sound (O : Outcomes) (d : Device) : Prop := O.Plenty → ¬ d.Stale

def Context.Sound (O : Outcomes) (ctx : Context) : Prop := ∀ d ∈ ctx.devices, d.Sound O

/-- What `add_device` leaves behind when there is no memory. -/
def Strays (O : Outcomes) (L : Multiset Block) : Prop :=
  ∀ c ∈ L, c.site = .devicePath ∧ ¬ O.Plenty

theorem Strays.zero : Strays O 0 := fun _ hc => absurd hc (Multiset.notMem_zero _)

/-- The context owns what hangs on it, and some strays are left. -/
def Context.Has (O : Outcomes) (ctx : Context) (R : Multiset Block) : Prop :=
  ctx.Sound O ∧ ∃ L, R = ctx.owned + L ∧ Strays O L

/-- The device owns what hangs on it. -/
def Device.Has (O : Outcomes) (d : Device) (R : Multiset Block) : Prop := d.Sound O ∧ R = d.owned

theorem not_stale_new (device path buf : Block) (init : Bool) :
    ¬ (⟨device, path, buf, init, none, [], [], []⟩ : Device).Stale := by
  rintro ⟨c, hc | ⟨e, he, _⟩, _⟩
  · cases hc
  · cases he

theorem Context.Has.push {ctx : Context} {d : Device} (h : ctx.Has O P) (hd : d.Sound O) :
    Context.Has O { ctx with devices := ctx.devices ++ [d] } (d.owned + P) := by
  obtain ⟨hsound, L, rfl, hL⟩ := h
  refine ⟨fun d' hd' => ?_, L, ?_, hL⟩
  · rcases List.mem_append.mp hd' with hd' | hd'
    · exact hsound d' hd'
    · rwa [List.mem_singleton.mp hd']
  · simp only [Context.owned, Context.ownBlocks, List.map_append, List.sum_append, List.map_cons,
      List.map_nil, List.sum_cons, List.sum_nil]
    abel

/-- `add_device` makes a device with all that hangs on it, or nothing; short of
memory it may lose the path. -/
theorem addDevice_owns {name : String} (hname : name ∈ accfgBasenames.map DeviceType.str)
    {ctx : Context} (h : ctx.Has O P) : Triple O P (addDevice name ctx) (Context.Has O) E := by
  refine openFile_bind (.pure h) fun dfd _ => ?_
  refine balanced_accfgSetParam.discard.bind fun _ => ?_
  refine (balanced_accfgGetParamLong _).bind fun _ => ?_
  refine Triple.malloc_bind (fun _ => Triple.release_bind P rfl (.pure h)) fun device _ => ?_
  refine (balanced_readLongs _).bind fun _ => ?_
  refine balanced_accfgGetParamUnsignedLlong.bind fun _ => ?_
  refine balanced_accfgGetParamUnsignedLlong.bind fun _ => ?_
  refine balanced_accfgGetParamUnsignedLlong.bind fun _ => ?_
  refine (balanced_readLongs _).bind fun _ => ?_
  refine balanced_accfgGetParamUnsignedLlong.bind fun _ => ?_
  refine realpath_bind ?_ fun path hpath => ?_
  · refine Triple.release_bind ({device} + P) (add_left_comm _ _ _) ?_
    exact Triple.freeAll_bind P (by simp) (.pure h)
  refine Triple.release_bind ({path} + ({device} + P)) (by abel) ?_
  refine Triple.malloc_bind (fun hO => ?_) fun buf _ => ?_
  · refine Triple.freeAll_bind ({path} + P) ?_ (.pure ?_)
    · simp only [ownAll_cons, ownAll_nil, own_some, own_none]
      abel
    obtain ⟨hsound, L, rfl, hL⟩ := h
    refine ⟨hsound, {path} + L, add_left_comm _ _ _, fun c hc => ?_⟩
    rcases Multiset.mem_add.mp hc with hc | hc
    · rw [Multiset.mem_singleton.mp hc]
      exact ⟨hpath, hO⟩
    · exact hL c hc
  · show Triple O _ (if name ∈ _ then _ else _) _ E
    rw [if_pos hname]
    refine .pure ?_
    have hpush := h.push fun _ => not_stale_new device path buf false
    convert hpush using 1
    simp only [Device.owned, Device.ownBlocks, List.map_nil, List.sum_nil, ownAll_cons, ownAll_nil,
      own_some]
    abel

@[simp] theorem Device.block_mem_owned (d : Device) : d.block ∈ d.owned := by
  simp [Device.owned, Device.ownBlocks]

@[simp] theorem Device.path_mem_owned (d : Device) : d.path ∈ d.owned := by
  simp [Device.owned, Device.ownBlocks]

@[simp] theorem Device.buf_mem_owned (d : Device) : d.buf ∈ d.owned := by
  simp [Device.owned, Device.ownBlocks]

/-- A new group, at which the device points. -/
theorem Device.Has.pushGroup {d : Device} (h : d.Has O P) (g : Group) :
    Device.Has O { d with group := some g.block, groups := d.groups ++ [g] } (g.owned + P) := by
  obtain ⟨hsound, rfl⟩ := h
  refine ⟨fun hO => ?_, ?_⟩
  · have hkeep : ∀ c, d.PointsTo c → d.HasGroup c := fun c hc =>
      not_not.mp fun hnot => hsound hO ⟨c, hc, hnot⟩
    rintro ⟨c, hc, hnot⟩
    refine hnot ?_
    rcases hc with hc | hc
    · exact ⟨g, List.mem_append_right _ List.mem_cons_self, Option.some.inj hc⟩
    · obtain ⟨g', hg', hblock⟩ := hkeep c (.inr hc)
      exact ⟨g', List.mem_append_left _ hg', hblock⟩
  · simp only [Device.owned, Device.ownBlocks, List.map_append, List.sum_append, List.map_cons,
      List.map_nil, List.sum_cons, List.sum_nil]
    abel

/-- `add_group` makes a group with all that hangs on it, or nothing; short of
memory the device may be left pointing at a group that it has not. -/
theorem addGroup_owns {d : Device} (h : d.Has O P) : Triple O P (addGroup d) (Device.Has O) E := by
  have hstale : ∀ c, ¬ O.Plenty → Device.Has O { d with group := some c } P :=
    fun c hO => ⟨fun hplenty => absurd hplenty hO, h.2⟩
  refine Triple.touch_bind (fun hd => absurd ?_ hd) ?_
  · rw [h.2]
    exact d.block_mem_owned
  refine openFile_bind (.pure h) fun dfd _ => ?_
  refine Triple.malloc_bind (fun _ => Triple.release_bind P rfl (.pure h)) fun group _ => ?_
  refine balanced_scanBase.bind fun scanned => ?_
  cases scanned with
  | false =>
    refine Triple.release_bind ({group} + P) (add_left_comm _ _ _) ?_
    exact Triple.release_bind P rfl (.pure h)
  | true =>
    refine accfgGetParamStr_bind fun engines => accfgGetParamStr_bind fun wqs => ?_
    refine (balanced_readLongs _).bind fun _ => ?_
    refine Triple.release_bind (own wqs + (own engines + ({group} + P))) (by abel) ?_
    refine Triple.malloc_bind (fun hO => ?_) fun buf _ => ?_
    · refine Triple.freeAll_bind P ?_ (.pure (hstale group hO))
      simp only [ownAll_cons, ownAll_nil, own_some]
      abel
    refine Triple.malloc_bind (fun hO => ?_) fun path _ => ?_
    · refine Triple.freeAll_bind P ?_ (.pure (hstale group hO))
      simp only [ownAll_cons, ownAll_nil, own_some]
      abel
    · refine .pure ?_
      convert h.pushGroup ⟨group, buf, path, engines, wqs, false, false⟩ using 1
      simp only [Group.owned, Group.blocks, ownAll_cons, ownAll_nil, own_some]
      abel

/-- A new work queue. -/
theorem Device.Has.pushWq {d : Device} (h : d.Has O P) (q : Wq) :
    Device.Has O { d with wqs := d.wqs ++ [q] } (q.owned + P) := by
  obtain ⟨hsound, rfl⟩ := h
  refine ⟨hsound, ?_⟩
  simp only [Device.owned, Device.ownBlocks, List.map_append, List.sum_append, List.map_cons,
    List.map_nil, List.sum_cons, List.sum_nil]
  abel

theorem wqParseType_owns {wqType : Option Block} (hE : wqType = none → E .nullPointer)
    (hmem : ∀ c, wqType = some c → c ∈ P) :
    Triple O P (wqParseType wqType) (fun _ R => R = P) E := by
  cases wqType with
  | none => exact Triple.crash_bind (hE rfl)
  | some c =>
    refine Triple.touch_bind (fun hc => absurd (hmem c rfl) hc) ?_
    exact Triple.malloc_bind (fun _ => .pure rfl) fun type _ => Triple.release

/-- `add_wq` makes a work queue with all that hangs on it, or nothing, unless its
type cannot be read. -/
theorem addWq_owns (hE : E .nullPointer) {d : Device} (h : d.Has O P) :
    Triple O P (addWq d) (Device.Has O) E := by
  refine Triple.touch_bind (fun hd => absurd ?_ hd) ?_
  · rw [h.2]
    exact d.block_mem_owned
  refine openFile_bind (.pure h) fun dfd _ => ?_
  refine Triple.malloc_bind (fun _ => Triple.release_bind P rfl (.pure h)) fun wq _ => ?_
  refine balanced_scanBase.bind fun scanned => ?_
  cases scanned with
  | false =>
    refine Triple.release_bind ({wq} + P) (add_left_comm _ _ _) ?_
    exact Triple.release_bind P rfl (.pure h)
  | true =>
    refine (balanced_readLongs _).bind fun _ => ?_
    refine accfgGetParamStr_bind fun mode => accfgGetParamStr_bind fun state => ?_
    refine (balanced_accfgGetParamLong _).bind fun _ => ?_
    refine accfgGetParamStr_bind fun wqType => ?_
    refine accfgGetParamStr_bind fun name => accfgGetParamStr_bind fun driverName => ?_
    refine (balanced_readLongs _).bind fun _ => ?_
    refine (wqParseType_owns (fun _ => hE) ?_).bind_eq fun _ => ?_
    · rintro c rfl
      simp
    refine Triple.free_bind
      (own driverName + (own name + (own state + (own mode + ({wq} + ({dfd} + P)))))) (by abel) ?_
    refine Triple.release_bind (own driverName + (own name + (own state + (own mode + ({wq} + P)))))
      (by abel) ?_
    refine Triple.malloc_bind (fun _ => ?_) fun path _ => ?_
    · refine Triple.freeAll_bind P ?_ (.pure h)
      simp only [ownAll_cons, ownAll_nil, own_some]
      abel
    refine Triple.malloc_bind (fun _ => ?_) fun buf _ => ?_
    · refine Triple.freeAll_bind P ?_ (.pure h)
      simp only [ownAll_cons, ownAll_nil, own_some]
      abel
    · refine .pure ?_
      convert h.pushWq ⟨wq, path, buf, state, _⟩ using 1
      simp only [Wq.owned, Wq.blocks, ownAll_cons, ownAll_nil, own_some]
      abel

/-- A new engine points where the device points. -/
theorem Device.Has.pushEngine {d : Device} (h : d.Has O P) (e : Engine) (he : e.group = d.group) :
    Device.Has O { d with engines := d.engines ++ [e] } (e.owned + P) := by
  obtain ⟨hsound, rfl⟩ := h
  refine ⟨fun hO => ?_, ?_⟩
  · rintro ⟨c, hc, hnot⟩
    refine hsound hO ⟨c, ?_, hnot⟩
    rcases hc with hc | ⟨e', he', hc⟩
    · exact .inl hc
    · rcases List.mem_append.mp he' with he' | he'
      · exact .inr ⟨e', he', hc⟩
      · rw [List.mem_singleton.mp he', he] at hc
        exact .inl hc
  · simp only [Device.owned, Device.ownBlocks, List.map_append, List.sum_append, List.map_cons,
      List.map_nil, List.sum_cons, List.sum_nil]
    abel

/-- `add_engine` makes an engine with all that hangs on it, or nothing. -/
theorem addEngine_owns {d : Device} (h : d.Has O P) :
    Triple O P (addEngine d) (Device.Has O) E := by
  refine Triple.touch_bind (fun hd => absurd ?_ hd) ?_
  · rw [h.2]
    exact d.block_mem_owned
  refine openFile_bind (.pure h) fun dfd _ => ?_
  refine Triple.malloc_bind (fun _ => Triple.release_bind P rfl (.pure h)) fun engine _ => ?_
  refine balanced_scanBase.bind fun scanned => ?_
  cases scanned with
  | false =>
    refine Triple.release_bind ({engine} + P) (add_left_comm _ _ _) ?_
    exact Triple.release_bind P rfl (.pure h)
  | true =>
    refine (balanced_accfgGetParamLong _).bind fun _ => ?_
    refine Triple.release_bind ({engine} + P) (add_left_comm _ _ _) ?_
    refine Triple.malloc_bind (fun _ => Triple.release_bind P rfl (.pure h)) fun path _ => ?_
    refine Triple.malloc_bind (fun _ => ?_) fun buf _ => ?_
    · refine Triple.freeAll_bind P ?_ (.pure h)
      simp only [ownAll_cons, ownAll_nil, own_some]
      abel
    · refine .pure ?_
      convert h.pushEngine ⟨engine, path, buf, d.group⟩ rfl using 1
      simp only [Engine.owned, Engine.blocks, ownAll_cons, ownAll_nil, own_some]
      abel

/-! ### Lists that are made -/

theorem scandir_bind {k : Option (List (Option Block)) → Prog Site β}
    (hnone : Triple O P (k none) Q E) (hsome : ∀ ds, Triple O (ownAll ds + P) (k (some ds)) Q E) :
    Triple O P (scandir >>= k) Q E := by
  rw [scandir, bind_assoc]
  refine Balanced.ask.bind fun n => ?_
  by_cases hn : n = 0
  · rw [if_pos hn, pure_bind]
    exact hnone
  rw [if_neg hn, bind_assoc]
  refine Triple.acquire_bind fun d _ => ?_
  rw [bind_assoc]
  have hentries : Triple O ({d} + P)
      ((List.range (n - 1)).foldlM (fun ds _ => do return some (← acquire .dirent) :: ds) [])
      (fun ds R => R = ownAll ds + ({d} + P)) E := by
    refine Triple.foldlM ?_ (zero_add _).symm
    rintro _ _ ds _ rfl
    refine Triple.acquire_bind fun c _ => .pure ?_
    rw [ownAll_cons, own_some, add_assoc]
  refine hentries.bind ?_
  rintro ds _ rfl
  rw [pure_bind]
  refine (hsome (ds ++ [some d])).perm ?_
  rw [ownAll_append, ownAll_cons, ownAll_nil, own_some]
  abel

section Parse

variable {τ : Type} {I : τ → Multiset Block → Prop} {addDev : τ → Prog Site τ}

theorem parseEntries_owns (hadd : ∀ t R, I t R → Triple O R (addDev t) I E) (n : ℕ) {t : τ}
    (ht : I t P) : Triple O P (parseEntries addDev n t) I E := by
  induction n generalizing t P with
  | zero => exact .pure ht
  | succ n ih =>
    refine Balanced.ask.bind fun a => ?_
    split
    · exact .pure ht
    refine Balanced.ask.bind fun b => ?_
    split
    · exact ih ht
    refine Triple.malloc_bind (fun _ => ih ht) fun path _ => ?_
    refine Triple.call_bind {path} (hadd t P ht) (add_comm _ _) fun t' R hR => ?_
    exact Triple.release_bind R (add_comm _ _) (ih hR)

/-- What adding one object keeps, `__sysfs_device_parse` keeps, and gives back
what `scandir` gave. -/
theorem sysfsDeviceParse_owns (hadd : ∀ t R, I t R → Triple O R (addDev t) I E) {t : τ}
    (ht : I t P) : Triple O P (sysfsDeviceParse addDev t) I E := by
  refine scandir_bind (.pure ht) fun ds => ?_
  refine Triple.call_bind (ownAll ds) (parseEntries_owns hadd _ ht) (add_comm _ _) ?_
  intro t' R hR
  exact Triple.freeAll_bind R (add_comm _ _) (.pure hR)

end Parse

theorem groupsInit_owns {d : Device} (h : d.Has O P) :
    Triple O P (groupsInit d) (Device.Has O) E := by
  refine Triple.touch_bind (fun hd => absurd ?_ hd) ?_
  · rw [h.2]
    exact d.block_mem_owned
  split
  · exact .pure h
  · exact sysfsDeviceParse_owns (fun _ _ => addGroup_owns) h

theorem devicesInit_owns {ctx : Context} (h : ctx.Has O P) :
    Triple O P (devicesInit ctx) (Context.Has O) E := by
  refine Triple.touch_bind (fun hc => absurd ?_ hc) ?_
  · obtain ⟨-, L, rfl, -⟩ := h
    simp [Context.owned, Context.ownBlocks]
  split
  · exact .pure h
  have hkinds : ∀ name ∈ accfgBusTypes.flatMap fun _ => accfgBasenames.map DeviceType.str,
      name ∈ accfgBasenames.map DeviceType.str := by
    intro name hname
    obtain ⟨_, _, hname⟩ := List.mem_flatMap.mp hname
    exact hname
  have hdevices : Context.Has O { ctx with devicesInit := true } P := h
  refine (Triple.foldlM (I := Context.Has O) (fun name hname ctx R hctx => ?_) hdevices).bind ?_
  · exact sysfsDeviceParse_owns (fun _ _ => addDevice_owns (hkinds name hname)) hctx
  rintro ctx _ ⟨hsound, L, rfl, hL⟩
  have hgroups : Triple O (ctx.devices.map Device.owned).sum (ctx.devices.mapM groupsInit)
      (fun ds R => (∀ d ∈ ds, d.Sound O) ∧ R = (ds.map Device.owned).sum) E :=
    Triple.mapM fun d hd => groupsInit_owns ⟨hsound d hd, rfl⟩
  refine Triple.call_bind (ownAll ctx.ownBlocks + L) hgroups (add_assoc _ _ _) ?_
  rintro ds _ ⟨hds, rfl⟩
  exact .pure ⟨hds, L, (add_assoc _ _ _).symm, hL⟩

/-- A change to a group that leaves its blocks. -/
theorem Device.Has.onGroup {d : Device} (h : d.Has O P) (c : Block) {f : Group → Group}
    (hf : ∀ g, (f g).blocks = g.blocks) (hblock : ∀ g, (f g).block = g.block) :
    (d.onGroup c f).Has O P := by
  obtain ⟨hsound, rfl⟩ := h
  refine ⟨fun hO => ?_, ?_⟩
  · rintro ⟨b, hb, hnot⟩
    refine hsound hO ⟨b, hb, fun ⟨g, hg, hgb⟩ => hnot ?_⟩
    refine ⟨_, List.mem_map_of_mem hg, ?_⟩
    split
    · rw [hblock, hgb]
    · exact hgb
  · have hgroups : ∀ g, (if g.block = c then f g else g).owned = g.owned := by
      intro g
      split
      · rw [Group.owned, Group.owned, hf]
      · rfl
    simp only [Device.owned, Device.onGroup, Device.ownBlocks, List.map_map, Function.comp_def,
      hgroups]

/-- The lists of members may be asked for while the pointer to the group is
stale, which is a use after the group was freed. -/
theorem membersInit_owns {done : Group → Bool} {mark : Group → Group}
    {addDev : Device → Prog Site Device} {d : Device} (hmark : ∀ g, (mark g).blocks = g.blocks)
    (hblock : ∀ g, (mark g).block = g.block) (hE : d.Stale → E .useAfterFree)
    (hadd : ∀ d R, d.Has O R → Triple O R (addDev d) (Device.Has O) E) (h : d.Has O P) :
    Triple O P (membersInit done mark addDev d) (Device.Has O) E := by
  refine Triple.touch_bind (fun hd => absurd ?_ hd) ?_
  · rw [h.2]
    exact d.block_mem_owned
  split
  next => exact sysfsDeviceParse_owns hadd h
  next c hc =>
    refine Triple.touch_bind (fun hmem => hE ⟨c, .inl hc, ?_⟩) ?_
    · rintro ⟨g, hg, rfl⟩
      refine hmem ?_
      rw [h.2]
      refine Multiset.mem_add.mpr (.inl ?_)
      obtain ⟨l₁, l₂, hl⟩ := List.append_of_mem hg
      simp [hl]
    split
    · exact .pure h
    · exact sysfsDeviceParse_owns hadd (h.onGroup c hmark hblock)

end Accfg.Lifetimes
