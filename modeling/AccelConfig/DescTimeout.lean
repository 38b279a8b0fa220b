/-
The verdict of a wait.

`acctest_wait_on_desc_timeout` sleeps between looks at the status byte, or lets the
processor wait for it until a deadline.  The first loop tells a timeout from its
counter, and so misses a status that is set during the last sleep; the second looks
once more, but both return the same for a timeout of nothing.

* `ends_pollTurn` — how often the first loop sleeps;
* `Waits`, `Seen` — what the second loop keeps, and how it ends;
* `verdict_truthful_iff` — when the verdict is that of the last look.
-/
import AccelConfig.CLoop
import AccelConfig.Turns
import Mathlib.Data.BitVec

open CLoop Turns

namespace Accfg

namespace DescTimeout

def EAGAIN : ℤ := 11

/-! ### The device and the processor -/

/-- The look at the status byte from which on it is set, if it ever is, and what it is
set to. -/
structure Schedule where
  moment : Option ℕ
  value : BitVec 8
  value_ne : value ≠ 0#8

/-- The status byte at a look. -/
def Schedule.status (s : Schedule) (look : ℕ) : BitVec 8 :=
  match s.moment with
  | some m => if m ≤ look then s.value else 0#8
  | none => 0#8

/-- What `rdtsc` gives before the loop and in each turn, and `umwait` at its end. -/
structure Cpu where
  start : BitVec 64
  rdtsc : ℕ → BitVec 64
  umwait : ℕ → BitVec 8

/-! ### The function -/

/-- What is returned, and the last look that there was an opportunity for. -/
structure Verdict where
  rc : ℤ
  look : ℕ

variable (s : Schedule) (cpu : Cpu) (msecTimeout : BitVec 32)

/-- One turn of the loop with `usleep`; its test is a look, and `j` the number of it. -/
def pollTurn (j : BitVec 32) : Turn (BitVec 32) (BitVec 32) :=
  if j < msecTimeout ∧ s.status j.toNat = 0#8 then .next (j + 1#32) else .done j

/-- `timeout`, after the first `rdtsc`. -/
def deadline : BitVec 64 := msecTimeout.setWidth 64 * 1000000#64 * 3#64 + cpu.start

/-- The variables of the loop with `umwait`, and how often it went round. -/
structure Umwaiting where
  turns : ℕ
  r : BitVec 8
  t : BitVec 64

/-- `if (!r) t = rdtsc()`. -/
def timeStamp (w : Umwaiting) : BitVec 64 := if w.r = 0#8 then cpu.rdtsc w.turns else w.t

/-- One turn of it, in which there are two looks; it ends with `t`, and the last look. -/
def umwaitTurn (w : Umwaiting) : Turn (BitVec 64 × ℕ) Umwaiting :=
  let t := timeStamp cpu w
  if s.status (2 * w.turns) ≠ 0#8 then .done (w.t, 2 * w.turns)
  else if w.r = 0#8 ∧ deadline cpu msecTimeout ≤ t then .done (t, 2 * w.turns)
  else if s.status (2 * w.turns + 1) ≠ 0#8 then .done (t, 2 * w.turns + 1)
  else .next ⟨w.turns + 1, cpu.umwait w.turns, t⟩

/-- `(j == msec_timeout) ? -EAGAIN : 0`. -/
def verdict (j : BitVec 32) (look : ℕ) : Verdict :=
  ⟨if j = msecTimeout then -EAGAIN else 0, look⟩

/-- `acctest_wait_on_desc_timeout`, for so many turns of its loop at most. -/
def acctestWaitOnDescTimeout (fuel : ℕ) (umwaitSupport : Bool) : Option Verdict :=
  if ¬umwaitSupport then
    (run (pollTurn s msecTimeout) fuel 0#32).map fun j => verdict msecTimeout j j.toNat
  else
    (run (umwaitTurn s cpu msecTimeout) fuel ⟨0, 1#8, 0#64⟩).map fun r =>
      verdict msecTimeout (if deadline cpu msecTimeout ≤ r.1 then msecTimeout else 0#32) r.2

/-! ### What it is for -/

/-- The function returns, and with 0 exactly if the status was set at the last look. -/
def Truthful (umwaitSupport : Bool) : Prop :=
  ∃ fuel v, acctestWaitOnDescTimeout s cpu msecTimeout fuel umwaitSupport = some v ∧
    (v.rc = 0 ↔ s.status v.look ≠ 0#8)

/-- The wait in a turn ends at the deadline, and the counter says so in the next turn. -/
def Expired (k : ℕ) : Prop := cpu.umwait k = 0#8 ∧ deadline cpu msecTimeout ≤ cpu.rdtsc (k + 1)

/-- The status is set before the deadline is seen to have passed. -/
def InTime : Prop := ∃ m, s.moment = some m ∧ ∀ k, Expired cpu msecTimeout k → m ≤ 2 * (k + 1)

variable {s cpu msecTimeout}

theorem status_ne_zero_iff {look : ℕ} :
    s.status look ≠ 0#8 ↔ ∃ m, s.moment = some m ∧ m ≤ look := by
  rw [Schedule.status]
  rcases s.moment with _ | m
  · simp
  · by_cases hle : m ≤ look
    · simp [hle, s.value_ne]
    · simp [hle]

theorem status_eq_zero_iff {look : ℕ} :
    s.status look = 0#8 ↔ ∀ m, s.moment = some m → look < m := by
  rw [← not_iff_not, ← Ne, status_ne_zero_iff]
  push Not
  rfl

theorem rc_verdict_eq_zero_iff {j : BitVec 32} {look : ℕ} :
    (verdict msecTimeout j look).rc = 0 ↔ j ≠ msecTimeout := by
  rw [verdict]
  by_cases hj : j = msecTimeout
  · simp [hj, EAGAIN]
  · simp [hj]

/-! ### Sleeping -/

section Polling

/-- The loop sleeps until it sees the status set, or as often as it may. -/
theorem ends_pollTurn {n : ℕ} (hn : n ≤ msecTimeout.toNat) (hbefore : ∀ i < n, s.status i = 0#8)
    (hend : n = msecTimeout.toNat ∨ s.status n ≠ 0#8) :
    Ends (pollTurn s msecTimeout) 0#32 (BitVec.ofNat 32 n) := by
  have hlt := msecTimeout.isLt
  have hidx : ∀ i ≤ n, (BitVec.ofNat 32 i).toNat = i := fun i hi => by
    rw [toNat_ofNat_of_lt (by omega)]
  have hpath : ∀ i < n, pollTurn s msecTimeout (BitVec.ofNat 32 i) =
      .next (BitVec.ofNat 32 (i + 1)) := by
    intro i hi
    have htest : BitVec.ofNat 32 i < msecTimeout ∧ s.status (BitVec.ofNat 32 i).toNat = 0#8 := by
      rw [BitVec.lt_def, hidx i hi.le]
      exact ⟨by omega, hbefore i hi⟩
    rw [pollTurn, if_pos htest, BitVec.ofNat_add]
  refine ends_of_path hpath ?_
  have hstop : ¬(BitVec.ofNat 32 n < msecTimeout ∧ s.status (BitVec.ofNat 32 n).toNat = 0#8) := by
    rw [BitVec.lt_def, hidx n (Nat.le_refl n)]
    rintro ⟨hless, hzero⟩
    rcases hend with heq | hne
    · omega
    · exact hne hzero
  rw [pollTurn, if_neg hstop]

theorem truthful_iff_of_ends {n : ℕ} (hn : n ≤ msecTimeout.toNat)
    (hends : Ends (pollTurn s msecTimeout) 0#32 (BitVec.ofNat 32 n)) :
    Truthful s cpu msecTimeout false ↔ (n ≠ msecTimeout.toNat ↔ s.status n ≠ 0#8) := by
  have hlt := msecTimeout.isLt
  have hidx : (BitVec.ofNat 32 n).toNat = n := by
    rw [toNat_ofNat_of_lt (by omega)]
  have hj : BitVec.ofNat 32 n ≠ msecTimeout ↔ n ≠ msecTimeout.toNat := by
    rw [Ne, ← BitVec.toNat_inj, hidx]
  have hright : ∀ v, v = verdict msecTimeout (BitVec.ofNat 32 n) (BitVec.ofNat 32 n).toNat →
      ((v.rc = 0 ↔ s.status v.look ≠ 0#8) ↔ (n ≠ msecTimeout.toNat ↔ s.status n ≠ 0#8)) := by
    rintro v rfl
    rw [rc_verdict_eq_zero_iff, hj]
    show (_ ↔ s.status (BitVec.ofNat 32 n).toNat ≠ 0#8) ↔ _
    rw [hidx]
  constructor
  · rintro ⟨fuel, v, hrun, htrue⟩
    obtain ⟨j, hj, rfl⟩ := Option.map_eq_some_iff.mp hrun
    obtain rfl := hends.unique ⟨fuel, hj⟩
    exact (hright _ rfl).mp htrue
  · intro htrue
    obtain ⟨fuel, hrun⟩ := hends
    refine ⟨fuel, _, ?_, (hright _ rfl).mpr htrue⟩
    rw [acctestWaitOnDescTimeout, if_pos (by simp), hrun]
    rfl

/-- The verdict is right unless the status is set during the last sleep, or, without
any sleep, at once. -/
theorem truthful_poll_iff :
    Truthful s cpu msecTimeout false ↔ s.moment ≠ some msecTimeout.toNat := by
  by_cases hearly : ∃ m, s.moment = some m ∧ m < msecTimeout.toNat
  · obtain ⟨m, hm, hlt⟩ := hearly
    have hset : s.status m ≠ 0#8 := status_ne_zero_iff.mpr ⟨m, hm, Nat.le_refl m⟩
    have hbefore : ∀ i < m, s.status i = 0#8 := fun i hi =>
      status_eq_zero_iff.mpr fun m' hm' => by
        rw [hm, Option.some_inj] at hm'
        omega
    rw [truthful_iff_of_ends hlt.le (ends_pollTurn hlt.le hbefore (.inr hset)), hm]
    refine iff_of_true (iff_of_true hlt.ne hset) ?_
    rw [Ne, Option.some_inj]
    exact hlt.ne
  · push Not at hearly
    have hbefore : ∀ i < msecTimeout.toNat, s.status i = 0#8 := fun i hi =>
      status_eq_zero_iff.mpr fun m hm => hi.trans_le (hearly m hm)
    rw [truthful_iff_of_ends (Nat.le_refl _) (ends_pollTurn (Nat.le_refl _) hbefore (.inl rfl)),
      status_ne_zero_iff]
    constructor
    · intro hiff hm
      exact hiff.mpr ⟨_, hm, Nat.le_refl _⟩ rfl
    · intro hne
      refine iff_of_false (fun h => h rfl) ?_
      rintro ⟨m, hm, hle⟩
      have heq : m = msecTimeout.toNat := Nat.le_antisymm hle (hearly m hm)
      exact hne (heq ▸ hm)

end Polling

/-! ### Waiting in the processor -/

section Umwait

/-- The state at the beginning of a turn: an earlier wait did not end at the deadline,
and the last `t` that was read was before it. -/
structure Waits (cpu : Cpu) (msecTimeout : BitVec 32) (w : Umwaiting) : Prop where
  r : w.r = 0#8 → ∃ k, w.turns = k + 1 ∧ cpu.umwait k = 0#8
  umwait : ∀ k, w.turns = k + 1 → w.r = cpu.umwait k
  t : w.t = 0#64 ∨ w.t < deadline cpu msecTimeout
  unexpired : ∀ k, k + 1 < w.turns → ¬Expired cpu msecTimeout k

/-- How the loop ends: with the status seen, or at the deadline. -/
def Seen (s : Schedule) (cpu : Cpu) (msecTimeout : BitVec 32) (r : BitVec 64 × ℕ) : Prop :=
  (s.status r.2 ≠ 0#8 ∧ InTime s cpu msecTimeout ∧
      (deadline cpu msecTimeout ≤ r.1 ↔ deadline cpu msecTimeout = 0#64)) ∨
    (s.status r.2 = 0#8 ∧ ¬InTime s cpu msecTimeout ∧ deadline cpu msecTimeout ≤ r.1)

/-- The first `t` is before every deadline but one. -/
theorem deadline_le_iff {t : BitVec 64} (h : t = 0#64 ∨ t < deadline cpu msecTimeout) :
    deadline cpu msecTimeout ≤ t ↔ deadline cpu msecTimeout = 0#64 := by
  rcases h with rfl | hlt
  · rw [BitVec.le_def, ← BitVec.toNat_inj]
    exact Nat.le_zero
  · rw [BitVec.lt_def] at hlt
    rw [BitVec.le_def, ← BitVec.toNat_inj]
    refine iff_of_false (Nat.not_le.mpr hlt) fun hzero => ?_
    rw [hzero] at hlt
    exact Nat.not_lt_zero _ hlt

theorem waits_start : Waits cpu msecTimeout ⟨0, 1#8, 0#64⟩ :=
  ⟨fun h => absurd h (by decide), fun _ h => absurd h (Nat.succ_ne_zero _).symm, .inl rfl,
    fun _ h => absurd h (Nat.not_lt_zero _)⟩

variable {w : Umwaiting}

/-- The time stamp that a turn goes by. -/
theorem Waits.now (h : Waits cpu msecTimeout w)
    (hgo : ¬(w.r = 0#8 ∧ deadline cpu msecTimeout ≤ timeStamp cpu w)) :
    timeStamp cpu w = 0#64 ∨ timeStamp cpu w < deadline cpu msecTimeout := by
  by_cases hr : w.r = 0#8
  · rw [BitVec.le_def] at hgo
    rw [BitVec.lt_def]
    exact .inr (Nat.not_le.mp fun hle => hgo ⟨hr, hle⟩)
  · rw [timeStamp, if_neg hr]
    exact h.t

/-- A turn that does not end at the deadline: none of the waits before did. -/
theorem Waits.unexpired_of_go (h : Waits cpu msecTimeout w)
    (hgo : ¬(w.r = 0#8 ∧ deadline cpu msecTimeout ≤ timeStamp cpu w)) {k : ℕ}
    (hk : k < w.turns) : ¬Expired cpu msecTimeout k := by
  rcases Nat.lt_or_ge (k + 1) w.turns with hlt | hge
  · exact h.unexpired k hlt
  · have hlast : w.turns = k + 1 := by omega
    rintro ⟨hwake, hpast⟩
    have hr : w.r = 0#8 := (h.umwait k hlast).trans hwake
    rw [timeStamp, if_pos hr, hlast] at hgo
    exact hgo ⟨hr, hpast⟩

/-- What a turn that ends says. -/
theorem Waits.done (h : Waits cpu msecTimeout w) {r : BitVec 64 × ℕ}
    (hturn : umwaitTurn s cpu msecTimeout w = .done r) : Seen s cpu msecTimeout r := by
  rw [umwaitTurn] at hturn
  split_ifs at hturn with hfirst hpast hsecond
  · -- set at the first look
    obtain rfl := Turn.done.inj hturn
    obtain ⟨m, hm, hle⟩ := status_ne_zero_iff.mp hfirst
    refine .inl ⟨hfirst, ⟨m, hm, fun k hk => ?_⟩, deadline_le_iff h.t⟩
    by_contra hlt
    exact h.unexpired k (by omega) hk
  · -- not set, and the deadline is past
    obtain rfl := Turn.done.inj hturn
    have hzero : s.status (2 * w.turns) = 0#8 := not_not.mp hfirst
    obtain ⟨k, hk, hwake⟩ := h.r hpast.1
    have hexpired : Expired cpu msecTimeout k := by
      have htime := hpast.2
      rw [timeStamp, if_pos hpast.1, hk] at htime
      exact ⟨hwake, htime⟩
    refine .inr ⟨hzero, ?_, hpast.2⟩
    rintro ⟨m, hm, hall⟩
    have hle := hall k hexpired
    have hlt := status_eq_zero_iff.mp hzero m hm
    omega
  · -- set at the second look
    obtain rfl := Turn.done.inj hturn
    obtain ⟨m, hm, hle⟩ := status_ne_zero_iff.mp hsecond
    refine .inl ⟨hsecond, ⟨m, hm, fun k hk => ?_⟩, deadline_le_iff (h.now hpast)⟩
    have hlate : ¬k < w.turns := fun hlt => h.unexpired_of_go hpast hlt hk
    omega

/-- What a turn that goes on keeps. -/
theorem Waits.next (h : Waits cpu msecTimeout w) {w' : Umwaiting}
    (hturn : umwaitTurn s cpu msecTimeout w = .next w') :
    Waits cpu msecTimeout w' ∧ w'.turns = w.turns + 1 := by
  rw [umwaitTurn] at hturn
  split_ifs at hturn with hfirst hpast hsecond
  obtain rfl := Turn.next.inj hturn
  refine ⟨⟨fun hr => ⟨w.turns, rfl, hr⟩, fun k hk => ?_, h.now hpast, fun k hk => ?_⟩, rfl⟩
  · obtain rfl := Nat.succ_injective hk
    rfl
  · exact h.unexpired_of_go hpast (Nat.succ_lt_succ_iff.mp hk)

/-- The loop ends, because some wait ends at the deadline. -/
theorem exists_ends_umwaitTurn (s : Schedule) (hcpu : ∃ k, Expired cpu msecTimeout k) :
    ∃ r, Ends (umwaitTurn s cpu msecTimeout) ⟨0, 1#8, 0#64⟩ r ∧ Seen s cpu msecTimeout r := by
  obtain ⟨last, hlast⟩ := hcpu
  refine exists_ends (P := Waits cpu msecTimeout) (fun w => last + 2 - w.turns)
    (fun w r hw hturn => hw.done hturn) (fun w w' hw hturn => ?_) waits_start
  obtain ⟨hw', hsucc⟩ := hw.next hturn
  have hturns : ¬last + 1 < w.turns := fun hlt => hw.unexpired last hlt hlast
  exact ⟨hw', by omega⟩

theorem truthful_umwait_iff (hcpu : ∃ k, Expired cpu msecTimeout k) :
    Truthful s cpu msecTimeout true ↔
      (InTime s cpu msecTimeout → msecTimeout ≠ 0#32 ∧ deadline cpu msecTimeout ≠ 0#64) := by
  obtain ⟨r, hends, hseen⟩ := exists_ends_umwaitTurn s hcpu
  have hright : ∀ v, v = verdict msecTimeout
      (if deadline cpu msecTimeout ≤ r.1 then msecTimeout else 0#32) r.2 →
      ((v.rc = 0 ↔ s.status v.look ≠ 0#8) ↔
        (InTime s cpu msecTimeout → msecTimeout ≠ 0#32 ∧ deadline cpu msecTimeout ≠ 0#64)) := by
    rintro v rfl
    rw [rc_verdict_eq_zero_iff]
    show (_ ↔ s.status r.2 ≠ 0#8) ↔ _
    rcases hseen with ⟨hset, hin, hpast⟩ | ⟨hzero, hout, hpast⟩
    · rw [if_congr hpast rfl rfl]
      by_cases hdead : deadline cpu msecTimeout = 0#64
      · rw [if_pos hdead]
        exact ⟨fun htrue => absurd rfl (htrue.mpr hset), fun hcond => absurd hdead (hcond hin).2⟩
      · rw [if_neg hdead]
        exact ⟨fun htrue _ => ⟨fun hzero => htrue.mpr hset hzero.symm, hdead⟩, fun hcond =>
          iff_of_true (fun hzero => (hcond hin).1 hzero.symm) hset⟩
    · rw [if_pos hpast]
      exact iff_of_true (iff_of_false (fun h => h rfl) (not_not.mpr hzero)) fun hin =>
        absurd hin hout
  constructor
  · rintro ⟨fuel, v, hrun, htrue⟩
    obtain ⟨r', hr', rfl⟩ := Option.map_eq_some_iff.mp hrun
    obtain rfl := hends.unique ⟨fuel, hr'⟩
    exact (hright _ rfl).mp htrue
  · intro hcond
    obtain ⟨fuel, hrun⟩ := hends
    refine ⟨fuel, _, ?_, (hright _ rfl).mpr hcond⟩
    rw [acctestWaitOnDescTimeout, if_neg (by simp), hrun]
    rfl

end Umwait

/-! ### Both -/

/-- The verdict of a polling wait is wrong exactly if the status is set during the last
sleep, and that of the other one if the status is set in time and there is nothing to
wait for, or the deadline is the number that `t` starts from. -/
theorem verdict_truthful_iff (s : Schedule) (cpu : Cpu) (msecTimeout : BitVec 32)
    (hcpu : ∃ k, Expired cpu msecTimeout k) :
    (Truthful s cpu msecTimeout false ↔ s.moment ≠ some msecTimeout.toNat) ∧
      (Truthful s cpu msecTimeout true ↔
        (InTime s cpu msecTimeout → msecTimeout ≠ 0#32 ∧ deadline cpu msecTimeout ≠ 0#64)) :=
  ⟨truthful_poll_iff, truthful_umwait_iff hcpu⟩

/-- A counter that goes on, and waits that end at once when the deadline is past. -/
def ticking : Cpu := ⟨1000#64, fun k => 1000#64 + BitVec.ofNat 64 (4000000 * k), fun _ => 0#8⟩

/-- A status that is set during the first sleep. -/
def firstSleep : Schedule := ⟨some 1, 1#8, by decide⟩

theorem verdict_truthful_iff_firstSleep :
    (Truthful firstSleep ticking 1#32 false ↔ firstSleep.moment ≠ some (1#32).toNat) ∧
      (Truthful firstSleep ticking 1#32 true ↔
        (InTime firstSleep ticking 1#32 → 1#32 ≠ 0#32 ∧ deadline ticking 1#32 ≠ 0#64)) :=
  verdict_truthful_iff firstSleep ticking 1#32 ⟨0, rfl, by decide⟩

/-- A timeout of one millisecond, in which the device is done. -/
theorem not_truthful_firstSleep : ¬Truthful firstSleep ticking 1#32 false := by
  rw [truthful_poll_iff]
  exact fun h => h rfl

end DescTimeout

end Accfg
