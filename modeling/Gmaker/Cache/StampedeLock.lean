import Gmaker.Cache.DoLoad
import Gmaker.Lib.Expiring

/-!
# Gmaker.Cache.StampedeLock — the lock in front of the loads of one key

The managers of several instances load the same key. With the stampede lock on, a load first
sets `<key>:lock` if there is nothing under it; the one that has set it deletes it when its
`doLoad` is over, and does not look at what is under it then. The lock expires, a load may take
longer than that, and somebody else has the lock by then.

Every release is of the load's own lock, and the lock is held by one load at a time, in exactly
those runs in which each release comes before its lease is over, or when nobody has the lock
(`Fleet.safe_iff`).
-/

namespace Gmaker.Cache

open Gmaker.Lib

/-- A load: the number of its manager, and its number there. -/
abbrev LoadId := ℕ × ℕ

/-- What is under `<key>:lock`: the time of day as a text, which is never read; `owner` is the
load that has written it. -/
structure LockValue where
  lockVal : String
  owner : LoadId
deriving DecidableEq

/-- The managers that share the lock of a key. -/
structure Fleet where
  /-- `config.StampedeLockTTL`, in nanoseconds. -/
  stampedeLockTTL : ℤ
  now : ℕ
  lock : Key LockValue
  managers : List Loads
  /-- The loads that have acquired the lock and have yet to delete it, each with the end of its
  lease. -/
  held : LoadId → Option (Option ℕ)
  /-- The releases so far: which load, and whose lock it deleted. -/
  deleted : List (LoadId × Option LoadId)

/-- What happens next. -/
inductive FleetEvent where
  /-- A manager goes on without the lock; an answer of `SetNX` that it waits for is an error. -/
  | manager (k : ℕ) (e : LoadEvent)
  /-- `SetNX` is executed at the time `nanos` of the instance; its reply may be lost. -/
  | setNX (k i : ℕ) (nanos : ℤ) (delivered : Bool)
  /-- The deferred `Del` is executed. -/
  | del (k i : ℕ)
  | elapse (d : ℕ)
deriving DecidableEq

namespace Fleet

/-- The managers of a service, each with its own configuration, before the first load. -/
def new (stampedeLockTTL : ℤ) (configs : List (Bool × BreakerConfig)) : Fleet where
  stampedeLockTTL := stampedeLockTTL
  now := 0
  lock := none
  managers := configs.map fun c =>
    .new c.1 true c.2.failureThreshold c.2.successThreshold c.2.timeout
  held := fun _ => none
  deleted := []

/-- Where a load stands. -/
def pcOf (s : Fleet) (x : LoadId) : Option LoadPc :=
  (s.managers[x.1]?).bind fun m => (m.loads[x.2]?).map Load.pc

/-- A manager makes a step. -/
def step (s : Fleet) (k : ℕ) (e : LoadEvent) : Option Fleet :=
  (s.managers[k]?).bind fun m => (m.next e).map fun m' =>
    { s with managers := s.managers.set k m' }

/-- What a load is told about `SetNX`. -/
def lockAnswer (delivered ok : Bool) : LockAnswer :=
  if delivered then (if ok then .acquired else .taken) else .failed

/-- One event. -/
def next (s : Fleet) : FleetEvent → Option Fleet
  | .manager _ (.locked _ .acquired) | .manager _ (.locked _ .taken) => none
  | .manager k e => s.step k e
  | .setNX k i nanos delivered =>
    match Key.setNXExpiry s.stampedeLockTTL with
    | none => s.step k (.locked i .failed)
    | some ttl =>
      let r := s.lock.setNX s.now ⟨toString nanos, (k, i)⟩ ttl
      (s.step k (.locked i (lockAnswer delivered r.1))).map fun s' =>
        { s' with
          lock := r.2
          held :=
            if delivered ∧ r.1 then Function.update s.held (k, i) (some (ttl.map (s.now + ·)))
            else s.held }
  | .del k i => (s.held (k, i)).bind fun _ =>
    if s.pcOf (k, i) = some .returned then
      some { s with
        lock := s.lock.del
        held := Function.update s.held (k, i) none
        deleted := s.deleted ++ [((k, i), (s.lock.present s.now).map fun t => t.value.owner)] }
    else none
  | .elapse d => some { s with now := s.now + d }

/-- The condition on a release: the load's lease is not over, or nobody has the lock. -/
def InTime (s : Fleet) : FleetEvent → Prop
  | .del k i => ∀ deadline ∈ s.held (k, i), s.pcOf (k, i) = some .returned →
    Live deadline s.now ∨ s.lock.present s.now = none
  | _ => True

/-- A load has acquired the lock, has not released it, and its lease is not over. -/
def HoldsLock (s : Fleet) (x : LoadId) : Prop := ∃ deadline ∈ s.held x, Live deadline s.now

/-- No load has deleted another's lock, and one load at most holds the lock. -/
def Safe (s : Fleet) : Prop :=
  (∀ p ∈ s.deleted, p.2 = none ∨ p.2 = some p.1) ∧ ∀ x y, s.HoldsLock x → s.HoldsLock y → x = y

end Fleet

/-! ## No load asks for the lock twice -/

namespace Loads

variable {s s' : Loads} {e : LoadEvent} {i j : ℕ} {l : Load} {here pc : LoadPc}

/-- A load that has gone past `SetNX`. -/
def Past (s : Loads) (j : ℕ) : Prop := ∃ l, s.loads[j]? = some l ∧ l.pc ≠ .locking

theorem Past.goes (h : s.Past j) (hpc : pc ≠ .locking) (hgoes : s.goes i here pc = some s') :
    s'.Past j := by
  obtain ⟨l, hl, hlpc⟩ := h
  obtain ⟨x, hx, hif⟩ := Option.bind_eq_some_iff.mp hgoes
  split_ifs at hif
  cases hif
  by_cases hj : j = i
  · refine ⟨{ x with pc := pc }, ?_, hpc⟩
    show (s.loads.set i _)[j]? = _
    rw [getElem?_set_at hx, if_pos hj]
  · refine ⟨l, ?_, hlpc⟩
    show (s.loads.set i _)[j]? = _
    rw [getElem?_set_at hx, if_neg hj, hl]

theorem Past.next (h : s.Past j) (hs : s.next e = some s') : s'.Past j := by
  cases e with
  | call =>
    cases hs
    obtain ⟨l, hl, hpc⟩ := h
    refine ⟨l, ?_, hpc⟩
    show (s.loads ++ [_])[j]? = some l
    rw [getElem?_append_singleton, if_neg (getElem?_ne_length hl), hl]
  | locked i answer =>
    cases answer with
    | failed | acquired | taken => exact h.goes (by nofun) hs
  | polled i answer =>
    cases answer with
    | miss | placeholder | decoded | undecodable => exact h.goes (by nofun) hs
  | waited i => exact h.goes (by nofun) hs
  | step i =>
    obtain ⟨x, hx, hmap⟩ := Option.bind_eq_some_iff.mp hs
    obtain ⟨⟨cb, pc⟩, hstep, rfl⟩ := Option.map_eq_some_iff.mp hmap
    obtain ⟨l, hl, hpc⟩ := h
    by_cases hj : j = i
    · refine ⟨x.after pc, ?_, ?_⟩
      · show (s.loads.set i _)[j]? = _
        rw [getElem?_set_at hx, if_pos hj]
      · -- a load in the breaker does not go back to the lock
        show pc ≠ .locking
        rcases LoadPc.step_cases hstep with ⟨-, ⟨p, rfl⟩ | rfl | rfl⟩ | ⟨-, ⟨p, rfl⟩ | rfl⟩
        all_goals nofun
    · refine ⟨l, ?_, hpc⟩
      show (s.loads.set i _)[j]? = _
      rw [getElem?_set_at hx, if_neg hj, hl]
  | loaded i answer =>
    cases answer with
    | found | failed => exact h.goes (by nofun) hs
    | notFound => exact h.goes (by split_ifs <;> nofun) hs
  | placed i ok => exact h.goes (by nofun) hs
  | encoded i ok =>
    cases ok with
    | false | true => exact h.goes (by nofun) hs
  | stored i ok =>
    cases ok with
    | false | true => exact h.goes (by nofun) hs
  | elapse d =>
    cases hs
    exact h

/-- A load that is told about `SetNX` has waited for it, and has gone past it then. -/
theorem locked_cases {answer : LockAnswer} (hs : s.next (.locked i answer) = some s') :
    (∃ l, s.loads[i]? = some l ∧ l.pc = .locking) ∧ s'.Past i := by
  have hgoes : ∃ pc, pc ≠ .locking ∧ s.goes i .locking pc = some s' := by
    cases answer with
    | failed | acquired => exact ⟨allow, by nofun, hs⟩
    | taken => exact ⟨.waiting, by nofun, hs⟩
  obtain ⟨pc, hpc, hgoes⟩ := hgoes
  obtain ⟨l, hl, hif⟩ := Option.bind_eq_some_iff.mp hgoes
  split_ifs at hif with hlock
  cases hif
  refine ⟨⟨l, hl, hlock⟩, { l with pc := pc }, ?_, hpc⟩
  show (s.loads.set i _)[i]? = _
  rw [getElem?_set_at hl, if_pos rfl]

end Loads

namespace Fleet

variable {s s' : Fleet} {e : FleetEvent} {k i : ℕ} {x y : LoadId}

/-- A load of some manager that has gone past `SetNX`. -/
def Past (s : Fleet) (x : LoadId) : Prop := ∃ m, s.managers[x.1]? = some m ∧ m.Past x.2

/-- A step of a manager changes nothing but the manager. -/
theorem step_cases {e : LoadEvent} (h : s.step k e = some s') :
    ∃ m m', s.managers[k]? = some m ∧ m.next e = some m' ∧
      s' = { s with managers := s.managers.set k m' } := by
  obtain ⟨m, hm, hmap⟩ := Option.bind_eq_some_iff.mp h
  obtain ⟨m', hm', rfl⟩ := Option.map_eq_some_iff.mp hmap
  exact ⟨m, m', hm, hm', rfl⟩

theorem Past.step {e : LoadEvent} (hx : s.Past x) (h : s.step k e = some s') : s'.Past x := by
  obtain ⟨m, m', hm, hm', rfl⟩ := step_cases h
  obtain ⟨n, hn, hpast⟩ := hx
  by_cases hk : x.1 = k
  · rw [hk, hm] at hn
    cases hn
    refine ⟨m', ?_, hpast.next hm'⟩
    show (s.managers.set k m')[x.1]? = _
    rw [getElem?_set_at hm, if_pos hk]
  · refine ⟨n, ?_, hpast⟩
    show (s.managers.set k m')[x.1]? = _
    rw [getElem?_set_at hm, if_neg hk, hn]

/-! ## The invariant -/

/-- The loads that hold a lease have gone past `SetNX`; where a lease is not over the lock is the
load's; and no lock of another load was deleted. -/
structure Inv (s : Fleet) : Prop where
  past : ∀ x deadline, s.held x = some deadline → s.Past x
  lease : ∀ t deadline, s.lock = some t → s.held t.value.owner = some deadline →
    t.deadline = deadline
  own : ∀ x deadline, s.held x = some deadline → Live deadline s.now →
    ∃ t, s.lock = some t ∧ t.value.owner = x ∧ t.deadline = deadline
  clean : ∀ p ∈ s.deleted, p.2 = none ∨ p.2 = some p.1

theorem inv_new (stampedeLockTTL : ℤ) (configs : List (Bool × BreakerConfig)) :
    Inv (new stampedeLockTTL configs) := by
  constructor
  · intro x deadline h
    cases h
  · intro t deadline h
    cases h
  · intro x deadline h
    cases h
  · intro p hp
    cases hp

theorem Inv.safe (h : Inv s) : s.Safe := by
  refine ⟨h.clean, ?_⟩
  rintro x y ⟨dx, hx, hlive⟩ ⟨dy, hy, hlive'⟩
  obtain ⟨t, ht, rfl, -⟩ := h.own x dx hx hlive
  obtain ⟨u, hu, rfl, -⟩ := h.own y dy hy hlive'
  cases ht.symm.trans hu
  rfl

/-- Where the lock is free nobody holds it. -/
theorem Inv.not_live (h : Inv s) (hfree : s.lock.present s.now = none) {deadline : Option ℕ}
    (hx : s.held x = some deadline) : ¬Live deadline s.now := by
  intro hlive
  obtain ⟨t, ht, -, rfl⟩ := h.own x deadline hx hlive
  rw [Key.present_eq_some.mpr ⟨ht, hlive⟩] at hfree
  cases hfree

theorem Inv.step {e : LoadEvent} (h : Inv s) (hs : s.step k e = some s') : Inv s' := by
  have hpast : ∀ x, s.Past x → s'.Past x := fun x hx => hx.step hs
  obtain ⟨m, m', -, -, rfl⟩ := step_cases hs
  exact ⟨fun x deadline hx => hpast x (h.past x deadline hx), h.lease, h.own, h.clean⟩

/-- A load that is told about `SetNX` had no lease before, and has gone past it after. -/
theorem Inv.locked {answer : LockAnswer} (h : Inv s)
    (hs : s.step k (.locked i answer) = some s') : s.held (k, i) = none ∧ s'.Past (k, i) := by
  obtain ⟨m, m', hm, hm', rfl⟩ := step_cases hs
  obtain ⟨⟨l, hl, hlocking⟩, hpast⟩ := Loads.locked_cases hm'
  constructor
  · rw [Option.eq_none_iff_forall_ne_some]
    intro deadline hheld
    obtain ⟨n, hn, x, hx, hpc⟩ := h.past (k, i) deadline hheld
    cases hm.symm.trans hn
    cases hl.symm.trans hx
    exact hpc hlocking
  · refine ⟨m', ?_, hpast⟩
    show (s.managers.set k m')[k]? = _
    rw [getElem?_set_at hm, if_pos rfl]

theorem Inv.setNX {nanos : ℤ} {delivered : Bool} (h : Inv s)
    (hs : s.next (.setNX k i nanos delivered) = some s') : Inv s' := by
  unfold Fleet.next at hs
  dsimp only at hs
  split at hs
  · exact h.step hs
  rename_i ttl hexpiry
  obtain ⟨u, hu, rfl⟩ := Option.map_eq_some_iff.mp hs
  obtain ⟨hnone, hpast⟩ := h.locked hu
  have hkeep : ∀ x, s.Past x → u.Past x := fun x hx => hx.step hu
  obtain ⟨m, m', hm, hm', rfl⟩ := step_cases hu
  cases hfree : s.lock.present s.now with
  | some t =>
    -- somebody has the lock: it stays as it is
    obtain ⟨hlock, -⟩ := Key.present_eq_some.mp hfree
    rw [Key.setNX_of_some hfree, ← hlock]
    simp only [Bool.false_eq_true, and_false, if_false]
    exact ⟨fun x deadline hx => hkeep x (h.past x deadline hx), h.lease, h.own, h.clean⟩
  | none =>
    rw [Key.setNX_of_none hfree]
    -- nobody else's lease goes on
    have hover : ∀ x deadline, s.held x = some deadline → ¬Live deadline s.now :=
      fun x deadline hx => h.not_live hfree hx
    cases delivered with
    | true =>
      simp only [and_self, if_true]
      constructor
      · intro x deadline hx
        dsimp only at hx
        rw [Function.update_apply] at hx
        split_ifs at hx with heq
        · exact heq ▸ hpast
        · exact hkeep x (h.past x deadline hx)
      · intro t deadline ht hx
        cases ht
        dsimp only at hx
        rw [Function.update_self] at hx
        exact Option.some.inj hx
      · intro x deadline hx hlive
        dsimp only at hx
        rw [Function.update_apply] at hx
        split_ifs at hx with heq
        · cases hx
          exact ⟨_, rfl, heq.symm, rfl⟩
        · exact absurd hlive (hover x deadline hx)
      · exact h.clean
    | false =>
      -- the load does not know that it has set the key
      simp only [Bool.false_eq_true, false_and, if_false]
      constructor
      · intro x deadline hx
        exact hkeep x (h.past x deadline hx)
      · intro t deadline ht hx
        cases ht
        cases hnone.symm.trans hx
      · intro x deadline hx hlive
        exact absurd hlive (hover x deadline hx)
      · exact h.clean

/-- What a release does. -/
theorem del_cases (hs : s.next (.del k i) = some s') :
    ∃ deadline, s.held (k, i) = some deadline ∧ s.pcOf (k, i) = some .returned ∧
      s' = { s with
        lock := s.lock.del
        held := Function.update s.held (k, i) none
        deleted := s.deleted ++ [((k, i), (s.lock.present s.now).map fun t => t.value.owner)] } := by
  obtain ⟨deadline, hheld, hif⟩ := Option.bind_eq_some_iff.mp hs
  split_ifs at hif with hpc
  cases hif
  exact ⟨deadline, hheld, hpc, rfl⟩

theorem Inv.del (h : Inv s) (hok : s.InTime (.del k i)) (hs : s.next (.del k i) = some s') :
    Inv s' := by
  obtain ⟨deadline, hheld, hpc, rfl⟩ := del_cases hs
  have hcase := hok deadline hheld hpc
  have hother : ∀ x d, Function.update s.held (k, i) none x = some d →
      x ≠ (k, i) ∧ s.held x = some d := by
    intro x d hx
    rw [Function.update_apply] at hx
    split_ifs at hx with heq
    exact ⟨heq, hx⟩
  constructor
  · intro x d hx
    exact h.past x d (hother x d hx).2
  · intro t d ht
    cases ht
  · -- nobody else had the lock
    intro x d hx hlive
    obtain ⟨hne, hheldx⟩ := hother x d hx
    rcases hcase with hmine | hfree
    · obtain ⟨t, ht, howner, -⟩ := h.own (k, i) deadline hheld hmine
      obtain ⟨u, hu, rfl, -⟩ := h.own x d hheldx hlive
      cases ht.symm.trans hu
      exact absurd howner hne
    · exact absurd hlive (h.not_live hfree hheldx)
  · intro p hp
    rcases List.mem_append.mp hp with hp | hp
    · exact h.clean p hp
    · cases List.mem_singleton.mp hp
      rcases hcase with hmine | hfree
      · obtain ⟨t, ht, howner, rfl⟩ := h.own (k, i) deadline hheld hmine
        right
        show (s.lock.present s.now).map _ = _
        rw [Key.present_eq_some.mpr ⟨ht, hmine⟩, Option.map_some, howner]
      · left
        show (s.lock.present s.now).map _ = _
        rw [hfree, Option.map_none]

theorem Inv.next (h : Inv s) (hok : s.InTime e) (hs : s.next e = some s') : Inv s' := by
  cases e with
  | manager k e =>
    have hstep : s.step k e = some s' := by
      unfold Fleet.next at hs
      split at hs
      · cases hs
      · cases hs
      · rename_i heq
        cases heq
        exact hs
      all_goals (rename_i heq; cases heq)
    exact h.step hstep
  | setNX k i nanos delivered => exact h.setNX hs
  | del k i => exact h.del hok hs
  | elapse d =>
    cases hs
    refine ⟨h.past, h.lease, fun x deadline hx hlive => ?_, h.clean⟩
    exact h.own x deadline hx (hlive.mono (Nat.le_add_right _ d))

/-- A release that comes too late, when another load has the lock, deletes the other's. -/
theorem inTime_of_clean (h : Inv s) (hs : s.next e = some s') (hclean : s'.Safe) :
    s.InTime e := by
  cases e with
  | del k i =>
    intro deadline hheld hpc
    rw [Option.mem_def] at hheld
    obtain ⟨d, hd, -, rfl⟩ := del_cases hs
    cases hheld.symm.trans hd
    cases hfree : s.lock.present s.now with
    | none => exact .inr rfl
    | some t =>
      left
      obtain ⟨hlock, hlive⟩ := Key.present_eq_some.mp hfree
      have hlast := hclean.1 ((k, i), some t.value.owner) (by simp [hfree])
      rcases hlast with hnone | hown
      · cases hnone
      · -- the lock is the load's own, and so is its deadline
        rw [← h.lease t deadline hlock (by rw [Option.some.inj hown]; exact hheld)]
        exact hlive
  | _ => trivial

/-- In exactly those runs in which every release comes before the load's lease is over, or
when nobody has the lock, every lock that is deleted is the load's own and one load at most
holds the lock, all along. -/
theorem safe_iff (stampedeLockTTL : ℤ) (configs : List (Bool × BreakerConfig))
    (es : List FleetEvent) :
    RunOk next InTime (new stampedeLockTTL configs) es ↔
      ∀ ms t, ms <+: es → run next (new stampedeLockTTL configs) ms = some t → t.Safe := by
  refine runOk_iff_of_implies (I := Inv) (J := Safe) ?_ (fun s h => h.safe)
    (fun s e s' h hok hs => h.next hok hs)
    (fun s e s' h hs hsafe => inTime_of_clean h hs hsafe) (inv_new stampedeLockTTL configs)
  intro s e hnone
  cases e with
  | del k i =>
    intro deadline hheld hpc
    unfold Fleet.next at hnone
    dsimp only at hnone
    rw [Option.mem_def.mp hheld, Option.bind_some, if_pos hpc] at hnone
    cases hnone
  | _ => trivial

/-- Three instances with the defaults, five seconds for the lock. -/
def threeInstances : Fleet :=
  new 5000000000 (List.replicate 3 (true, ⟨5, 3, 2, 30000000000, by decide⟩))

/-- A load that takes longer than the lock lasts deletes the next load's lock, and a third one
gets it while the second still holds it. -/
def outlives : List FleetEvent :=
  [.manager 0 .call, .setNX 0 0 1 true, .manager 0 (.step 0), .elapse 5001,
    .manager 1 .call, .setNX 1 0 2 true,
    .manager 0 (.loaded 0 .found), .manager 0 (.encoded 0 true), .manager 0 (.stored 0 true),
    .manager 0 (.step 0), .manager 0 (.step 0), .del 0 0,
    .manager 2 .call, .setNX 2 0 3 true]

theorem not_safe_outlives : ∃ t, run next threeInstances outlives = some t ∧
    ((0, 0), some (1, 0)) ∈ t.deleted ∧ t.HoldsLock (1, 0) ∧ t.HoldsLock (2, 0) ∧ ¬t.Safe := by
  have hsteps : (run next threeInstances outlives).map (fun t => decide
      (((0, 0), some (1, 0)) ∈ t.deleted ∧ t.held (1, 0) = some (some 10001) ∧
        t.held (2, 0) = some (some 10001) ∧ t.now = 5001)) = some true := by
    decide
  obtain ⟨t, ht, hdec⟩ := Option.map_eq_some_iff.mp hsteps
  obtain ⟨hmem, hone, htwo, hnow⟩ := of_decide_eq_true hdec
  have hlive : Live (some 10001) t.now := live_some.mpr (by omega)
  refine ⟨t, ht, hmem, ⟨_, hone, hlive⟩, ⟨_, htwo, hlive⟩, fun hsafe => ?_⟩
  rcases hsafe.1 _ hmem with hnone | hown
  · cases hnone
  · cases hown

end Fleet

end Gmaker.Cache
