import Mathlib
import Gmaker.Lib.Machine
import Gmaker.Lib.Threads
import Gmaker.Cache.CircuitBreaker

/-!
# Gmaker.Cache.DoLoad — loads behind the breaker

A load of the cache manager asks the breaker, reads the database, writes the cache and reports
to the breaker; with the stampede lock on it first tries to get the lock, or waits for the cache
to fill. Any number of loads are under way. What the lock, the loader, the codec and the store
answer is in the event. One way out of `doLoad` reports nothing: the row was loaded and could
not be written to the cache. `reports_exact` says that this is the only one, and that without it
the breaker never stays shut.
-/

namespace Gmaker.Cache

open Gmaker.Lib

/-! ## A load -/

/-- Where a load stands. -/
inductive LoadPc where
  /-- `loadWithLock`, before `SetNX`. -/
  | locking
  /-- Somebody else has the lock: waiting for the cache to fill. -/
  | waiting
  | allowing (pc : AllowPc)
  /-- Before `m.loader.Load`. -/
  | loading
  /-- There is no such row: before the placeholder is written. -/
  | placing
  /-- Before `m.codec.Encode`. -/
  | encoding
  /-- Before `m.store.Set`. -/
  | storing
  | recording (pc : RecordPc)
  | returned
deriving DecidableEq

/-- A load; `allowed` and `records` remember whether `Allow` returned true, and how often the
load has reported. -/
structure Load where
  pc : LoadPc
  allowed : Bool
  records : ℕ
deriving DecidableEq

/-- What the loader answers. -/
inductive LoaderAnswer where
  | found
  | notFound
  | failed
deriving DecidableEq

/-- What `SetNX` answers. -/
inductive LockAnswer where
  | failed
  | acquired
  | taken
deriving DecidableEq

/-- What a look into the cache finds while waiting for it to fill. -/
inductive PollAnswer where
  | miss
  | placeholder
  | decoded
  | undecodable
deriving DecidableEq

namespace LoadPc

/-- The next atomic step of a load that is in the breaker. -/
def step (now : ℤ) (cb : CircuitBreaker) : LoadPc → Option (CircuitBreaker × LoadPc)
  | allowing pc =>
    let r := cb.allowStep now pc
    match r.2 with
    | .goes pc' => some (r.1, allowing pc')
    | .returns true => some (r.1, loading)
    | .returns false => some (r.1, returned)
  | recording pc =>
    let r := cb.recordStep now pc
    match r.2 with
    | .goes pc' => some (r.1, recording pc')
    | .returns () => some (r.1, returned)
  | _ => none

end LoadPc

/-- The load after a step in the breaker: it was let in, or it has reported. -/
def Load.after (l : Load) (pc : LoadPc) : Load where
  pc := pc
  allowed := l.allowed || decide (pc = .loading)
  records :=
    match l.pc, pc with
    | .recording _, .returned => l.records + 1
    | _, _ => l.records

/-! ## Runs -/

/-- The breaker of a manager, its loads, and the time. -/
structure Loads where
  /-- `config.NilTTL > 0`. -/
  nilTTL : Bool
  /-- The stampede lock is on. -/
  lock : Bool
  breaker : CircuitBreaker
  clock : ℤ
  loads : List Load
deriving DecidableEq

/-- What happens next. -/
inductive LoadEvent where
  /-- `loadFromDB` is called. -/
  | call
  | locked (i : ℕ) (answer : LockAnswer)
  | polled (i : ℕ) (answer : PollAnswer)
  /-- The time to wait is over. -/
  | waited (i : ℕ)
  /-- The next atomic step of a load in the breaker. -/
  | step (i : ℕ)
  | loaded (i : ℕ) (answer : LoaderAnswer)
  | placed (i : ℕ) (ok : Bool)
  | encoded (i : ℕ) (ok : Bool)
  | stored (i : ℕ) (ok : Bool)
  | elapse (d : ℕ)
deriving DecidableEq

namespace Loads

/-- `NewManager` with the breaker on. -/
def new (nilTTL lock : Bool) (failureThreshold successThreshold timeout : ℤ) : Loads where
  nilTTL := nilTTL
  lock := lock
  breaker := .new failureThreshold successThreshold 2 timeout
  clock := 0
  loads := []

def allow : LoadPc := .allowing CircuitBreaker.allow

/-- A load goes on elsewhere, if it stands where the event finds it. -/
def goes (s : Loads) (i : ℕ) (here pc : LoadPc) : Option Loads :=
  (s.loads[i]?).bind fun l =>
    if l.pc = here then some { s with loads := s.loads.set i { l with pc := pc } } else none

/-- One event. -/
def next (s : Loads) : LoadEvent → Option Loads
  | .call => some { s with loads := s.loads ++ [⟨if s.lock then .locking else allow, false, 0⟩] }
  | .locked i .failed | .locked i .acquired => s.goes i .locking allow
  | .locked i .taken => s.goes i .locking .waiting
  | .polled i .miss | .polled i .undecodable => s.goes i .waiting .waiting
  | .polled i .placeholder | .polled i .decoded => s.goes i .waiting .returned
  | .waited i => s.goes i .waiting allow
  | .step i => (s.loads[i]?).bind fun l =>
    (l.pc.step s.clock s.breaker).map fun r =>
      { s with breaker := r.1, loads := s.loads.set i (l.after r.2) }
  | .loaded i .found => s.goes i .loading .encoding
  | .loaded i .notFound =>
    s.goes i .loading (if s.nilTTL then .placing else .recording (.load true))
  | .loaded i .failed => s.goes i .loading (.recording (.load false))
  | .placed i _ => s.goes i .placing (.recording (.load true))
  | .encoded i true => s.goes i .encoding .storing
  | .encoded i false => s.goes i .encoding .returned
  | .stored i true => s.goes i .storing (.recording (.load true))
  | .stored i false => s.goes i .storing .returned
  | .elapse d => some { s with clock := s.clock + d }

/-- The condition on an event: what was loaded is written to the cache. -/
def Written (s : Loads) : LoadEvent → Prop
  | .encoded i ok => ∀ l ∈ s.loads[i]?, l.pc = .encoding → ok = true
  | .stored i ok => ∀ l ∈ s.loads[i]?, l.pc = .storing → ok = true
  | _ => True

instance (s : Loads) (e : LoadEvent) : Decidable (s.Written e) := by
  cases e <;> (unfold Written; infer_instance)

/-! ## The claims about a state -/

/-- Every load that has returned has reported once if it was let in, and not otherwise. -/
def Paired (s : Loads) : Prop :=
  ∀ l ∈ s.loads, l.pc = .returned → l.records = if l.allowed then 1 else 0

/-- No load is under way. -/
def Idle (s : Loads) : Prop := ∀ l ∈ s.loads, l.pc = .returned

/-- `Allow`, when nobody else comes in between, for at most `n` steps. -/
def allowAlone (now : ℤ) : ℕ → CircuitBreaker → AllowPc → Option Bool
  | 0, _, _ => none
  | n + 1, cb, pc =>
    let r := cb.allowStep now pc
    match r.2 with
    | .goes pc' => allowAlone now n r.1 pc'
    | .returns b => some b

/-- The breaker lets a new load in. -/
def Admits (s : Loads) : Prop :=
  ∃ n, allowAlone s.clock n s.breaker CircuitBreaker.allow = some true

/-- An open breaker has cooled down. -/
def Cooled (s : Loads) : Prop :=
  s.breaker.state = .stateOpen → s.breaker.CooledDown s.clock

end Loads

/-! ## A step in the breaker -/

namespace LoadPc

/-- A load that owes the counter a decrement, should the breaker stay half-open. -/
def owes : LoadPc → ℕ
  | allowing .subReq | loading | placing | encoding | storing => 1
  | recording (.load _) | recording (.subReq _) => 1
  | _ => 0

/-- A load that has made the transition to half-open and has not reset the counter yet. -/
def Pending : LoadPc → Prop
  | allowing .zeroFailures | allowing .zeroSuccesses | allowing .zeroReqs => True
  | _ => False

variable {now : ℤ} {cb cb' : CircuitBreaker} {pc pc' : LoadPc}

/-- Inside `Allow` a load stays, is let in or returns; inside a report it stays or returns. -/
theorem step_cases (h : pc.step now cb = some (cb', pc')) :
    (∃ p, pc = allowing p) ∧ ((∃ p', pc' = allowing p') ∨ pc' = loading ∨ pc' = returned) ∨
      (∃ p, pc = recording p) ∧ ((∃ p', pc' = recording p') ∨ pc' = returned) := by
  cases pc with
  | allowing pc =>
    refine .inl ⟨⟨pc, rfl⟩, ?_⟩
    unfold step at h
    simp only at h
    split at h <;> cases h <;> simp
  | recording pc =>
    refine .inr ⟨⟨pc, rfl⟩, ?_⟩
    unfold step at h
    simp only at h
    split at h <;> cases h <;> simp
  | _ => cases h

/-- After a step the breaker is not half-open, or the load has yet to reset the counter, or it
has just reset it, or it owes for what it took. -/
theorem step_owes (h : pc.step now cb = some (cb', pc')) (hhalf : cb'.state = .stateHalfOpen) :
    pc'.Pending ∨ cb'.halfOpenReqs ≤ 0 ∨
      cb.state = .stateHalfOpen ∧ ¬ pc.Pending ∧
        cb'.halfOpenReqs + pc.owes ≤ cb.halfOpenReqs + pc'.owes := by
  cases pc with
  | allowing pc =>
    unfold step CircuitBreaker.allowStep at h
    cases pc with
    | load retries =>
      cases hst : cb.state <;> simp only [hst] at h <;> cases h <;> simp_all [owes, Pending]
    | since retries =>
      simp only at h
      split_ifs at h <;> cases h <;> exact .inr (.inr ⟨hhalf, nofun, le_rfl⟩)
    | swap retries =>
      simp only at h
      split_ifs at h
      · cases h
        exact .inl trivial
      · cases retries <;> cases h <;> exact .inr (.inr ⟨hhalf, nofun, le_rfl⟩)
    | zeroFailures | zeroSuccesses =>
      cases h
      exact .inl trivial
    | zeroReqs =>
      cases h
      exact .inr (.inl le_rfl)
    | addReq =>
      simp only at h
      split_ifs at h <;> cases h <;> exact .inr (.inr ⟨hhalf, nofun, by simp [owes]⟩)
    | subReq =>
      cases h
      exact .inr (.inr ⟨hhalf, nofun, by simp [owes]⟩)
  | recording pc =>
    unfold step CircuitBreaker.recordStep at h
    cases pc with
    | load ok =>
      cases hst : cb.state <;> simp only [hst] at h <;> cases h <;> simp_all [owes, Pending]
    | subReq ok =>
      cases h
      refine .inr (.inr ⟨hhalf, nofun, ?_⟩)
      cases ok <;> simp [owes]
    | addSuccess | addFailure =>
      simp only at h
      split_ifs at h <;> cases h <;> exact .inr (.inr ⟨hhalf, nofun, le_rfl⟩)
    | storeClosed | storeOpen =>
      cases h
      cases hhalf
    | closedReqs | openReqs =>
      cases h
      exact .inr (.inl le_rfl)
    | closedFailures | closedSuccesses | zeroFailures | setLastFailure | openSuccesses =>
      cases h
      exact .inr (.inr ⟨hhalf, nofun, le_rfl⟩)
  | _ => cases h

end LoadPc

namespace Load

def owes (l : Load) : ℕ := l.pc.owes

/-- What a load remembers fits where it stands: it is let in once, and reports last. -/
def Fits (l : Load) : Prop :=
  match l.pc with
  | .locking | .waiting | .allowing _ => l.allowed = false ∧ l.records = 0
  | .loading | .placing | .encoding | .storing | .recording _ => l.allowed = true ∧ l.records = 0
  | .returned => l.records = if l.allowed then 1 else 0

theorem Fits.after {l : Load} (h : l.Fits) {now : ℤ} {cb cb' : CircuitBreaker} {pc' : LoadPc}
    (hstep : l.pc.step now cb = some (cb', pc')) : (l.after pc').Fits := by
  obtain ⟨pc, allowed, records⟩ := l
  unfold Load.after
  rcases LoadPc.step_cases hstep with ⟨⟨p, hp⟩, ⟨p', rfl⟩ | rfl | rfl⟩ | ⟨⟨p, hp⟩, ⟨p', rfl⟩ | rfl⟩
  all_goals
    cases (show pc = _ from hp)
    obtain ⟨rfl, rfl⟩ := h
    simp [Fits]

end Load

/-! ## What holds of all loads together -/

namespace Loads

variable {s s' : Loads}

/-- The loads fit, and a half-open breaker has lent no more than the loads owe. -/
structure Sound (s : Loads) : Prop where
  fits : ∀ (j : ℕ) (l : Load), s.loads[j]? = some l → l.Fits
  owed : s.breaker.state = .stateHalfOpen →
    (∃ (j : ℕ) (l : Load), s.loads[j]? = some l ∧ l.pc.Pending) ∨
      s.breaker.halfOpenReqs ≤ ((s.loads.map Load.owes).sum : ℕ)

theorem sound_new (nilTTL lock : Bool) (failureThreshold successThreshold timeout : ℤ) :
    Sound (new nilTTL lock failureThreshold successThreshold timeout) :=
  ⟨fun _ _ hj => (by cases hj), fun h => by cases h⟩

/-- A load that goes on outside the breaker keeps what it owes. -/
theorem Sound.goes (h : Sound s) {i : ℕ} {here pc : LoadPc} (hgoes : s.goes i here pc = some s')
    (hpending : ¬ here.Pending) (howes : here.owes ≤ pc.owes)
    (hfits : ∀ l : Load, l.pc = here → l.Fits → Load.Fits { l with pc := pc }) : Sound s' := by
  obtain ⟨l, hl, hif⟩ := Option.bind_eq_some_iff.mp hgoes
  split_ifs at hif with hpc
  cases hif
  refine ⟨forall_set hl (hfits l hpc (h.fits i l hl)) h.fits, fun hhalf => ?_⟩
  rcases h.owed hhalf with ⟨j, d, hd, hpend⟩ | hle
  · have hj : j ≠ i := by
      rintro rfl
      rw [hl] at hd
      cases hd
      exact hpending (hpc ▸ hpend)
    refine .inl ⟨j, d, ?_, hpend⟩
    change (s.loads.set i _)[j]? = some d
    rw [getElem?_set_at hl, if_neg hj, hd]
  · right
    have hsum := sum_map_set Load.owes (y := { l with pc := pc }) hl
    have hone : l.owes = here.owes := congrArg LoadPc.owes hpc
    have htwo : Load.owes { l with pc := pc } = pc.owes := rfl
    change s.breaker.halfOpenReqs ≤ (((s.loads.set i { l with pc := pc }).map Load.owes).sum : ℕ)
    omega

theorem Sound.step (h : Sound s) {i : ℕ} {l : Load} (hl : s.loads[i]? = some l)
    {cb' : CircuitBreaker} {pc' : LoadPc} (hstep : l.pc.step s.clock s.breaker = some (cb', pc')) :
    Sound { s with breaker := cb', loads := s.loads.set i (l.after pc') } := by
  refine ⟨forall_set hl ((h.fits i l hl).after hstep) h.fits, fun hhalf => ?_⟩
  change (∃ (j : ℕ) (d : Load), (s.loads.set i (l.after pc'))[j]? = some d ∧ d.pc.Pending) ∨
    cb'.halfOpenReqs ≤ (((s.loads.set i (l.after pc')).map Load.owes).sum : ℕ)
  rcases LoadPc.step_owes hstep hhalf with hpend | hzero | ⟨hbefore, hnot, hle⟩
  · refine .inl ⟨i, l.after pc', ?_, hpend⟩
    rw [getElem?_set_at hl, if_pos rfl]
  · exact .inr (hzero.trans (Int.natCast_nonneg _))
  · rcases h.owed hbefore with ⟨j, d, hd, hpend⟩ | howed
    · -- another load is still about to reset the counter
      have hj : j ≠ i := by
        rintro rfl
        rw [hl] at hd
        cases hd
        exact hnot hpend
      refine .inl ⟨j, d, ?_, hpend⟩
      rw [getElem?_set_at hl, if_neg hj, hd]
    · right
      have hsum := sum_map_set Load.owes (y := l.after pc') hl
      have hone : l.owes = l.pc.owes := rfl
      have htwo : (l.after pc').owes = pc'.owes := rfl
      omega

/-- Every event keeps the loads sound, but for one that loses a report. -/
theorem Sound.next (h : Sound s) {e : LoadEvent} (hwritten : s.Written e)
    (hnext : s.next e = some s') : Sound s' := by
  have hfits : ∀ {here pc : LoadPc}, ∀ l : Load, l.pc = here → l.Fits →
      (∀ a n, Load.Fits ⟨here, a, n⟩ → Load.Fits ⟨pc, a, n⟩) → Load.Fits { l with pc := pc } := by
    rintro here pc ⟨_, a, n⟩ rfl hl hkeep
    exact hkeep a n hl
  cases e with
  | call =>
    cases hnext
    refine ⟨forall_append ?_ h.fits, fun hhalf => ?_⟩
    · split_ifs <;> exact ⟨rfl, rfl⟩
    · rcases h.owed hhalf with ⟨j, l, hl, hpend⟩ | hle
      · refine .inl ⟨j, l, ?_, hpend⟩
        change (s.loads ++ [_])[j]? = some l
        rw [getElem?_append_singleton, if_neg (getElem?_ne_length hl), hl]
      · right
        change s.breaker.halfOpenReqs ≤ (((s.loads ++ [_]).map Load.owes).sum : ℕ)
        rw [sum_map_append]
        omega
  | locked i answer =>
    cases answer
    all_goals exact h.goes hnext nofun (Nat.zero_le _) fun l hl hf => hfits l hl hf fun _ _ hk => hk
  | polled i answer =>
    cases answer with
    | miss | undecodable =>
      exact h.goes hnext nofun (Nat.zero_le _) fun l hl hf => hfits l hl hf fun _ _ hk => hk
    | placeholder | decoded =>
      refine h.goes hnext nofun (Nat.zero_le _) fun l hl hf => hfits l hl hf ?_
      rintro _ _ ⟨rfl, rfl⟩
      rfl
  | waited i =>
    exact h.goes hnext nofun (Nat.zero_le _) fun l hl hf => hfits l hl hf fun _ _ hk => hk
  | step i =>
    obtain ⟨l, hl, hmap⟩ := Option.bind_eq_some_iff.mp hnext
    obtain ⟨⟨cb', pc'⟩, hstep, rfl⟩ := Option.map_eq_some_iff.mp hmap
    exact h.step hl hstep
  | loaded i answer =>
    cases answer with
    | found | failed =>
      exact h.goes hnext nofun le_rfl fun l hl hf => hfits l hl hf fun _ _ hk => hk
    | notFound =>
      refine h.goes hnext nofun ?_ fun l hl hf => hfits l hl hf fun _ _ hk => ?_
      · split_ifs <;> exact le_rfl
      · split_ifs <;> exact hk
  | placed i ok =>
    exact h.goes hnext nofun le_rfl fun l hl hf => hfits l hl hf fun _ _ hk => hk
  | encoded i ok =>
    cases ok with
    | true => exact h.goes hnext nofun le_rfl fun l hl hf => hfits l hl hf fun _ _ hk => hk
    | false =>
      obtain ⟨l, hl, hif⟩ := Option.bind_eq_some_iff.mp hnext
      split_ifs at hif with hpc
      cases hwritten l hl hpc
  | stored i ok =>
    cases ok with
    | true => exact h.goes hnext nofun le_rfl fun l hl hf => hfits l hl hf fun _ _ hk => hk
    | false =>
      obtain ⟨l, hl, hif⟩ := Option.bind_eq_some_iff.mp hnext
      split_ifs at hif with hpc
      cases hwritten l hl hpc
  | elapse d =>
    cases hnext
    exact ⟨h.fits, h.owed⟩

/-! ## The breaker does not stay shut -/

theorem Sound.paired (h : Sound s) : Paired s := by
  intro l hl hpc
  obtain ⟨j, hj⟩ := List.mem_iff_getElem?.mp hl
  have hfits := h.fits j l hj
  unfold Load.Fits at hfits
  rw [hpc] at hfits
  exact hfits

/-- With no load under way nothing is lent, and a breaker that has cooled down lets the next
load in. -/
theorem Sound.admits (h : Sound s) (hidle : s.Idle) (hcooled : s.Cooled) : s.Admits := by
  unfold Admits
  cases hst : s.breaker.state with
  | stateClosed => exact ⟨1, by simp [allowAlone, CircuitBreaker.allow, CircuitBreaker.allowStep, hst]⟩
  | stateOpen =>
    refine ⟨6, ?_⟩
    have hsince : s.breaker.CooledDown s.clock := hcooled hst
    simp [allowAlone, CircuitBreaker.allow, CircuitBreaker.allowStep, hst, hsince]
  | stateHalfOpen =>
    have hzero : (s.loads.map Load.owes).sum = 0 := by
      rw [List.sum_eq_zero]
      intro n hn
      obtain ⟨l, hl, rfl⟩ := List.mem_map.mp hn
      exact congrArg LoadPc.owes (hidle l hl)
    have hreqs : s.breaker.halfOpenReqs ≤ 0 := by
      rcases h.owed hst with ⟨j, l, hl, hpend⟩ | hle
      · rw [hidle l (List.mem_of_getElem? hl)] at hpend
        exact hpend.elim
      · rw [hzero] at hle
        exact hle
    have hpos := s.breaker.config.halfOpenMaxRequests_pos
    have hroom : ¬ s.breaker.config.halfOpenMaxRequests < s.breaker.halfOpenReqs + 1 := by omega
    exact ⟨2, by simp [allowAlone, CircuitBreaker.allow, CircuitBreaker.allowStep, hst, hroom]⟩

/-- A load that was let in and could not write what it loaded returns without a report. -/
theorem Sound.written (h : Sound s) {e : LoadEvent} (hnext : s.next e = some s')
    (hpaired : Paired s') : s.Written e := by
  have hlost : ∀ (i : ℕ) (here : LoadPc) (l : Load), here = .encoding ∨ here = .storing →
      s.goes i here .returned = some s' → l ∈ s.loads[i]? → l.pc = here → False := by
    intro i here l hhere hgoes hl hpc
    obtain ⟨l', hl', hif⟩ := Option.bind_eq_some_iff.mp hgoes
    cases hl.symm.trans hl'
    rw [if_pos hpc] at hif
    cases hif
    have hfits := h.fits i l hl
    obtain ⟨pc, allowed, records⟩ := l
    cases (show pc = here from hpc)
    have hnone : allowed = true ∧ records = 0 := by
      rcases hhere with rfl | rfl <;> exact hfits
    obtain ⟨rfl, rfl⟩ := hnone
    have hone := hpaired ⟨.returned, true, 0⟩
      (List.mem_set (List.getElem?_eq_some_iff.mp hl).1 _) rfl
    cases hone
  cases e with
  | encoded i ok =>
    intro l hl hpc
    cases ok with
    | true => rfl
    | false => exact (hlost i .encoding l (.inl rfl) hnext hl hpc).elim
  | stored i ok =>
    intro l hl hpc
    cases ok with
    | true => rfl
    | false => exact (hlost i .storing l (.inr rfl) hnext hl hpc).elim
  | _ => trivial

/-- Every admission is followed by one report, and the breaker never stays shut, exactly when
everything that is loaded can be written to the cache. -/
theorem reports_exact (nilTTL lock : Bool) (failureThreshold successThreshold timeout : ℤ)
    (es : List LoadEvent) :
    RunOk next Written (new nilTTL lock failureThreshold successThreshold timeout) es ↔
      ∀ ms s, ms <+: es →
        run next (new nilTTL lock failureThreshold successThreshold timeout) ms = some s →
        s.Paired ∧ (s.Idle → s.Cooled → s.Admits) := by
  refine runOk_iff_of_implies ?_ (fun s h => ⟨h.paired, h.admits⟩)
    (fun s e s' h hwritten hnext => h.next hwritten hnext)
    (fun s e s' h hnext hboth => h.written hnext hboth.1) (sound_new _ _ _ _ _)
  intro s e hnone
  -- an event that is not enabled finds no load that waits for it
  cases e with
  | encoded i ok | stored i ok =>
    intro l hl hpc
    cases ok with
    | true => rfl
    | false =>
      change s.goes i _ .returned = none at hnone
      unfold goes at hnone
      rw [Option.mem_def.mp hl, Option.bind_some, if_pos hpc] at hnone
      cases hnone
  | _ => trivial

/-- A half-open breaker that has lent all it has turns a load away. -/
theorem not_admits (hhalf : s.breaker.state = .stateHalfOpen)
    (hlent : s.breaker.config.halfOpenMaxRequests ≤ s.breaker.halfOpenReqs) : ¬ s.Admits := by
  rintro ⟨n, hn⟩
  have hfull : s.breaker.config.halfOpenMaxRequests < s.breaker.halfOpenReqs + 1 := by omega
  rcases n with _ | _ | _ | n <;>
    simp [allowAlone, CircuitBreaker.allow, CircuitBreaker.allowStep, hhalf, hfull] at hn

/-- The store fails three times while the breaker is half-open. -/
def storeDown : List LoadEvent :=
  [.call, .step 0, .loaded 0 .failed, .step 0, .step 0, .step 0, .step 0, .step 0, .step 0,
   .elapse 101,
   .call, .step 1, .step 1, .step 1, .step 1, .step 1, .step 1, .loaded 1 .found, .encoded 1 true,
   .stored 1 false,
   .call, .step 2, .step 2, .loaded 2 .found, .encoded 2 true, .stored 2 false,
   .call, .step 3, .step 3, .loaded 3 .found, .encoded 3 true, .stored 3 false]

/-- Then all loads have returned, and the breaker stays shut for good. -/
theorem storeDown_stuck : ¬ ∀ (nilTTL lock : Bool) (failureThreshold successThreshold timeout : ℤ)
    (es : List LoadEvent) (s : Loads),
    run next (new nilTTL lock failureThreshold successThreshold timeout) es = some s →
      s.Paired ∧ (s.Idle → s.Cooled → s.Admits) := by
  intro h
  have hrun : ((run next (new true false 1 1 100) storeDown).map fun s =>
      (s.breaker.state, s.loads.map Load.pc, s.breaker.halfOpenReqs,
        s.breaker.config.halfOpenMaxRequests)) =
      some (.stateHalfOpen, List.replicate 4 .returned, 2, 2) := by decide
  obtain ⟨s, hs, hview⟩ := Option.map_eq_some_iff.mp hrun
  simp only [Prod.mk.injEq] at hview
  obtain ⟨hstate, hpcs, hreqs, hmax⟩ := hview
  have hidle : s.Idle := by
    intro l hl
    have hmem : l.pc ∈ List.replicate 4 LoadPc.returned := hpcs ▸ List.mem_map_of_mem hl
    exact List.eq_of_mem_replicate hmem
  have hcooled : s.Cooled := by
    intro hopen
    rw [hstate] at hopen
    cases hopen
  refine not_admits hstate ?_ ((h true false 1 1 100 storeDown s hs).2 hidle hcooled)
  rw [hmax, hreqs]

end Loads

end Gmaker.Cache
