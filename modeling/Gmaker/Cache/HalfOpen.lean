import Mathlib
import Gmaker.Lib.Machine
import Gmaker.Lib.Threads
import Gmaker.Cache.CircuitBreaker

/-!
# Gmaker.Cache.HalfOpen — how many probes a half-open breaker lets through

Callers of the breaker ask `Allow` and, when they are let in, report how it went; any number of
them are under way, and their atomic steps interleave as they like. A probe is a call that was
let in because the breaker was half-open: by the counter, or as the call that made the
transition. The program does not count the latter, and a report takes one from the counter
whoever makes it. The machine remembers which calls the counter counts (`slot`); the limit holds
in every run in which only those give back (`HonestStep`, `probes_bounded`).
-/

namespace Gmaker.Cache

open Gmaker.Lib

/-! ## Callers -/

/-- Where a caller stands. -/
inductive Stage where
  | allowing (pc : AllowPc)
  | admitted
  | rejected
  | recording (pc : RecordPc)
  | reported
deriving DecidableEq

namespace Stage

/-- The next atomic step of a caller, if it is in the breaker. -/
def step (now : ℤ) (cb : CircuitBreaker) : Stage → Option (CircuitBreaker × Stage)
  | allowing pc =>
    let r := cb.allowStep now pc
    match r.2 with
    | .goes pc' => some (r.1, allowing pc')
    | .returns true => some (r.1, admitted)
    | .returns false => some (r.1, rejected)
  | recording pc =>
    let r := cb.recordStep now pc
    match r.2 with
    | .goes pc' => some (r.1, recording pc')
    | .returns () => some (r.1, reported)
  | _ => none

def touch : Stage → Touch
  | allowing pc => pc.touch
  | recording pc => pc.touch
  | _ => .keeps

end Stage

/-- A caller, and what the counter knows of it: `probe` is set when it is let in while the
breaker is half-open, `slot` while `halfOpenReqs` counts it. -/
structure Caller where
  stage : Stage
  probe : Bool
  slot : Bool
deriving DecidableEq

namespace Caller

/-- A new call of `Allow`. -/
def fresh : Caller := ⟨.allowing CircuitBreaker.allow, false, false⟩

/-- The caller after its own step. A step that touches the counter and ends in admission makes
it a probe. -/
def after (c : Caller) (stage : Stage) : Caller where
  stage := stage
  probe := c.probe || (decide (stage = .admitted) && decide (c.stage.touch ≠ .keeps))
  slot :=
    match c.stage.touch with
    | .keeps => c.slot
    | .takes => true
    | .gives | .resets => false

/-- The counter was reset. -/
def wiped (c : Caller) : Caller := { c with slot := false }

/-- A probe that has not reported. -/
def Unreported (c : Caller) : Prop := c.stage = .admitted ∧ c.probe = true

instance (c : Caller) : Decidable c.Unreported := inferInstanceAs (Decidable (_ ∧ _))

def slots (c : Caller) : ℕ := if c.slot then 1 else 0

def unreported (c : Caller) : ℕ := if c.Unreported then 1 else 0

/-- A probe that the counter does not count. -/
def uncounted (c : Caller) : ℕ := if c.Unreported ∧ c.slot = false then 1 else 0

end Caller

/-! ## Runs -/

/-- The breaker, its callers, and the time. -/
structure Callers where
  breaker : CircuitBreaker
  clock : ℤ
  callers : List Caller
deriving DecidableEq

/-- What happens next. -/
inductive CallerEvent where
  /-- Somebody calls `Allow`. -/
  | call
  /-- A caller that was let in reports. -/
  | report (i : ℕ) (ok : Bool)
  /-- A report without an admission. -/
  | stray (ok : Bool)
  /-- The next atomic step of a caller. -/
  | step (i : ℕ)
  | elapse (d : ℕ)
deriving DecidableEq

namespace Callers

def new (cb : CircuitBreaker) : Callers := ⟨cb, 0, []⟩

/-- How many probes have not reported. -/
def unreported (s : Callers) : ℕ := (s.callers.map Caller.unreported).sum

/-- How many of them the counter does not count. -/
def uncounted (s : Callers) : ℕ := (s.callers.map Caller.uncounted).sum

/-- The callers after a step of one of them: a reset leaves none of them counted. -/
def advance (l : List Caller) (i : ℕ) (c : Caller) (stage : Stage) : List Caller :=
  (if c.stage.touch = .resets then l.map Caller.wiped else l).set i (c.after stage)

/-- A caller takes its next atomic step. -/
def turn (s : Callers) (i : ℕ) (c : Caller) : Option Callers :=
  (c.stage.step s.clock s.breaker).map fun r =>
    { s with breaker := r.1, callers := advance s.callers i c r.2 }

/-- One event. -/
def next (s : Callers) : CallerEvent → Option Callers
  | .call => some { s with callers := s.callers ++ [.fresh] }
  | .report i ok => (s.callers[i]?).bind fun c =>
    if c.stage = .admitted then
      some { s with callers := s.callers.set i { c with stage := .recording (.load ok) } }
    else none
  | .stray ok => some { s with callers := s.callers ++ [⟨.recording (.load ok), false, false⟩] }
  | .step i => (s.callers[i]?).bind fun c => s.turn i c
  | .elapse d => some { s with clock := s.clock + d }

/-- The condition on a step: only a caller that the counter counts takes one from it, the
transition to half-open leaves room for the probes that are still out, and so does an admission
by the counter for the probes that it does not count. -/
def HonestTurn (s : Callers) (c : Caller) : Prop :=
  match c.stage.touch with
  | .keeps => True
  | .takes =>
    s.breaker.halfOpenReqs < s.breaker.config.halfOpenMaxRequests →
      s.breaker.halfOpenReqs + s.uncounted < s.breaker.config.halfOpenMaxRequests
  | .gives => c.slot = true
  | .resets =>
    c.stage = .allowing .zeroReqs → s.unreported < s.breaker.config.halfOpenMaxRequests

def HonestStep (s : Callers) : CallerEvent → Prop
  | .step i => ∀ c ∈ s.callers[i]?, s.HonestTurn c
  | _ => True

instance (s : Callers) (c : Caller) : Decidable (s.HonestTurn c) := by
  unfold HonestTurn
  cases c.stage.touch <;> infer_instance

instance (s : Callers) (e : CallerEvent) : Decidable (s.HonestStep e) := by
  cases e <;> (unfold HonestStep; infer_instance)

end Callers

/-! ## A single step -/

section Step

variable {now : ℤ} {cb cb' : CircuitBreaker} {st st' : Stage}

/-- What a step of a caller does to the breaker, as far as the limit goes. -/
theorem step_touch (h : st.step now cb = some (cb', st')) :
    cb'.config = cb.config ∧ cb'.halfOpenReqs = st.touch.apply cb.halfOpenReqs := by
  cases st with
  | allowing pc =>
    have hboth : (cb.allowStep now pc).1.config = cb.config ∧
        (cb.allowStep now pc).1.halfOpenReqs = pc.touch.apply cb.halfOpenReqs :=
      ⟨CircuitBreaker.allowStep_config pc, CircuitBreaker.allowStep_halfOpenReqs pc⟩
    unfold Stage.step at h
    simp only at h
    split at h <;> cases h <;> exact hboth
  | recording pc =>
    have hboth : (cb.recordStep now pc).1.config = cb.config ∧
        (cb.recordStep now pc).1.halfOpenReqs = pc.touch.apply cb.halfOpenReqs :=
      ⟨CircuitBreaker.recordStep_config pc, CircuitBreaker.recordStep_halfOpenReqs pc⟩
    unfold Stage.step at h
    simp only at h
    split at h <;> cases h <;> exact hboth
  | admitted => cases h
  | rejected => cases h
  | reported => cases h

/-- A caller is let in by `Allow` only. -/
theorem step_admitted (h : st.step now cb = some (cb', .admitted)) :
    st.touch = .keeps ∨ st = .allowing .zeroReqs ∨
      st = .allowing .addReq ∧ cb.halfOpenReqs < cb.config.halfOpenMaxRequests := by
  cases st with
  | allowing pc =>
    unfold Stage.step at h
    simp only at h
    split at h
    · cases h
    · rename_i hpc
      rcases CircuitBreaker.allowStep_true hpc with ⟨retries, rfl⟩ | rfl | ⟨rfl, hmax⟩
      · exact .inl rfl
      · exact .inr (.inl rfl)
      · exact .inr (.inr ⟨rfl, Int.lt_of_add_one_le hmax⟩)
    · cases h
  | recording pc =>
    unfold Stage.step at h
    simp only at h
    split at h <;> cases h
  | admitted => cases h
  | rejected => cases h
  | reported => cases h

/-- Within `Allow`, a caller is counted between the two counter operations only. -/
theorem step_allowing {pc : AllowPc} (h : st.step now cb = some (cb', .allowing pc)) :
    ∃ pc₀, st = .allowing pc₀ ∧ pc₀ ≠ .subReq ∧ pc₀ ≠ .zeroReqs ∧
      (pc₀ = .addReq ↔ pc = .subReq) := by
  cases st with
  | allowing pc₀ =>
    refine ⟨pc₀, rfl, ?_⟩
    unfold Stage.step CircuitBreaker.allowStep at h
    cases pc₀ with
    | load retries =>
      cases hst : cb.state <;> simp only [hst] at h <;> cases h <;> simp
    | since retries =>
      simp only at h
      split_ifs at h
      · cases h
        simp
      · cases h
    | swap retries =>
      simp only at h
      split_ifs at h
      · cases h
        simp
      · cases retries with
        | zero => cases h
        | succ n =>
          cases h
          simp
    | zeroFailures =>
      cases h
      simp
    | zeroSuccesses =>
      cases h
      simp
    | zeroReqs => cases h
    | addReq =>
      simp only at h
      split_ifs at h <;> cases h
      simp
    | subReq => cases h
  | recording pc₀ =>
    unfold Stage.step at h
    simp only at h
    split at h <;> cases h
  | admitted => cases h
  | rejected => cases h
  | reported => cases h

end Step

namespace Callers

variable {s s' : Callers} {i : ℕ} {c : Caller}

/-! ## What the counter counts -/

/-- The counter is the number of the callers it counts. -/
structure Counts (s : Callers) : Prop where
  reqs : s.breaker.halfOpenReqs = ((s.callers.map Caller.slots).sum : ℕ)
  /-- Inside `Allow` nobody is a probe yet, and only who is about to give back is counted. -/
  entering : ∀ (j : ℕ) (c : Caller), s.callers[j]? = some c → ∀ pc, c.stage = .allowing pc →
    c.probe = false ∧ (pc ≠ .subReq → c.slot = false)

theorem counts_new {cb : CircuitBreaker} (h : cb.halfOpenReqs = 0) : Counts (new cb) :=
  ⟨h, fun _ _ hj => by cases hj⟩

/-- The probes that are out are those counted and those not. -/
theorem Counts.unreported_le (h : Counts s) :
    (s.unreported : ℤ) ≤ s.breaker.halfOpenReqs + s.uncounted := by
  have hone : ∀ c ∈ s.callers, c.unreported ≤ c.slots + c.uncounted := by
    intro c _
    unfold Caller.unreported Caller.slots Caller.uncounted
    cases c.slot <;> split_ifs <;> simp_all
  have hsum := List.sum_le_sum hone
  rw [List.sum_map_add] at hsum
  rw [h.reqs]
  exact_mod_cast hsum

/-- A caller is counted once: it comes to the counter without a slot. -/
theorem Counts.addReq (h : Counts s) (hc : s.callers[i]? = some c) (htouch : c.stage.touch = .takes) :
    c.slot = false := by
  have hstage : c.stage = .allowing .addReq := by
    cases hst : c.stage with
    | allowing pc => cases pc <;> simp_all [Stage.touch, AllowPc.touch]
    | recording pc => cases pc <;> simp_all [Stage.touch, RecordPc.touch]
    | _ => simp_all [Stage.touch]
  exact (h.entering i c hc .addReq hstage).2 nofun

theorem sum_wiped (l : List Caller) : ((l.map Caller.wiped).map Caller.slots).sum = 0 := by
  rw [List.map_map, List.sum_eq_zero]
  intro n hn
  obtain ⟨c, -, rfl⟩ := List.mem_map.mp hn
  rfl

/-- The slots after a step are what the step makes of the counter, if who gives back had one
and who takes had none. -/
theorem slots_advance {l : List Caller} {st : Stage} (hc : l[i]? = some c)
    (htakes : c.stage.touch = .takes → c.slot = false)
    (hgives : c.stage.touch = .gives → c.slot = true) :
    ((((advance l i c st).map Caller.slots).sum : ℕ) : ℤ) =
      c.stage.touch.apply ((l.map Caller.slots).sum : ℕ) := by
  unfold advance
  cases htouch : c.stage.touch with
  | keeps =>
    have hsame : (c.after st).slots = c.slots := by
      unfold Caller.slots Caller.after
      rw [htouch]
    have hsum := sum_map_set Caller.slots (y := c.after st) hc
    rw [if_neg nofun, Touch.apply]
    omega
  | takes =>
    have hzero : c.slots = 0 := by
      unfold Caller.slots
      rw [htakes htouch]
      rfl
    have hone : (c.after st).slots = 1 := by
      unfold Caller.slots Caller.after
      rw [htouch]
      rfl
    have hsum := sum_map_set Caller.slots (y := c.after st) hc
    rw [if_neg nofun, Touch.apply]
    omega
  | gives =>
    have hone : c.slots = 1 := by
      unfold Caller.slots
      rw [if_pos (hgives htouch)]
    have hzero : (c.after st).slots = 0 := by
      unfold Caller.slots Caller.after
      rw [htouch]
      rfl
    have hsum := sum_map_set Caller.slots (y := c.after st) hc
    rw [if_neg nofun, Touch.apply]
    omega
  | resets =>
    have hzero : (c.after st).slots = 0 := by
      unfold Caller.slots Caller.after
      rw [htouch]
      rfl
    have hget : (l.map Caller.wiped)[i]? = some c.wiped := by
      rw [List.getElem?_map, hc]
      rfl
    have hsum := sum_map_set Caller.slots (y := c.after st) hget
    rw [sum_wiped, hzero] at hsum
    rw [if_pos rfl, Touch.apply]
    omega

/-- The other callers stay what they are, but for a slot that a reset took away. -/
theorem getElem?_advance {l : List Caller} {st : Stage} {j : ℕ} {d : Caller}
    (hc : l[i]? = some c) (hd : (advance l i c st)[j]? = some d) :
    j = i ∧ d = c.after st ∨ ∃ d₀, l[j]? = some d₀ ∧ (d = d₀ ∨ d = d₀.wiped) := by
  unfold advance at hd
  split_ifs at hd with hresets
  · have hget : (l.map Caller.wiped)[i]? = some c.wiped := by
      rw [List.getElem?_map, hc]
      rfl
    rw [getElem?_set_at hget] at hd
    split_ifs at hd with hj
    · cases hd
      exact .inl ⟨hj, rfl⟩
    · rw [List.getElem?_map] at hd
      obtain ⟨d₀, hd₀, rfl⟩ := Option.map_eq_some_iff.mp hd
      exact .inr ⟨d₀, hd₀, .inr rfl⟩
  · rw [getElem?_set_at hc] at hd
    split_ifs at hd with hj
    · cases hd
      exact .inl ⟨hj, rfl⟩
    · exact .inr ⟨d, hd, .inl rfl⟩

/-- The counter goes on counting, whatever an honest caller does. -/
theorem Counts.turn (h : Counts s) (hc : s.callers[i]? = some c) (hhonest : s.HonestTurn c)
    (hturn : s.turn i c = some s') : Counts s' := by
  obtain ⟨⟨cb', st'⟩, hstep, rfl⟩ := Option.map_eq_some_iff.mp hturn
  obtain ⟨-, hreqs⟩ := step_touch hstep
  refine ⟨?_, ?_⟩
  · change cb'.halfOpenReqs = (((advance s.callers i c st').map Caller.slots).sum : ℕ)
    rw [hreqs, h.reqs, slots_advance hc (h.addReq hc)]
    intro htouch
    unfold HonestTurn at hhonest
    rw [htouch] at hhonest
    exact hhonest
  · intro j d hd pc hpc
    rcases getElem?_advance hc hd with ⟨rfl, rfl⟩ | ⟨d₀, hd₀, rfl | rfl⟩
    · -- the caller itself is still in `Allow`: it has been counted exactly if it gives back
      cases (show st' = .allowing pc from hpc)
      obtain ⟨pc₀, hst, hsub, hzero, hadd⟩ := step_allowing hstep
      obtain ⟨hprobe, hslot⟩ := h.entering j c hc pc₀ hst
      refine ⟨?_, fun hne => ?_⟩
      · change (c.probe || _) = false
        rw [hprobe]
        rfl
      · have htouch : c.stage.touch = .keeps := by
          rw [hst]
          cases pc₀ <;> first | rfl | simp_all
        unfold Caller.after
        rw [htouch]
        exact hslot hsub
    · exact h.entering j _ hd₀ pc hpc
    · exact ⟨(h.entering j d₀ hd₀ pc hpc).1, fun _ => rfl⟩

/-- Callers come, and begin to report; the counter is not concerned. -/
theorem Counts.append (h : Counts s) {d : Caller} (hslot : d.slot = false)
    (hprobe : d.probe = false) : Counts { s with callers := s.callers ++ [d] } := by
  refine ⟨?_, forall_append (fun pc _ => ⟨hprobe, fun _ => hslot⟩) h.entering⟩
  have hsum : ((s.callers ++ [d]).map Caller.slots).sum = (s.callers.map Caller.slots).sum := by
    rw [sum_map_append]
    unfold Caller.slots
    rw [hslot]
    rfl
  change s.breaker.halfOpenReqs = _
  rw [h.reqs, hsum]

theorem Counts.next (h : Counts s) {e : CallerEvent} (hhonest : s.HonestStep e)
    (hnext : s.next e = some s') : Counts s' := by
  cases e with
  | call =>
    cases hnext
    exact h.append rfl rfl
  | stray ok =>
    cases hnext
    exact h.append rfl rfl
  | report j ok =>
    obtain ⟨d, hd, hreport⟩ := Option.bind_eq_some_iff.mp hnext
    split_ifs at hreport
    cases hreport
    refine ⟨?_, forall_set hd (fun pc hpc => by cases hpc) h.entering⟩
    have hsum := sum_map_set Caller.slots (y := { d with stage := .recording (.load ok) }) hd
    have hsame : Caller.slots { d with stage := .recording (.load ok) } = d.slots := rfl
    change s.breaker.halfOpenReqs =
      (((s.callers.set j { d with stage := .recording (.load ok) }).map Caller.slots).sum : ℕ)
    rw [h.reqs]
    omega
  | step j =>
    obtain ⟨d, hd, hturn⟩ := Option.bind_eq_some_iff.mp hnext
    exact h.turn hd (hhonest d hd) hturn
  | elapse d =>
    cases hnext
    exact ⟨h.reqs, h.entering⟩

/-! ## The limit -/

/-- The limit is kept, and the counter is not negative. -/
def Bounded (s : Callers) : Prop :=
  s.unreported ≤ s.breaker.config.halfOpenMaxRequests ∧ 0 ≤ s.breaker.halfOpenReqs

instance (s : Callers) : Decidable s.Bounded := inferInstanceAs (Decidable (_ ∧ _))

theorem unreported_wiped (l : List Caller) :
    ((l.map Caller.wiped).map Caller.unreported).sum = (l.map Caller.unreported).sum := by
  rw [List.map_map]
  rfl

/-- A step of a caller that was not let in already adds the caller itself at most. -/
theorem unreported_advance {l : List Caller} {st : Stage} (hc : l[i]? = some c)
    (hstage : c.stage ≠ .admitted) :
    ((advance l i c st).map Caller.unreported).sum =
      (l.map Caller.unreported).sum + (c.after st).unreported := by
  have hzero : c.unreported = 0 := if_neg fun h => hstage h.1
  unfold advance
  split_ifs
  · have hget : (l.map Caller.wiped)[i]? = some c.wiped := by
      rw [List.getElem?_map, hc]
      rfl
    have hsum := sum_map_set Caller.unreported (y := c.after st) hget
    rw [unreported_wiped, show c.wiped.unreported = 0 from hzero] at hsum
    exact hsum
  · have hsum := sum_map_set Caller.unreported (y := c.after st) hc
    rw [hzero] at hsum
    exact hsum

/-- An honest step leaves no more than the limit. -/
theorem Counts.unreported_turn (h : Counts s) (hc : s.callers[i]? = some c)
    (hlimit : s.unreported ≤ s.breaker.config.halfOpenMaxRequests) (hhonest : s.HonestTurn c)
    (hturn : s.turn i c = some s') : s'.unreported ≤ s'.breaker.config.halfOpenMaxRequests := by
  obtain ⟨⟨cb', st'⟩, hstep, rfl⟩ := Option.map_eq_some_iff.mp hturn
  obtain ⟨hcfg, -⟩ := step_touch hstep
  have hstage : c.stage ≠ .admitted := by
    intro hst
    rw [hst] at hstep
    cases hstep
  have hsum : (((advance s.callers i c st').map Caller.unreported).sum : ℤ) =
      s.unreported + (c.after st').unreported := by
    rw [unreported_advance hc hstage]
    exact Nat.cast_add _ _
  change (((advance s.callers i c st').map Caller.unreported).sum : ℤ) ≤
    cb'.config.halfOpenMaxRequests
  rw [hsum, hcfg]
  by_cases hnew : (c.after st').Unreported
  · -- a new probe: the counter let it in, or it made the transition
    obtain ⟨hadmitted, hprobe⟩ := hnew
    cases (show st' = .admitted from hadmitted)
    have hone : (c.after .admitted).unreported = 1 := if_pos ⟨rfl, hprobe⟩
    unfold HonestTurn at hhonest
    rcases step_admitted hstep with hkeeps | hzero | ⟨hadd, hroom⟩
    · exfalso
      have hfalse : c.probe = false := by
        cases hst : c.stage with
        | allowing pc => exact (h.entering i c hc pc hst).1
        | recording pc =>
          rw [hst] at hstep
          unfold Stage.step at hstep
          simp only at hstep
          split at hstep <;> cases hstep
        | admitted => exact absurd hst hstage
        | rejected =>
          rw [hst] at hstep
          cases hstep
        | reported =>
          rw [hst] at hstep
          cases hstep
      change (c.probe || (decide True && decide (c.stage.touch ≠ .keeps))) = true at hprobe
      rw [hfalse, hkeeps] at hprobe
      cases hprobe
    · rw [hzero] at hhonest
      have hleft := hhonest rfl
      omega
    · rw [hadd] at hhonest
      have hleft := hhonest hroom
      have hout := h.unreported_le
      omega
  · have hzero : (c.after st').unreported = 0 := if_neg hnew
    omega

theorem Counts.nonneg (h : Counts s) : 0 ≤ s.breaker.halfOpenReqs := by
  rw [h.reqs]
  exact Int.natCast_nonneg _

theorem unreported_next {e : CallerEvent} (h : Counts s)
    (hlimit : s.unreported ≤ s.breaker.config.halfOpenMaxRequests) (hhonest : s.HonestStep e)
    (hnext : s.next e = some s') : s'.unreported ≤ s'.breaker.config.halfOpenMaxRequests := by
  cases e with
  | call | stray ok =>
    cases hnext
    unfold unreported
    rw [sum_map_append]
    exact hlimit
  | report j ok =>
    obtain ⟨d, hd, hreport⟩ := Option.bind_eq_some_iff.mp hnext
    split_ifs at hreport
    cases hreport
    have hsum := sum_map_set Caller.unreported (y := { d with stage := .recording (.load ok) }) hd
    have hzero : Caller.unreported { d with stage := .recording (.load ok) } = 0 :=
      if_neg fun hun => by cases hun.1
    change (((s.callers.set j { d with stage := .recording (.load ok) }).map
      Caller.unreported).sum : ℤ) ≤ s.breaker.config.halfOpenMaxRequests
    unfold unreported at hlimit
    omega
  | step j =>
    obtain ⟨d, hd, hturn⟩ := Option.bind_eq_some_iff.mp hnext
    exact h.unreported_turn hd hlimit (hhonest d hd) hturn
  | elapse d =>
    cases hnext
    exact hlimit

/-- While only callers that the counter counts give back, and every admission leaves room for
the probes it does not count, the limit is kept in every state of every run. -/
theorem probes_bounded (failureThreshold successThreshold halfOpenMaxRequests timeout : ℤ)
    (es : List CallerEvent) (s : Callers)
    (hrun : run next (new (.new failureThreshold successThreshold halfOpenMaxRequests timeout)) es =
      some s)
    (hhonest : RunOk next HonestStep
      (new (.new failureThreshold successThreshold halfOpenMaxRequests timeout)) es) :
    s.Bounded := by
  have hinv : Counts s ∧ s.unreported ≤ s.breaker.config.halfOpenMaxRequests := by
    refine run_invariant (I := fun s => Counts s ∧ s.unreported ≤
      s.breaker.config.halfOpenMaxRequests) ?_ ⟨counts_new rfl, ?_⟩ hhonest hrun
    · rintro s e s' hok ⟨hcounts, hlimit⟩ hnext
      exact ⟨hcounts.next hok hnext, unreported_next hcounts hlimit hok hnext⟩
    · exact (CircuitBreaker.new _ _ _ _).config.halfOpenMaxRequests_pos.le
  exact ⟨hinv.2, hinv.1.nonneg⟩

/-- The breaker with one probe at a time lets a second one through beside the call that made
the transition. -/
def secondProbe : List CallerEvent :=
  [.call, .step 0, .report 0 false, .step 0, .step 0, .step 0, .step 0, .step 0, .step 0,
   .elapse 101, .call, .step 1, .step 1, .step 1, .step 1, .step 1, .step 1,
   .call, .step 2, .step 2]

/-- The call that made the transition is out, and a probe that the counter let in beside it
gives back. -/
def secondProbeBack : List CallerEvent :=
  secondProbe ++ [.report 2 true, .step 2, .step 2, .step 2]

theorem probes_bounded_two :
    ∃ s, run next (new (.new 1 2 2 100)) secondProbeBack = some s ∧ s.Bounded := by
  have hrun : (run next (new (.new 1 2 2 100)) secondProbeBack).isSome = true := by
    decide
  obtain ⟨s, hs⟩ := Option.isSome_iff_exists.mp hrun
  exact ⟨s, hs, probes_bounded 1 2 2 100 secondProbeBack s hs (by decide)⟩

theorem secondProbe_unbounded : ¬ ∀ (failureThreshold successThreshold halfOpenMaxRequests
    timeout : ℤ) (es : List CallerEvent) (s : Callers),
    run next (new (.new failureThreshold successThreshold halfOpenMaxRequests timeout)) es =
      some s → s.Bounded := by
  intro h
  have hrun : ((run next (new (.new 1 1 1 100)) secondProbe).map fun s => decide s.Bounded) =
      some false := by decide
  obtain ⟨s, hs, hfalse⟩ := Option.map_eq_some_iff.mp hrun
  exact of_decide_eq_false hfalse (h 1 1 1 100 secondProbe s hs)

end Callers

end Gmaker.Cache
