import Mathlib

/-!
# Gmaker.Cache.CircuitBreaker — the breaker in front of the database

The breaker counts failures while it is closed, turns everything away while it is open, and
lets a few probes through once it has been open for `timeout`. Its fields are atomics, so what
other calls can come in between is every load, store, add and compare-and-swap: `AllowPc` and
`RecordPc` say where a call stands, `allowStep` and `recordStep` do one atomic operation.
-/

namespace Gmaker.Cache

/-! ## The breaker -/

/-- The state of the breaker. -/
inductive BreakerState where
  | stateClosed
  | stateOpen
  | stateHalfOpen
deriving DecidableEq

/-- The parameters of a breaker. At least one probe is allowed at a time. -/
structure BreakerConfig where
  failureThreshold : ℤ
  successThreshold : ℤ
  halfOpenMaxRequests : ℤ
  timeout : ℤ
  halfOpenMaxRequests_pos : 0 < halfOpenMaxRequests
deriving DecidableEq

/-- `CircuitBreaker`; times are nanoseconds. -/
structure CircuitBreaker where
  config : BreakerConfig
  state : BreakerState
  failures : ℤ
  successes : ℤ
  halfOpenReqs : ℤ
  lastFailure : ℤ
deriving DecidableEq

/-- The conversion of an `int` to an `int32`. -/
def toInt32 (n : ℤ) : ℤ := n.bmod (2 ^ 32)

namespace CircuitBreaker

/-- `NewCircuitBreaker`. -/
def new (failureThreshold successThreshold halfOpenMaxRequests timeout : ℤ) : CircuitBreaker where
  config :=
    { failureThreshold
      successThreshold
      halfOpenMaxRequests := if halfOpenMaxRequests ≤ 0 then 1 else halfOpenMaxRequests
      timeout
      halfOpenMaxRequests_pos := by split_ifs <;> omega }
  state := .stateClosed
  failures := 0
  successes := 0
  halfOpenReqs := 0
  lastFailure := 0

/-- The cool-down is over: `time.Since(cb.lastFailure) > cb.timeout`. -/
def CooledDown (cb : CircuitBreaker) (now : ℤ) : Prop := cb.config.timeout < now - cb.lastFailure

instance (cb : CircuitBreaker) (now : ℤ) : Decidable (cb.CooledDown now) :=
  inferInstanceAs (Decidable (_ < _))

end CircuitBreaker

/-! ## The atomic steps -/

/-- A step of a procedure: it goes on at `pc`, or it returns. -/
inductive Progress (π ρ : Type) where
  | goes (pc : π)
  | returns (r : ρ)
deriving DecidableEq

/-- Where a call of `Allow` stands; `retries` is how often it may still start again. -/
inductive AllowPc where
  /-- Before `CurrentState`. -/
  | load (retries : ℕ)
  /-- It saw the breaker open, and reads `lastFailure`. -/
  | since (retries : ℕ)
  /-- The cool-down is over: the compare-and-swap from open to half-open. -/
  | swap (retries : ℕ)
  /-- It made the transition, and stores zeros. -/
  | zeroFailures
  | zeroSuccesses
  | zeroReqs
  /-- It saw the breaker half-open: `halfOpenReqs.Add(1)`. -/
  | addReq
  /-- There were too many. -/
  | subReq
deriving DecidableEq

/-- Where a report stands. -/
inductive RecordPc where
  /-- Before `CurrentState`. -/
  | load (ok : Bool)
  /-- It saw the breaker half-open: `halfOpenReqs.Add(-1)`. -/
  | subReq (ok : Bool)
  | addSuccess
  /-- Enough successes: the breaker closes. -/
  | storeClosed
  | closedFailures
  | closedSuccesses
  | closedReqs
  /-- It saw the breaker closed. -/
  | zeroFailures
  | addFailure
  /-- `transitionToOpen`. -/
  | setLastFailure
  | storeOpen
  | openSuccesses
  | openReqs
deriving DecidableEq

namespace CircuitBreaker

/-- `Allow` starts. -/
def allow : AllowPc := .load 3

/-- One step of `allowWithRetry`. -/
def allowStep (now : ℤ) (cb : CircuitBreaker) : AllowPc → CircuitBreaker × Progress AllowPc Bool
  | .load retries =>
    match cb.state with
    | .stateClosed => (cb, .returns true)
    | .stateOpen => (cb, .goes (.since retries))
    | .stateHalfOpen => (cb, .goes .addReq)
  | .since retries =>
    if cb.CooledDown now then (cb, .goes (.swap retries)) else (cb, .returns false)
  | .swap retries =>
    if cb.state = .stateOpen then ({ cb with state := .stateHalfOpen }, .goes .zeroFailures)
    else
      match retries with
      | 0 => (cb, .returns false)
      | n + 1 => (cb, .goes (.load n))
  | .zeroFailures => ({ cb with failures := 0 }, .goes .zeroSuccesses)
  | .zeroSuccesses => ({ cb with successes := 0 }, .goes .zeroReqs)
  | .zeroReqs => ({ cb with halfOpenReqs := 0 }, .returns true)
  | .addReq =>
    ({ cb with halfOpenReqs := cb.halfOpenReqs + 1 },
      if cb.config.halfOpenMaxRequests < cb.halfOpenReqs + 1 then .goes .subReq else .returns true)
  | .subReq => ({ cb with halfOpenReqs := cb.halfOpenReqs - 1 }, .returns false)

/-- One step of `RecordSuccess` or `RecordFailure`. -/
def recordStep (now : ℤ) (cb : CircuitBreaker) :
    RecordPc → CircuitBreaker × Progress RecordPc Unit
  | .load ok =>
    match cb.state with
    | .stateClosed => (cb, .goes (if ok then .zeroFailures else .addFailure))
    | .stateOpen => (cb, .returns ())
    | .stateHalfOpen => (cb, .goes (.subReq ok))
  | .subReq ok =>
    ({ cb with halfOpenReqs := cb.halfOpenReqs - 1 },
      .goes (if ok then .addSuccess else .setLastFailure))
  | .addSuccess =>
    ({ cb with successes := cb.successes + 1 },
      if toInt32 cb.config.successThreshold ≤ cb.successes + 1 then .goes .storeClosed
      else .returns ())
  | .storeClosed => ({ cb with state := .stateClosed }, .goes .closedFailures)
  | .closedFailures => ({ cb with failures := 0 }, .goes .closedSuccesses)
  | .closedSuccesses => ({ cb with successes := 0 }, .goes .closedReqs)
  | .closedReqs => ({ cb with halfOpenReqs := 0 }, .returns ())
  | .zeroFailures => ({ cb with failures := 0 }, .returns ())
  | .addFailure =>
    ({ cb with failures := cb.failures + 1 },
      if toInt32 cb.config.failureThreshold ≤ cb.failures + 1 then .goes .setLastFailure
      else .returns ())
  | .setLastFailure => ({ cb with lastFailure := now }, .goes .storeOpen)
  | .storeOpen => ({ cb with state := .stateOpen }, .goes .openSuccesses)
  | .openSuccesses => ({ cb with successes := 0 }, .goes .openReqs)
  | .openReqs => ({ cb with halfOpenReqs := 0 }, .returns ())

end CircuitBreaker

/-! ## What the steps do to the counter of probes -/

/-- What a step does to `halfOpenReqs`. -/
inductive Touch where
  | keeps
  | takes
  | gives
  | resets
deriving DecidableEq

/-- The counter after the step. -/
def Touch.apply : Touch → ℤ → ℤ
  | keeps, n => n
  | takes, n => n + 1
  | gives, n => n - 1
  | resets, _ => 0

def AllowPc.touch : AllowPc → Touch
  | .addReq => .takes
  | .subReq => .gives
  | .zeroReqs => .resets
  | _ => .keeps

def RecordPc.touch : RecordPc → Touch
  | .subReq _ => .gives
  | .closedReqs | .openReqs => .resets
  | _ => .keeps

namespace CircuitBreaker

variable {now : ℤ} {cb : CircuitBreaker}

theorem allowStep_config (pc : AllowPc) : (cb.allowStep now pc).1.config = cb.config := by
  unfold allowStep
  cases pc with
  | load retries => cases cb.state <;> rfl
  | since retries => simp only; split_ifs <;> rfl
  | swap retries =>
    simp only
    split_ifs
    · rfl
    · cases retries <;> rfl
  | _ => rfl

theorem recordStep_config (pc : RecordPc) : (cb.recordStep now pc).1.config = cb.config := by
  unfold recordStep
  cases pc with
  | load ok => cases cb.state <;> rfl
  | _ => rfl

theorem allowStep_halfOpenReqs (pc : AllowPc) :
    (cb.allowStep now pc).1.halfOpenReqs = pc.touch.apply cb.halfOpenReqs := by
  unfold allowStep
  cases pc with
  | load retries => cases cb.state <;> rfl
  | since retries => simp only; split_ifs <;> rfl
  | swap retries =>
    simp only
    split_ifs
    · rfl
    · cases retries <;> rfl
  | _ => rfl

theorem recordStep_halfOpenReqs (pc : RecordPc) :
    (cb.recordStep now pc).1.halfOpenReqs = pc.touch.apply cb.halfOpenReqs := by
  unfold recordStep
  cases pc with
  | load ok => cases cb.state <;> rfl
  | _ => rfl

/-- The ways to be let in: the breaker is closed, the call made the transition to half-open, or
it is a probe within the limit. -/
theorem allowStep_true {pc : AllowPc} (h : (cb.allowStep now pc).2 = .returns true) :
    (∃ retries, pc = .load retries) ∨ pc = .zeroReqs ∨
      pc = .addReq ∧ cb.halfOpenReqs + 1 ≤ cb.config.halfOpenMaxRequests := by
  cases pc with
  | load retries => exact .inl ⟨retries, rfl⟩
  | since retries =>
    unfold allowStep at h
    simp only at h
    split_ifs at h
    cases h
  | swap retries =>
    unfold allowStep at h
    simp only at h
    split_ifs at h
    cases retries <;> cases h
  | zeroFailures => cases h
  | zeroSuccesses => cases h
  | zeroReqs => exact .inr (.inl rfl)
  | addReq =>
    unfold allowStep at h
    simp only at h
    split_ifs at h with hmax
    exact .inr (.inr ⟨rfl, not_lt.mp hmax⟩)
  | subReq => cases h

/-! ## Undisturbed calls -/

/-- `Allow` from `pc` on, with nobody in between, for at most `n` steps. -/
def allowFrom (now : ℤ) : ℕ → CircuitBreaker → AllowPc → CircuitBreaker × Bool
  | 0, cb, _ => (cb, false)
  | n + 1, cb, pc =>
    let r := cb.allowStep now pc
    match r.2 with
    | .goes pc' => allowFrom now n r.1 pc'
    | .returns b => (r.1, b)

/-- `Allow` in one go; its longest way is the transition to half-open. -/
def allowNow (now : ℤ) (cb : CircuitBreaker) : CircuitBreaker × Bool := allowFrom now 6 cb allow

/-- A report from `pc` on, with nobody in between, for at most `n` steps. -/
def recordFrom (now : ℤ) : ℕ → CircuitBreaker → RecordPc → CircuitBreaker
  | 0, cb, _ => cb
  | n + 1, cb, pc =>
    let r := cb.recordStep now pc
    match r.2 with
    | .goes pc' => recordFrom now n r.1 pc'
    | .returns () => r.1

/-- `RecordSuccess` or `RecordFailure` in one go; its longest way closes the breaker. -/
def recordNow (now : ℤ) (cb : CircuitBreaker) (ok : Bool) : CircuitBreaker :=
  recordFrom now 7 cb (.load ok)

/-- A closed breaker lets everybody in. -/
theorem allowNow_closed (h : cb.state = .stateClosed) : cb.allowNow now = (cb, true) := by
  simp [allowNow, allow, allowFrom, allowStep, h]

/-- A success leaves a closed breaker closed. -/
theorem recordNow_closed (h : cb.state = .stateClosed) :
    (cb.recordNow now true).state = .stateClosed := by
  simp [recordNow, recordFrom, recordStep, h]

end CircuitBreaker

end Gmaker.Cache
