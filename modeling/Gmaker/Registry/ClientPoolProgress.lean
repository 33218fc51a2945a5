import Gmaker.Registry.ClientPoolInv

/-!
# Gmaker.Registry.ClientPoolProgress — somebody goes on, and not for ever

While some goroutine is at an operation, some goroutine has a step that meets the discipline
(`progress`): who holds the lock goes on, or a loop that it waits for does; with the lock
free, everybody else does. And every such step makes a measure smaller
(`measure_smaller`): the operations still to be begun, then the steps left in each place.
-/

namespace Gmaker.Registry.ClientPool

open Gmaker.Lib

/-! ## Progress -/

section Progress

variable {s : State} {t : ℕ} {th : Thread}

/-- Some goroutine has a step, and it meets the discipline. -/
def CanStep (s : State) : Prop :=
  ∃ t th dialed r, s.threads[t]? = some th ∧ stepThread s th dialed = some r ∧ Ok s (.step t dialed)

/-- A step without a connection made asks for nothing, but where connections are to be
closed. -/
theorem CanStep.intro {r : Thread × List Thread × Shared} (ht : s.threads[t]? = some th)
    (hstep : stepThread s th false = some r) (hlocking : th.pc ≠ .stopLocking)
    (hremove : th.pc = .ready → ∀ addr calls, th.calls ≠ .removeNode addr :: calls) : CanStep s := by
  refine ⟨t, th, false, r, ht, hstep, fun uh hu => ?_⟩
  cases ht.symm.trans hu
  split
  · exact Bool.noConfusion
  · next hpc => exact absurd hpc hlocking
  · next hpc =>
    split
    · next addr calls hcalls => exact absurd hcalls (hremove hpc addr calls)
    · trivial
  · trivial

theorem shutdownStep_enabled {c : ℕ} {stage : Stage} (hwait : stage ≠ .wait)
    (hin : stage = .enter → (s.sh.conns c).onceDone = true ∨ s.inside c = false) :
    ∃ r, shutdownStep s c stage = some r := by
  cases stage with
  | enter =>
    simp only [shutdownStep]
    rcases hin rfl with honce | hin
    · exact ⟨_, if_pos honce⟩
    · rw [hin]
      by_cases honce : (s.sh.conns c).onceDone = true
      · exact ⟨_, if_pos honce⟩
      · exact ⟨_, if_neg honce⟩
  | onClose => exact ⟨_, rfl⟩
  | leave => exact ⟨_, rfl⟩
  | wait => exact absurd rfl hwait

/-- Who is at a shutdown, and not at its end, goes on if nobody is inside. -/
theorem canStep_of_shutting {c : ℕ} {stage : Stage} (ht : s.threads[t]? = some th)
    (hat : th.shutting = some (c, stage)) (hwait : stage ≠ .wait)
    (hin : stage = .enter → (s.sh.conns c).onceDone = true ∨ s.inside c = false) : CanStep s := by
  obtain ⟨r, hr⟩ := shutdownStep_enabled (s := s) (c := c) hwait hin
  unfold Thread.shutting at hat
  split at hat
  · next d todo stage' remove hpc =>
    cases hat
    have hstep : ∃ r', stepThread s th false = some r' := by
      unfold stepThread
      simp only [hpc]
      by_cases hgone : stage = .enter ∧ (s.sh.conns c).current = false
      · exact ⟨_, if_pos hgone⟩
      · rw [if_neg hgone, if_neg hwait, hr]
        exact ⟨_, rfl⟩
    obtain ⟨r', hr'⟩ := hstep
    refine .intro ht hr' ?_ ?_
    · rw [hpc]
      exact Pc.noConfusion
    · rw [hpc]
      exact fun hp => by cases hp
  · next stage' hpc =>
    obtain ⟨d, hd, heq⟩ := Option.map_eq_some_iff.mp hat
    cases heq
    have hstep : ∃ r', stepThread s th false = some r' := by
      unfold stepThread
      simp only [hpc]
      cases stage with
      | wait => exact absurd rfl hwait
      | _ =>
        simp only [hd, hr]
        exact ⟨_, rfl⟩
    obtain ⟨r', hr'⟩ := hstep
    refine .intro ht hr' ?_ ?_
    · rw [hpc]
      exact Pc.noConfusion
    · rw [hpc]
      exact fun hp => by cases hp
  · cases hat

/-- Who is inside goes on. -/
theorem canStep_of_inside {c : ℕ} (h : s.inside c = true) : CanStep s := by
  unfold State.inside at h
  obtain ⟨u, hu, hat⟩ := List.any_eq_true.mp h
  obtain ⟨t, ht⟩ := List.mem_iff_getElem?.mp hu
  rw [Bool.or_eq_true, decide_eq_true_eq, decide_eq_true_eq] at hat
  rcases hat with hat | hat
  · exact canStep_of_shutting ht hat Stage.noConfusion Stage.noConfusion
  · exact canStep_of_shutting ht hat Stage.noConfusion Stage.noConfusion

theorem not_busy_iff : th.busy = false ↔
    th.calls = [] ∧ (th.pc = .ready ∨ (∃ stage, th.pc = .exiting stage) ∨ th.pc = .ended) := by
  unfold Thread.busy
  rw [Bool.or_eq_false_iff, Bool.not_eq_false', List.isEmpty_iff]
  refine and_congr_right' ?_
  cases th.pc with
  | ready => exact iff_of_true rfl (.inl rfl)
  | exiting stage => exact iff_of_true rfl (.inr (.inl ⟨stage, rfl⟩))
  | ended => exact iff_of_true rfl (.inr (.inr rfl))
  | _ => simp

/-- A loop whose connection is closed goes on to its end. -/
theorem canStep_of_loop {c : ℕ} (ht : s.threads[t]? = some th) (hconn : th.conn = some c)
    (hended : th.pc ≠ .ended) (hbusy : th.busy = false) (hclosed : (s.sh.conns c).closed = true)
    (honce : (s.sh.conns c).onceDone = true) : CanStep s := by
  obtain ⟨hcalls, hpc⟩ := not_busy_iff.mp hbusy
  have hremove : th.pc = .ready → ∀ addr calls, th.calls ≠ .removeNode addr :: calls := by
    rw [hcalls]
    exact fun _ _ _ hnil => by cases hnil
  rcases hpc with hpc | ⟨stage, hpc⟩ | hpc
  · -- it sees that the connection is closed
    have hidle : ClientPool.idle s th = some { th with pc := .exiting .enter } := by
      unfold ClientPool.idle
      unfold Thread.conn at hconn
      cases hrole : th.role with
      | caller => rw [hrole] at hconn; cases hconn
      | reconnect => rw [hrole] at hconn; cases hconn
      | reader d =>
        rw [hrole] at hconn
        cases hconn
        exact if_pos hclosed
      | writer d =>
        rw [hrole] at hconn
        cases hconn
        exact if_pos hclosed
    have hstep : stepThread s th false = some ({ th with pc := .exiting .enter }, [], s.sh) := by
      unfold stepThread
      simp only [hpc, hcalls, hidle]
      rfl
    exact .intro ht hstep (by rw [hpc]; exact Pc.noConfusion) hremove
  · by_cases hwait : stage = .wait
    · subst hwait
      have hstep : stepThread s th false = some ({ th with pc := .ended }, [], s.sh) := by
        unfold stepThread
        simp only [hpc]
      exact .intro ht hstep (by rw [hpc]; exact Pc.noConfusion) hremove
    · have hat : th.shutting = some (c, stage) := by
        unfold Thread.shutting
        rw [hpc, hconn]
        rfl
      exact canStep_of_shutting ht hat hwait fun _ => .inl honce
  · exact absurd hpc hended

/-- Who holds the lock goes on, or whom it waits for. -/
theorem canStep_of_holds (h : Good s) (ht : s.threads[t]? = some th) (hholds : th.pc.holds = true) :
    CanStep s := by
  have hmem := List.mem_of_getElem? ht
  have hth := h.threads th hmem
  cases hpc : th.pc with
  | reading =>
    have hstep : stepThread s th false = some ({ th with pc := .ready }, [], s.sh) := by
      unfold stepThread
      simp only [hpc]
    exact .intro ht hstep (by rw [hpc]; exact Pc.noConfusion) (by rw [hpc]; exact fun hp => by cases hp)
  | connecting rest all any =>
    have hstep : ∃ r, stepThread s th false = some r := by
      unfold stepThread
      simp only [hpc]
      cases rest with
      | nil => exact ⟨_, rfl⟩
      | cons n rest =>
        simp only [Bool.false_eq_true, if_false]
        split_ifs
        · exact ⟨_, rfl⟩
        · exact ⟨_, rfl⟩
    obtain ⟨r, hr⟩ := hstep
    exact .intro ht hr (by rw [hpc]; exact Pc.noConfusion) (by rw [hpc]; exact fun hp => by cases hp)
  | relock => exact absurd hpc hth.relock
  | closing todo stage remove =>
    have hlocking : th.pc ≠ .stopLocking := by
      rw [hpc]
      exact Pc.noConfusion
    have hremove : th.pc = .ready → ∀ addr calls, th.calls ≠ .removeNode addr :: calls := by
      rw [hpc]
      exact fun hp => by cases hp
    cases todo with
    | nil =>
      have hstep : stepThread s th false = some ({ th with pc := .ready }, [], s.sh.unlist remove) := by
        unfold stepThread
        simp only [hpc]
      exact .intro ht hstep hlocking hremove
    | cons c todo =>
      have hat : th.shutting = some (c, stage) := by
        unfold Thread.shutting
        rw [hpc]
      by_cases hwait : stage = .wait
      · subst hwait
        have honce := hth.waits c hat
        by_cases hdone : s.connDone c = true
        · have hstep : ∃ r, stepThread s th false = some r := by
            unfold stepThread
            simp only [hpc]
            rw [if_neg (by simp), if_pos trivial, if_pos hdone]
            exact ⟨_, rfl⟩
          obtain ⟨r, hr⟩ := hstep
          exact .intro ht hr hlocking hremove
        · -- a loop of the connection has not ended; it is at no operation
          unfold State.connDone at hdone
          rw [List.all_eq_true] at hdone
          push Not at hdone
          obtain ⟨u, hu, hnot⟩ := hdone
          rw [ne_eq, Bool.or_eq_true, decide_eq_true_eq, decide_eq_true_eq, not_or, not_not] at hnot
          obtain ⟨hconn, hended⟩ := hnot
          obtain ⟨j, hj⟩ := List.mem_iff_getElem?.mp hu
          have hbusy : u.busy = false := by
            unfold Thread.conn at hconn
            cases hrole : u.role with
            | caller => rw [hrole] at hconn; cases hconn
            | reconnect => rw [hrole] at hconn; cases hconn
            | reader d =>
              rw [hrole] at hconn
              cases hconn
              exact h.quiet th hmem c ⟨_, _, _, hpc, .inl ⟨Stage.noConfusion, rfl⟩⟩ u hu hrole
            | writer d => exact (h.threads u hu).role.writer d hrole
          exact canStep_of_loop hj hconn hended hbusy (h.shared.once c honce) honce
      · by_cases hin : s.inside c = true
        · exact canStep_of_inside hin
        · exact canStep_of_shutting ht hat hwait fun _ => .inr (by simpa using hin)
  | _ => rw [hpc] at hholds; cases hholds

/-- With the lock free, a goroutine that asks for it goes on, unless it is to close
connections. -/
theorem canStep_of_wants (h : Good s) (ht : s.threads[t]? = some th) (hfree : s.canLock = true)
    (hwants : th.wants = true) (hlocking : th.pc ≠ .stopLocking)
    (hremove : th.pc = .ready → ∀ addr calls, th.calls ≠ .removeNode addr :: calls) : CanStep s := by
  have hrfree := canRLock_of_canLock hfree
  have hstep : ∃ r, stepThread s th false = some r := by
    unfold stepThread
    unfold Thread.wants at hwants
    cases hpc : th.pc with
    | ready =>
      simp only [hpc] at hwants ⊢
      cases hcalls : th.calls with
      | nil => rw [hcalls] at hwants; cases hwants
      | cons call calls =>
        simp only [hcalls] at hwants ⊢
        cases call with
        | removeNode addr => exact absurd hcalls (hremove hpc addr calls)
        | stop => cases hwants
        | watch serviceType => cases hwants
        | _ => simp [ClientPool.begin, hfree, hrfree]
    | relock => exact absurd hpc (h.threads th (List.mem_of_getElem? ht)).relock
    | waking => simp [hfree]
    | counting => simp [hrfree]
    | stopLocking => exact absurd hpc hlocking
    | _ => rw [hpc] at hwants; cases hwants
  obtain ⟨r, hr⟩ := hstep
  exact .intro ht hr hlocking hremove

/-- With the lock free, a goroutine at an operation goes on, unless it is to close
connections. -/
theorem canStep_of_busy (h : Good s) (ht : s.threads[t]? = some th) (hfree : s.canLock = true)
    (hbusy : th.busy = true) (hwaiting : th.pc ≠ .stopWaiting) (hlocking : th.pc ≠ .stopLocking)
    (hremove : th.pc = .ready → ∀ addr calls, th.calls ≠ .removeNode addr :: calls) : CanStep s := by
  have hmem := List.mem_of_getElem? ht
  have hholds := canLock_iff.mp hfree th hmem
  have hends := (h.threads th hmem).role.ends
  cases hpc : th.pc with
  | ready =>
    cases hcalls : th.calls with
    | nil =>
      unfold Thread.busy at hbusy
      rw [hpc, hcalls] at hbusy
      cases hbusy
    | cons call calls =>
      cases hw : th.wants with
      | true => exact canStep_of_wants h ht hfree hw hlocking hremove
      | false =>
        -- the others do not need the lock
        have hstep : ∃ r, stepThread s th false = some r := by
          unfold Thread.wants at hw
          unfold stepThread
          simp only [hpc, hcalls] at hw ⊢
          cases call with
          | stop =>
            simp only [ClientPool.begin]
            split_ifs
            · exact ⟨_, rfl⟩
            · exact ⟨_, rfl⟩
            · exact ⟨_, rfl⟩
          | watch serviceType => exact ⟨_, rfl⟩
          | _ => cases hw
        obtain ⟨r, hr⟩ := hstep
        exact .intro ht hr hlocking hremove
  | started =>
    have hstep : ∃ r, stepThread s th false = some r := by
      unfold stepThread
      simp only [hpc]
      exact ⟨_, rfl⟩
    obtain ⟨r, hr⟩ := hstep
    exact .intro ht hr hlocking hremove
  | waking => exact canStep_of_wants h ht hfree (by rw [Thread.wants, hpc]) hlocking hremove
  | counting => exact canStep_of_wants h ht hfree (by rw [Thread.wants, hpc]) hlocking hremove
  | stopWaiting => exact absurd hpc hwaiting
  | stopLocking => exact absurd hpc hlocking
  | exiting stage =>
    unfold Thread.busy at hbusy
    rw [hends (by rw [hpc]; rfl), hpc] at hbusy
    cases hbusy
  | ended =>
    unfold Thread.busy at hbusy
    rw [hends (by rw [hpc]; rfl), hpc] at hbusy
    cases hbusy
  | _ => rw [hpc] at hholds; cases hholds

/-- An event callback that is in the way of who is to close its connection goes on. -/
theorem quietNodes_or_canStep (h : Good s) (hfree : s.canLock = true) (nodes : List ℕ) :
    QuietNodes s nodes ∨ CanStep s := by
  by_cases hquiet : QuietNodes s nodes
  · exact .inl hquiet
  · unfold QuietNodes Quiet at hquiet
    push Not at hquiet
    obtain ⟨c, -, -, u, hu, hrole, hbusy⟩ := hquiet
    obtain ⟨j, hj⟩ := List.mem_iff_getElem?.mp hu
    obtain ⟨hcalls, hstops⟩ := (h.threads u hu).role.reader c hrole
    refine .inr (canStep_of_busy h hj hfree (by simpa using hbusy) ?_ ?_ fun _ addr calls hremove => ?_)
    · intro hpc
      rw [hpc] at hstops
      cases hstops
    · intro hpc
      rw [hpc] at hstops
      cases hstops
    · have hcloses := hcalls (.removeNode addr) (by rw [hremove]; exact List.mem_cons_self)
      cases hcloses

/-- `Stop` waits for a `reconnectLoop`: that one goes on. -/
theorem canStep_of_reconnect (h : Good s) (ht : s.threads[t]? = some th) (hfree : s.canLock = true)
    (hstopped : s.sh.stopped = true) (hrole : th.role = .reconnect) (hended : th.pc ≠ .ended) :
    CanStep s := by
  have hth := h.threads th (List.mem_of_getElem? ht)
  obtain ⟨hcalls, hstops⟩ := hth.role.reconnect hrole
  have hremove : th.pc = .ready → ∀ addr calls, th.calls ≠ .removeNode addr :: calls := by
    rw [hcalls]
    exact fun _ _ _ hnil => by cases hnil
  have hlocking : th.pc ≠ .stopLocking := by
    intro hpc
    rw [hpc] at hstops
    cases hstops
  cases hbusy : th.busy with
  | true =>
    refine canStep_of_busy h ht hfree hbusy ?_ hlocking hremove
    intro hpc
    rw [hpc] at hstops
    cases hstops
  | false =>
    obtain ⟨-, hpc | ⟨stage, hpc⟩ | hpc⟩ := not_busy_iff.mp hbusy
    · have hstep : stepThread s th false = some ({ th with pc := .ended }, [], s.sh) := by
        unfold stepThread
        simp only [hpc, hcalls, ClientPool.idle, hrole, hstopped]
        rfl
      exact .intro ht hstep hlocking hremove
    · have hconn := hth.role.exits stage hpc
      rw [Thread.conn, hrole] at hconn
      cases hconn
    · exact absurd hpc hended

/-- While somebody is at an operation, some goroutine goes on. -/
theorem progress (h : Good s) : AllReturned s ∨ CanStep s := by
  by_cases hreturned : AllReturned s
  · exact .inl hreturned
  refine .inr ?_
  by_cases hfree : s.canLock = true
  · unfold AllReturned at hreturned
    push Not at hreturned
    obtain ⟨th, hmem, hbusy⟩ := hreturned
    obtain ⟨t, ht⟩ := List.mem_iff_getElem?.mp hmem
    have hth := h.threads th hmem
    have hok : ∀ dialed, (∀ n addr calls, th.pc = .ready → th.calls = .removeNode addr :: calls →
        s.sh.find addr = some n → QuietNodes s [n]) → (th.pc = .stopLocking → QuietNodes s s.sh.nodes) →
        th.pc.holds = false → Ok s (.step t dialed) := by
      intro dialed hremove hlocking hholds uh hu
      cases ht.symm.trans hu
      split
      · next hpc => rw [hpc] at hholds; cases hholds
      · next hpc => exact hlocking hpc
      · next hpc =>
        split
        · next addr calls hcalls => exact fun n hn => hremove n addr calls hpc hcalls hn
        · trivial
      · trivial
    have hholds := canLock_iff.mp hfree th hmem
    by_cases hwaiting : th.pc = .stopWaiting
    · -- `Stop` waits for the loops
      by_cases hdone : s.loopsDone = true
      · have hstep : stepThread s th false = some ({ th with pc := .stopLocking }, [], s.sh) := by
          unfold stepThread
          simp only [hwaiting, hdone]
          rfl
        refine .intro ht hstep (by rw [hwaiting]; exact Pc.noConfusion) ?_
        rw [hwaiting]
        exact fun hp => by cases hp
      · unfold State.loopsDone at hdone
        rw [List.all_eq_true] at hdone
        push Not at hdone
        obtain ⟨u, hu, hnot⟩ := hdone
        rw [ne_eq, Bool.or_eq_true, decide_eq_true_eq, decide_eq_true_eq, not_or, not_not] at hnot
        obtain ⟨j, hj⟩ := List.mem_iff_getElem?.mp hu
        exact canStep_of_reconnect h hj hfree (hth.stopped hwaiting) hnot.1 hnot.2
    · by_cases hlocking : th.pc = .stopLocking
      · -- `Stop` takes the lock, if no callback is in the way
        rcases quietNodes_or_canStep h hfree s.sh.nodes with hquiet | hcan
        · have hstep : ∃ r, stepThread s th false = some r := by
            unfold stepThread
            simp only [hlocking, hfree]
            exact ⟨_, rfl⟩
          obtain ⟨r, hr⟩ := hstep
          refine ⟨t, th, false, r, ht, hr, hok false (fun n addr calls hpc => ?_) (fun _ => hquiet) hholds⟩
          rw [hlocking] at hpc
          cases hpc
        · exact hcan
      · by_cases hremove : th.pc = .ready ∧ ∃ addr calls, th.calls = .removeNode addr :: calls
        · -- `RemoveNode` takes the lock, if no callback is in the way
          obtain ⟨hpc, addr, calls, hcalls⟩ := hremove
          have hstep : ∃ r, stepThread s th false = some r := by
            unfold stepThread
            simp only [hpc, hcalls, ClientPool.begin, hfree, if_true]
            split
            · exact ⟨_, rfl⟩
            · exact ⟨_, rfl⟩
          obtain ⟨r, hr⟩ := hstep
          have hquiet : (∀ n, s.sh.find addr = some n → QuietNodes s [n]) ∨ CanStep s := by
            cases hfind : s.sh.find addr with
            | none => exact .inl fun n hn => by cases hn
            | some m =>
              refine (quietNodes_or_canStep h hfree [m]).imp_left fun hq n hn => ?_
              cases hn
              exact hq
          rcases hquiet with hquiet | hcan
          · refine ⟨t, th, false, r, ht, hr, hok false (fun n addr' calls' _ hcalls' hn => ?_) (fun hp => ?_) hholds⟩
            · cases hcalls.symm.trans hcalls'
              exact hquiet n hn
            · exact absurd hp hlocking
          · exact hcan
        · refine canStep_of_busy h ht hfree (by simpa using hbusy) hwaiting hlocking ?_
          exact fun hpc addr calls hcalls => hremove ⟨hpc, addr, calls, hcalls⟩
  · -- somebody holds the lock
    rw [canLock_iff] at hfree
    push Not at hfree
    obtain ⟨u, hu, hholds⟩ := hfree
    obtain ⟨j, hj⟩ := List.mem_iff_getElem?.mp hu
    exact canStep_of_holds h hj (by simpa using hholds)

end Progress

/-! ## A measure -/

/-- Operations that are still to be begun, and those that will still look at what the pool
has then. -/
def Call.cost : Call → ℕ
  | .read => 2
  | _ => 4

def Pc.cost : Pc → ℕ
  | .stopWaiting => 2
  | .stopLocking => 1
  | .waking => 1
  | _ => 0

def Stage.left : Stage → ℕ
  | .enter => 3
  | .onClose => 2
  | .leave => 1
  | .wait => 0

/-- Steps that are left where a goroutine is, with those of the loops that it starts. -/
def Pc.left : Pc → ℕ
  | .ready => 5
  | .connecting rest _ _ => 12 + 11 * rest.length
  | .started => 11
  | .counting => 7
  | .reading => 6
  | .closing todo stage _ => 6 + 5 * todo.length + stage.left
  | .exiting stage => 1 + stage.left
  | _ => 0

def Thread.cost (th : Thread) : ℕ := (th.calls.map Call.cost).sum + th.pc.cost

def State.cost (s : State) : ℕ := (s.threads.map Thread.cost).sum

def State.left (s : State) : ℕ := (s.threads.map fun th => th.pc.left).sum

section Measure

variable {s s' : State} {t : ℕ} {th : Thread}

/-- A step of a goroutine makes its cost smaller, or leaves it and has fewer steps left. -/
def Smaller (th : Thread) (r : Thread × List Thread × Shared) : Prop :=
  (r.1.cost < th.cost ∨ (r.1.cost = th.cost ∧
    r.1.pc.left + (r.2.1.map fun u => u.pc.left).sum < th.pc.left)) ∧ ∀ u ∈ r.2.1, u.cost = 0

theorem smaller_of_pc {pc : Pc} {sh : Shared} (hcost : pc.cost = th.pc.cost)
    (hleft : pc.left < th.pc.left) : Smaller th ({ th with pc }, [], sh) := by
  refine ⟨.inr ⟨?_, by simpa using hleft⟩, fun u hu => absurd hu List.not_mem_nil⟩
  unfold Thread.cost
  rw [hcost]

theorem smaller_of_cost {pc : Pc} {sh : Shared} (hcost : pc.cost < th.pc.cost) :
    Smaller th ({ th with pc }, [], sh) := by
  refine ⟨.inl ?_, fun u hu => absurd hu List.not_mem_nil⟩
  unfold Thread.cost
  exact Nat.add_lt_add_left hcost _

theorem smaller_of_begin (hpc : th.pc = .ready) {call : Call} {calls : List Call}
    (hcalls : th.calls = call :: calls) {r : Thread × Shared}
    (hstep : ClientPool.begin s th calls call = some r) : Smaller th (r.1, [], r.2) := by
  refine ⟨.inl ?_, fun u hu => absurd hu List.not_mem_nil⟩
  have hcost : th.cost = call.cost + (calls.map Call.cost).sum := by
    unfold Thread.cost
    rw [hpc, hcalls, List.map_cons, List.sum_cons]
    rfl
  have hdone : ({ th with calls } : Thread).cost = (calls.map Call.cost).sum := by
    unfold Thread.cost
    rw [hpc]
    rfl
  rw [hcost]
  cases call with
  | addNode addr =>
    simp only [ClientPool.begin] at hstep
    split_ifs at hstep
    cases hstep
    simp only [hdone, Call.cost]
    omega
  | setOnData =>
    simp only [ClientPool.begin] at hstep
    split_ifs at hstep
    cases hstep
    simp only [hdone, Call.cost]
    omega
  | removeNode addr =>
    simp only [ClientPool.begin] at hstep
    split_ifs at hstep
    split at hstep
    · cases hstep
      simp only [Thread.cost, Pc.cost, Call.cost]
      omega
    · cases hstep
      simp only [hdone, Call.cost]
      omega
  | start =>
    simp only [ClientPool.begin] at hstep
    split_ifs at hstep
    cases hstep
    simp only [Thread.cost, Pc.cost, Call.cost]
    omega
  | stop =>
    simp only [ClientPool.begin] at hstep
    split_ifs at hstep
    · cases hstep
      simp only [hdone, Call.cost]
      omega
    · cases hstep
      simp only [Thread.cost, Pc.cost, Call.cost]
      omega
    · cases hstep
      simp only [hdone, Call.cost]
      omega
  | read =>
    simp only [ClientPool.begin] at hstep
    split_ifs at hstep
    cases hstep
    simp only [Thread.cost, Pc.cost, Call.cost]
    omega
  | watch serviceType =>
    simp only [ClientPool.begin, Option.some.injEq] at hstep
    subst hstep
    simp only [Thread.cost, hpc, Pc.cost, Call.cost, List.map_cons, List.sum_cons]
    omega

theorem left_of_shutdownStep {c : ℕ} {stage : Stage} {r : Stage × Shared}
    (hstep : shutdownStep s c stage = some r) : r.1.left < stage.left := by
  cases stage with
  | enter =>
    simp only [shutdownStep] at hstep
    split_ifs at hstep
    · cases hstep
      exact Nat.zero_lt_succ 2
    · cases hstep
      exact Nat.lt_succ_self 2
  | onClose =>
    cases hstep
    exact Nat.lt_succ_self 1
  | leave =>
    cases hstep
    exact Nat.zero_lt_one
  | wait => cases hstep

theorem smaller_of_step {dialed : Bool} {r : Thread × List Thread × Shared}
    (hstep : stepThread s th dialed = some r) : Smaller th r := by
  unfold stepThread at hstep
  cases hpc : th.pc with
  | ready =>
    simp only [hpc] at hstep
    cases hcalls : th.calls with
    | nil =>
      simp only [hcalls] at hstep
      obtain ⟨th', hth', rfl⟩ := Option.map_eq_some_iff.mp hstep
      have hends : ∃ pc, th' = { th with pc } ∧ pc.cost = 0 ∧ pc.left < 5 := by
        unfold ClientPool.idle at hth'
        split at hth'
        · cases hth'
        all_goals
          split_ifs at hth'
          cases hth'
          exact ⟨_, rfl, rfl, by decide⟩
      obtain ⟨pc, rfl, hcost, hleft⟩ := hends
      refine smaller_of_pc ?_ ?_
      · rw [hcost, hpc]
        rfl
      · rw [hpc]
        exact hleft
    | cons call calls =>
      simp only [hcalls] at hstep
      obtain ⟨r', hr', rfl⟩ := Option.map_eq_some_iff.mp hstep
      exact smaller_of_begin hpc hcalls hr'
  | connecting rest all any =>
    simp only [hpc] at hstep
    cases rest with
    | nil =>
      cases hstep
      refine smaller_of_pc ?_ ?_
      · rw [hpc]
        split_ifs
        · rfl
        · rfl
        · rfl
      · rw [hpc]
        split_ifs
        all_goals
          simp only [Pc.left]
          omega
    | cons n rest =>
      simp only at hstep
      have hskip : ∀ any' sh, Smaller th ({ th with pc := .connecting rest all any' }, [], sh) := by
        intro any' sh
        refine smaller_of_pc ?_ ?_
        · rw [hpc]
          rfl
        · rw [hpc]
          simp only [Pc.left, List.length_cons]
          omega
      split_ifs at hstep
      · cases hstep
        -- two loops are started
        refine ⟨.inr ⟨?_, ?_⟩, ?_⟩
        · simp only [Thread.cost, hpc]
          rfl
        · simp only [hpc, Pc.left, List.map_cons, List.map_nil, List.sum_cons, List.sum_nil, List.length_cons]
          omega
        · intro u hu
          rcases List.mem_cons.mp hu with rfl | hu
          · rfl
          · rw [List.mem_singleton.mp hu]
            rfl
      · cases hstep
        refine ⟨.inr ⟨?_, ?_⟩, ?_⟩
        · simp only [Thread.cost, hpc]
          rfl
        · simp only [hpc, Pc.left, List.map_cons, List.map_nil, List.sum_cons, List.sum_nil, List.length_cons]
          omega
        · intro u hu
          rcases List.mem_cons.mp hu with rfl | hu
          · rfl
          · rw [List.mem_singleton.mp hu]
            rfl
      · cases hstep
        exact hskip any _
      · cases hstep
        exact hskip any _
  | relock =>
    simp only [hpc] at hstep
    cases hstep
  | started =>
    simp only [hpc] at hstep
    cases hstep
    refine ⟨.inr ⟨?_, ?_⟩, fun u hu => ?_⟩
    · simp only [Thread.cost, hpc]
      rfl
    · rw [hpc]
      exact Nat.lt_succ_self 10
    · rw [List.mem_singleton.mp hu]
      rfl
  | waking =>
    simp only [hpc] at hstep
    split_ifs at hstep
    cases hstep
    refine smaller_of_cost ?_
    rw [hpc]
    exact Nat.zero_lt_one
  | counting =>
    simp only [hpc] at hstep
    split_ifs at hstep
    cases hstep
    refine smaller_of_pc ?_ ?_
    · rw [hpc]
      rfl
    · rw [hpc]
      decide
  | reading =>
    simp only [hpc] at hstep
    cases hstep
    refine smaller_of_pc ?_ ?_
    · rw [hpc]
      rfl
    · rw [hpc]
      decide
  | closing todo stage remove =>
    simp only [hpc] at hstep
    cases todo with
    | nil =>
      cases hstep
      refine smaller_of_pc ?_ ?_
      · rw [hpc]
        rfl
      · rw [hpc]
        simp only [Pc.left]
        omega
    | cons c todo =>
      have hskip : ∀ sh, Smaller th ({ th with pc := .closing todo .enter remove }, [], sh) := by
        intro sh
        refine smaller_of_pc ?_ ?_
        · rw [hpc]
          rfl
        · rw [hpc]
          simp only [Pc.left, Stage.left, List.length_cons]
          omega
      simp only at hstep
      split_ifs at hstep
      · cases hstep
        exact hskip _
      · cases hstep
        exact hskip _
      · obtain ⟨r', hr', rfl⟩ := Option.map_eq_some_iff.mp hstep
        have hleft := left_of_shutdownStep hr'
        refine smaller_of_pc ?_ ?_
        · rw [hpc]
          rfl
        · rw [hpc]
          simp only [Pc.left]
          omega
  | stopWaiting =>
    simp only [hpc] at hstep
    split_ifs at hstep
    cases hstep
    refine smaller_of_cost ?_
    rw [hpc]
    exact Nat.one_lt_two
  | stopLocking =>
    simp only [hpc] at hstep
    split_ifs at hstep
    cases hstep
    refine smaller_of_cost ?_
    rw [hpc]
    exact Nat.zero_lt_one
  | exiting stage =>
    simp only [hpc] at hstep
    have hgo : ∀ r' c, shutdownStep s c stage = some r' →
        Smaller th ({ th with pc := .exiting r'.1 }, [], r'.2) := by
      intro r' c hr'
      have hleft := left_of_shutdownStep hr'
      refine smaller_of_pc ?_ ?_
      · rw [hpc]
        rfl
      · rw [hpc]
        exact Nat.add_lt_add_left hleft 1
    cases stage with
    | wait =>
      cases hstep
      refine smaller_of_pc ?_ ?_
      · rw [hpc]
        rfl
      · rw [hpc]
        exact Nat.zero_lt_one
    | _ =>
      simp only at hstep
      split at hstep
      · obtain ⟨r', hr', rfl⟩ := Option.map_eq_some_iff.mp hstep
        exact hgo r' _ hr'
      · cases hstep
  | ended =>
    simp only [hpc] at hstep
    cases hstep

/-- An internal step makes the measure smaller. -/
theorem measure_smaller {l : Label} (hl : Internal l) (hstep : next s l = some s') :
    Prod.Lex (· < ·) (· < ·) (s'.cost, s'.left) (s.cost, s.left) := by
  cases l with
  | step t dialed =>
    unfold next at hstep
    split_ifs at hstep
    simp only at hstep
    split at hstep
    · next th ht =>
      obtain ⟨r, hr, rfl⟩ := Option.map_eq_some_iff.mp hstep
      obtain ⟨hsmaller, hnew⟩ := smaller_of_step hr
      have hzero : (r.2.1.map Thread.cost).sum = 0 := by
        refine List.sum_eq_zero fun x hx => ?_
        obtain ⟨u, hu, rfl⟩ := List.mem_map.mp hx
        exact hnew u hu
      have hcost := sum_map_set (y := r.1) Thread.cost ht
      have hleft := sum_map_set (y := r.1) (fun u => u.pc.left) ht
      have hcost' : ({ threads := s.threads.set t r.1 ++ r.2.1, sh := r.2.2 } : State).cost =
          ((s.threads.set t r.1).map Thread.cost).sum := by
        unfold State.cost
        rw [List.map_append, List.sum_append, hzero, Nat.add_zero]
      have hleft' : ({ threads := s.threads.set t r.1 ++ r.2.1, sh := r.2.2 } : State).left =
          ((s.threads.set t r.1).map fun u => u.pc.left).sum + (r.2.1.map fun u => u.pc.left).sum := by
        unfold State.left
        rw [List.map_append, List.sum_append]
      rw [hcost', hleft']
      unfold State.cost State.left
      rcases hsmaller with hless | ⟨hsame, hless⟩
      · exact .left _ _ (by omega)
      · have heq : ((s.threads.set t r.1).map Thread.cost).sum = (s.threads.map Thread.cost).sum := by
          omega
        rw [heq]
        exact .right _ (by omega)
    · cases hstep
  | _ => exact hl.elim

end Measure

end Gmaker.Registry.ClientPool
