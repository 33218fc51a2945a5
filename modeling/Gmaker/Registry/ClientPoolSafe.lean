import Gmaker.Registry.ClientPoolProgress

/-!
# Gmaker.Registry.ClientPoolSafe — nobody waits for ever on the pool's lock

The invariant, progress and the measure together: where every step of a run meets the
discipline, the lock is not asked for twice, whoever is waited for under it can go on, and
every operation returns (`safe_of_run`). Where a node is connected while a service type is
watched, `Start` or `reconnectLoop` never goes on (`start_relocks`).
-/

namespace Gmaker.Registry.ClientPool

open Gmaker.Lib

/-! ## Every run -/

theorem Good.init : Good {} where
  excl := by intro t u th uh ht; cases ht
  threads := by intro th hth; cases hth
  shared := .init
  quiet := by intro th hth; cases hth

section Runs

variable {s : State}

theorem wants_of_not_busy {th : Thread} (h : th.busy = false) : th.wants = false := by
  obtain ⟨hcalls, hpc | ⟨stage, hpc⟩ | hpc⟩ := not_busy_iff.mp h
  · rw [Thread.wants, hpc, hcalls]
  · rw [Thread.wants, hpc]
  · rw [Thread.wants, hpc]

/-- Whom somebody waits for under the lock, is at no operation. -/
theorem Good.waits (h : Good s) {th u : Thread} (hth : th ∈ s.threads) (hu : u ∈ s.threads)
    (hholds : th.pc.holds = true) (hwaits : WaitsFor s th u) : u.busy = false := by
  obtain ⟨c, stage, hat, hwhom⟩ := hwaits
  obtain ⟨t, ht⟩ := List.mem_iff_getElem?.mp hth
  obtain ⟨j, hj⟩ := List.mem_iff_getElem?.mp hu
  obtain ⟨todo, remove, hpc⟩ : ∃ todo remove, th.pc = .closing (c :: todo) stage remove := by
    unfold Thread.shutting at hat
    split at hat
    · next d todo stage' remove hpc =>
      cases hat
      exact ⟨todo, remove, hpc⟩
    · next hpc =>
      rw [hpc] at hholds
      cases hholds
    · cases hat
  rcases hwhom with ⟨rfl, hconn, -⟩ | ⟨rfl, -, hinside⟩
  · -- a loop of the connection
    unfold Thread.conn at hconn
    cases hrole : u.role with
    | caller => rw [hrole] at hconn; cases hconn
    | reconnect => rw [hrole] at hconn; cases hconn
    | reader d =>
      rw [hrole] at hconn
      cases hconn
      exact h.quiet th hth c ⟨_, _, _, hpc, .inl ⟨Stage.noConfusion, rfl⟩⟩ u hu hrole
    | writer d => exact (h.threads u hu).role.writer d hrole
  · -- a goroutine inside `closeOnce.Do`: only a loop, as it would hold the lock else
    have hnot : ∀ todo' stage' remove', u.pc ≠ .closing todo' stage' remove' := by
      intro todo' stage' remove' hpcu
      by_cases htj : t = j
      · subst htj
        cases ht.symm.trans hj
        rw [hat] at hinside
        rcases hinside with hinside | hinside
        · cases hinside
        · cases hinside
      · have hfree := h.excl t j th u ht hj htj (by rw [hpc]; rfl)
        rw [hpcu] at hfree
        cases hfree
    have hexit : ∃ stage', u.pc = .exiting stage' := by
      have hsome : ∃ p, u.shutting = some p := by
        rcases hinside with hinside | hinside
        · exact ⟨_, hinside⟩
        · exact ⟨_, hinside⟩
      obtain ⟨p, hp⟩ := hsome
      unfold Thread.shutting at hp
      split at hp
      · next hpcu => exact absurd hpcu (hnot _ _ _)
      · next stage' hpcu => exact ⟨stage', hpcu⟩
      · cases hp
    obtain ⟨stage', hpcu⟩ := hexit
    exact not_busy_iff.mpr ⟨(h.threads u hu).role.ends (by rw [hpcu]; rfl), .inr (.inl ⟨stage', hpcu⟩)⟩

theorem Good.safe (h : Good s) : Safe s where
  relock := by
    intro th hth hholds
    cases hpc : th.pc with
    | relock => exact absurd hpc (h.threads th hth).relock
    | reading => rw [Thread.wants, hpc]
    | connecting => rw [Thread.wants, hpc]
    | closing => rw [Thread.wants, hpc]
    | _ => rw [hpc] at hholds; cases hholds
  waits := by
    intro th hth u hu hholds hwaits
    have hbusy := h.waits hth hu hholds hwaits
    exact ⟨wants_of_not_busy hbusy, hbusy⟩
  returns := by
    refine inevitably_of_measure (WellFounded.prod_lex wellFounded_lt wellFounded_lt)
      (fun s => (s.cost, s.left)) (I := Good) (fun s l s' hs hl hstep => hs.next hl.2 hstep)
      (fun s hs => ?_) (fun s l s' _ hl hstep => measure_smaller hl.1 hstep) h
    cases hpanicked : s.sh.panicked with
    | true => exact .inl (.inr rfl)
    | false =>
      rcases progress hs with hreturned | ⟨t, th, dialed, r, ht, hr, hok⟩
      · exact .inl (.inl hreturned)
      · refine .inr ⟨.step t dialed, { threads := s.threads.set t r.1 ++ r.2.1, sh := r.2.2 },
          ⟨trivial, hok⟩, ?_⟩
        unfold ClientPool.next
        rw [hpanicked]
        simp only [Bool.false_eq_true, if_false, ht, hr]
        rfl

/-- **Lock discipline.** In every run whose steps all meet the discipline, nobody asks for
`p.mu` while holding it, nobody holding it waits for a goroutine that is at an operation of
the pool, and every operation returns. -/
theorem safe_of_run {ls : List Label} (hrun : run ClientPool.next {} ls = some s)
    (hok : RunOk ClientPool.next Ok {} ls) : Safe s :=
  (run_invariant (fun _ _ _ hl h hstep => h.next hl hstep) Good.init hok hrun).safe

end Runs

/-- A pool whose node is connected while nothing is watched. -/
def connectRun : List Label :=
  [.spawn [.addNode "127.0.0.1:2379", .start], .step 0 false, .step 0 false, .step 0 true]

theorem safe_of_run_connect : ∃ s, run next {} connectRun = some s ∧ Safe s := by
  obtain ⟨s, hrun⟩ : ∃ s, run next {} connectRun = some s := ⟨_, rfl⟩
  have hok : RunOk next Ok {} connectRun := by
    refine ⟨trivial, fun s₁ h₁ => ?_⟩
    cases h₁
    refine ⟨fun th ht => ?_, fun s₂ h₂ => ?_⟩
    · cases ht
      trivial
    cases h₂
    refine ⟨fun th ht => ?_, fun s₃ h₃ => ?_⟩
    · cases ht
      trivial
    cases h₃
    refine ⟨fun th ht => ?_, fun _ _ => trivial⟩
    cases ht
    exact fun _ => rfl
  exact ⟨s, hrun, safe_of_run hrun hok⟩

/-! ## Where the discipline is broken -/

/-- Who asks for the lock that it holds, never goes on. -/
theorem relock_stays {s s' : State} {ls : List Label} {t : ℕ} {th : Thread}
    (ht : s.threads[t]? = some th) (hpc : th.pc = .relock) (hrun : run next s ls = some s') :
    s'.threads[t]? = some th := by
  refine run_invariant_all (I := fun s => s.threads[t]? = some th) (fun s l s' hs hstep => ?_) ht hrun
  have hlt : t < s.threads.length := (List.getElem?_eq_some_iff.mp hs).1
  -- another goroutine's entry is replaced
  have hother : ∀ (j : ℕ) (uh uh' : Thread) (new : List Thread), j ≠ t → s.threads[j]? = some uh →
      (s.threads.set j uh' ++ new)[t]? = some th := by
    intro j uh uh' new hj _
    rw [List.getElem?_append_left (by simpa using hlt), List.getElem?_set_ne hj, hs]
  unfold next at hstep
  split_ifs at hstep
  cases l with
  | spawn calls =>
    cases hstep
    exact (List.getElem?_append_left hlt).trans hs
  | step j dialed =>
    simp only at hstep
    split at hstep
    · next uh hj =>
      obtain ⟨r, hr, rfl⟩ := Option.map_eq_some_iff.mp hstep
      by_cases hjt : j = t
      · subst hjt
        cases hs.symm.trans hj
        unfold stepThread at hr
        simp only [hpc] at hr
        cases hr
      · exact hother j uh r.1 r.2.1 hjt hj
    · cases hstep
  | tick j =>
    simp only at hstep
    split at hstep
    · next uh hj =>
      split_ifs at hstep with hguard
      cases hstep
      rw [← List.append_nil (s.threads.set j _)]
      refine hother j uh _ [] ?_ hj
      rintro rfl
      cases hs.symm.trans hj
      rw [hpc] at hguard
      cases hguard.2
    · cases hstep
  | packet j calls =>
    simp only at hstep
    split at hstep
    · next uh hj =>
      split at hstep
      · split_ifs at hstep with hguard
        cases hstep
        rw [← List.append_nil (s.threads.set j _)]
        refine hother j uh _ [] ?_ hj
        rintro rfl
        cases hs.symm.trans hj
        rw [hpc] at hguard
        cases hguard.1
      · cases hstep
    · cases hstep
  | fail j =>
    simp only at hstep
    split at hstep
    · next uh hj =>
      split_ifs at hstep with hguard
      cases hstep
      rw [← List.append_nil (s.threads.set j _)]
      refine hother j uh _ [] ?_ hj
      rintro rfl
      cases hs.symm.trans hj
      rw [hpc] at hguard
      cases hguard.2.1
    · cases hstep

/-- A node is connected while a service type is watched. -/
def watchedRun : List Label :=
  [.spawn [.addNode "127.0.0.1:2379", .watch "gateway", .start], .step 0 false, .step 0 false,
    .step 0 false, .step 0 false, .step 0 false, .step 0 true]

/-- `Start` asks for the lock that it holds, and never returns. -/
theorem start_relocks : ∃ s th, run next {} watchedRun = some s ∧ s.threads[0]? = some th ∧
    th.pc.holds = true ∧ th.wants = true ∧
    ∀ ls s', run next s ls = some s' → s'.threads[0]? = some th :=
  ⟨_, _, rfl, rfl, rfl, rfl, fun _ _ hrun => relock_stays rfl rfl hrun⟩

end Gmaker.Registry.ClientPool
