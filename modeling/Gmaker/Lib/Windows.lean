import Mathlib

/-!
# Gmaker.Lib.Windows — events that keep their distance

A log has the times at which something happened to each of many keys, the newest first. Nothing
happens to a key twice in any window of a length if and only if two events of one key are that
far apart, and for a new event only the last one of its key need be looked at.
-/

namespace Gmaker.Lib

universe u

variable {κ : Type u} {w now : ℕ} {k : κ} {log : List (κ × ℕ)}

/-- The newest is first. -/
def NewestFirst (log : List (κ × ℕ)) : Prop := log.Pairwise fun p q => q.2 ≤ p.2

/-- Two events of one key are so far apart. -/
def Spaced (w : ℕ) (log : List (κ × ℕ)) : Prop :=
  log.Pairwise fun p q => p.1 = q.1 → q.2 + w ≤ p.2

variable [DecidableEq κ]

/-- In any window of the length there is at most one event of a key. -/
def OncePerWindow (w : ℕ) (log : List (κ × ℕ)) : Prop :=
  ∀ k start, (log.filter fun p => p.1 = k ∧ start ≤ p.2 ∧ p.2 < start + w).length ≤ 1

/-- At most one event in any window, and so much time between two events, are the same. -/
theorem oncePerWindow_iff (hsorted : NewestFirst log) : OncePerWindow w log ↔ Spaced w log := by
  constructor
  · intro h
    refine List.pairwise_iff_forall_sublist.mpr fun {p q} hsub hkey => ?_
    by_contra hnear
    have hle : q.2 ≤ p.2 := List.pairwise_iff_forall_sublist.mp hsorted hsub
    -- the window that begins with the older one has both
    have hboth : [p, q].filter
        (fun r => decide (r.1 = q.1 ∧ q.2 ≤ r.2 ∧ r.2 < q.2 + w)) = [p, q] := by
      refine List.filter_eq_self.mpr fun r hr => ?_
      rw [decide_eq_true_iff]
      rcases List.mem_pair.mp hr with rfl | rfl
      · exact ⟨hkey, hle, by omega⟩
      · exact ⟨rfl, le_rfl, by omega⟩
    have hlength := (hsub.filter
      (fun r => decide (r.1 = q.1 ∧ q.2 ≤ r.2 ∧ r.2 < q.2 + w))).length_le
    rw [hboth] at hlength
    exact absurd (hlength.trans (h q.1 q.2)) (Nat.not_succ_le_self 1)
  · intro h k start
    have hspaced := List.Pairwise.filter
      (fun p : κ × ℕ => decide (p.1 = k ∧ start ≤ p.2 ∧ p.2 < start + w)) h
    have hmem : ∀ p ∈ log.filter (fun p => decide (p.1 = k ∧ start ≤ p.2 ∧ p.2 < start + w)),
        p.1 = k ∧ start ≤ p.2 ∧ p.2 < start + w :=
      fun p hp => of_decide_eq_true (List.mem_filter.mp hp).2
    generalize log.filter (fun p => decide (p.1 = k ∧ start ≤ p.2 ∧ p.2 < start + w)) = inside at *
    rcases inside with _ | ⟨p, _ | ⟨q, rest⟩⟩
    · exact Nat.zero_le 1
    · exact le_rfl
    · exfalso
      have hp := hmem p List.mem_cons_self
      have hq := hmem q (List.mem_cons_of_mem _ List.mem_cons_self)
      have hfar := List.rel_of_pairwise_cons hspaced List.mem_cons_self (hp.1.trans hq.1.symm)
      omega

/-- The last event of a key is the latest. -/
theorem le_of_lookup (hsorted : NewestFirst log) {last : ℕ} (hlast : log.lookup k = some last)
    {t : ℕ} (ht : (k, t) ∈ log) : t ≤ last := by
  induction log with
  | nil => cases ht
  | cons p log ih =>
    rcases List.pairwise_cons.mp hsorted with ⟨hfirst, hrest⟩
    rw [List.lookup_cons] at hlast
    by_cases hkey : k = p.1
    · rw [beq_iff_eq.mpr hkey] at hlast
      cases hlast
      rcases List.mem_cons.mp ht with heq | hmem
      · rw [← heq]
      · exact hfirst _ hmem
    · rw [beq_eq_false_iff_ne.mpr hkey] at hlast
      rcases List.mem_cons.mp ht with heq | hmem
      · exact absurd (congrArg Prod.fst heq) hkey
      · exact ih hrest hlast hmem

theorem mem_of_lookup {last : ℕ} (hlast : log.lookup k = some last) : (k, last) ∈ log := by
  induction log with
  | nil => cases hlast
  | cons p log ih =>
    rw [List.lookup_cons] at hlast
    by_cases hkey : k = p.1
    · rw [beq_iff_eq.mpr hkey] at hlast
      cases hlast
      rw [hkey]
      exact List.mem_cons_self
    · rw [beq_eq_false_iff_ne.mpr hkey] at hlast
      exact List.mem_cons_of_mem _ (ih hlast)

theorem lookup_of_mem {t : ℕ} (ht : (k, t) ∈ log) : ∃ last, log.lookup k = some last := by
  induction log with
  | nil => cases ht
  | cons p log ih =>
    rw [List.lookup_cons]
    by_cases hkey : k = p.1
    · exact ⟨p.2, by rw [beq_iff_eq.mpr hkey]⟩
    · rw [beq_eq_false_iff_ne.mpr hkey]
      rcases List.mem_cons.mp ht with heq | hmem
      · exact absurd (congrArg Prod.fst heq) hkey
      · exact ih hmem

/-- A new event keeps the distance if and only if it is far enough from the last of its key. -/
theorem spaced_cons_iff (hsorted : NewestFirst log) :
    Spaced w ((k, now) :: log) ↔
      Spaced w log ∧ ∀ last, log.lookup k = some last → last + w ≤ now := by
  unfold Spaced
  rw [List.pairwise_cons, and_comm]
  refine and_congr_right fun _ => ⟨fun h last hlast => ?_, fun h p hp hkey => ?_⟩
  · exact h (k, last) (mem_of_lookup hlast) rfl
  · rcases p with ⟨k', t⟩
    cases hkey
    rcases lookup_of_mem hp with ⟨last, hlast⟩
    have hle := le_of_lookup hsorted hlast hp
    have hfar := h last hlast
    dsimp only
    omega

end Gmaker.Lib
