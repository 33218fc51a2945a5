import Gmaker.Lib.Machine

/-!
# Gmaker.Lib.Inevitable — what a machine comes to, whatever it does

`Inevitably next ok P s`: going on from `s` with labels that meet `ok`, in any order, the
machine comes to a state with `P`, and it cannot stop before. The rule for it: while `P`
does not hold some step can be taken (progress), and every step makes a measure smaller.
-/

namespace Gmaker.Lib

universe u v w

variable {σ : Type u} {ι : Type v}

/-- Every way to go on leads to a state with `P`. -/
inductive Inevitably (next : σ → ι → Option σ) (ok : σ → ι → Prop) (P : σ → Prop) : σ → Prop where
  | now {s : σ} (h : P s) : Inevitably next ok P s
  | later {s : σ} (some_step : ∃ l s', ok s l ∧ next s l = some s')
      (every_step : ∀ l s', ok s l → next s l = some s' → Inevitably next ok P s') :
      Inevitably next ok P s

variable {next : σ → ι → Option σ} {ok : σ → ι → Prop} {P : σ → Prop}

/-- Progress, and a measure that every step makes smaller. -/
theorem inevitably_of_measure {α : Type w} {r : α → α → Prop} (hwf : WellFounded r) (m : σ → α)
    {I : σ → Prop} (hkeep : ∀ s l s', I s → ok s l → next s l = some s' → I s')
    (hprogress : ∀ s, I s → P s ∨ ∃ l s', ok s l ∧ next s l = some s')
    (hsmaller : ∀ s l s', I s → ok s l → next s l = some s' → r (m s') (m s))
    {s : σ} (hs : I s) : Inevitably next ok P s := by
  -- induction on the measure of the state
  generalize ha : m s = a
  induction a using hwf.induction generalizing s with
  | _ a ih =>
    subst ha
    rcases hprogress s hs with hP | hstep
    · exact .now hP
    · refine .later hstep fun l s' hok hs' => ?_
      exact ih (m s') (hsmaller s l s' hs hok hs') (hkeep s l s' hs hok hs') rfl

end Gmaker.Lib
