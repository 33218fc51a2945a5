import Gmaker.Lib.Fold
import Gmaker.Lib.Machine

/-!
# Gmaker.Lib.Trap — runs that do not recover

Where a step that does not meet the condition leads into a set of states that no step leaves,
the state at the end of a run tells whether all its steps have met the condition.
-/

namespace Gmaker.Lib

universe u v

variable {σ : Type u} {ι : Type v} {next : σ → ι → Option σ} {P : σ → ι → Prop} {I B : σ → Prop}

/-- A set that no step leaves. -/
theorem trapped (htrap : ∀ s l s', B s → next s l = some s' → B s') {s t : σ} {ls : List ι}
    (hs : B s) (hrun : run next s ls = some t) : B t :=
  run_invariant_all htrap hs hrun

/-- What holds at the end of exactly those runs whose steps all meet the condition: it follows
from what such steps keep, and it fails in the trap. -/
theorem runOk_iff_of_trap (hkeep : ∀ s l s', I s → P s l → next s l = some s' → I s')
    (hfall : ∀ s l s', I s → ¬ P s l → next s l = some s' → B s')
    (htrap : ∀ s l s', B s → next s l = some s' → B s')
    {s t : σ} {ls : List ι} (hinv : I s) (hrun : run next s ls = some t) {J : Prop}
    (hgood : I t → J) (hbad : B t → ¬ J) : RunOk next P s ls ↔ J := by
  constructor
  · intro hok
    exact hgood (run_invariant (fun s l s' hl hI => hkeep s l s' hI hl) hinv hok hrun)
  · intro hJ
    induction ls generalizing s with
    | nil => trivial
    | cons l ls ih =>
      obtain ⟨s', hs', hrest⟩ := run_cons_eq_some.mp hrun
      have hl : P s l := by
        by_contra hno
        exact hbad (trapped htrap (hfall s l s' hinv hno hs') hrest) hJ
      refine ⟨hl, fun u hu => ?_⟩
      cases hs'.symm.trans hu
      exact ih (hkeep s l s' hinv hl hs') hrest

/-- The same for a loop. -/
theorem foldOk_iff_of_trap {f : σ → ι → σ} {ok : σ → ι → Prop}
    (hkeep : ∀ s a, I s → ok s a → I (f s a)) (hfall : ∀ s a, I s → ¬ ok s a → B (f s a))
    (htrap : ∀ s a, B s → B (f s a)) {s : σ} {l : List ι} (hinv : I s) {J : Prop}
    (hgood : I (l.foldl f s) → J) (hbad : B (l.foldl f s) → ¬ J) : FoldOk f ok s l ↔ J := by
  constructor
  · intro hok
    exact hgood (foldl_invariant (fun t a _ hl hI => hkeep t a hI hl) hinv hok)
  · intro hJ
    induction l generalizing s with
    | nil => trivial
    | cons a l ih =>
      have ha : ok s a := by
        by_contra hno
        have hend : B (l.foldl f (f s a)) :=
          foldl_invariant_all (fun t b _ => htrap t b) (hfall s a hinv hno)
        exact hbad hend hJ
      exact ⟨ha, ih (hkeep s a hinv ha) hgood hbad⟩

end Gmaker.Lib
