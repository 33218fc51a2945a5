import Mathlib

/-!
# Gmaker.Lib.Ladder — climbing a ladder whose rungs have a price

A climber spends what it holds on the next rung as long as it can pay for it and the ladder goes
on. What it has spent and what it holds, its `worth`, is the same all the way up, and where it
comes to rest is determined by that (`Rests.eq`). So what is earned on the way may be earned in
parts, with a climb after each (`Rests.eq_of_add`).
-/

namespace Gmaker.Lib

open Relation

universe u

/-- So many rungs up, with so much in hand. -/
@[ext]
structure Climber (M : Type u) where
  rung : ℕ
  held : M
deriving DecidableEq

namespace Climber

variable {M : Type u} [AddCommMonoid M]

/-- What it holds, and what the rungs below it have cost. -/
def worth (price : ℕ → M) (p : Climber M) : M := ∑ i ∈ Finset.range p.rung, price i + p.held

/-- It comes by `a` more. -/
def earn (p : Climber M) (a : M) : Climber M := { p with held := p.held + a }

@[simp] theorem rung_earn (p : Climber M) (a : M) : (p.earn a).rung = p.rung := rfl

@[simp] theorem held_earn (p : Climber M) (a : M) : (p.earn a).held = p.held + a := rfl

theorem worth_earn (price : ℕ → M) (p : Climber M) (a : M) :
    (p.earn a).worth price = p.worth price + a := by
  simp [worth, add_assoc]

/-- It pays for the next rung of a ladder that ends at `top`. -/
structure Climbs (price : ℕ → M) (top : ℕ) (p q : Climber M) : Prop where
  below : p.rung < top
  up : q.rung = p.rung + 1
  paid : p.held = price p.rung + q.held

theorem Climbs.worth_eq {price : ℕ → M} {top : ℕ} {p q : Climber M} (h : Climbs price top p q) :
    q.worth price = p.worth price := by
  rw [worth, worth, h.up, h.paid, Finset.sum_range_succ, add_assoc]

theorem rung_le_of_climbs {price : ℕ → M} {top : ℕ} {p q : Climber M}
    (h : ReflTransGen (Climbs price top) p q) : p.rung ≤ q.rung := by
  induction h with
  | refl => exact le_rfl
  | tail _ hstep ih => exact ih.trans (hstep.up ▸ Nat.le_succ _)

theorem worth_eq_of_climbs {price : ℕ → M} {top : ℕ} {p q : Climber M}
    (h : ReflTransGen (Climbs price top) p q) : q.worth price = p.worth price := by
  induction h with
  | refl => rfl
  | tail _ hstep ih => rw [hstep.worth_eq, ih]

variable [LinearOrder M] [IsOrderedCancelAddMonoid M]

/-- Who climbs does not come to hold more. -/
theorem held_le_of_climbs {price : ℕ → M} {top : ℕ} {p q : Climber M} (hprice : ∀ i, 0 ≤ price i)
    (h : ReflTransGen (Climbs price top) p q) : q.held ≤ p.held := by
  induction h with
  | refl => exact le_rfl
  | tail _ hstep ih => exact (le_add_of_nonneg_left (hprice _)).trans (hstep.paid ▸ ih)

/-- It is at the top, or cannot pay for the next rung. -/
structure Rests (price : ℕ → M) (top : ℕ) (p : Climber M) : Prop where
  le : p.rung ≤ top
  nonneg : 0 ≤ p.held
  short : p.rung < top → p.held < price p.rung

section Rests

variable {price : ℕ → M} {top : ℕ} {p q : Climber M}

/-- At rest it is worth less than what rests higher up. -/
theorem Rests.worth_lt (hprice : ∀ i, 0 ≤ price i) (hp : Rests price top p)
    (hq : Rests price top q) (hlt : p.rung < q.rung) : p.worth price < q.worth price := by
  have hshort : p.held < price p.rung := hp.short (hlt.trans_le hq.le)
  have hrungs : ∑ i ∈ Finset.range (p.rung + 1), price i ≤ ∑ i ∈ Finset.range q.rung, price i :=
    Finset.sum_le_sum_of_subset_of_nonneg (Finset.range_subset_range.mpr hlt)
      fun i _ _ => hprice i
  calc p.worth price < ∑ i ∈ Finset.range p.rung, price i + price p.rung :=
        (add_lt_add_iff_left _).mpr hshort
    _ = ∑ i ∈ Finset.range (p.rung + 1), price i := (Finset.sum_range_succ price p.rung).symm
    _ ≤ ∑ i ∈ Finset.range q.rung, price i := hrungs
    _ ≤ q.worth price := le_add_of_nonneg_right hq.nonneg

/-- What it is worth says where it rests. -/
theorem Rests.eq (hprice : ∀ i, 0 ≤ price i) (hp : Rests price top p) (hq : Rests price top q)
    (hworth : p.worth price = q.worth price) : p = q := by
  have hrung : p.rung = q.rung := by
    rcases lt_trichotomy p.rung q.rung with hlt | heq | hlt
    · exact absurd hworth (hp.worth_lt hprice hq hlt).ne
    · exact heq
    · exact absurd hworth (hq.worth_lt hprice hp hlt).ne'
  have hheld : p.held = q.held := by
    rw [worth, worth, hrung] at hworth
    exact add_left_cancel hworth
  exact Climber.ext hrung hheld

/-- Two amounts, with a climb after each, lead where their sum leads. -/
theorem Rests.eq_of_add {r s : Climber M} {a b : M} (hprice : ∀ i, 0 ≤ price i)
    (hfirst : ReflTransGen (Climbs price top) (p.earn a) q)
    (hsecond : ReflTransGen (Climbs price top) (q.earn b) r) (hr : Rests price top r)
    (hboth : ReflTransGen (Climbs price top) (p.earn (a + b)) s) (hs : Rests price top s) :
    r = s := by
  apply hr.eq hprice hs
  calc r.worth price = (q.earn b).worth price := worth_eq_of_climbs hsecond
    _ = p.worth price + a + b := by rw [worth_earn, worth_eq_of_climbs hfirst, worth_earn]
    _ = (p.earn (a + b)).worth price := by rw [worth_earn, add_assoc]
    _ = s.worth price := (worth_eq_of_climbs hboth).symm

end Rests

end Climber

end Gmaker.Lib
