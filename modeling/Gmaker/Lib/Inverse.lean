import Mathlib

/-!
# Gmaker.Lib.Inverse — two partial maps, each the inverse of the other

Two maps kept in opposite directions: `f` has an entry from `a` to `b` exactly when `g`
has one from `b` to `a`. The relation is kept when an entry is erased on both sides, and
when one is added between keys that have none.
-/

namespace Gmaker.Lib

universe u v

variable {α : Type u} {β : Type v}

/-- The entries of `g` are those of `f` turned round. -/
def Inverse (f : α → Option β) (g : β → Option α) : Prop := ∀ a b, f a = some b ↔ g b = some a

namespace Inverse

variable {f : α → Option β} {g : β → Option α} {a : α} {b : β}

theorem empty : Inverse (fun _ : α => (none : Option β)) fun _ => none := by
  intro a b
  simp

/-- Two keys do not have the same value. -/
theorem injective (h : Inverse f g) {a' : α} (ha : f a = some b) (ha' : f a' = some b) :
    a = a' := by
  have hb := (h a b).mp ha
  have hb' := (h a' b).mp ha'
  exact Option.some.inj (hb.symm.trans hb')

variable [DecidableEq α] [DecidableEq β]

/-- Erase an entry on both sides. -/
theorem erase (h : Inverse f g) (hab : f a = some b) :
    Inverse (Function.update f a none) (Function.update g b none) := by
  intro c d
  by_cases hc : c = a
  · subst hc
    rw [Function.update_self]
    by_cases hd : d = b
    · subst hd
      simp
    · rw [Function.update_of_ne hd]
      constructor
      · intro hnone
        cases hnone
      · intro hg
        have hf := (h c d).mpr hg
        rw [hab] at hf
        exact absurd (Option.some.inj hf).symm hd
  · rw [Function.update_of_ne hc]
    by_cases hd : d = b
    · subst hd
      rw [Function.update_self]
      constructor
      · intro hf
        exact absurd (h.injective hf hab) hc
      · intro hnone
        cases hnone
    · rw [Function.update_of_ne hd]
      exact h c d

/-- Add an entry between two keys that have none. -/
theorem insert (h : Inverse f g) (ha : f a = none) (hb : g b = none) :
    Inverse (Function.update f a (some b)) (Function.update g b (some a)) := by
  intro c d
  by_cases hc : c = a
  · subst hc
    rw [Function.update_self]
    by_cases hd : d = b
    · subst hd
      rw [Function.update_self]
      exact ⟨fun _ => rfl, fun _ => rfl⟩
    · rw [Function.update_of_ne hd]
      constructor
      · intro hsome
        exact absurd (Option.some.inj hsome).symm hd
      · intro hg
        rw [(h c d).mpr hg] at ha
        cases ha
  · rw [Function.update_of_ne hc]
    by_cases hd : d = b
    · subst hd
      rw [Function.update_self]
      constructor
      · intro hf
        rw [(h c d).mp hf] at hb
        cases hb
      · intro hsome
        exact absurd (Option.some.inj hsome).symm hc
    · rw [Function.update_of_ne hd]
      exact h c d

end Inverse

end Gmaker.Lib
