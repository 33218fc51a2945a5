import Mathlib

/-!
# Gmaker.Lib.Renaming — one table under other keys

Two tables hold the same entries, one under the keys themselves and one under names
for them. The names need not be distinct: they only have to tell apart the keys that
are in use. `Alone f D k` says so of one key: no other key in use shares its name.
-/

namespace Gmaker.Lib

universe u v w

variable {κ : Type u} {ν : Type v} {α : Type w}

/-- No key of `D` but `k` itself has the name of `k`. -/
def Alone (f : κ → ν) (D : Set κ) (k : κ) : Prop := ∀ j ∈ D, f j = f k → j = k

theorem Alone.mono {f : κ → ν} {D E : Set κ} {k : κ} (h : Alone f D k) (hsub : E ⊆ D) :
    Alone f E k :=
  fun j hj => h j (hsub hj)

/-- The table `b` has the entries of `a`, whose keys are all in `D`, under their names. -/
structure Renames (f : κ → ν) (D : Set κ) (a : κ → Option α) (b : ν → Option α) : Prop where
  agree : ∀ k ∈ D, b (f k) = a k
  source : ∀ k v, a k = some v → k ∈ D
  target : ∀ y v, b y = some v → ∃ k ∈ D, f k = y

namespace Renames

variable {f g : κ → ν} {D E : Set κ} {a : κ → Option α} {b : ν → Option α} {k : κ}

theorem empty : Renames f D (fun _ => (none : Option α)) fun _ => none := by
  constructor
  · intro k hk
    rfl
  · intro k v hv
    cases hv
  · intro y v hv
    cases hv

theorem eq_none_of_notMem (h : Renames f D a b) (hk : k ∉ D) : a k = none := by
  cases hv : a k with
  | none => rfl
  | some v => exact absurd (h.source k v hv) hk

/-- A key that is alone finds its own entry, whether it is in use or not. -/
theorem get (h : Renames f D a b) (hk : Alone f D k) : b (f k) = a k := by
  by_cases hin : k ∈ D
  · exact h.agree k hin
  · rw [h.eq_none_of_notMem hin]
    cases hv : b (f k) with
    | none => rfl
    | some v =>
      obtain ⟨j, hj, hname⟩ := h.target _ v hv
      have hjk : j = k := hk j hj hname
      exact absurd (hjk ▸ hj) hin

/-- Only the names of the keys in use matter. -/
theorem congr (h : Renames f D a b) (hfg : ∀ k ∈ D, g k = f k) : Renames g D a b := by
  constructor
  · intro k hk
    rw [hfg k hk]
    exact h.agree k hk
  · exact h.source
  · intro y v hv
    obtain ⟨j, hj, hname⟩ := h.target y v hv
    exact ⟨j, hj, (hfg j hj).trans hname⟩

/-- A key comes into use under a free name, or goes out of use without an entry. -/
theorem change (h : Renames f D a b) (hin : ∀ k ∈ E, k ∉ D → ∀ j ∈ D, f j ≠ f k)
    (hout : ∀ k ∈ D, k ∉ E → a k = none) : Renames f E a b := by
  constructor
  · intro k hk
    by_cases hold : k ∈ D
    · exact h.agree k hold
    · have halone : Alone f D k := fun j hj hname => absurd hname (hin k hk hold j hj)
      exact h.get halone
  · intro k v hv
    by_contra hk
    rw [hout k (h.source k v hv) hk] at hv
    cases hv
  · intro y v hv
    obtain ⟨k, hk, hname⟩ := h.target y v hv
    by_cases hnew : k ∈ E
    · exact ⟨k, hnew, hname⟩
    · rw [← hname, h.agree k hk, hout k hk hnew] at hv
      cases hv

/-- An entry is written. -/
theorem set [DecidableEq κ] [DecidableEq ν] (h : Renames f D a b) (hk : k ∈ D)
    (halone : Alone f D k) (v : Option α) :
    Renames f D (Function.update a k v) (Function.update b (f k) v) := by
  constructor
  · intro j hj
    by_cases hjk : j = k
    · rw [hjk, Function.update_self, Function.update_self]
    · have hname : f j ≠ f k := fun hname => hjk (halone j hj hname)
      rw [Function.update_of_ne hjk, Function.update_of_ne hname]
      exact h.agree j hj
  · intro j w hw
    by_cases hjk : j = k
    · exact hjk ▸ hk
    · rw [Function.update_of_ne hjk] at hw
      exact h.source j w hw
  · intro y w hw
    by_cases hy : y = f k
    · exact ⟨k, hk, hy.symm⟩
    · rw [Function.update_of_ne hy] at hw
      exact h.target y w hw

/-- An entry is erased; there may have been none. -/
theorem erase [DecidableEq κ] [DecidableEq ν] (h : Renames f D a b) (halone : Alone f D k) :
    Renames f D (Function.update a k none) (Function.update b (f k) none) := by
  by_cases hk : k ∈ D
  · exact h.set hk halone none
  · have ha : Function.update a k none = a := by
      rw [← h.eq_none_of_notMem hk]
      exact Function.update_eq_self k a
    have hb : Function.update b (f k) none = b := by
      rw [← h.eq_none_of_notMem hk, ← h.get halone]
      exact Function.update_eq_self (f k) b
    rw [ha, hb]
    exact h

/-- Entries are dropped by what they are. -/
theorem filter (h : Renames f D a b) (p : α → Bool) :
    Renames f D (fun k => (a k).filter p) fun y => (b y).filter p := by
  constructor
  · intro k hk
    rw [h.agree k hk]
  · intro k v hv
    exact h.source k v (Option.filter_eq_some_iff.mp hv).1
  · intro y v hv
    exact h.target y v (Option.filter_eq_some_iff.mp hv).1

end Renames

end Gmaker.Lib
