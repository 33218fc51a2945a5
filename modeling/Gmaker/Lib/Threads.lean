import Mathlib

/-!
# Gmaker.Lib.Threads — tables of threads

A machine keeps its threads (calls, requests, deliveries) in a list and refers to
them by index: starting one appends an entry, a step of one replaces its entry.
These are the facts about such tables that invariants need: what is found after a
replacement or an append, and how a property of all entries, of some entry, or of
all pairs of entries moves along.
-/

namespace Gmaker.Lib

variable {α : Type*} {l : List α} {i j : ℕ} {x y : α}

/-- The entries after one was replaced. -/
theorem getElem?_set_at (hx : l[i]? = some x) :
    (l.set i y)[j]? = if j = i then some y else l[j]? := by
  have hlt : i < l.length := (List.getElem?_eq_some_iff.mp hx).1
  rw [List.getElem?_set]
  by_cases hij : j = i
  · subst hij
    simp [hlt]
  · rw [if_neg (Ne.symm hij), if_neg hij]

/-- The entries after one was appended. -/
theorem getElem?_append_singleton :
    (l ++ [y])[j]? = if j = l.length then some y else l[j]? := by
  by_cases hlt : j < l.length
  · rw [List.getElem?_append_left hlt, if_neg (Nat.ne_of_lt hlt)]
  · rw [List.getElem?_append_right (not_lt.mp hlt), List.getElem?_singleton]
    by_cases hj : j = l.length
    · simp [hj]
    · have hgt : l.length < j := lt_of_le_of_ne (not_lt.mp hlt) (Ne.symm hj)
      rw [if_neg hj, if_neg (by omega), List.getElem?_eq_none (by omega)]

/-- An entry after a replacement is the new one, or another that was there. -/
theorem of_getElem?_set {a : α} (hx : l[i]? = some x) (ha : (l.set i y)[j]? = some a) :
    a = y ∨ j ≠ i ∧ l[j]? = some a := by
  rw [getElem?_set_at hx] at ha
  split_ifs at ha with hij
  · exact .inl (Option.some.inj ha).symm
  · exact .inr ⟨hij, ha⟩

/-- An entry after an append is the new one, or one that was there. -/
theorem of_getElem?_append {a : α} (ha : (l ++ [y])[j]? = some a) : a = y ∨ l[j]? = some a := by
  rw [getElem?_append_singleton] at ha
  split_ifs at ha
  · exact .inl (Option.some.inj ha).symm
  · exact .inr ha

theorem getElem?_ne_length (hx : l[i]? = some x) : i ≠ l.length :=
  Nat.ne_of_lt (List.getElem?_eq_some_iff.mp hx).1

/-- What held of all entries holds after a replacement that satisfies it. -/
theorem forall_set {P : ℕ → α → Prop} (hx : l[i]? = some x) (hy : P i y)
    (h : ∀ j a, l[j]? = some a → P j a) : ∀ j a, (l.set i y)[j]? = some a → P j a := by
  intro j a hj
  rw [getElem?_set_at hx] at hj
  split_ifs at hj with hij
  · cases hj
    exact hij ▸ hy
  · exact h j a hj

/-- What held of all entries holds after an append that satisfies it. -/
theorem forall_append {P : ℕ → α → Prop} (hy : P l.length y)
    (h : ∀ j a, l[j]? = some a → P j a) : ∀ j a, (l ++ [y])[j]? = some a → P j a := by
  intro j a hj
  rw [getElem?_append_singleton] at hj
  split_ifs at hj with hij
  · cases hj
    exact hij ▸ hy
  · exact h j a hj

/-- No two entries hold the same key; an entry need not hold one. -/
def KeysUnique {κ : Type*} (key : α → Option κ) (l : List α) : Prop :=
  ∀ (i j : ℕ) (a b : α) (k : κ), l[i]? = some a → l[j]? = some b → key a = some k →
    key b = some k → i = j

section Keys

variable {κ : Type*} {key : α → Option κ}

theorem keysUnique_nil : KeysUnique key [] := by
  intro i j a b k ha
  cases ha

/-- A replacement keeps keys unique if the new entry's key is held by no other. -/
theorem KeysUnique.set (h : KeysUnique key l) (hx : l[i]? = some x)
    (hy : ∀ k, key y = some k → ∀ j b, j ≠ i → l[j]? = some b → key b ≠ some k) :
    KeysUnique key (l.set i y) := by
  intro j j' a b k ha hb hka hkb
  rw [getElem?_set_at hx] at ha hb
  split_ifs at ha hb with hj hj'
  · rw [hj, hj']
  · cases ha
    exact absurd hkb (hy k hka j' b ‹_› hb)
  · cases hb
    exact absurd hka (hy k hkb j a hj ha)
  · exact h j j' a b k ha hb hka hkb

/-- In particular if the entry keeps its key or gives it up. -/
theorem KeysUnique.set_of_le (h : KeysUnique key l) (hx : l[i]? = some x)
    (hy : key y = none ∨ key y = key x) : KeysUnique key (l.set i y) := by
  refine h.set hx fun k hk j b hj hb hkb => ?_
  rcases hy with hy | hy
  · rw [hy] at hk
    cases hk
  · exact hj (h j i b x k hb hx hkb (hy ▸ hk))

theorem KeysUnique.append (h : KeysUnique key l) (hy : key y = none) :
    KeysUnique key (l ++ [y]) := by
  intro j j' a b k ha hb hka hkb
  rw [getElem?_append_singleton] at ha hb
  split_ifs at ha hb
  · cases ha
    rw [hy] at hka
    cases hka
  · cases ha
    rw [hy] at hka
    cases hka
  · cases hb
    rw [hy] at hkb
    cases hkb
  · exact h j j' a b k ha hb hka hkb

end Keys

/-- Some entry has the property after a replacement: the new one, or another. -/
theorem exists_mem_set_iff {P : α → Prop} (hx : l[i]? = some x) :
    (∃ a ∈ l.set i y, P a) ↔ P y ∨ ∃ j a, j ≠ i ∧ l[j]? = some a ∧ P a := by
  constructor
  · rintro ⟨a, ha, hP⟩
    obtain ⟨j, hj⟩ := List.mem_iff_getElem?.mp ha
    rw [getElem?_set_at hx] at hj
    split_ifs at hj with hij
    · cases hj
      exact Or.inl hP
    · exact Or.inr ⟨j, a, hij, hj, hP⟩
  · rintro (hP | ⟨j, a, hij, hj, hP⟩)
    · exact ⟨y, List.mem_set (List.getElem?_eq_some_iff.mp hx).1 y, hP⟩
    · refine ⟨a, List.mem_iff_getElem?.mpr ⟨j, ?_⟩, hP⟩
      rw [getElem?_set_at hx, if_neg hij, hj]

/-- Replacing an entry by itself. -/
theorem set_same (hx : l[i]? = some x) : l.set i x = l := by
  obtain ⟨hlt, hget⟩ := List.getElem?_eq_some_iff.mp hx
  rw [← hget, List.set_getElem_self]

/-! ## Sums over a table -/

section Sums

variable (f : α → ℕ)

/-- The sum after a replacement. -/
theorem sum_map_set (hx : l[i]? = some x) :
    ((l.set i y).map f).sum + f x = (l.map f).sum + f y := by
  induction l generalizing i with
  | nil => cases hx
  | cons a l ih =>
    cases i with
    | zero =>
      cases hx
      rw [List.set_cons_zero, List.map_cons, List.map_cons, List.sum_cons, List.sum_cons]
      omega
    | succ i =>
      have hrest := ih hx
      rw [List.set_cons_succ, List.map_cons, List.map_cons, List.sum_cons, List.sum_cons]
      omega

/-- The sum after an append. -/
theorem sum_map_append : ((l ++ [y]).map f).sum = (l.map f).sum + f y := by
  rw [List.map_append, List.sum_append, List.map_singleton, List.sum_singleton]

end Sums

end Gmaker.Lib
