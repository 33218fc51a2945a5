import Mathlib

/-!
# Gmaker.Lib.SortSlice — sorting that need not be stable

`sort.Slice(s, less)` puts a slice in order and promises nothing about where equal elements
end up. Which order of them comes out is the algorithm's business, so that the algorithm is
a parameter of what is said about its callers: any function that permutes its argument and
orders it. Insertion sort is one.
-/

namespace Gmaker.Lib

/-- What `less` has to be for a sorted result to mean anything. -/
structure StrictWeak {α : Type} (less : α → α → Bool) : Prop where
  asymm : ∀ a b, less a b = true → less b a = false
  cotrans : ∀ a b c, less a c = true → less a b = true ∨ less b c = true

/-- Comparing by a number is enough. -/
theorem strictWeak_of_lt {α β : Type} [LinearOrder β] {less : α → α → Bool} (f : α → β)
    (hless : ∀ a b, less a b = true ↔ f a < f b) : StrictWeak less := by
  constructor
  · intro a b hab
    rw [Bool.eq_false_iff, Ne, hless]
    exact ((hless a b).mp hab).asymm
  · intro a b c hac
    rw [hless, hless]
    rcases lt_or_ge (f a) (f b) with hlt | hge
    · exact Or.inl hlt
    · exact Or.inr (hge.trans_lt ((hless a c).mp hac))

/-- An algorithm for `sort.Slice`. -/
structure SortSlice where
  /-- The slice afterwards. -/
  sort : {α : Type} → (α → α → Bool) → List α → List α
  perm : ∀ {α : Type} (less : α → α → Bool) (l : List α), (sort less l).Perm l
  ordered : ∀ {α : Type} (less : α → α → Bool) (l : List α), StrictWeak less →
    (sort less l).Pairwise fun a b => less b a = false

namespace SortSlice

variable (S : SortSlice) {α : Type} {less : α → α → Bool} {l : List α} {a : α}

@[simp] theorem mem_sort : a ∈ S.sort less l ↔ a ∈ l := (S.perm less l).mem_iff

@[simp] theorem length_sort : (S.sort less l).length = l.length := (S.perm less l).length_eq

/-- Sorting by insertion. -/
def insertion : SortSlice where
  sort less l := l.insertionSort fun a b => less b a = false
  perm less l := List.perm_insertionSort _ l
  ordered := by
    intro α less l hless
    have htotal : Std.Total fun a b => less b a = false := by
      refine ⟨fun a b => ?_⟩
      by_cases hba : less b a = true
      · exact .inr (hless.asymm b a hba)
      · exact .inl (Bool.eq_false_iff.mpr hba)
    have htrans : IsTrans α fun a b => less b a = false := by
      refine ⟨fun a b c hba hcb => ?_⟩
      by_contra hca
      rcases hless.cotrans c b a (Bool.of_not_eq_false hca) with h | h
      · rw [hcb] at h
        cases h
      · rw [hba] at h
        cases h
    exact List.pairwise_insertionSort _ l

end SortSlice

end Gmaker.Lib
