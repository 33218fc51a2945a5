import Gmaker.Lib.SortSlice

/-!
# Gmaker.Lib.ExchangeSort — sorting with two loops

The outer loop goes through the places of a slice. For each of them the inner loop goes through the
places behind it, and whenever the two elements stand the wrong way round it makes them change
places. The result is in order, and what is in order is left as it is: which of two equal elements
comes first is up to the order they came in.
-/

namespace Gmaker.Lib.ExchangeSort

variable {α : Type} (swap : α → α → Bool)

/-- The inner loop: the element that ends up in front, and those behind it. `swap a b` says that
`a`, which stands before `b`, changes places with it. -/
def pass : α → List α → α × List α
  | a, [] => (a, [])
  | a, b :: l =>
    if swap a b then
      let p := pass b l
      (p.1, a :: p.2)
    else
      let p := pass a l
      (p.1, b :: p.2)

/-- The outer loop, for as many places as it has. -/
def sortFrom : ℕ → List α → List α
  | n + 1, a :: l =>
    let p := pass swap a l
    p.1 :: sortFrom n p.2
  | _, l => l

def sort (l : List α) : List α := sortFrom swap l.length l

variable {swap}

theorem perm_pass (a : α) (l : List α) :
    ((pass swap a l).1 :: (pass swap a l).2).Perm (a :: l) := by
  induction l generalizing a with
  | nil => exact List.Perm.refl _
  | cons b l ih =>
    unfold pass
    split_ifs
    · exact (List.Perm.swap a _ _).trans ((ih b).cons a)
    · exact ((List.Perm.swap b _ _).trans ((ih a).cons b)).trans (List.Perm.swap a b l)

theorem length_pass (a : α) (l : List α) : (pass swap a l).2.length = l.length :=
  Nat.succ.inj (perm_pass a l).length_eq

theorem perm_sortFrom (n : ℕ) (l : List α) : (sortFrom swap n l).Perm l := by
  induction n generalizing l with
  | zero => exact List.Perm.refl _
  | succ n ih =>
    cases l with
    | nil => exact List.Perm.refl _
    | cons a l => exact ((ih _).cons _).trans (perm_pass a l)

theorem perm_sort (l : List α) : (sort swap l).Perm l := perm_sortFrom l.length l

/-- Nothing changes places with what ends up in front. -/
theorem pass_front (h : StrictWeak swap) (a : α) (l : List α) :
    swap (pass swap a l).1 a = false ∧ ∀ b ∈ (pass swap a l).2, swap (pass swap a l).1 b = false := by
  induction l generalizing a with
  | nil =>
    have hself : swap a a = false := by
      by_contra hne
      have htrue := Bool.eq_true_of_not_eq_false hne
      exact hne (h.asymm a a htrue)
    exact ⟨hself, by simp [pass]⟩
  | cons b l ih =>
    unfold pass
    split_ifs with hswap
    -- `b` goes on in front: what does not pass `b` does not pass `a`, which `b` passed
    · rcases ih b with ⟨hb, hrest⟩
      have ha : swap (pass swap b l).1 a = false := by
        by_contra hne
        rcases h.cotrans _ b _ (Bool.eq_true_of_not_eq_false hne) with hmb | hba
        · exact Bool.noConfusion (hb.symm.trans hmb)
        · exact Bool.noConfusion ((h.asymm a b hswap).symm.trans hba)
      exact ⟨ha, List.forall_mem_cons.mpr ⟨ha, hrest⟩⟩
    · rcases ih a with ⟨ha, hrest⟩
      have hb : swap (pass swap a l).1 b = false := by
        by_contra hne
        rcases h.cotrans _ a _ (Bool.eq_true_of_not_eq_false hne) with hma | hab
        · exact Bool.noConfusion (ha.symm.trans hma)
        · exact hswap hab
      exact ⟨ha, List.forall_mem_cons.mpr ⟨hb, hrest⟩⟩

theorem ordered_sortFrom (h : StrictWeak swap) {n : ℕ} {l : List α} (hn : l.length ≤ n) :
    (sortFrom swap n l).Pairwise fun a b => swap a b = false := by
  induction n generalizing l with
  | zero =>
    rw [List.eq_nil_of_length_eq_zero (Nat.le_zero.mp hn)]
    exact List.Pairwise.nil
  | succ n ih =>
    cases l with
    | nil => exact List.Pairwise.nil
    | cons a l =>
      refine List.Pairwise.cons ?_ (ih ?_)
      · intro b hb
        exact (pass_front h a l).2 b ((perm_sortFrom n _).mem_iff.mp hb)
      · rw [length_pass]
        exact Nat.le_of_succ_le_succ hn

/-- Afterwards nothing stands the wrong way round. -/
theorem ordered_sort (h : StrictWeak swap) (l : List α) :
    (sort swap l).Pairwise fun a b => swap a b = false :=
  ordered_sortFrom h le_rfl

theorem pass_of_ordered {a : α} {l : List α} (h : ∀ b ∈ l, swap a b = false) :
    pass swap a l = (a, l) := by
  induction l with
  | nil => rfl
  | cons b l ih =>
    rcases List.forall_mem_cons.mp h with ⟨hb, hrest⟩
    rw [pass, hb, ih hrest]
    rfl

/-- What is in order is left as it is. -/
theorem sort_of_ordered {l : List α} (h : l.Pairwise fun a b => swap a b = false) :
    sort swap l = l := by
  unfold sort
  induction l with
  | nil => rfl
  | cons a l ih =>
    rcases List.pairwise_cons.mp h with ⟨ha, hrest⟩
    rw [List.length_cons, sortFrom, pass_of_ordered ha]
    exact congrArg (a :: ·) (ih hrest)

end Gmaker.Lib.ExchangeSort
