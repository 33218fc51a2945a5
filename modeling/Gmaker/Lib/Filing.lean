import Mathlib

/-!
# Gmaker.Lib.Filing — a list filed under keys

A collection is kept in buckets, one for each key, and the bucket of a key holds the elements
that have it, in some order. `FiledBy` says so of a function from keys to buckets;
`FiledBy.cons` and `FiledBy.erase` are its rules for one element more and one element less,
and `FiledBy.flatMap` is what a query of several buckets gives.
-/

namespace Gmaker.Lib

universe u v

variable {α : Type u} {κ : Type v} [DecidableEq κ]

/-- The buckets hold the elements of the list, each in the bucket of its key. -/
def FiledBy (key : α → κ) (bucket : κ → List α) (l : List α) : Prop :=
  ∀ k, (bucket k).Perm (l.filter fun a => key a = k)

variable {key : α → κ} {bucket bucket' : κ → List α} {l : List α} {a : α}

theorem filedBy_nil : FiledBy key (fun _ => []) [] := by
  intro k
  exact .nil

/-- Where to look for an element. -/
theorem FiledBy.mem_iff (hf : FiledBy key bucket l) {k : κ} :
    a ∈ bucket k ↔ a ∈ l ∧ key a = k := by
  rw [(hf k).mem_iff, List.mem_filter, decide_eq_true_eq]

/-- One element more. -/
theorem FiledBy.cons (hf : FiledBy key bucket l)
    (hself : (bucket' (key a)).Perm (a :: bucket (key a)))
    (hother : ∀ k, k ≠ key a → bucket' k = bucket k) : FiledBy key bucket' (a :: l) := by
  intro k
  by_cases hk : k = key a
  · subst hk
    rw [List.filter_cons_of_pos (by simp)]
    exact hself.trans ((hf _).cons a)
  · rw [hother k hk, List.filter_cons_of_neg (by simpa using Ne.symm hk)]
    exact hf k

/-- One element less. -/
theorem FiledBy.erase [DecidableEq α] (hf : FiledBy key bucket l)
    (hself : (bucket' (key a)).Perm ((bucket (key a)).erase a))
    (hother : ∀ k, k ≠ key a → bucket' k = bucket k) : FiledBy key bucket' (l.erase a) := by
  intro k
  rw [← List.erase_filter]
  by_cases hk : k = key a
  · subst hk
    exact hself.trans ((hf _).erase a)
  · rw [hother k hk, List.erase_of_not_mem]
    · exact hf k
    · intro ha
      have hkey : key a = k := by simpa using (List.mem_filter.mp ha).2
      exact hk hkey.symm

/-- A query of some buckets finds the elements that have one of their keys. -/
theorem FiledBy.flatMap (hf : FiledBy key bucket l) {ks : List κ} (hks : ks.Nodup) :
    (ks.flatMap bucket).Perm (l.filter fun a => key a ∈ ks) := by
  induction ks with
  | nil => simp
  | cons k ks ih =>
    obtain ⟨hk, hks⟩ := List.nodup_cons.mp hks
    rw [List.flatMap_cons]
    -- what has the key of the first bucket has none of the others
    have hsplit := (List.filter_append_perm (fun a => key a = k)
      (l.filter fun a => key a ∈ k :: ks)).symm
    rw [List.filter_filter, List.filter_filter] at hsplit
    refine (((hf k).append (ih hks)).trans ?_).trans hsplit.symm
    refine List.Perm.append (.of_eq (List.filter_congr fun a _ => ?_))
      (.of_eq (List.filter_congr fun a _ => ?_))
    · by_cases ha : key a = k
      · simp [ha]
      · simp [ha]
    · by_cases ha : key a = k
      · simp [ha, hk]
      · simp [ha]

end Gmaker.Lib
