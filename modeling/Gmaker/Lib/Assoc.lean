import Mathlib

/-!
# Gmaker.Lib.Assoc — maps as lists of entries

A map that is also gone through entry by entry, as a list of keys and values. A key that
is assigned to again keeps its place. `lookup` is `List.lookup`; the lemmas say what it
and the list of keys become.
-/

namespace Gmaker.Lib

universe u v

variable {κ : Type u} {α : Type v}

/-- A map with its entries in some order. -/
abbrev Assoc (κ : Type u) (α : Type v) := List (κ × α)

namespace Assoc

/-- The keys, in the order of the entries. -/
def keys (m : Assoc κ α) : List κ := m.map Prod.fst

variable [DecidableEq κ]

/-- `m[k] = v`. -/
def assign (m : Assoc κ α) (k : κ) (v : α) : Assoc κ α :=
  if k ∈ m.keys then m.map fun p => if p.1 = k then (k, v) else p else m ++ [(k, v)]

/-- `delete(m, k)`. -/
def erase (m : Assoc κ α) (k : κ) : Assoc κ α := m.filter fun p => p.1 ≠ k

variable {m : Assoc κ α} {k j : κ} {v : α}

omit [DecidableEq κ] in
@[simp] theorem keys_nil : keys ([] : Assoc κ α) = [] := rfl

omit [DecidableEq κ] in
@[simp] theorem keys_cons (p : κ × α) (m : Assoc κ α) : keys (p :: m) = p.1 :: keys m := rfl

theorem keys_assign (m : Assoc κ α) (k : κ) (v : α) :
    (m.assign k v).keys = if k ∈ m.keys then m.keys else m.keys ++ [k] := by
  unfold assign
  split_ifs
  · unfold keys
    rw [List.map_map]
    refine List.map_congr_left fun p _ => ?_
    by_cases hp : p.1 = k
    · simp [hp]
    · simp [hp]
  · exact List.map_append

theorem keys_erase (m : Assoc κ α) (k : κ) : (m.erase k).keys = m.keys.filter (· ≠ k) := by
  unfold erase keys
  rw [List.filter_map]
  rfl

theorem lookup_of_not_mem (h : k ∉ m.keys) : m.lookup k = none := by
  induction m with
  | nil => rfl
  | cons p m ih =>
    rw [keys_cons, List.mem_cons, not_or] at h
    obtain ⟨a, b⟩ := p
    rw [List.lookup_cons, beq_false_of_ne h.1]
    exact ih h.2

theorem mem_keys_iff : k ∈ m.keys ↔ ∃ v, m.lookup k = some v := by
  induction m with
  | nil => simp
  | cons p m ih =>
    obtain ⟨a, b⟩ := p
    rw [keys_cons, List.mem_cons, List.lookup_cons]
    by_cases hk : k = a
    · simp [hk]
    · simp [beq_false_of_ne hk, hk, ih]

theorem mem_of_lookup (h : m.lookup k = some v) : (k, v) ∈ m := by
  obtain ⟨l₁, l₂, heq, -⟩ := List.lookup_eq_some_iff.mp h
  rw [heq]
  exact List.mem_append_right l₁ List.mem_cons_self

theorem nodup_assign (h : m.keys.Nodup) (k : κ) (v : α) : (m.assign k v).keys.Nodup := by
  rw [keys_assign]
  split_ifs with hmem
  · exact h
  · refine List.nodup_append'.mpr ⟨h, List.nodup_singleton k, ?_⟩
    rw [List.disjoint_singleton]
    exact hmem

theorem nodup_erase (h : m.keys.Nodup) (k : κ) : (m.erase k).keys.Nodup := by
  rw [keys_erase]
  exact h.filter _

omit [DecidableEq κ] in
theorem nodup_filter (h : m.keys.Nodup) (f : κ × α → Bool) : keys (m.filter f) |>.Nodup :=
  h.sublist (List.filter_sublist.map _)

theorem length_assign_le (m : Assoc κ α) (k : κ) (v : α) :
    (m.assign k v).length ≤ m.length + 1 := by
  unfold assign
  split_ifs
  · rw [List.length_map]
    exact Nat.le_succ _
  · rw [List.length_append, List.length_singleton]

/-- Where every key is there once, its entry is the one that is found. -/
theorem mem_iff_lookup (h : m.keys.Nodup) : (k, v) ∈ m ↔ m.lookup k = some v := by
  refine ⟨fun hmem => ?_, mem_of_lookup⟩
  induction m with
  | nil => cases hmem
  | cons p m ih =>
    obtain ⟨a, b⟩ := p
    obtain ⟨ha, hrest⟩ := List.nodup_cons.mp h
    rcases List.mem_cons.mp hmem with heq | htail
    · cases heq
      simp
    · have hne : k ≠ a := by
        rintro rfl
        exact ha (List.mem_map.mpr ⟨(k, v), htail, rfl⟩)
      rw [List.lookup_cons, beq_false_of_ne hne]
      exact ih hrest htail

/-- What is found after entries have been dropped. -/
theorem lookup_filter_eq_some (h : m.keys.Nodup) (f : κ × α → Bool) :
    List.lookup k (m.filter f) = some v ↔ m.lookup k = some v ∧ f (k, v) = true := by
  have hf : keys (m.filter f) |>.Nodup := nodup_filter h f
  rw [← mem_iff_lookup hf, List.mem_filter, mem_iff_lookup h]

/-- What an entry of an assigned map is. -/
theorem mem_assign {p : κ × α} (h : p ∈ m.assign k v) : p = (k, v) ∨ p ∈ m := by
  unfold assign at h
  split_ifs at h
  · obtain ⟨q, hq, heq⟩ := List.mem_map.mp h
    split_ifs at heq
    · exact .inl heq.symm
    · exact .inr (heq ▸ hq)
  · rcases List.mem_append.mp h with h | h
    · exact .inr h
    · exact .inl (List.mem_singleton.mp h)

/-- What the entries of an assigned map are. -/
theorem mem_assign_iff {p : κ × α} : p ∈ m.assign k v ↔ p = (k, v) ∨ p ∈ m ∧ p.1 ≠ k := by
  unfold assign
  split_ifs with hmem
  · rw [List.mem_map]
    constructor
    · rintro ⟨q, hq, heq⟩
      split_ifs at heq with hk
      · exact .inl heq.symm
      · subst heq
        exact .inr ⟨hq, hk⟩
    · rintro (rfl | ⟨hp, hne⟩)
      · obtain ⟨q, hq, hk⟩ := List.mem_map.mp hmem
        exact ⟨q, hq, if_pos hk⟩
      · exact ⟨p, hp, if_neg hne⟩
  · rw [List.mem_append, List.mem_singleton, or_comm]
    refine or_congr Iff.rfl (iff_self_and.mpr fun hp hk => hmem ?_)
    rw [← hk]
    exact List.mem_map.mpr ⟨p, hp, rfl⟩

/-- What a key has after an assignment. -/
theorem lookup_assign (m : Assoc κ α) (k j : κ) (v : α) :
    (m.assign k v).lookup j = if j = k then some v else m.lookup j := by
  unfold assign
  split_ifs with hmem hj
  · -- the first entry of the key is the new one
    subst hj
    induction m with
    | nil => simp at hmem
    | cons p m ih =>
      obtain ⟨a, b⟩ := p
      rw [List.map_cons, List.lookup_cons]
      by_cases ha : a = j
      · simp [ha]
      · rw [keys_cons, List.mem_cons] at hmem
        have hne : (j == a) = false := beq_false_of_ne (Ne.symm ha)
        simp only [ha, if_false, hne]
        exact ih (hmem.resolve_left (Ne.symm ha))
  · clear hmem
    induction m with
    | nil => rfl
    | cons p m ih =>
      obtain ⟨a, b⟩ := p
      rw [List.map_cons, List.lookup_cons, List.lookup_cons]
      by_cases ha : a = k
      · have hne : (j == k) = false := beq_false_of_ne hj
        simp only [ha, if_true, hne]
        exact ih
      · simp only [ha, if_false]
        rw [ih]
  · next hj =>
    subst hj
    induction m with
    | nil => simp
    | cons p m ih =>
      obtain ⟨a, b⟩ := p
      rw [keys_cons, List.mem_cons, not_or] at hmem
      rw [List.cons_append, List.lookup_cons, beq_false_of_ne hmem.1]
      exact ih hmem.2
  · next hj =>
    clear hmem
    induction m with
    | nil => simp [List.lookup_cons, beq_false_of_ne hj]
    | cons p m ih =>
      obtain ⟨a, b⟩ := p
      rw [List.cons_append, List.lookup_cons, List.lookup_cons, ih]

theorem lookup_erase (m : Assoc κ α) (k j : κ) :
    (m.erase k).lookup j = if j = k then none else m.lookup j := by
  unfold erase
  induction m with
  | nil => simp
  | cons p m ih =>
    obtain ⟨a, b⟩ := p
    by_cases ha : a = k
    · rw [List.filter_cons_of_neg (by simpa using ha), ih, List.lookup_cons, ha]
      split_ifs with hj
      · rfl
      · rw [beq_false_of_ne hj]
    · rw [List.filter_cons_of_pos (by simpa using ha), List.lookup_cons, List.lookup_cons, ih]
      by_cases hj : j = a
      · have hne : a ≠ k := ha
        simp [hj, hne]
      · rw [beq_false_of_ne hj]

/-! ## Changing one entry -/

/-- `f(m[k])` in place, if there is such an entry. -/
def modify (m : Assoc κ α) (k : κ) (f : α → α) : Assoc κ α :=
  m.map fun p => if p.1 = k then (p.1, f p.2) else p

@[simp] theorem keys_modify (m : Assoc κ α) (k : κ) (f : α → α) : (m.modify k f).keys = m.keys := by
  unfold modify keys
  rw [List.map_map]
  refine List.map_congr_left fun p _ => ?_
  simp only [Function.comp_apply]
  split_ifs <;> rfl

/-- What a key has after one entry has changed. -/
theorem lookup_modify (m : Assoc κ α) (k j : κ) (f : α → α) :
    (m.modify k f).lookup j = if j = k then (m.lookup j).map f else m.lookup j := by
  unfold modify
  induction m with
  | nil => simp
  | cons p m ih =>
    obtain ⟨a, b⟩ := p
    by_cases hj : j = a
    · subst hj
      by_cases hk : j = k <;> simp [hk]
    · have hne : (j == a) = false := beq_false_of_ne hj
      by_cases ha : a = k
      · subst ha
        simpa [List.lookup_cons, hne, hj] using ih
      · simpa [List.lookup_cons, hne, ha] using ih

theorem lookup_modify_self (m : Assoc κ α) (k : κ) (f : α → α) :
    (m.modify k f).lookup k = (m.lookup k).map f := by
  rw [lookup_modify, if_pos rfl]

theorem lookup_modify_of_ne (m : Assoc κ α) {k j : κ} (h : j ≠ k) (f : α → α) :
    (m.modify k f).lookup j = m.lookup j := by
  rw [lookup_modify, if_neg h]

/-- Two entries change in either order. -/
theorem modify_comm (m : Assoc κ α) {j k : κ} (h : j ≠ k) (f g : α → α) :
    (m.modify j f).modify k g = (m.modify k g).modify j f := by
  unfold modify
  rw [List.map_map, List.map_map]
  refine List.map_congr_left fun p _ => ?_
  by_cases hj : p.1 = j
  · simp [hj, h]
  · by_cases hk : p.1 = k <;> simp [hj, hk, h.symm]

/-- One entry changes twice. -/
theorem modify_modify (m : Assoc κ α) (k : κ) (f g : α → α) :
    (m.modify k f).modify k g = m.modify k fun v => g (f v) := by
  unfold modify
  rw [List.map_map]
  refine List.map_congr_left fun p _ => ?_
  by_cases hk : p.1 = k <;> simp [hk]

/-- A change counts on the entry that is there. -/
theorem modify_congr (h : m.keys.Nodup) {f g : α → α}
    (hfg : ∀ v, m.lookup k = some v → f v = g v) : m.modify k f = m.modify k g := by
  unfold modify
  refine List.map_congr_left fun p hp => ?_
  by_cases hk : p.1 = k
  · have hv : m.lookup k = some p.2 := (mem_iff_lookup h).mp (hk ▸ hp)
    simp [hk, hfg p.2 hv]
  · simp [hk]

theorem modify_eq_self (h : m.keys.Nodup) {f : α → α}
    (hf : ∀ v, m.lookup k = some v → f v = v) : m.modify k f = m := by
  rw [modify_congr h (g := id) hf]
  unfold modify
  simp

end Assoc

end Gmaker.Lib
