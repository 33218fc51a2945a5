import Mathlib

/-!
# Gmaker.Lib.Pages — an ordered list, cut into pages

Elements are listed by a key, the highest first, and the list is cut into blocks of one size.
Elements of one key stand next to each other in any order. When each block is cut from a list of
its own, the blocks fit together if and only if no elements of one key are on both sides of a cut
(`perm_block`, `exists_torn`).
-/

namespace Gmaker.Lib

section Key

variable {α β : Type} [LinearOrder β] (key : α → β)

/-- The highest keys come first. -/
def Descending (l : List α) : Prop := l.Pairwise fun a b => key b ≤ key a

/-- How many elements have a higher key. -/
def above (l : List α) (a : α) : ℕ := l.countP fun b => key a < key b

/-- How many elements have the key, the element itself among them. -/
def tied (l : List α) (a : α) : ℕ := l.countP fun b => key b = key a

variable {key} {l l' : List α} {a b : α} {i : ℕ}

theorem above_of_perm (h : l.Perm l') (a : α) : above key l a = above key l' a := h.countP_eq _

theorem tied_of_perm (h : l.Perm l') (a : α) : tied key l a = tied key l' a := h.countP_eq _

/-- The elements whose key is not lower. -/
theorem countP_ge (l : List α) (a : α) :
    (l.countP fun b => key a ≤ key b) = above key l a + tied key l a := by
  induction l with
  | nil => rfl
  | cons b l ih =>
    unfold above tied at ih ⊢
    simp only [List.countP_cons, decide_eq_true_eq, ih]
    rcases lt_trichotomy (key a) (key b) with hlt | heq | hgt
    · rw [if_pos hlt.le, if_pos hlt, if_neg hlt.ne']
      omega
    · rw [if_pos heq.le, if_neg heq.not_lt, if_pos heq.symm]
      omega
    · rw [if_neg hgt.not_ge, if_neg hgt.not_gt, if_neg hgt.ne, Nat.add_zero, Nat.add_zero,
        Nat.add_zero]

theorem tied_pos (h : a ∈ l) : 0 < tied key l a :=
  List.countP_pos_iff.mpr ⟨a, h, by simp⟩

theorem Descending.le_of_get (h : Descending key l) {j : ℕ} (hi : l[i]? = some a)
    (hj : l[j]? = some b) (hle : i ≤ j) : key b ≤ key a := by
  obtain ⟨hilt, rfl⟩ := List.getElem?_eq_some_iff.mp hi
  obtain ⟨hjlt, rfl⟩ := List.getElem?_eq_some_iff.mp hj
  rcases hle.eq_or_lt with rfl | hlt
  · exact le_rfl
  · exact List.pairwise_iff_getElem.mp h i j hilt hjlt hlt

/-- A property of the elements in front alone. -/
theorem countP_le_of_get {p : α → Bool} (h : ∀ j b, l[j]? = some b → i ≤ j → p b = false) :
    l.countP p ≤ i := by
  have hdrop : (l.drop i).countP p = 0 := by
    rw [List.countP_eq_zero]
    intro b hb
    rcases List.mem_iff_getElem?.mp hb with ⟨j, hj⟩
    rw [List.getElem?_drop] at hj
    rw [h (i + j) b hj (Nat.le_add_right i j)]
    exact Bool.false_ne_true
  rw [← List.take_append_drop i l, List.countP_append, hdrop, Nat.add_zero]
  exact List.countP_le_length.trans (List.length_take_le i l)

/-- A property of all elements up to one. -/
theorem lt_countP_of_get {p : α → Bool} (hi : i < l.length)
    (h : ∀ j b, l[j]? = some b → j ≤ i → p b = true) : i < l.countP p := by
  have htake : (l.take (i + 1)).countP p = i + 1 := by
    have hlength : (l.take (i + 1)).length = i + 1 := by
      rw [List.length_take]
      omega
    refine (List.countP_eq_length.mpr ?_).trans hlength
    intro b hb
    rcases List.mem_iff_getElem?.mp hb with ⟨j, hj⟩
    rw [List.getElem?_take] at hj
    split_ifs at hj with hlt
    exact h j b hj (Nat.le_of_lt_succ hlt)
  have hsub := (List.take_sublist (i + 1) l).countP_le (p := p)
  omega

/-- Where an element stands. -/
theorem Descending.position (h : Descending key l) (hi : l[i]? = some a) :
    above key l a ≤ i ∧ i < above key l a + tied key l a := by
  constructor
  · refine countP_le_of_get ?_
    intro j b hj hle
    exact decide_eq_false (not_lt.mpr (h.le_of_get hi hj hle))
  · rw [← countP_ge]
    refine lt_countP_of_get (List.getElem?_eq_some_iff.mp hi).1 ?_
    intro j b hj hle
    exact decide_eq_true (h.le_of_get hj hi hle)

/-- In these places, there are only elements of the key. -/
theorem Descending.key_of_position (h : Descending key l) (hi : l[i]? = some b)
    (hlow : above key l a ≤ i) (hhigh : i < above key l a + tied key l a) : key b = key a := by
  rcases h.position hi with ⟨hb, hb'⟩
  rw [← countP_ge] at hhigh hb'
  rcases lt_trichotomy (key b) (key a) with hlt | heq | hgt
  · -- all that is not lower than `a` is above `b`
    have hle : (l.countP fun c => key a ≤ key c) ≤ above key l b := by
      refine List.countP_mono_left ?_
      intro c _ hc
      exact decide_eq_true (hlt.trans_le (of_decide_eq_true hc))
    omega
  · exact heq
  · have hle : (l.countP fun c => key b ≤ key c) ≤ above key l a := by
      refine List.countP_mono_left ?_
      intro c _ hc
      exact decide_eq_true (hgt.trans_le (of_decide_eq_true hc))
    omega

/-- Two neighbours of one key change places. -/
theorem Descending.swap (h : Descending key l) (ha : l[i]? = some a) (hb : l[i + 1]? = some b)
    (hkey : key b = key a) :
    ∃ l', l'.Perm l ∧ Descending key l' ∧ l'[i + 1]? = some a := by
  obtain ⟨hilt, hai⟩ := List.getElem?_eq_some_iff.mp ha
  obtain ⟨hjlt, hbi⟩ := List.getElem?_eq_some_iff.mp hb
  have hsplit : l = l.take i ++ a :: b :: l.drop (i + 2) := by
    rw [← hai, ← hbi, ← List.drop_eq_getElem_cons, ← List.drop_eq_getElem_cons,
      List.take_append_drop]
  have hlength : (l.take i).length = i := by
    rw [List.length_take]
    omega
  -- the two change places, and nothing else moves
  refine ⟨l.take i ++ b :: a :: l.drop (i + 2), ?_, ?_, ?_⟩
  · conv_rhs => rw [hsplit]
    exact (List.Perm.swap a b _).append_left _
  · rw [hsplit] at h
    unfold Descending at h ⊢
    rw [List.pairwise_append, List.pairwise_cons, List.pairwise_cons] at h ⊢
    rcases h with ⟨hfront, ⟨hafter, hbafter, hback⟩, hcross⟩
    refine ⟨hfront, ⟨?_, ?_, hback⟩, ?_⟩
    · intro c hc
      rcases List.mem_cons.mp hc with rfl | hc
      · exact hkey.ge
      · exact hbafter c hc
    · intro c hc
      exact hafter c (List.mem_cons_of_mem b hc)
    · intro c hc d hd
      refine hcross c hc d ?_
      simp only [List.mem_cons] at hd ⊢
      tauto
  · rw [List.getElem?_append_right (by omega), hlength, Nat.add_sub_cancel_left]
    rfl

end Key

/-! ## Blocks -/

section Blocks

variable {α β : Type} [LinearOrder β] {key : α → β} {l l' : List α} {a : α} {size k n : ℕ}

/-- A block of the list. -/
def block (size : ℕ) (l : List α) (k : ℕ) : List α := (l.drop (k * size)).take size

theorem mem_block (hsize : 0 < size) : a ∈ block size l k ↔ ∃ i, i / size = k ∧ l[i]? = some a := by
  unfold block
  rw [List.mem_iff_getElem?]
  constructor
  · rintro ⟨i, hi⟩
    rw [List.getElem?_take] at hi
    split_ifs at hi with hlt
    rw [List.getElem?_drop] at hi
    refine ⟨k * size + i, ?_, hi⟩
    rw [Nat.mul_comm, Nat.mul_add_div hsize, Nat.div_eq_of_lt hlt, Nat.add_zero]
  · rintro ⟨i, rfl, hi⟩
    refine ⟨i % size, ?_⟩
    rw [List.getElem?_take, if_pos (Nat.mod_lt i hsize), List.getElem?_drop, Nat.mul_comm,
      Nat.div_add_mod]
    exact hi

/-- The blocks of one list make up the list. -/
theorem flatten_blocks (size : ℕ) (l : List α) (n : ℕ) :
    ((List.range n).map (block size l)).flatten = l.take (n * size) := by
  induction n with
  | zero => simp
  | succ n ih =>
    rw [List.range_succ, List.map_append, List.flatten_append, ih, List.map_singleton,
      List.flatten_singleton, block, Nat.succ_mul, List.take_add]

theorem nodup_block (h : l.Nodup) : (block size l k).Nodup :=
  (h.sublist (List.drop_sublist _ _)).sublist (List.take_sublist _ _)

/-- No elements of one key are on both sides of a cut. -/
def Aligned (key : α → β) (size : ℕ) (l : List α) : Prop :=
  ∀ a ∈ l, above key l a / size = (above key l a + tied key l a - 1) / size

theorem aligned_of_perm (h : l.Perm l') : Aligned key size l ↔ Aligned key size l' := by
  unfold Aligned
  simp only [h.mem_iff, above_of_perm h, tied_of_perm h]

/-- Then it is known of each element in which block it is. -/
theorem mem_block_of_aligned (hsize : 0 < size) (hsorted : Descending key l)
    (haligned : Aligned key size l) : a ∈ block size l k ↔ a ∈ l ∧ above key l a / size = k := by
  -- all places of the key of `a` are in one block
  have hplace : ∀ i, l[i]? = some a → i / size = above key l a / size := by
    intro i hi
    rcases hsorted.position hi with ⟨hlow, hhigh⟩
    have hcut := haligned a (List.mem_of_getElem? hi)
    have hle := Nat.div_le_div_right (c := size) hlow
    have hle' : i / size ≤ (above key l a + tied key l a - 1) / size :=
      Nat.div_le_div_right (by omega)
    omega
  rw [mem_block hsize]
  constructor
  · rintro ⟨i, rfl, hi⟩
    exact ⟨List.mem_of_getElem? hi, (hplace i hi).symm⟩
  · rintro ⟨ha, rfl⟩
    rcases List.mem_iff_getElem?.mp ha with ⟨i, hi⟩
    exact ⟨i, hplace i hi, hi⟩

/-- Two lists of the same elements have the same blocks. -/
theorem perm_block (hsize : 0 < size) (hnodup : l.Nodup) (hperm : l'.Perm l)
    (hsorted : Descending key l) (hsorted' : Descending key l') (haligned : Aligned key size l)
    (k : ℕ) : (block size l' k).Perm (block size l k) := by
  refine (List.perm_ext_iff_of_nodup (nodup_block (hperm.nodup_iff.mpr hnodup))
    (nodup_block hnodup)).mpr ?_
  intro a
  rw [mem_block_of_aligned hsize hsorted haligned,
    mem_block_of_aligned hsize hsorted' ((aligned_of_perm hperm).mpr haligned), hperm.mem_iff,
    above_of_perm hperm]

/-- Elements of one key on both sides of a cut can change places, so that one of them is in the
block behind the cut and, in the list as it was, in the block before it. -/
theorem exists_torn (hsize : 0 < size) (hsorted : Descending key l) (h : ¬ Aligned key size l) :
    ∃ l' k a, l'.Perm l ∧ Descending key l' ∧ (k + 1) * size < l.length ∧
      a ∈ block size l k ∧ a ∈ block size l' (k + 1) := by
  unfold Aligned at h
  push Not at h
  rcases h with ⟨a, ha, hne⟩
  have hpos : 0 < tied key l a := tied_pos ha
  have hlength : above key l a + tied key l a ≤ l.length := by
    rw [← countP_ge]
    exact List.countP_le_length
  -- the places on both sides of the first cut
  obtain ⟨k, hk⟩ : ∃ k, k = above key l a / size := ⟨_, rfl⟩
  have hlow : k * size ≤ above key l a := by
    rw [hk]
    exact Nat.div_mul_le_self _ _
  have hmid : above key l a < (k + 1) * size := by
    rw [hk, Nat.mul_comm]
    exact Nat.lt_mul_div_succ _ hsize
  have hhigh : (k + 1) * size ≤ above key l a + tied key l a - 1 := by
    have hlt : k < (above key l a + tied key l a - 1) / size := by
      have hle : above key l a / size ≤ (above key l a + tied key l a - 1) / size :=
        Nat.div_le_div_right (by omega)
      omega
    exact (Nat.mul_le_mul_right size hlt).trans (Nat.div_mul_le_self _ _)
  -- both are among the elements of the key of `a`
  obtain ⟨i, hi⟩ : ∃ i, i + 1 = (k + 1) * size := ⟨(k + 1) * size - 1, by omega⟩
  obtain ⟨b, hb⟩ : ∃ b, l[i]? = some b := ⟨_, List.getElem?_eq_getElem (by omega)⟩
  obtain ⟨c, hc⟩ : ∃ c, l[i + 1]? = some c := ⟨_, List.getElem?_eq_getElem (by omega)⟩
  have hkeyb := hsorted.key_of_position hb (a := a) (by omega) (by omega)
  have hkeyc := hsorted.key_of_position hc (a := a) (by omega) (by omega)
  rcases hsorted.swap hb hc (hkeyc.trans hkeyb.symm) with ⟨l', hperm, hsorted', hb'⟩
  refine ⟨l', k, b, hperm, hsorted', by omega, ?_, ?_⟩
  · refine (mem_block hsize).mpr ⟨i, ?_, hb⟩
    rw [Nat.div_eq_iff hsize]
    rw [Nat.succ_mul] at hi
    omega
  · refine (mem_block hsize).mpr ⟨i + 1, ?_, hb'⟩
    rw [hi, Nat.mul_div_cancel _ hsize]

/-- In blocks of one, the keys differ. -/
theorem aligned_one_iff : Aligned key 1 l ↔ (l.map key).Nodup := by
  rw [List.nodup_iff_count_le_one]
  have hcount : ∀ b, (l.map key).count b = l.countP fun a => key a = b := by
    intro b
    rw [List.count, List.countP_map]
    refine List.countP_congr ?_
    intro a _
    simp
  constructor
  · intro h b
    rw [hcount]
    by_contra hgt
    rcases List.countP_pos_iff.mp (Nat.zero_lt_of_lt (not_le.mp hgt)) with ⟨a, ha, hab⟩
    have hone := h a ha
    unfold tied at hone
    rw [of_decide_eq_true hab] at hone
    rw [Nat.div_one, Nat.div_one] at hone
    omega
  · intro h a ha
    have hone := h (key a)
    rw [hcount] at hone
    have hpos : 0 < tied key l a := tied_pos ha
    unfold tied at hpos ⊢
    rw [Nat.div_one, Nat.div_one]
    omega

end Blocks

end Gmaker.Lib
