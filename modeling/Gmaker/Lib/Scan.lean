import Mathlib

/-!
# Gmaker.Lib.Scan — readers of a stream that comes in pieces

A reader looks at the bytes that have come so far and either needs more of them, refuses
them, or finds a value and leaves the rest. It is *steady* when bytes that come later do
not change what it has found or refused; that is what makes the pieces of a stream not
matter. The readers here are put together from `take`, `require` and `choose`, and `bind`
keeps what they have.
-/

namespace Gmaker.Lib

variable {τ α β : Type*}

/-- What a reader makes of the bytes so far. -/
inductive Scan (τ α : Type*) where
  | more
  | bad
  | found (a : α) (rest : List τ)

/-- A reader. -/
abbrev Reader (τ α : Type*) := List τ → Scan τ α

namespace Reader

/-! ## The readers -/

/-- Finds a value without reading. -/
def pure (a : α) : Reader τ α := fun bs => .found a bs

/-- One reader after the other. -/
def bind (r : Reader τ α) (k : α → Reader τ β) : Reader τ β := fun bs =>
  match r bs with
  | .more => .more
  | .bad => .bad
  | .found a rest => k a rest

/-- The next `n`. -/
def take (n : ℕ) : Reader τ (List.Vector τ n) := fun bs =>
  if h : n ≤ bs.length then .found ⟨bs.take n, List.length_take_of_le h⟩ (bs.drop n) else .more

/-- Refuses the stream unless `p`. -/
def require (p : Prop) [Decidable p] (r : p → Reader τ α) : Reader τ α := fun bs =>
  if h : p then r h bs else .bad

/-- Refuses the stream unless there is an `a`. -/
def choose (a : Option α) (r : α → Reader τ β) : Reader τ β := fun bs =>
  match a with
  | none => .bad
  | some a => r a bs

/-! ## What they find -/

theorem bind_found {r : Reader τ α} {k : α → Reader τ β} {bs rest : List τ} {a : α}
    (h : r bs = .found a rest) : bind r k bs = k a rest := by
  rw [bind, h]

theorem bind_more {r : Reader τ α} (k : α → Reader τ β) {bs : List τ} (h : r bs = .more) :
    bind r k bs = .more := by
  rw [bind, h]

theorem bind_bad {r : Reader τ α} (k : α → Reader τ β) {bs : List τ} (h : r bs = .bad) :
    bind r k bs = .bad := by
  rw [bind, h]

theorem bind_eq_found {r : Reader τ α} {k : α → Reader τ β} {bs rest : List τ} {b : β}
    (h : bind r k bs = .found b rest) :
    ∃ a mid, r bs = .found a mid ∧ k a mid = .found b rest := by
  unfold bind at h
  split at h
  · cases h
  · cases h
  · rename_i a mid hr
    exact ⟨a, mid, hr, h⟩

theorem take_append_left {n : ℕ} (front : List.Vector τ n) (rest : List τ) :
    take n (front.toList ++ rest) = .found front rest := by
  obtain ⟨front, rfl⟩ := front
  change take front.length (front ++ rest) = _
  have hle : front.length ≤ (front ++ rest).length := by
    rw [List.length_append]
    omega
  rw [take, dif_pos hle]
  congr 1
  · exact Subtype.ext List.take_left
  · exact List.drop_left

theorem take_of_le {n : ℕ} {bs : List τ} (h : n ≤ bs.length) :
    ∃ front : List.Vector τ n, front.toList = bs.take n ∧
      take n bs = .found front (bs.drop n) :=
  ⟨⟨bs.take n, List.length_take_of_le h⟩, rfl, dif_pos h⟩

theorem take_of_lt {n : ℕ} {bs : List τ} (h : bs.length < n) : take n bs = .more :=
  dif_neg (by omega)

theorem take_eq_found {n : ℕ} {bs rest : List τ} {front : List.Vector τ n}
    (h : take n bs = .found front rest) : bs = front.toList ++ rest := by
  unfold take at h
  split_ifs at h with hn
  injection h with hfront hrest
  subst hfront hrest
  exact (List.take_append_drop n bs).symm

theorem require_pos {p : Prop} [Decidable p] (hp : p) (r : p → Reader τ α) (bs : List τ) :
    require p r bs = r hp bs := dif_pos hp

theorem require_neg {p : Prop} [Decidable p] (hp : ¬p) (r : p → Reader τ α) (bs : List τ) :
    require p r bs = .bad := dif_neg hp

theorem require_eq_found {p : Prop} [Decidable p] {r : p → Reader τ α} {bs rest : List τ} {a : α}
    (h : require p r bs = .found a rest) : ∃ hp : p, r hp bs = .found a rest := by
  unfold require at h
  split_ifs at h with hp
  exact ⟨hp, h⟩

theorem choose_eq_found {a : Option α} {r : α → Reader τ β} {bs rest : List τ} {b : β}
    (h : choose a r bs = .found b rest) : ∃ x, a = some x ∧ r x bs = .found b rest := by
  cases a with
  | none => cases h
  | some x => exact ⟨x, rfl, h⟩

/-! ## Steady readers -/

/-- What comes later changes nothing of what has been found or refused. -/
structure Steady (r : Reader τ α) : Prop where
  bad : ∀ bs later, r bs = .bad → r (bs ++ later) = .bad
  found : ∀ bs later a rest, r bs = .found a rest → r (bs ++ later) = .found a (rest ++ later)

theorem steady_pure (a : α) : Steady (pure a : Reader τ α) where
  bad := by
    intro bs later h
    cases h
  found := by
    intro bs later b rest h
    cases h
    rfl

theorem steady_take (n : ℕ) : Steady (take n : Reader τ (List.Vector τ n)) where
  bad := by
    intro bs later h
    unfold take at h
    split_ifs at h
  found := by
    intro bs later front rest h
    rw [take_eq_found h, List.append_assoc]
    exact take_append_left front _

theorem Steady.bind {r : Reader τ α} {k : α → Reader τ β} (hr : Steady r)
    (hk : ∀ a, Steady (k a)) : Steady (bind r k) where
  bad := by
    intro bs later h
    unfold Reader.bind at h ⊢
    split at h
    · cases h
    · rename_i hbad
      rw [hr.bad _ later hbad]
    · rename_i a rest hfound
      rw [hr.found _ later _ _ hfound]
      exact (hk a).bad _ later h
  found := by
    intro bs later b rest h
    obtain ⟨a, mid, hfound, hnext⟩ := bind_eq_found h
    rw [bind_found (hr.found _ later _ _ hfound)]
    exact (hk a).found _ later _ _ hnext

theorem Steady.require {p : Prop} [Decidable p] {r : p → Reader τ α} (hr : ∀ hp, Steady (r hp)) :
    Steady (require p r) where
  bad := by
    intro bs later h
    by_cases hp : p
    · rw [require_pos hp] at h ⊢
      exact (hr hp).bad _ later h
    · exact require_neg hp r _
  found := by
    intro bs later a rest h
    obtain ⟨hp, h⟩ := require_eq_found h
    rw [require_pos hp]
    exact (hr hp).found _ later _ _ h

theorem Steady.choose {a : Option α} {r : α → Reader τ β} (hr : ∀ x, Steady (r x)) :
    Steady (choose a r) where
  bad := by
    intro bs later h
    cases a with
    | none => rfl
    | some x => exact (hr x).bad _ later h
  found := by
    intro bs later b rest h
    obtain ⟨x, rfl, h⟩ := choose_eq_found h
    exact (hr x).found _ later _ _ h

end Reader

end Gmaker.Lib
