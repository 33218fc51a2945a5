import Mathlib

/-!
# Gmaker.Lib.Fold — loops over a container

A loop that goes through the elements of a container is a fold over the list of them.
`FoldOk` states a condition on the state each element is met in, and `foldl_invariant`
is the loop rule that goes with it.

A container without an order (a hash map) gives its elements in any order. `Order` is
such an order; `foldl_eq_of_perm` says when the order does not matter: there is a
condition on the state and on the elements still to come that every pass keeps and under
which two neighbours may change places.
-/

namespace Gmaker.Lib

universe u v

variable {σ : Type u} {α : Type v}

/-! ## Conditions along a loop -/

/-- Every element of the loop is met in a state that meets `ok`. -/
def FoldOk (f : σ → α → σ) (ok : σ → α → Prop) : σ → List α → Prop
  | _, [] => True
  | s, a :: l => ok s a ∧ FoldOk f ok (f s a) l

instance decidableFoldOk {f : σ → α → σ} {ok : σ → α → Prop} [∀ s a, Decidable (ok s a)] :
    ∀ s l, Decidable (FoldOk f ok s l)
  | _, [] => isTrue trivial
  | s, a :: l =>
    have : Decidable (FoldOk f ok (f s a) l) := decidableFoldOk (f s a) l
    inferInstanceAs (Decidable (ok s a ∧ FoldOk f ok (f s a) l))

section FoldOk

variable {f : σ → α → σ} {ok : σ → α → Prop} {I : σ → Prop} {s : σ} {l : List α}

/-- The loop rule: what a pass keeps in a state that meets the condition holds after the
loop. -/
theorem foldl_invariant (hpass : ∀ s, ∀ a ∈ l, ok s a → I s → I (f s a)) (hs : I s)
    (hok : FoldOk f ok s l) : I (l.foldl f s) := by
  induction l generalizing s with
  | nil => exact hs
  | cons a l ih =>
    refine ih (fun t b hb => hpass t b (List.mem_cons_of_mem a hb)) ?_ hok.2
    exact hpass s a List.mem_cons_self hok.1 hs

/-- The loop rule where every pass is allowed. -/
theorem foldl_invariant_all (hpass : ∀ s, ∀ a ∈ l, I s → I (f s a)) (hs : I s) :
    I (l.foldl f s) := by
  induction l generalizing s with
  | nil => exact hs
  | cons a l ih =>
    refine ih (fun t b hb => hpass t b (List.mem_cons_of_mem a hb)) ?_
    exact hpass s a List.mem_cons_self hs

/-- A condition that follows from what the passes keep is met by all of them. -/
theorem foldOk_of_invariant (hok : ∀ s, ∀ a ∈ l, I s → ok s a)
    (hpass : ∀ s, ∀ a ∈ l, ok s a → I s → I (f s a)) (hs : I s) : FoldOk f ok s l := by
  induction l generalizing s with
  | nil => trivial
  | cons a l ih =>
    have hfirst := hok s a List.mem_cons_self hs
    refine ⟨hfirst, ih (fun t b hb => hok t b (List.mem_cons_of_mem a hb))
      (fun t b hb => hpass t b (List.mem_cons_of_mem a hb)) ?_⟩
    exact hpass s a List.mem_cons_self hfirst hs

/-- A condition that always holds. -/
theorem foldOk_of_forall (hok : ∀ s a, ok s a) : FoldOk f ok s l :=
  foldOk_of_invariant (I := fun _ => True) (fun s a _ _ => hok s a) (fun _ _ _ _ _ => trivial) trivial

/-- What follows from two conditions. -/
theorem FoldOk.imp₂ {P Q : σ → α → Prop} (himp : ∀ s, ∀ a, P s a → Q s a → ok s a)
    (hP : FoldOk f P s l) (hQ : FoldOk f Q s l) : FoldOk f ok s l := by
  induction l generalizing s with
  | nil => trivial
  | cons a l ih => exact ⟨himp s a hP.1 hQ.1, ih hP.2 hQ.2⟩

/-- Two conditions that say the same as long as the passes of the loop keep something: what they
keep, and what else is known of every pass, may be used to see it. -/
theorem foldOk_congr {R ok' : σ → α → Prop}
    (hiff : ∀ s, ∀ a ∈ l, I s → R s a → (ok s a ↔ ok' s a))
    (hpass : ∀ s, ∀ a ∈ l, I s → R s a → ok s a → I (f s a)) (hs : I s) (hR : FoldOk f R s l) :
    FoldOk f ok s l ↔ FoldOk f ok' s l := by
  induction l generalizing s with
  | nil => exact Iff.rfl
  | cons a l ih =>
    have hfirst := hiff s a List.mem_cons_self hs hR.1
    have hrest : ok s a → (FoldOk f ok (f s a) l ↔ FoldOk f ok' (f s a) l) := by
      intro hok
      apply ih
      · exact fun t b hb => hiff t b (List.mem_cons_of_mem a hb)
      · exact fun t b hb => hpass t b (List.mem_cons_of_mem a hb)
      · exact hpass s a List.mem_cons_self hs hR.1 hok
      · exact hR.2
    exact (and_congr_right hrest).trans (and_congr_left fun _ => hfirst)

end FoldOk

/-! ## Loops in any order -/

/-- In which order the elements are met. -/
structure Order (α : Type v) where
  arrange : List α → List α
  perm : ∀ l, (arrange l).Perm l

/-- The elements as they come. -/
def Order.asIs : Order α := ⟨id, fun l => List.Perm.refl l⟩

/-- The elements from the last one to the first. -/
def Order.backwards : Order α := ⟨List.reverse, List.reverse_perm⟩

theorem Order.mem_arrange (o : Order α) {l : List α} {a : α} : a ∈ o.arrange l ↔ a ∈ l :=
  (o.perm l).mem_iff

theorem Order.arrange_perm (o o' : Order α) (l : List α) : (o.arrange l).Perm (o'.arrange l) :=
  (o.perm l).trans (o'.perm l).symm

/-- An order in which the elements of one list come as in another. -/
def Order.giving [DecidableEq α] {l t : List α} (h : t.Perm l) : Order α where
  arrange l' := if l' = l then t else l'
  perm l' := by
    split_ifs with heq
    · rw [heq]
      exact h
    · exact List.Perm.refl l'

theorem Order.arrange_giving [DecidableEq α] {l t : List α} (h : t.Perm l) :
    (Order.giving h).arrange l = t := if_pos rfl

/-- The order does not matter where a condition on the state and the elements to come is
kept by every pass and lets two neighbours change places. -/
theorem foldl_eq_of_perm {f : σ → α → σ} {J : σ → List α → Prop}
    (hperm : ∀ s l l', l.Perm l' → J s l → J s l')
    (hpass : ∀ s a l, J s (a :: l) → J (f s a) l)
    (hswap : ∀ s a b l, J s (a :: b :: l) → f (f s a) b = f (f s b) a)
    {l l' : List α} (h : l.Perm l') {s : σ} (hJ : J s l) : l.foldl f s = l'.foldl f s := by
  induction h generalizing s with
  | nil => rfl
  | cons a _ ih => exact ih (hpass s a _ hJ)
  | swap a b l =>
    rw [List.foldl_cons, List.foldl_cons, List.foldl_cons, List.foldl_cons, hswap s b a l hJ]
  | trans h₁ _ ih₁ ih₂ => exact (ih₁ hJ).trans (ih₂ (hperm s _ _ h₁ hJ))

/-- Two loops do the same whose passes do the same under such a condition. -/
theorem foldl_congr_of {f g : σ → α → σ} {J : σ → List α → Prop}
    (hpass : ∀ s a l, J s (a :: l) → J (f s a) l) (heq : ∀ s a l, J s (a :: l) → f s a = g s a)
    {l : List α} {s : σ} (hJ : J s l) : l.foldl f s = l.foldl g s := by
  induction l generalizing s with
  | nil => rfl
  | cons a l ih =>
    rw [List.foldl_cons, List.foldl_cons, ← heq s a l hJ]
    exact ih (hpass s a l hJ)

/-! ## Counts -/

/-- A count grows if what was counted is counted still, and something else is. -/
theorem countP_lt {p q : α → Bool} {l : List α} (himp : ∀ a ∈ l, p a = true → q a = true) {a : α}
    (ha : a ∈ l) (hp : p a = false) (hq : q a = true) : l.countP p < l.countP q := by
  rcases List.append_of_mem ha with ⟨l₁, l₂, rfl⟩
  have h₁ : l₁.countP p ≤ l₁.countP q :=
    List.countP_mono_left fun b hb => himp b (List.mem_append_left _ hb)
  have h₂ : l₂.countP p ≤ l₂.countP q :=
    List.countP_mono_left fun b hb =>
      himp b (List.mem_append_right _ (List.mem_cons_of_mem a hb))
  rw [List.countP_append, List.countP_append, List.countP_cons, List.countP_cons, hp, hq]
  simp only [if_true, Bool.false_eq_true, if_false]
  omega

/-! ## Loops that can fail, and loops that give lists -/

/-- A loop in which nothing fails. -/
theorem mapM_eq_some {β : Type v} {f : α → Option β} {h : α → β} {l : List α}
    (hf : ∀ a ∈ l, f a = some (h a)) : l.mapM f = some (l.map h) := by
  induction l with
  | nil => rfl
  | cons a l ih =>
    rw [List.mapM_cons, hf a List.mem_cons_self, ih fun b hb => hf b (List.mem_cons_of_mem a hb)]
    rfl

/-- In a loop with a result nothing fails. -/
theorem exists_of_mapM {β : Type v} {f : α → Option β} {l : List α} {out : List β}
    (h : l.mapM f = some out) : ∀ a ∈ l, ∃ b, f a = some b := by
  induction l generalizing out with
  | nil => simp
  | cons a l ih =>
    rw [List.mapM_cons] at h
    obtain ⟨b, hb, h⟩ := Option.bind_eq_some_iff.mp h
    obtain ⟨bs, hbs, -⟩ := Option.bind_eq_some_iff.mp h
    intro c hc
    rcases List.mem_cons.mp hc with rfl | htail
    · exact ⟨b, hb⟩
    · exact ih hbs c htail

/-- A loop in which one element alone gives something. -/
theorem flatMap_eq_singleton {β : Type v} {f : α → List β} {l : List α} {a : α} {b : β}
    (hnodup : l.Nodup) (ha : a ∈ l) (hself : f a = [b]) (hother : ∀ c ∈ l, c ≠ a → f c = []) :
    l.flatMap f = [b] := by
  induction l with
  | nil => cases ha
  | cons c l ih =>
    obtain ⟨hc, hnodup'⟩ := List.nodup_cons.mp hnodup
    rw [List.flatMap_cons]
    rcases List.mem_cons.mp ha with rfl | hin
    · have hrest : l.flatMap f = [] := by
        rw [List.flatMap_eq_nil_iff]
        intro d hd
        refine hother d (List.mem_cons_of_mem _ hd) ?_
        rintro rfl
        exact hc hd
      rw [hself, hrest, List.append_nil]
    · have hne : c ≠ a := by
        rintro rfl
        exact hc hin
      rw [hother c List.mem_cons_self hne, List.nil_append]
      exact ih hnodup' hin fun d hd => hother d (List.mem_cons_of_mem _ hd)

end Gmaker.Lib
