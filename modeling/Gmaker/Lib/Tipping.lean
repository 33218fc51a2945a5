import Mathlib

/-!
# Gmaker.Lib.Tipping — whose share reaches a threshold

Several parties give shares, one after the other, until a threshold is reached. In which order
they come is open, and so it may be open whose share it is that reaches the threshold. `OneTips`
says that it is the same party's in every order.
-/

namespace Gmaker.Lib

universe u

variable {γ : Type u}

/-- What all shares come to. -/
def shareTotal (l : List (γ × ℕ)) : ℕ := (l.map Prod.snd).sum

@[simp] theorem shareTotal_nil : shareTotal ([] : List (γ × ℕ)) = 0 := rfl

@[simp] theorem shareTotal_cons (b : γ × ℕ) (l : List (γ × ℕ)) :
    shareTotal (b :: l) = b.2 + shareTotal l := by
  simp [shareTotal]

theorem shareTotal_perm {l l' : List (γ × ℕ)} (h : l.Perm l') : shareTotal l = shareTotal l' :=
  (h.map Prod.snd).sum_eq

/-- Some of the shares reach the threshold, and without one of `c` they do not. -/
def MayTip (threshold : ℤ) (l : List (γ × ℕ)) (c : γ) : Prop :=
  ∃ s ∈ l.sublists, ∃ b ∈ s, b.1 = c ∧ (shareTotal s : ℤ) - b.2 < threshold ∧
    threshold ≤ shareTotal s

instance [DecidableEq γ] (threshold : ℤ) (l : List (γ × ℕ)) (c : γ) :
    Decidable (MayTip threshold l c) :=
  inferInstanceAs (Decidable (∃ s ∈ l.sublists, ∃ b ∈ s, b.1 = c ∧
    (shareTotal s : ℤ) - b.2 < threshold ∧ threshold ≤ shareTotal s))

/-- It is always the same party whose share reaches the threshold. -/
def OneTips (threshold : ℤ) (l : List (γ × ℕ)) : Prop :=
  ∀ b ∈ l, ∀ b' ∈ l, MayTip threshold l b.1 → MayTip threshold l b'.1 → b.1 = b'.1

instance [DecidableEq γ] (threshold : ℤ) (l : List (γ × ℕ)) : Decidable (OneTips threshold l) :=
  inferInstanceAs (Decidable (∀ b ∈ l, ∀ b' ∈ l,
    MayTip threshold l b.1 → MayTip threshold l b'.1 → b.1 = b'.1))

section MayTip

variable {threshold : ℤ} {l l' : List (γ × ℕ)} {b b' : γ × ℕ} {c c' : γ}

/-- Who may tip has a share. -/
theorem MayTip.mem (h : MayTip threshold l c) : ∃ b ∈ l, b.1 = c := by
  rcases h with ⟨s, hs, b, hb, hc, -⟩
  exact ⟨b, (List.mem_sublists.mp hs).subset hb, hc⟩

theorem OneTips.eq (h : OneTips threshold l) (hc : MayTip threshold l c)
    (hc' : MayTip threshold l c') : c = c' := by
  rcases hc.mem with ⟨b, hb, rfl⟩
  rcases hc'.mem with ⟨b', hb', rfl⟩
  exact h b hb b' hb' hc hc'

theorem MayTip.perm (hperm : l.Perm l') (h : MayTip threshold l c) : MayTip threshold l' c := by
  rcases h with ⟨s, hs, b, hb, hc, hbelow, hreach⟩
  have hsub : s.Subperm l' := (List.mem_sublists.mp hs).subperm.trans hperm.subperm
  rcases hsub with ⟨s', hs', hsub⟩
  refine ⟨s', List.mem_sublists.mpr hsub, b, hs'.mem_iff.mpr hb, hc, ?_⟩
  rw [shareTotal_perm hs']
  exact ⟨hbelow, hreach⟩

theorem OneTips.perm (hperm : l.Perm l') (h : OneTips threshold l) : OneTips threshold l' := by
  intro b _ b' _ hb hb'
  exact h.eq (hb.perm hperm.symm) (hb'.perm hperm.symm)

/-- Who may tip what is left when a share has come may tip the whole. -/
theorem MayTip.cons (h : MayTip (threshold - b.2) l c) : MayTip threshold (b :: l) c := by
  rcases h with ⟨s, hs, b', hb', hc, hbelow, hreach⟩
  have hsub : (b :: s).Sublist (b :: l) := (List.mem_sublists.mp hs).cons_cons b
  refine ⟨b :: s, List.mem_sublists.mpr hsub, b', List.mem_cons_of_mem b hb', hc, ?_, ?_⟩
  · rw [shareTotal_cons]
    push_cast
    omega
  · rw [shareTotal_cons]
    push_cast
    omega

/-- There is something to reach. -/
theorem MayTip.pos (h : MayTip threshold l c) : 0 < threshold := by
  rcases h with ⟨s, _, b, hb, _, hbelow, _⟩
  have hle : b.2 ≤ shareTotal s := List.le_sum_of_mem (List.mem_map.mpr ⟨b, hb, rfl⟩)
  omega

/-- A threshold that is reached is no better than none. -/
theorem mayTip_max_iff : MayTip (max 0 threshold) l c ↔ MayTip threshold l c := by
  constructor
  · intro h
    have hpos := h.pos
    rw [max_eq_right (by omega)] at h
    exact h
  · intro h
    rw [max_eq_right h.pos.le]
    exact h

/-- Who reaches the threshold alone may tip. -/
theorem mayTip_of_le (hpos : 0 < threshold) (hle : threshold ≤ b.2) :
    MayTip threshold (b :: l) b.1 := by
  have hsub : [b].Sublist (b :: l) := (List.nil_sublist l).cons_cons b
  refine ⟨[b], List.mem_sublists.mpr hsub, b, List.mem_singleton_self b, rfl, ?_, ?_⟩
  · rw [shareTotal_cons, shareTotal_nil]
    omega
  · rw [shareTotal_cons, shareTotal_nil]
    omega

/-- What is left of the threshold when a share has come, and nothing when it is reached. -/
theorem MayTip.cons_of_left (h : MayTip (max 0 (threshold - b.2)) l c) :
    MayTip threshold (b :: l) c := by
  rw [mayTip_max_iff] at h
  exact h.cons

/-- Who may tip without one share may tip with it. -/
theorem MayTip.weaken (h : MayTip threshold l c) : MayTip threshold (b :: l) c := by
  rcases h with ⟨s, hs, hrest⟩
  exact ⟨s, List.mem_sublists.mpr ((List.mem_sublists.mp hs).cons b), hrest⟩

end MayTip

end Gmaker.Lib
