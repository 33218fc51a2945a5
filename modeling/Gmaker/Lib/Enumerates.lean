import Mathlib

/-!
# Gmaker.Lib.Enumerates — a list with the values of a partial map

`Enumerates l f` says that the list has the values of the map, each once, whatever keys they are
under: several keys may share one. The two rules say when that survives an assignment and a
removal of a key, if at the same time one value at most is put into the list or taken from it.
-/

namespace Gmaker.Lib

universe u v

variable {α : Type u} {β : Type v}

/-- The list has the values of the map, each once. -/
structure Enumerates (l : List β) (f : α → Option β) : Prop where
  nodup : l.Nodup
  mem_iff : ∀ b, b ∈ l ↔ ∃ a, f a = some b

/-- Another key has the value. -/
def Elsewhere (f : α → Option β) (a : α) (b : β) : Prop := ∃ a', a' ≠ a ∧ f a' = some b

variable {l l' : List β} {f : α → Option β} {a : α} {b v : β}

theorem enumerates_nil : Enumerates ([] : List β) fun _ : α => none where
  nodup := .nil
  mem_iff := by simp

/-- A value is under the key itself or under another. -/
theorem Enumerates.mem_iff_elsewhere (h : Enumerates l f) (a : α) (b : β) :
    b ∈ l ↔ f a = some b ∨ Elsewhere f a b := by
  rw [h.mem_iff]
  constructor
  · rintro ⟨a', ha'⟩
    by_cases haa : a' = a
    · subst haa
      exact .inl ha'
    · exact .inr ⟨a', haa, ha'⟩
  · rintro (ha | ⟨a', -, ha'⟩)
    · exact ⟨a, ha⟩
    · exact ⟨a', ha'⟩

variable [DecidableEq α]

/-- The values after an assignment or a removal of a key. -/
theorem exists_update_iff {o : Option β} :
    (∃ a', Function.update f a o a' = some b) ↔ o = some b ∨ Elsewhere f a b := by
  constructor
  · rintro ⟨a', ha'⟩
    by_cases haa : a' = a
    · subst haa
      rw [Function.update_self] at ha'
      exact .inl ha'
    · rw [Function.update_of_ne haa] at ha'
      exact .inr ⟨a', haa, ha'⟩
  · rintro (rfl | ⟨a', hne, ha'⟩)
    · exact ⟨a, Function.update_self ..⟩
    · refine ⟨a', ?_⟩
      rw [Function.update_of_ne hne, ha']

/-- A key is assigned to, and one value at most is put into the list. -/
theorem Enumerates.assign_iff (h : Enumerates l f) {added : Option β} (hnodup : l'.Nodup)
    (hmem : ∀ b, b ∈ l' ↔ b ∈ l ∨ added = some b) :
    Enumerates l' (Function.update f a (some v)) ↔
      (f a = some v ∨ added = some v ∨ Elsewhere f a v) ∧
        (∀ b ∈ added, b = v ∨ Elsewhere f a b) ∧ ∀ b ∈ f a, b = v ∨ Elsewhere f a b := by
  constructor
  · intro h'
    have hiff (b : β) : (b ∈ l ∨ added = some b) ↔ some v = some b ∨ Elsewhere f a b := by
      rw [← hmem, h'.mem_iff, exists_update_iff]
    refine ⟨?_, fun b hb => ?_, fun b hb => ?_⟩
    · rcases (hiff v).mpr (.inl rfl) with hv | hv
      · rcases (h.mem_iff_elsewhere a v).mp hv with hv | hv
        · exact .inl hv
        · exact .inr (.inr hv)
      · exact .inr (.inl hv)
    · exact ((hiff b).mp (.inr hb)).imp (fun heq => (Option.some.inj heq).symm) id
    · have hin : b ∈ l := (h.mem_iff_elsewhere a b).mpr (.inl hb)
      exact ((hiff b).mp (.inl hin)).imp (fun heq => (Option.some.inj heq).symm) id
  · rintro ⟨hv, hadded, hold⟩
    refine ⟨hnodup, fun b => ?_⟩
    rw [hmem, h.mem_iff_elsewhere a, exists_update_iff]
    constructor
    · rintro ((hb | hb) | hb)
      · exact (hold b hb).imp (fun heq => by rw [heq]) id
      · exact .inr hb
      · exact (hadded b hb).imp (fun heq => by rw [heq]) id
    · rintro (hb | hb)
      · cases hb
        rcases hv with hv | hv | hv
        · exact .inl (.inl hv)
        · exact .inr hv
        · exact .inl (.inr hv)
      · exact .inl (.inr hb)

/-- A key is removed, and one value at most is taken from the list. -/
theorem Enumerates.remove_iff (h : Enumerates l f) {removed : Option β} (hnodup : l'.Nodup)
    (hmem : ∀ b, b ∈ l' ↔ b ∈ l ∧ removed ≠ some b) :
    Enumerates l' (Function.update f a none) ↔
      (∀ b ∈ removed, ¬ Elsewhere f a b) ∧ ∀ b ∈ f a, removed = some b ∨ Elsewhere f a b := by
  constructor
  · intro h'
    have hiff (b : β) : (b ∈ l ∧ removed ≠ some b) ↔ Elsewhere f a b := by
      rw [← hmem, h'.mem_iff, exists_update_iff]
      simp
    refine ⟨fun b hb hother => ((hiff b).mpr hother).2 hb, fun b hb => ?_⟩
    by_cases hr : removed = some b
    · exact .inl hr
    · exact .inr ((hiff b).mp ⟨(h.mem_iff_elsewhere a b).mpr (.inl hb), hr⟩)
  · rintro ⟨hremoved, hold⟩
    refine ⟨hnodup, fun b => ?_⟩
    rw [hmem, h.mem_iff_elsewhere a, exists_update_iff]
    constructor
    · rintro ⟨hb | hb, hr⟩
      · exact .inr ((hold b hb).resolve_left hr)
      · exact .inr hb
    · rintro (hb | hb)
      · cases hb
      · exact ⟨.inr hb, fun hr => hremoved b hr hb⟩

end Gmaker.Lib
