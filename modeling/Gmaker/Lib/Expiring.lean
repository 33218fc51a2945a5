import Mathlib

/-!
# Gmaker.Lib.Expiring — one key whose value expires

A key of a store holds a value up to some time, or for ever. Every command on it first
forgets a value whose time has passed, so that what a command finds and what it leaves
depend on the time at which it is executed. The commands are those that leases are made of:
set if there is nothing, delete, and delete or prolong if the value is the given one.
-/

namespace Gmaker.Lib

universe u

/-- A value and the last moment at which it is there, if there is one. -/
structure Timed (α : Type u) where
  value : α
  deadline : Option ℕ
deriving DecidableEq

/-- The time is not over. -/
def Live (deadline : Option ℕ) (now : ℕ) : Prop := ∀ d ∈ deadline, now ≤ d

instance (deadline : Option ℕ) (now : ℕ) : Decidable (Live deadline now) :=
  match deadline with
  | none => isTrue fun _ h => nomatch h
  | some d => decidable_of_iff (now ≤ d) (by simp [Live])

@[simp] theorem live_none (now : ℕ) : Live none now := by
  intro d hd
  cases hd

@[simp] theorem live_some {d now : ℕ} : Live (some d) now ↔ now ≤ d := by
  simp [Live]

/-- What is live was live before. -/
theorem Live.mono {deadline : Option ℕ} {now later : ℕ} (h : Live deadline later)
    (hle : now ≤ later) : Live deadline now :=
  fun d hd => hle.trans (h d hd)

/-- A key of the store. -/
abbrev Key (α : Type u) := Option (Timed α)

namespace Key

variable {α : Type u} {now later : ℕ} {k : Key α} {t : Timed α} {v : α}

/-- What the key holds at a time. -/
def present (k : Key α) (now : ℕ) : Key α :=
  k.filter fun t => decide (Live t.deadline now)

theorem present_eq_some : k.present now = some t ↔ k = some t ∧ Live t.deadline now := by
  unfold Key.present
  rw [Option.filter_eq_some_iff, decide_eq_true_iff]

@[simp] theorem present_none : present (none : Key α) now = none := rfl

/-- What is there later was there before. -/
theorem present_of_later (h : k.present later = some t) (hle : now ≤ later) : k.present now = some t := by
  obtain ⟨hk, hlive⟩ := present_eq_some.mp h
  exact present_eq_some.mpr ⟨hk, hlive.mono hle⟩

/-- What is forgotten is forgotten. -/
theorem present_present (hle : now ≤ later) : (k.present now).present later = k.present later := by
  cases hlater : k.present later with
  | some t =>
    obtain ⟨-, hlive⟩ := present_eq_some.mp hlater
    exact present_eq_some.mpr ⟨present_of_later hlater hle, hlive⟩
  | none =>
    rw [Option.eq_none_iff_forall_ne_some]
    intro t ht
    obtain ⟨hnow, hlive⟩ := present_eq_some.mp ht
    rw [present_eq_some.mpr ⟨(present_eq_some.mp hnow).1, hlive⟩] at hlater
    cases hlater

/-- The expiry in milliseconds that a client asks for when it gives a duration in nanoseconds:
none (`0`, and `-1` for what is kept where there is nothing to keep), or at least a millisecond;
the server refuses what is negative. -/
def setNXExpiry (ttl : ℤ) : Option (Option ℕ) :=
  if ttl = 0 ∨ ttl = -1 then some none
  else if ttl < 0 then none
  else some (some (max 1 (ttl / 1000000).toNat))

/-- `SET key v NX`, with an expiry or without: whether it was set, and the key after it. -/
def setNX (k : Key α) (now : ℕ) (v : α) (ttl : Option ℕ) : Bool × Key α :=
  match k.present now with
  | some t => (false, some t)
  | none => (true, some ⟨v, ttl.map (now + ·)⟩)

/-- `SET key v` as a client asks for it with a duration in nanoseconds: for that long and at
least a millisecond, with the deadline that is there (`KEEPTTL`, for `-1`), or for ever. -/
def set (k : Key α) (now : ℕ) (v : α) (ttl : ℤ) : Key α :=
  if 0 < ttl then some ⟨v, some (now + max 1 (ttl / 1000000).toNat)⟩
  else if ttl = -1 then some ⟨v, (k.present now).bind Timed.deadline⟩
  else some ⟨v, none⟩

/-- `DEL key`. -/
def del (_ : Key α) : Key α := none

theorem setNX_of_none {ttl : Option ℕ} (h : k.present now = none) :
    k.setNX now v ttl = (true, some ⟨v, ttl.map (now + ·)⟩) := by
  unfold setNX
  rw [h]

theorem setNX_of_some {ttl : Option ℕ} (h : k.present now = some t) :
    k.setNX now v ttl = (false, some t) := by
  unfold setNX
  rw [h]

/-- What is there after a `SET` is what was set. -/
theorem value_of_set {ttl : ℤ} (h : (k.set now v ttl).present later = some t) : t.value = v := by
  rcases present_eq_some.mp h with ⟨hset, _⟩
  unfold set at hset
  split_ifs at hset
  all_goals
    cases hset
    rfl

variable [DecidableEq α]

/-- Delete the key if it holds the value. -/
def delIfEq (k : Key α) (now : ℕ) (v : α) : Bool × Key α :=
  match k.present now with
  | some t => if t.value = v then (true, none) else (false, some t)
  | none => (false, none)

/-- `PEXPIRE` the key if it holds the value; an expiry of nothing deletes. -/
def pexpireIfEq (k : Key α) (now : ℕ) (v : α) (ttl : ℕ) : Bool × Key α :=
  match k.present now with
  | some t =>
    if t.value = v then (true, if ttl = 0 then none else some { t with deadline := some (now + ttl) })
    else (false, some t)
  | none => (false, none)

/-- Another value is left as it is. -/
theorem delIfEq_of_ne (h : ∀ t, k.present now = some t → t.value ≠ v) :
    k.delIfEq now v = (false, k.present now) := by
  unfold delIfEq
  cases hk : k.present now with
  | none => rfl
  | some t => exact if_neg (h t hk)

theorem pexpireIfEq_of_ne {ttl : ℕ} (h : ∀ t, k.present now = some t → t.value ≠ v) :
    k.pexpireIfEq now v ttl = (false, k.present now) := by
  unfold pexpireIfEq
  cases hk : k.present now with
  | none => rfl
  | some t => exact if_neg (h t hk)

/-- Neither of the two puts another value there. -/
theorem delIfEq_value (h : (k.delIfEq now v).2 = some t) :
    ∃ t', k.present now = some t' ∧ t'.value = t.value := by
  unfold delIfEq at h
  split at h
  · rename_i t' hk
    split_ifs at h
    · cases h
      exact ⟨t, hk, rfl⟩
  · cases h

theorem pexpireIfEq_value (ttl : ℕ) (h : (k.pexpireIfEq now v ttl).2 = some t) :
    ∃ t', k.present now = some t' ∧ t'.value = t.value := by
  unfold pexpireIfEq at h
  split at h
  · rename_i t' hk
    split_ifs at h
    · cases h
      exact ⟨t', hk, rfl⟩
    · cases h
      exact ⟨t, hk, rfl⟩
  · cases h

end Key

end Gmaker.Lib
