import Mathlib

/-!
# Gmaker.Limiter.HotKey — requests of a key

`HotKeyLimiter` counts the requests of a key from one on, until a window after that one is over;
the next one begins anew. `CleanLoop` deletes what is older than two windows. The time is read
before the lock is taken, so that calls may come out of order; as long as no call waits longer
than a window for the lock, no answer depends on what is deleted (`answers_clean`).
-/

namespace Gmaker.Limiter.HotKey

/-- `window` -/
structure Window where
  count : ℤ
  start : ℤ
deriving DecidableEq

/-- `windows` -/
abbrev Windows := String → Option Window

/-- What takes the lock, with the time it has read before. -/
inductive Turn where
  | allow (key : String) (now : ℤ)
  | clean (now : ℤ)
deriving DecidableEq

def Turn.now : Turn → ℤ
  | .allow _ now => now
  | .clean now => now

def Turn.isAllow : Turn → Bool
  | .allow .. => true
  | .clean _ => false

variable (maxQPS window : ℤ)

/-- `Allow`, of the window of the key. -/
def count (now : ℤ) : Option Window → Bool × Window
  | none => (true, ⟨1, now⟩)
  | some w =>
    if window < now - w.start then (true, ⟨1, now⟩)
    else if maxQPS ≤ w.count then (false, w)
    else (true, { w with count := w.count + 1 })

/-- `Allow`. -/
def allow (l : Windows) (key : String) (now : ℤ) : Bool × Windows :=
  let (ok, w) := count maxQPS window now (l key)
  (ok, Function.update l key (some w))

/-- A turn of `CleanLoop`. -/
def clean (l : Windows) (now : ℤ) : Windows := fun key =>
  (l key).filter fun w => now - w.start ≤ window * 2

/-- The answers of `Allow`. -/
def answers (l : Windows) : List Turn → List Bool
  | [] => []
  | .allow key now :: turns =>
    (allow maxQPS window l key now).1 :: answers (allow maxQPS window l key now).2 turns
  | .clean now :: turns => answers (clean window l now) turns

/-- All windows are there that are not over for any of the turns. -/
def Sees (turns : List Turn) (l l' : Windows) : Prop :=
  ∀ key, l' key = l key ∨
    l' key = none ∧ ∃ w, l key = some w ∧ ∀ turn ∈ turns, window < turn.now - w.start

section Sees

variable {maxQPS window} {l l' : Windows} {turns : List Turn} {turn : Turn}

theorem Sees.tail (h : Sees window (turn :: turns) l l') : Sees window turns l l' := by
  intro key
  refine (h key).imp_right fun ⟨hnone, w, hw, hover⟩ => ⟨hnone, w, hw, fun turn hturn => ?_⟩
  exact hover turn (List.mem_cons_of_mem _ hturn)

/-- A window that is over is as good as none. -/
theorem Sees.count (h : Sees window (turn :: turns) l l') (key : String) :
    count maxQPS window turn.now (l' key) = count maxQPS window turn.now (l key) := by
  rcases h key with heq | ⟨hnone, w, hw, hover⟩
  · rw [heq]
  · rw [hnone, hw]
    exact (if_pos (hover turn List.mem_cons_self)).symm

theorem Sees.update (h : Sees window turns l l') (key : String) (w : Window) :
    Sees window turns (Function.update l key (some w)) (Function.update l' key (some w)) := by
  intro other
  by_cases hkey : other = key
  · rw [hkey, Function.update_self, Function.update_self]
    exact .inl rfl
  · rw [Function.update_of_ne hkey, Function.update_of_ne hkey]
    exact h other

theorem Sees.clean {now : ℤ} (h : Sees window turns l l')
    (hlate : ∀ turn ∈ turns, now ≤ turn.now + window) :
    Sees window turns l (clean window l' now) := by
  intro key
  unfold HotKey.clean
  rcases h key with heq | ⟨hnone, hover⟩
  · rw [heq]
    cases hw : l key with
    | none => exact .inl rfl
    | some w =>
      by_cases hkept : now - w.start ≤ window * 2
      · exact .inl (Option.filter_eq_some_iff.mpr ⟨rfl, decide_eq_true hkept⟩)
      · refine .inr ⟨by simp [Option.filter, hkept], w, rfl, fun turn hturn => ?_⟩
        have hwait := hlate turn hturn
        omega
  · exact .inr ⟨by rw [hnone, Option.filter_none], hover⟩

end Sees

/-- What `CleanLoop` deletes changes no answer, whatever is asked and in what order, as long as
nobody waits longer than a window for the lock. -/
theorem answers_clean {turns : List Turn}
    (hlate : turns.Pairwise fun a b => a.now ≤ b.now + window) (l : Windows) :
    answers maxQPS window l turns = answers maxQPS window l (turns.filter Turn.isAllow) := by
  suffices h : ∀ l l', Sees window turns l l' →
      answers maxQPS window l' turns = answers maxQPS window l (turns.filter Turn.isAllow) from
    h l l fun _ => .inl rfl
  induction turns with
  | nil => exact fun _ _ _ => rfl
  | cons turn turns ih =>
    intro l l' hsees
    obtain ⟨hfirst, hrest⟩ := List.pairwise_cons.mp hlate
    cases turn with
    | allow key now =>
      have hcount : count maxQPS window now (l' key) = count maxQPS window now (l key) :=
        hsees.count key
      rw [List.filter_cons_of_pos rfl, answers, answers, allow, allow, hcount]
      exact congrArg _ (ih hrest _ _ (hsees.tail.update key _))
    | clean now =>
      rw [List.filter_cons_of_neg Bool.false_ne_true, answers]
      exact ih hrest l _ (hsees.tail.clean hfirst)

/-- A call that has waited comes after the window was deleted. -/
theorem answers_clean_waited :
    let turns : List Turn := [.allow "k" 0, .allow "k" 5, .clean 25, .allow "k" 16, .allow "k" 26]
    answers 1 10 (fun _ => none) turns =
      answers 1 10 (fun _ => none) (turns.filter Turn.isAllow) :=
  answers_clean 1 10 (by decide) _

end Gmaker.Limiter.HotKey
