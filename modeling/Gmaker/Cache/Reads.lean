import Mathlib
import Gmaker.Cache.Manager

/-!
# Gmaker.Cache.Reads — what a read answers and what it leaves behind

Specifications of the operations that `get` and `getBatch` are made of: writing texts and
placeholders changes what is stored under their keys and nothing else, and a load behind a closed
breaker answers what the database answers, and leaves the text of the row or the placeholder
under the key it was made for (`doLoad_spec`).
-/

namespace Gmaker.Cache

open Gmaker.Lib

namespace CacheManager

variable {κ ρ : Type*} {m : CacheManager κ ρ} {l : DataLoader κ ρ m.sprint} {s : CacheState}
  {k : κ} {ck : String}

/-! ## What is written to the store -/

theorem cacheKey_inj {j : κ} : m.cacheKey k = m.cacheKey j ↔ m.sprint k = m.sprint j := by
  unfold cacheKey
  exact String.append_right_inj _

/-- The states of the store that one manager leads to: what is stored may change, and what the
breaker remembers. -/
structure SameStore (s t : CacheState) : Prop where
  readable : t.readable = s.readable
  writable : t.writable = s.writable
  now : t.now = s.now
  nobody : s.breaker = none → t.breaker = none

theorem SameStore.refl (s : CacheState) : SameStore s s := ⟨rfl, rfl, rfl, id⟩

theorem SameStore.trans {s t u : CacheState} (h : SameStore s t) (h' : SameStore t u) :
    SameStore s u :=
  ⟨h'.readable.trans h.readable, h'.writable.trans h.writable, h'.now.trans h.now,
    fun hs => h'.nobody (h.nobody hs)⟩

theorem sameStore_set (s : CacheState) (ck text : String) : SameStore s (s.set ck text).1 := by
  unfold CacheState.set
  split_ifs <;> exact ⟨rfl, rfl, rfl, id⟩

theorem data_set (s : CacheState) (ck text : String) (j : String) :
    (s.set ck text).1.data j =
      if s.writable = true ∧ j = ck then some text else s.data j := by
  unfold CacheState.set
  by_cases hwrite : s.writable = true
  · rw [if_pos hwrite]
    by_cases hj : j = ck
    · subst hj
      rw [if_pos ⟨hwrite, rfl⟩]
      exact Function.update_self _ _ _
    · rw [if_neg fun h => hj h.2]
      exact Function.update_of_ne hj _ _
  · rw [if_neg hwrite, if_neg fun h => hwrite h.1]

theorem breaker_set (s : CacheState) (ck text : String) :
    (s.set ck text).1.breaker = s.breaker := by
  unfold CacheState.set
  split_ifs <;> rfl

theorem setPlaceholder_spec (s : CacheState) (ck j : String) :
    SameStore s (m.setPlaceholder s ck) ∧ (m.setPlaceholder s ck).breaker = s.breaker ∧
      (m.setPlaceholder s ck).data j =
        if (m.nilTTL = true ∧ s.writable = true) ∧ j = ck then some nilPlaceholder
        else s.data j := by
  unfold setPlaceholder
  by_cases hnil : m.nilTTL = true
  · rw [if_pos hnil]
    refine ⟨sameStore_set s ck _, breaker_set s ck _, ?_⟩
    rw [data_set]
    simp only [hnil, true_and]
  · rw [if_neg hnil]
    refine ⟨.refl s, rfl, ?_⟩
    rw [if_neg fun h => hnil h.1.1]

/-! ## A single read -/

/-- The breaker is off, or it is closed. -/
def Lets (s : CacheState) : Prop := ∀ cb, s.breaker = some cb → cb.state = .stateClosed

theorem Lets.of_none (h : s.breaker = none) : Lets s := by
  intro cb hcb
  rw [h] at hcb
  cases hcb

theorem Lets.allow (h : Lets s) : s.allow = (s, true) := by
  unfold CacheState.allow
  cases hb : s.breaker with
  | none => rfl
  | some cb =>
    simp only [CircuitBreaker.allowNow_closed (h cb hb)]
    rw [← hb]

theorem sameStore_record (s : CacheState) (ok : Bool) : SameStore s (s.record ok) := by
  refine ⟨rfl, rfl, rfl, fun h => ?_⟩
  unfold CacheState.record
  simp only [h, Option.map_none]

theorem Lets.record (h : Lets s) : Lets (s.record true) := by
  intro cb hcb
  obtain ⟨cb₀, hcb₀, rfl⟩ := Option.map_eq_some_iff.mp hcb
  exact CircuitBreaker.recordNow_closed (h cb₀ hcb₀)

/-- What a load leaves under the key: the text of the row, or the placeholder if there is no
row. -/
def Wrote (m : CacheManager κ ρ) (l : DataLoader κ ρ m.sprint) (k : κ) (d : Option String) : Prop :=
  (∃ v text, l.load (m.sprint k) = .ok v ∧ m.codec.encode v = some text ∧ d = some text) ∨
    ∃ key, l.load (m.sprint k) = .error (.notFound key) ∧ d = some nilPlaceholder

/-- A load behind a closed breaker: what it answers, and what it changes. -/
structure LoadSpec (m : CacheManager κ ρ) (l : DataLoader κ ρ m.sprint) (s : CacheState) (k : κ)
    (r : CacheState × Except CacheError ρ) : Prop where
  value : r.2.toOption = (l.load (m.sprint k)).toOption
  same : SameStore s r.1
  data : ∀ ck, r.1.data ck = s.data ck ∨
    s.writable = true ∧ ck = m.cacheKey k ∧ Wrote m l k (r.1.data ck)
  /-- What can be written has been written. -/
  written : s.writable = true → ∀ v text, l.load (m.sprint k) = .ok v →
    m.codec.encode v = some text → r.1.data (m.cacheKey k) = some text
  lets : (s.breaker = none ∨ ∀ text, l.load (m.sprint k) ≠ .error (.failed text)) → Lets r.1

theorem doLoad_spec (h : Lets s) : LoadSpec m l s k (m.doLoad l s k) := by
  unfold doLoad
  simp only [h.allow, Bool.true_eq_false, if_false]
  cases hload : l.load (m.sprint k) with
  | error e =>
    cases e with
    | notFound key =>
      obtain ⟨hsame, hbreaker, -⟩ := setPlaceholder_spec (m := m) s (m.cacheKey k) ""
      refine ⟨by simp only [hload], hsame.trans (sameStore_record _ _), fun ck => ?_, ?_, fun _ => ?_⟩
      · obtain ⟨-, -, hdata⟩ := setPlaceholder_spec (m := m) s (m.cacheKey k) ck
        change (m.setPlaceholder s (m.cacheKey k)).data ck = s.data ck ∨ _ ∧ _ ∧
          Wrote m l k ((m.setPlaceholder s (m.cacheKey k)).data ck)
        rw [hdata]
        split_ifs with hput
        · exact .inr ⟨hput.1.2, hput.2, .inr ⟨key, hload, rfl⟩⟩
        · exact .inl rfl
      · intro _ v text hv
        rw [hload] at hv
        cases hv
      · refine Lets.record fun cb hcb => h cb ?_
        rw [← hbreaker]
        exact hcb
    | failed text =>
      refine ⟨by simp only [hload], sameStore_record _ _, fun ck => .inl rfl, ?_, fun hok => ?_⟩
      · intro _ v text hv
        rw [hload] at hv
        cases hv
      · rcases hok with hnone | hnever
        · exact Lets.of_none ((sameStore_record s false).nobody hnone)
        · exact absurd hload (hnever text)
  | ok v =>
    have hvalue : (Except.ok v : Except CacheError ρ).toOption = (l.load (m.sprint k)).toOption := by
      rw [hload]
    unfold encodeAndSet
    dsimp only
    cases henc : m.codec.encode v with
    | none =>
      simp only [Bool.false_eq_true, if_false]
      refine ⟨hvalue, .refl s, fun ck => .inl rfl, fun _ w text hw htext => ?_, fun _ => h⟩
      rw [hload] at hw
      cases hw
      rw [henc] at htext
      cases htext
    | some text =>
      simp only
      have hsame := sameStore_set s (m.cacheKey k) text
      have hlets : Lets (s.set (m.cacheKey k) text).1 := by
        intro cb hcb
        rw [breaker_set] at hcb
        exact h cb hcb
      have hdata : ∀ t : CacheState, t.data = (s.set (m.cacheKey k) text).1.data →
          (∀ ck, t.data ck = s.data ck ∨
            s.writable = true ∧ ck = m.cacheKey k ∧ Wrote m l k (t.data ck)) ∧
          (s.writable = true → ∀ w e, l.load (m.sprint k) = .ok w → m.codec.encode w = some e →
            t.data (m.cacheKey k) = some e) := by
        intro t ht
        rw [ht]
        refine ⟨fun ck => ?_, fun hwrite w e hw he => ?_⟩
        · rw [data_set]
          split_ifs with hck
          · exact .inr ⟨hck.1, hck.2, .inl ⟨v, text, hload, henc, rfl⟩⟩
          · exact .inl rfl
        · rw [hload] at hw
          cases hw
          rw [henc] at he
          cases he
          rw [data_set, if_pos ⟨hwrite, rfl⟩]
      split_ifs with hok
      · obtain ⟨hkeep, hwritten⟩ := hdata ((s.set (m.cacheKey k) text).1.record true) rfl
        exact ⟨hvalue, hsame.trans (sameStore_record _ _), hkeep, hwritten, fun _ => hlets.record⟩
      · obtain ⟨hkeep, hwritten⟩ := hdata (s.set (m.cacheKey k) text).1 rfl
        exact ⟨hvalue, hsame, hkeep, hwritten, fun _ => hlets⟩

/-- What `get` does with what the store has. -/
theorem get_placeholder (h : s.get (m.cacheKey k) = some nilPlaceholder) :
    m.get l s k = (s, .error (.notFound (m.sprint k))) := by
  unfold CacheManager.get
  rw [h]
  simp only [if_true]

theorem get_decoded {text : String} {v : ρ} (h : s.get (m.cacheKey k) = some text)
    (hnil : text ≠ nilPlaceholder) (hdec : m.codec.decode text = some v) :
    m.get l s k = (s, .ok v) := by
  unfold CacheManager.get
  rw [h]
  simp only [hnil, if_false, hdec]

theorem get_undecodable {text : String} (h : s.get (m.cacheKey k) = some text)
    (hnil : text ≠ nilPlaceholder) (hdec : m.codec.decode text = none) :
    m.get l s k = m.doLoad l s k := by
  unfold CacheManager.get
  rw [h]
  simp only [hnil, if_false, hdec]

end CacheManager

end Gmaker.Cache
