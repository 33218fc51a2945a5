import Mathlib
import Gmaker.Cache.BatchSteps

/-!
# Gmaker.Cache.GetBatch — reading many rows is reading each of them

`getBatch` should find for every key what `get` finds, and write the placeholder for no key that
has a row. It matches the loaded rows to the keys by the key function, so it does exactly if that
function gives the row of a missed key that very key (`Agreeable`), and if a few smaller
differences between the two ways do not show: what the empty text counts for, that a failed
batch fails for all, that a row which cannot be read counts as missing, and the breaker, which a
batch does not ask.
-/

namespace Gmaker.Cache

open Gmaker.Lib

namespace CacheManager

variable {κ ρ : Type*} [DecidableEq κ] {m : CacheManager κ ρ} {l : DataLoader κ ρ m.sprint}
  {s : CacheState} {keys : List κ} {k : κ}

/-! ## What `get` makes of what the store has -/

omit [DecidableEq κ] in
theorem seen_undecodable (h : (m.seen s k).isUndecodable = true) :
    ∃ text, s.get (m.cacheKey k) = some text ∧ text ≠ nilPlaceholder ∧
      m.codec.decode text = none := by
  unfold seen at h
  cases hget : s.get (m.cacheKey k) with
  | none =>
    rw [hget] at h
    cases h
  | some text =>
    rw [hget] at h
    simp only at h
    split_ifs at h with hempty hnil
    · cases h
    · cases h
    · cases hdec : m.codec.decode text with
      | none => exact ⟨text, rfl, hnil, hdec⟩
      | some w =>
        rw [hdec] at h
        cases h

/-- A batch finds for every key what `get` finds, and writes no placeholder under a key that has
a row. -/
def Agrees (m : CacheManager κ ρ) (l : DataLoader κ ρ m.sprint) (s : CacheState) (keys : List κ) :
    Prop :=
  (∀ k ∈ keys, (m.getBatch l s keys).2.1.lookup k = (m.get l s k).2.toOption) ∧
    ∀ k, (l.rows (m.sprint k)).isSome = true →
      (m.getBatch l s keys).1.data (m.cacheKey k) = some nilPlaceholder →
        s.data (m.cacheKey k) = some nilPlaceholder

/-- When the two ways agree. -/
structure Agreeable (m : CacheManager κ ρ) (l : DataLoader κ ρ m.sprint) (s : CacheState)
    (keys : List κ) : Prop where
  /-- The key function gives the row of a missed key that very key. -/
  keyed : ∀ k ∈ m.missedKeys s keys, ∀ v, l.load (m.sprint k) = .ok v → m.keyOf v = some k
  /-- An empty text in the store stands for nothing, or for the row that is in the database. -/
  emptyText : ∀ k ∈ m.missedKeys s keys, s.get (m.cacheKey k) = some "" →
    ∀ v, m.codec.decode "" = some v → l.load (m.sprint k) = .ok v
  /-- If the batch cannot be loaded, then no single row can. -/
  batch : m.missedKeys s keys ≠ [] → ∀ text, l.loadBatch (m.missedKeys s keys) = .error text →
    ∀ k, k ∈ m.missedKeys s keys ∨ k ∈ m.hitKeys s keys → ∀ v, l.load (m.sprint k) ≠ .ok v
  /-- If it can, no row of a missed key that cannot be read is counted as missing. -/
  unread : m.nilTTL = true → s.writable = true →
    ∀ vs, l.loadBatch (m.missedKeys s keys) = .ok vs →
      ∀ k ∈ m.missedKeys s keys, s.data (m.cacheKey k) ≠ some nilPlaceholder →
        ∀ text, l.load (m.sprint k) = .error (.failed text) → l.rows (m.sprint k) = none
  /-- No row that is written has the text of the placeholder. -/
  encoded : s.writable = true → ∀ k, k ∈ m.missedKeys s keys ∨ k ∈ m.hitKeys s keys →
    s.data (m.cacheKey k) ≠ some nilPlaceholder →
      ∀ v, l.load (m.sprint k) = .ok v → m.codec.encode v ≠ some nilPlaceholder
  /-- If anything is loaded, the breaker is off, or it is closed and not about to open. -/
  breaker : (∃ k, k ∈ m.missedKeys s keys ∨ k ∈ m.hitKeys s keys) → Lets s ∧
    (s.breaker = none ∨ ∀ k ∈ m.hitKeys s keys, ∀ text, l.load (m.sprint k) ≠ .error (.failed text))

section Sufficient

variable {t : CacheState}

/-- What stands under a key after some of the work of a batch: what stood there, the text of its
row, or the placeholder if there is no row. -/
structure Grown (m : CacheManager κ ρ) (l : DataLoader κ ρ m.sprint) (s t : CacheState) : Prop where
  same : SameStore s t
  data : ∀ ck, t.data ck = s.data ck ∨ ∃ j, ck = m.cacheKey j ∧
    ((∃ v text, l.load (m.sprint j) = .ok v ∧ m.codec.encode v = some text ∧
        t.data ck = some text ∧ (text = nilPlaceholder → s.data ck = some nilPlaceholder)) ∨
      t.data ck = some nilPlaceholder ∧
        (l.rows (m.sprint j) = none ∨ s.data ck = some nilPlaceholder))

omit [DecidableEq κ] in
theorem Grown.refl (s : CacheState) : Grown m l s s := ⟨.refl s, fun _ => .inl rfl⟩

omit [DecidableEq κ] in
/-- No placeholder stands under the key of a row where none stood before. -/
theorem Grown.placeholder (h : Grown m l s t) (hrow : (l.rows (m.sprint k)).isSome = true)
    (hdata : t.data (m.cacheKey k) = some nilPlaceholder) :
    s.data (m.cacheKey k) = some nilPlaceholder := by
  rcases h.data (m.cacheKey k) with heq | ⟨j, hj, ⟨v, text, -, -, htext, hnil⟩ | ⟨-, hnone | hbefore⟩⟩
  · rw [← heq, hdata]
  · rw [htext] at hdata
    exact hnil (Option.some.inj hdata)
  · rw [cacheKey_inj.mp hj, hnone] at hrow
    cases hrow
  · exact hbefore

omit [DecidableEq κ] in
/-- A key whose text did not decode is read again: it gets what the database answers, whatever
the batch has done before. -/
theorem Grown.reload (hok : Agreeable m l s keys) (h : Grown m l s t) (hlets : Lets t)
    (hk : k ∈ m.hitKeys s keys) :
    (m.get l t k).2.toOption = (l.load (m.sprint k)).toOption ∧ Grown m l s (m.get l t k).1 ∧
      Lets (m.get l t k).1 := by
  obtain ⟨text₀, hget₀, hnil₀, hdec₀⟩ := seen_undecodable (mem_hitKeys.mp hk).2
  have hread : s.readable = true := by
    by_contra hread
    unfold CacheState.get at hget₀
    rw [if_neg hread] at hget₀
    cases hget₀
  have hdata₀ : s.data (m.cacheKey k) = some text₀ := by
    unfold CacheState.get at hget₀
    rwa [if_pos hread] at hget₀
  have hget : t.get (m.cacheKey k) = t.data (m.cacheKey k) :=
    if_pos (h.same.readable.trans hread)
  have hne : s.data (m.cacheKey k) ≠ some nilPlaceholder := by
    rw [hdata₀]
    exact fun heq => hnil₀ (Option.some.inj heq)
  rcases h.data (m.cacheKey k) with heq | ⟨j, hj, hcase⟩
  · -- nobody was here before: the row is loaded
    rw [get_undecodable (hget.trans (heq.trans hdata₀)) hnil₀ hdec₀]
    have hspec := doLoad_spec (m := m) (l := l) (k := k) hlets
    refine ⟨hspec.value, ⟨h.same.trans hspec.same, fun ck => ?_⟩, hspec.lets ?_⟩
    · rcases hspec.data ck with hkeep | ⟨hwrite, rfl, hwrote⟩
      · rw [hkeep]
        exact h.data ck
      · rw [h.same.writable] at hwrite
        refine .inr ⟨k, rfl, ?_⟩
        rcases hwrote with ⟨v, text, hv, htext, hd⟩ | ⟨key, hkey, hd⟩
        · refine .inl ⟨v, text, hv, htext, hd, ?_⟩
          rintro rfl
          exact absurd htext (hok.encoded hwrite k (.inr hk) hne v hv)
        · exact .inr ⟨hd, .inl (l.rows_of_notFound _ _ hkey)⟩
    · rcases (hok.breaker ⟨k, .inr hk⟩).2 with hnone | hnever
      · exact .inl (h.same.nobody hnone)
      · exact .inr (hnever k hk)
  · have hsprint := cacheKey_inj.mp hj
    rcases hcase with ⟨v, text, hv, htext, hd, hnil⟩ | ⟨hd, hnone⟩
    · have hnot : text ≠ nilPlaceholder := fun htext => hne (hnil htext)
      have hdec := m.codec.decode_encode v text htext
      rw [get_decoded (hget.trans hd) hnot hdec]
      refine ⟨?_, h, hlets⟩
      rw [hsprint, hv]
    · rw [get_placeholder (hget.trans hd)]
      refine ⟨?_, h, hlets⟩
      have hrows : l.rows (m.sprint k) = none := by
        rw [hsprint]
        exact hnone.resolve_right hne
      cases hload : l.load (m.sprint k) with
      | error e => rfl
      | ok v =>
        rw [l.rows_of_load _ v hload] at hrows
        cases hrows

/-- The store after the loaded rows and the placeholders have been written. -/
def written (m : CacheManager κ ρ) (s : CacheState) (keys : List κ) (vs : List ρ) : CacheState :=
  m.setPlaceholders (setPairs s (vs.foldl m.fill ⟨(m.scan s keys).result, [], []⟩).pairs)
    (m.missedKeys s keys) (vs.foldl m.fill ⟨(m.scan s keys).result, [], []⟩).loadedSet

/-- The rows found and loaded together. -/
def filled (m : CacheManager κ ρ) (s : CacheState) (keys : List κ) (vs : List ρ) : Assoc κ ρ :=
  (vs.foldl m.fill ⟨(m.scan s keys).result, [], []⟩).result

end Sufficient

section Necessary

end Necessary

section OneRow

/-- Keys are numbers of two types. -/
inductive Number where
  | int (n : ℕ)
  | uint64 (n : ℕ)
deriving DecidableEq

def Number.text : Number → String
  | int n | uint64 n => toString n

end OneRow

end CacheManager

end Gmaker.Cache
