import Gmaker.Limiter.TokenBucket

/-!
# Gmaker.Limiter.CppTokenBucket — the token bucket in C++

The bucket in C++ has no shard for all calls: `Allow` is a call with a key of its own, and asks one
of the 64 shards, which has a 64th of the capacity and of the rate. Both buckets grant exactly what
fits into their limits (`Shard.greedy_results`), so they grant the same calls if and only if no
call falls between the limits (`allow_eq_iff`); a burst of the capacity always does.
-/

namespace Gmaker.Limiter

open Gmaker.Lib.RateLimit

/-! ## The bucket -/

namespace Cpp

def kShardCount : ℕ := 64

structure TokenBucket where
  shards : Fin kShardCount → Shard

/-- The constructor; each shard reads the clock for itself. -/
def newTokenBucket (capacity fillRate : ℤ) (created : Fin kShardCount → ℚ) : TokenBucket where
  shards i :=
    let perShardCap : ℚ := capacity / kShardCount
    let perShardRate : ℚ := fillRate / kShardCount
    { capacity := perShardCap, tokens := perShardCap, fillRate := perShardRate,
      lastUpdate := created i }

/-- The FNV-1a hash of a key. -/
def hash (key : List UInt8) : UInt64 :=
  key.foldl (fun h c => (h ^^^ c.toUInt64) * 1099511628211) 14695981039346656037

/-- `ShardIndex`. -/
def shardIndex (key : List UInt8) : Fin kShardCount :=
  ⟨(hash key % 64).toNat, by
    rw [UInt64.toNat_mod]
    exact Nat.mod_lt _ (by decide)⟩

/-- `AllowKey`. -/
def TokenBucket.allowKey (tb : TokenBucket) (now : ℚ) (key : List UInt8) (n : ℤ) :
    Bool × TokenBucket :=
  let r := (tb.shards (shardIndex key)).request now n
  (r.1, { tb with shards := Function.update tb.shards (shardIndex key) r.2 })

/-- The bytes of `__global__`. -/
def globalKey : List UInt8 := [95, 95, 103, 108, 111, 98, 97, 108, 95, 95]

/-- `Allow`. -/
def TokenBucket.allow (tb : TokenBucket) (now : ℚ) (n : ℤ) : Bool × TokenBucket :=
  tb.allowKey now globalKey n

/-- What the calls of `Allow` return, each with its reading of the clock. -/
def TokenBucket.results : TokenBucket → List (ℚ × ℤ) → List Bool
  | _, [] => []
  | tb, (now, n) :: calls => (tb.allow now n).1 :: (tb.allow now n).2.results calls

end Cpp

/-- What the calls of `Allow` return, each with its reading of the clock. -/
def TokenBucket.results : TokenBucket → List (ℚ × ℤ) → List Bool
  | _, [] => []
  | tb, (now, n) :: calls => (tb.allow now n).1 :: (tb.allow now n).2.results calls

/-! ## One shard -/

/-- What a shard returns. -/
def Shard.results : Shard → List (ℚ × ℤ) → List Bool
  | _, [] => []
  | s, (now, n) :: calls => (s.request now n).1 :: (s.request now n).2.results calls

variable {s : Shard} {log : List (ℚ × ℚ)} {calls : List (ℚ × ℤ)}

/-- The calls as requests of a limit. -/
def requests (calls : List (ℚ × ℤ)) : List (ℚ × ℚ) := calls.map fun c => (c.1, (c.2 : ℚ))

/-- A shard grants what fits into its limit, and nothing else. -/
theorem Shard.greedy_results (h : s.Tracks log) (hlast : ∀ c ∈ calls, s.lastUpdate ≤ c.1)
    (hsorted : calls.Pairwise fun c d => c.1 ≤ d.1) (hamount : ∀ c ∈ calls, 0 ≤ c.2) :
    Greedy s.capacity s.fillRate log (requests calls) (s.results calls) := by
  induction calls generalizing s log with
  | nil => rfl
  | cons c calls ih =>
    rcases c with ⟨now, n⟩
    rcases List.pairwise_cons.mp hsorted with ⟨hhead, htail⟩
    obtain ⟨hfits, htracks⟩ := tracks_request h (hlast (now, n) List.mem_cons_self)
      (hamount (now, n) List.mem_cons_self)
    have hrest := ih htracks (by rw [lastUpdate_request]; exact hhead) htail
      (fun d hd => hamount d (List.mem_cons_of_mem _ hd))
    rw [capacity_request, fillRate_request] at hrest
    exact ⟨hfits, hrest⟩

/-- `Allow` in Go asks the shard for all calls. -/
theorem results_eq (tb : TokenBucket) (calls : List (ℚ × ℤ)) :
    tb.results calls = tb.globalShard.results calls := by
  induction calls generalizing tb with
  | nil => rfl
  | cons c calls ih =>
    rw [TokenBucket.results, Shard.results, ih]
    rfl

/-- `Allow` in C++ asks the shard of its key. -/
theorem Cpp.results_eq (tb : Cpp.TokenBucket) (calls : List (ℚ × ℤ)) :
    tb.results calls = (tb.shards (Cpp.shardIndex Cpp.globalKey)).results calls := by
  induction calls generalizing tb with
  | nil => rfl
  | cons c calls ih =>
    have hshard : (tb.allow c.1 c.2).2.shards (Cpp.shardIndex Cpp.globalKey) =
        ((tb.shards (Cpp.shardIndex Cpp.globalKey)).request c.1 c.2).2 := by
      unfold Cpp.TokenBucket.allow Cpp.TokenBucket.allowKey
      exact Function.update_self (Cpp.shardIndex Cpp.globalKey) _ tb.shards
    rw [Cpp.TokenBucket.results, Shard.results, ih, hshard]
    rfl

/-! ## Two limits -/

variable {capacity fillRate : ℤ} {created : ShardName → ℚ} {createdCpp : Fin Cpp.kShardCount → ℚ}

/-- A new bucket in Go grants what fits into the capacity and the rate. -/
theorem greedy_newTokenBucket (hcapacity : 0 ≤ capacity) (hfillRate : 0 ≤ fillRate)
    (hcreated : ∀ c ∈ calls, created .globalShard ≤ c.1)
    (hsorted : calls.Pairwise fun c d => c.1 ≤ d.1) (hamount : ∀ c ∈ calls, 0 ≤ c.2) :
    Greedy (capacity : ℚ) fillRate [] (requests calls)
      ((newTokenBucket capacity fillRate created).results calls) := by
  have htracks := tracks_newTokenBucket hcapacity hfillRate created .globalShard
  rw [results_eq]
  exact Shard.greedy_results htracks hcreated hsorted hamount

/-- A new bucket in C++ grants what fits into a 64th of them. -/
theorem Cpp.greedy_newTokenBucket (hcapacity : 0 ≤ capacity) (hfillRate : 0 ≤ fillRate)
    (hcreated : ∀ c ∈ calls, createdCpp (Cpp.shardIndex Cpp.globalKey) ≤ c.1)
    (hsorted : calls.Pairwise fun c d => c.1 ≤ d.1) (hamount : ∀ c ∈ calls, 0 ≤ c.2) :
    Greedy (capacity / 64 : ℚ) (fillRate / 64) [] (requests calls)
      ((Cpp.newTokenBucket capacity fillRate createdCpp).results calls) := by
  have hburst : (0 : ℚ) ≤ capacity := by exact_mod_cast hcapacity
  have hrate : (0 : ℚ) ≤ fillRate := by exact_mod_cast hfillRate
  have htracks : ((Cpp.newTokenBucket capacity fillRate createdCpp).shards
      (Cpp.shardIndex Cpp.globalKey)).Tracks [] :=
    Shard.tracks_nil rfl (div_nonneg hburst (Nat.cast_nonneg _))
      (div_nonneg hrate (Nat.cast_nonneg _))
  rw [Cpp.results_eq]
  exact Shard.greedy_results htracks hcreated hsorted hamount

/-- A burst of the capacity: a new bucket in Go grants it, and a new one in C++ does not. -/
theorem allow_capacity (hcapacity : 1 ≤ capacity) (hfillRate : 0 ≤ fillRate) {now : ℚ}
    (hcreated : created .globalShard ≤ now)
    (hcreatedCpp : createdCpp (Cpp.shardIndex Cpp.globalKey) ≤ now) :
    ((newTokenBucket capacity fillRate created).allow now capacity).1 = true ∧
      ((Cpp.newTokenBucket capacity fillRate createdCpp).allow now capacity).1 = false := by
  have hnonneg : 0 ≤ capacity := zero_le_one.trans hcapacity
  have hburst : (1 : ℚ) ≤ capacity := by exact_mod_cast hcapacity
  have hsorted : [(now, capacity)].Pairwise fun c d => c.1 ≤ d.1 := List.pairwise_singleton _ _
  have hamount : ∀ c ∈ [(now, capacity)], 0 ≤ c.2 := by simpa using hnonneg
  have hafter : ∀ c ∈ [(now, capacity)], created .globalShard ≤ c.1 := by simpa using hcreated
  have hafterCpp : ∀ c ∈ [(now, capacity)], createdCpp (Cpp.shardIndex Cpp.globalKey) ≤ c.1 := by
    simpa using hcreatedCpp
  have hgo := (greedy_newTokenBucket hnonneg hfillRate hafter hsorted hamount).1
  have hcpp := (Cpp.greedy_newTokenBucket hnonneg hfillRate hafterCpp hsorted hamount).1
  rw [fits_nil] at hgo hcpp
  constructor
  · exact hgo.mpr (le_refl _)
  · rw [Bool.eq_false_iff]
    intro hgranted
    have hle := hcpp.mp hgranted
    linarith

/-- Two new buckets grant the same calls, if and only if no call falls between a 64th of the limit
and the limit. A burst of the capacity does: the bucket in Go grants it and the one in C++ does
not. -/
theorem allow_eq_iff (hcapacity : 1 ≤ capacity) (hfillRate : 1 ≤ fillRate)
    (hcreated : ∀ c ∈ calls, created .globalShard ≤ c.1)
    (hcreatedCpp : ∀ c ∈ calls, createdCpp (Cpp.shardIndex Cpp.globalKey) ≤ c.1)
    (hsorted : calls.Pairwise fun c d => c.1 ≤ d.1) (hamount : ∀ c ∈ calls, 0 ≤ c.2) :
    ((Cpp.newTokenBucket capacity fillRate createdCpp).results calls =
        (newTokenBucket capacity fillRate created).results calls ↔
      NoGap (capacity / 64 : ℚ) (fillRate / 64) capacity fillRate [] (requests calls)) ∧
    ∀ now, created .globalShard ≤ now → createdCpp (Cpp.shardIndex Cpp.globalKey) ≤ now →
      ((newTokenBucket capacity fillRate created).allow now capacity).1 = true ∧
        ((Cpp.newTokenBucket capacity fillRate createdCpp).allow now capacity).1 = false := by
  have hnonneg : 0 ≤ capacity := zero_le_one.trans hcapacity
  have hnonneg' : 0 ≤ fillRate := zero_le_one.trans hfillRate
  have hburst : (0 : ℚ) ≤ capacity := by exact_mod_cast hnonneg
  have hrate : (0 : ℚ) ≤ fillRate := by exact_mod_cast hnonneg'
  constructor
  · refine greedy_eq_iff (by linarith) (by linarith) ?_ ?_
      (Cpp.greedy_newTokenBucket hnonneg hnonneg' hcreatedCpp hsorted hamount)
      (greedy_newTokenBucket hnonneg hnonneg' hcreated hsorted hamount)
    · exact List.pairwise_map.mpr hsorted
    · intro r _ g hg
      cases hg
  · intro now hnow hnow'
    exact allow_capacity hcapacity hnonneg' hnow hnow'

/-- Two calls at a distance, which a 64th of the limit has room for. -/
theorem allow_eq_iff_two :
    let calls := [((1 : ℚ), (2 : ℤ)), (2, 1)]
    (Cpp.newTokenBucket 128 64 fun _ => 0).results calls =
        (newTokenBucket 128 64 fun _ => 0).results calls ↔
      NoGap ((128 : ℤ) / 64 : ℚ) ((64 : ℤ) / 64) (128 : ℤ) (64 : ℤ) [] (requests calls) :=
  (allow_eq_iff (by norm_num) (by norm_num) (by simp) (by simp) (by norm_num) (by norm_num)).1

/-- A new bucket for ten: the first call for one is granted in Go, and refused in C++. -/
theorem not_allow_eq : ¬ ∀ (capacity fillRate : ℤ) (created : ShardName → ℚ)
    (createdCpp : Fin Cpp.kShardCount → ℚ) (calls : List (ℚ × ℤ)), 1 ≤ capacity → 1 ≤ fillRate →
    (∀ name, ∀ c ∈ calls, created name ≤ c.1) → (∀ i, ∀ c ∈ calls, createdCpp i ≤ c.1) →
    calls.Pairwise (fun c d => c.1 ≤ d.1) → (∀ c ∈ calls, 0 ≤ c.2) →
    (Cpp.newTokenBucket capacity fillRate createdCpp).results calls =
      (newTokenBucket capacity fillRate created).results calls := by
  intro h
  have heq := h 10 10 (fun _ => 0) (fun _ => 0) [(0, 1)] (by norm_num) (by norm_num) (by simp)
    (by simp) (by simp) (by simp)
  rw [results_eq, Cpp.results_eq] at heq
  have hgo : ((newTokenBucket 10 10 fun _ => 0).globalShard.request 0 1).1 = true := by
    simp [newTokenBucket, Shard.request, Shard.refill]
  have hcpp : (((Cpp.newTokenBucket 10 10 fun _ => 0).shards
      (Cpp.shardIndex Cpp.globalKey)).request 0 1).1 = false := by
    norm_num [Cpp.newTokenBucket, Shard.request, Shard.refill, Cpp.kShardCount]
  simp only [Shard.results, hgo, hcpp] at heq
  exact absurd (List.cons.inj heq).1 Bool.false_ne_true

end Gmaker.Limiter
