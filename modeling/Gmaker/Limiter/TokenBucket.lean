import Gmaker.Lib.RateLimit

/-!
# Gmaker.Limiter.TokenBucket — the token bucket in Go

A bucket has a shard for all calls and 64 shards for the calls with keys. A shard is filled when it
is asked, for the time since it was asked last, and never above its capacity. What its tokens stand
for is the room of a rate limit on windows (`Shard.Tracks`): every request keeps this
(`Shard.tracks_request`), and so does every run (`TokenBucket.tracks_after`). From it, no window
has more than its due, for capacities and rates that are not negative and for no others
(`tokenBucket_limits_iff`).

Amounts and times are rationals.
-/

namespace Gmaker.Limiter

open Gmaker.Lib.RateLimit

/-! ## A shard -/

/-- `tokenBucketShard`, without its lock. -/
structure Shard where
  capacity : ℚ
  tokens : ℚ
  fillRate : ℚ
  lastUpdate : ℚ
  deriving DecidableEq

/-- `refill`. -/
def Shard.refill (s : Shard) (now : ℚ) : Shard :=
  let elapsed := now - s.lastUpdate
  let tokens := s.tokens + elapsed * s.fillRate
  { s with tokens := if tokens > s.capacity then s.capacity else tokens, lastUpdate := now }

/-- What is done under the lock of a shard: `n` tokens are taken if there are so many. -/
def Shard.request (s : Shard) (now : ℚ) (n : ℤ) : Bool × Shard :=
  let s := s.refill now
  if s.tokens ≥ n then (true, { s with tokens := s.tokens - n }) else (false, s)

/-! ## The bucket -/

def shardCount : ℕ := 64

structure TokenBucket where
  shards : Fin shardCount → Shard
  globalShard : Shard

inductive ShardName where
  | globalShard
  | shards (i : Fin shardCount)
  deriving DecidableEq

/-- `NewTokenBucket`; each shard reads the clock for itself. -/
def newTokenBucket (capacity fillRate : ℤ) (created : ShardName → ℚ) : TokenBucket where
  globalShard :=
    { capacity := capacity, tokens := capacity, fillRate := fillRate,
      lastUpdate := created .globalShard }
  shards i :=
    let perShardCap : ℚ := capacity / shardCount
    let perShardCap := if perShardCap < 1 then 1 else perShardCap
    let perShardRate : ℚ := fillRate / shardCount
    { capacity := perShardCap, tokens := perShardCap, fillRate := perShardRate,
      lastUpdate := created (.shards i) }

/-- The hash of a key, which wraps around. -/
def hash (key : List UInt8) : Int64 :=
  key.foldl (fun h b => 31 * h + Int64.ofNat b.toNat) 0

/-- The mask takes the sign away, so the remainder is an index. -/
theorem hash_mod_lt (h : Int64) :
    0 ≤ ((h &&& 0x7FFFFFFF) % 64).toInt ∧ ((h &&& 0x7FFFFFFF) % 64).toInt < 64 := by
  have hmask : (0x7FFFFFFF : Int64).toBitVec.toNat = 2 ^ 31 - 1 := by decide
  have hbits : (h &&& 0x7FFFFFFF).toBitVec.toNat = h.toBitVec.toNat % 2 ^ 31 := by
    rw [Int64.toBitVec_and, BitVec.toNat_and, hmask, Nat.and_two_pow_sub_one_eq_mod]
  have hint : (h &&& 0x7FFFFFFF).toInt = (h &&& 0x7FFFFFFF).toBitVec.toInt := rfl
  have hsixtyFour : (64 : Int64).toInt = 64 := by decide
  rw [Int64.toInt_mod, hint, BitVec.toInt_eq_toNat_of_lt (by omega), hbits, hsixtyFour,
    Int.tmod_eq_emod_of_nonneg (Int.natCast_nonneg _)]
  omega

/-- `shardIndex`. -/
def shardIndex (key : List UInt8) : Fin shardCount :=
  ⟨((hash key &&& 0x7FFFFFFF) % 64).toNatClampNeg, by
    have hlt := hash_mod_lt (hash key)
    rw [Int64.toNatClampNeg]
    unfold shardCount
    omega⟩

/-- `Allow`. -/
def TokenBucket.allow (tb : TokenBucket) (now : ℚ) (n : ℤ) : Bool × TokenBucket :=
  let r := tb.globalShard.request now n
  (r.1, { tb with globalShard := r.2 })

/-- `AllowKey`. -/
def TokenBucket.allowKey (tb : TokenBucket) (now : ℚ) (key : List UInt8) (n : ℤ) :
    Bool × TokenBucket :=
  let r := (tb.shards (shardIndex key)).request now n
  (r.1, { tb with shards := Function.update tb.shards (shardIndex key) r.2 })

inductive Call where
  | allow (n : ℤ)
  | allowKey (key : List UInt8) (n : ℤ)

def TokenBucket.call (tb : TokenBucket) (now : ℚ) : Call → Bool × TokenBucket
  | .allow n => tb.allow now n
  | .allowKey key n => tb.allowKey now key n

/-! ## Runs -/

/-- How many tokens a call asks for. -/
def Call.amount : Call → ℤ
  | .allow n => n
  | .allowKey _ n => n

/-- The shard that a call asks. -/
def Call.shard : Call → ShardName
  | .allow _ => .globalShard
  | .allowKey key _ => .shards (shardIndex key)

def TokenBucket.shard (tb : TokenBucket) : ShardName → Shard
  | .globalShard => tb.globalShard
  | .shards i => tb.shards i

/-- The bucket after some calls, each with its reading of the clock. -/
def TokenBucket.after : TokenBucket → List (ℚ × Call) → TokenBucket
  | tb, [] => tb
  | tb, (now, c) :: calls => (tb.call now c).2.after calls

/-- What one shard grants: times and amounts, the last one first. -/
def TokenBucket.grants (name : ShardName) : TokenBucket → List (ℚ × Call) → List (ℚ × ℚ)
  | _, [] => []
  | tb, (now, c) :: calls =>
    (tb.call now c).2.grants name calls ++
      if (tb.call now c).1 ∧ c.shard = name then [(now, (c.amount : ℚ))] else []

/-- The clock does not go back, and no call asks for less than nothing. -/
structure Timely (created : ShardName → ℚ) (calls : List (ℚ × Call)) : Prop where
  created : ∀ name, ∀ c ∈ calls, created name ≤ c.1
  sorted : calls.Pairwise fun c d => c.1 ≤ d.1
  amount : ∀ c ∈ calls, 0 ≤ c.2.amount

/-! ## A shard and its log -/

variable {s : Shard} {log : List (ℚ × ℚ)} {now : ℚ} {n : ℤ}

/-- The tokens of a shard are the room that its log leaves. -/
structure Shard.Tracks (s : Shard) (log : List (ℚ × ℚ)) : Prop where
  fillRate : 0 ≤ s.fillRate
  nonneg : 0 ≤ s.tokens
  le_capacity : s.tokens ≤ s.capacity
  room : Room s.capacity s.fillRate log s.lastUpdate s.tokens
  granted : Granted s.capacity s.fillRate log
  sorted : log.Pairwise fun g h => h.1 ≤ g.1
  past : ∀ g ∈ log, g.1 ≤ s.lastUpdate

theorem Shard.refill_eq (s : Shard) (now : ℚ) :
    s.refill now = { s with
      tokens := min s.capacity (s.tokens + s.fillRate * (now - s.lastUpdate)), lastUpdate := now } := by
  unfold refill
  dsimp only
  rw [mul_comm (now - s.lastUpdate) s.fillRate]
  split_ifs with hfull
  · rw [min_eq_left (le_of_lt hfull)]
  · rw [min_eq_right (not_lt.mp hfull)]

/-- Time that passes takes no tokens away. -/
theorem Shard.tracks_refill (h : s.Tracks log) (hnow : s.lastUpdate ≤ now) :
    (s.refill now).Tracks log := by
  rw [refill_eq]
  have hrise : 0 ≤ s.fillRate * (now - s.lastUpdate) :=
    mul_nonneg h.fillRate (sub_nonneg.mpr hnow)
  refine ⟨h.fillRate, ?_, min_le_left _ _, h.room.advance h.fillRate hnow, h.granted, h.sorted, ?_⟩
  · exact le_min (h.nonneg.trans h.le_capacity) (add_nonneg h.nonneg hrise)
  · intro g hg
    exact (h.past g hg).trans hnow

/-- What is granted goes into the log. -/
def logged (granted : Bool) (now : ℚ) (n : ℤ) (log : List (ℚ × ℚ)) : List (ℚ × ℚ) :=
  if granted then (now, (n : ℚ)) :: log else log

/-- A request is granted if it fits, and the tokens are again the room that the log leaves. -/
theorem Shard.tracks_request (h : s.Tracks log) (hnow : s.lastUpdate ≤ now) (hn : 0 ≤ n) :
    ((s.request now n).1 = true ↔ Fits s.capacity s.fillRate log now n) ∧
      (s.request now n).2.Tracks (logged (s.request now n).1 now n log) := by
  have hfilled := tracks_refill h hnow
  have hlast : (s.refill now).lastUpdate = now := rfl
  have hcapacity : (s.refill now).capacity = s.capacity := rfl
  have hrate : (s.refill now).fillRate = s.fillRate := rfl
  have hfits := hfilled.room.fits_iff (n := (n : ℚ)) hfilled.le_capacity
  rw [hlast, hcapacity, hrate] at hfits
  rw [hfits]
  -- after the refill there is room for as much as there are tokens
  unfold request
  dsimp only
  split_ifs with henough
  · have hroom := hfilled.room.grant hfilled.le_capacity (n : ℚ)
    refine ⟨iff_of_true rfl henough, hfilled.fillRate, sub_nonneg.mpr henough, ?_, hroom, ?_, ?_, ?_⟩
    · have hamount : (0 : ℚ) ≤ n := by exact_mod_cast hn
      exact (sub_le_self _ hamount).trans hfilled.le_capacity
    · exact hfilled.granted.cons (hfits.mpr henough)
    · exact List.pairwise_cons.mpr ⟨hfilled.past, hfilled.sorted⟩
    · intro g hg
      rcases List.mem_cons.mp hg with rfl | hlog
      · exact le_refl _
      · exact hfilled.past g hlog
  · exact ⟨iff_of_false not_false henough, hfilled⟩

@[simp] theorem Shard.capacity_request (s : Shard) (now : ℚ) (n : ℤ) :
    (s.request now n).2.capacity = s.capacity := by
  unfold request
  dsimp only
  split_ifs
  · rfl
  · rfl

@[simp] theorem Shard.fillRate_request (s : Shard) (now : ℚ) (n : ℤ) :
    (s.request now n).2.fillRate = s.fillRate := by
  unfold request
  dsimp only
  split_ifs
  · rfl
  · rfl

@[simp] theorem Shard.lastUpdate_request (s : Shard) (now : ℚ) (n : ℤ) :
    (s.request now n).2.lastUpdate = now := by
  unfold request
  dsimp only
  split_ifs
  · rfl
  · rfl

/-- A full shard has an empty log. -/
theorem Shard.tracks_nil (hfull : s.tokens = s.capacity) (hcapacity : 0 ≤ s.capacity)
    (hrate : 0 ≤ s.fillRate) : s.Tracks [] := by
  refine ⟨hrate, hfull ▸ hcapacity, le_of_eq hfull, ?_, ?_, List.Pairwise.nil, ?_⟩
  · rw [hfull]
    exact room_nil hrate _
  · intro t m rest hsuffix
    exact absurd (List.suffix_nil.mp hsuffix) (List.cons_ne_nil _ _)
  · intro g hg
    cases hg

/-! ## A bucket and its logs -/

variable {tb : TokenBucket} {name : ShardName} {c : Call} {calls : List (ℚ × Call)}

theorem TokenBucket.call_fst (tb : TokenBucket) (now : ℚ) (c : Call) :
    (tb.call now c).1 = ((tb.shard c.shard).request now c.amount).1 := by
  cases c with
  | allow n => rfl
  | allowKey key n => rfl

/-- A call changes the shard it asks and no other. -/
theorem TokenBucket.shard_call (tb : TokenBucket) (now : ℚ) (c : Call) (name : ShardName) :
    (tb.call now c).2.shard name =
      if c.shard = name then ((tb.shard name).request now c.amount).2 else tb.shard name := by
  split_ifs with hname
  · subst hname
    cases c with
    | allow n => rfl
    | allowKey key n => exact Function.update_self _ _ _
  · cases c with
    | allow n =>
      cases name with
      | globalShard => exact absurd rfl hname
      | shards i => rfl
    | allowKey key n =>
      cases name with
      | globalShard => rfl
      | shards i =>
        refine Function.update_of_ne ?_ _ _
        rintro rfl
        exact hname rfl

/-- Over a run, the log of a shard grows by what the shard grants. -/
theorem TokenBucket.tracks_after (h : (tb.shard name).Tracks log)
    (hlast : ∀ c ∈ calls, (tb.shard name).lastUpdate ≤ c.1)
    (hsorted : calls.Pairwise fun c d => c.1 ≤ d.1) (hamount : ∀ c ∈ calls, 0 ≤ c.2.amount) :
    ((tb.after calls).shard name).Tracks (tb.grants name calls ++ log) ∧
      ((tb.after calls).shard name).capacity = (tb.shard name).capacity ∧
      ((tb.after calls).shard name).fillRate = (tb.shard name).fillRate := by
  induction calls generalizing tb log with
  | nil => exact ⟨h, rfl, rfl⟩
  | cons timed calls ih =>
    rcases timed with ⟨now, c⟩
    rcases List.pairwise_cons.mp hsorted with ⟨hhead, htail⟩
    have hrest : ∀ d ∈ calls, 0 ≤ d.2.amount := fun d hd => hamount d (List.mem_cons_of_mem _ hd)
    have hshard := tb.shard_call now c name
    rw [after, grants, List.append_assoc]
    by_cases hname : c.shard = name
    · rw [if_pos hname] at hshard
      have hnow := hlast (now, c) List.mem_cons_self
      have hstep := (Shard.tracks_request h hnow (hamount (now, c) List.mem_cons_self)).2
      -- what this shard grants goes into its log, as one step of it
      have hlog : (if (tb.call now c).1 = true ∧ c.shard = name then [(now, (c.amount : ℚ))] else [])
          ++ log = logged ((tb.shard name).request now c.amount).1 now c.amount log := by
        rw [call_fst, hname]
        unfold logged
        simp only [and_true]
        split_ifs
        · rfl
        · rfl
      rw [hlog]
      have h' := ih (hshard ▸ hstep)
        (by rw [hshard, Shard.lastUpdate_request]; exact hhead) htail hrest
      rw [hshard, Shard.capacity_request, Shard.fillRate_request] at h'
      exact h'
    · rw [if_neg hname] at hshard
      rw [if_neg (fun hand => hname hand.2), List.nil_append]
      have h' := ih (hshard ▸ h)
        (by rw [hshard]; exact fun d hd => hlast d (List.mem_cons_of_mem _ hd)) htail hrest
      rw [hshard] at h'
      exact h'

/-! ## The rate is limited -/

/-- What a shard grants between `lo` and `lo + T`. -/
def TokenBucket.grantedIn (tb : TokenBucket) (calls : List (ℚ × Call)) (name : ShardName)
    (lo T : ℚ) : ℚ :=
  spent ((tb.grants name calls).filter fun g => decide (lo ≤ g.1 ∧ g.1 ≤ lo + T))

/-- In every shard the tokens stay within the capacity, and no window has more than its due. -/
def Limits (tb : TokenBucket) (calls : List (ℚ × Call)) : Prop :=
  ∀ name, (0 ≤ ((tb.after calls).shard name).tokens ∧
      ((tb.after calls).shard name).tokens ≤ ((tb.after calls).shard name).capacity) ∧
    ∀ lo T, 0 ≤ T → tb.grantedIn calls name lo T ≤
      (tb.shard name).capacity + (tb.shard name).fillRate * T

/-- Every shard of a new bucket is full. -/
theorem tracks_newTokenBucket {capacity fillRate : ℤ} (hcapacity : 0 ≤ capacity)
    (hfillRate : 0 ≤ fillRate) (created : ShardName → ℚ) (name : ShardName) :
    ((newTokenBucket capacity fillRate created).shard name).Tracks [] := by
  have hrate : (0 : ℚ) ≤ fillRate := by exact_mod_cast hfillRate
  cases name with
  | globalShard =>
    refine Shard.tracks_nil rfl ?_ hrate
    have hburst : (0 : ℚ) ≤ capacity := by exact_mod_cast hcapacity
    exact hburst
  | shards i =>
    refine Shard.tracks_nil rfl ?_ ?_
    · simp only [TokenBucket.shard, newTokenBucket]
      split_ifs with hsmall
      · exact zero_le_one
      · exact zero_le_one.trans (not_lt.mp hsmall)
    · exact div_nonneg hrate (Nat.cast_nonneg _)

theorem lastUpdate_newTokenBucket (capacity fillRate : ℤ) (created : ShardName → ℚ)
    (name : ShardName) :
    ((newTokenBucket capacity fillRate created).shard name).lastUpdate = created name := by
  cases name with
  | globalShard => rfl
  | shards i => rfl

theorem limits_newTokenBucket {capacity fillRate : ℤ} (hcapacity : 0 ≤ capacity)
    (hfillRate : 0 ≤ fillRate) {created : ShardName → ℚ} (htimely : Timely created calls) :
    Limits (newTokenBucket capacity fillRate created) calls := by
  intro name
  have htracks := tracks_newTokenBucket hcapacity hfillRate created name
  have hlast : ∀ c ∈ calls,
      ((newTokenBucket capacity fillRate created).shard name).lastUpdate ≤ c.1 := by
    rw [lastUpdate_newTokenBucket]
    exact htimely.created name
  obtain ⟨hafter, hcap, hrate⟩ :=
    TokenBucket.tracks_after htracks hlast htimely.sorted htimely.amount
  refine ⟨⟨hafter.nonneg, hafter.le_capacity⟩, ?_⟩
  intro lo T hT
  rw [List.append_nil] at hafter
  have hwindow := spent_window_le hafter.granted hafter.sorted
    (hafter.nonneg.trans hafter.le_capacity) hafter.fillRate hT lo
  rw [hcap, hrate] at hwindow
  exact hwindow

/-- A bucket that is filled at a negative rate runs dry below nothing, with a call for nothing. -/
theorem not_limits_of_fillRate_neg {capacity fillRate : ℤ} (hcapacity : 0 ≤ capacity)
    (hfillRate : fillRate < 0) : ∃ calls, Timely (fun _ => 0) calls ∧
      ¬ Limits (newTokenBucket capacity fillRate fun _ => 0) calls := by
  have hrate : (fillRate : ℚ) < 0 := by exact_mod_cast hfillRate
  have hburst : (0 : ℚ) ≤ capacity := by exact_mod_cast hcapacity
  have hlater : (0 : ℚ) ≤ (capacity + 1) / -fillRate := by
    refine div_nonneg ?_ ?_
    · linarith
    · linarith
  refine ⟨[((capacity + 1) / -fillRate, .allow 0)], ⟨?_, ?_, ?_⟩, ?_⟩
  · intro name c hc
    rw [List.mem_singleton.mp hc]
    exact hlater
  · exact List.pairwise_singleton _ _
  · intro c hc
    rw [List.mem_singleton.mp hc]
    exact le_refl 0
  -- one call for nothing, when the capacity and one token more have drained away
  · intro h
    have hnonneg := (h .globalShard).1.1
    have hfill : (capacity : ℚ) + (fillRate : ℚ) * ((capacity + 1) / -fillRate - 0) = -1 := by
      have hne : (fillRate : ℚ) ≠ 0 := ne_of_lt hrate
      field_simp
      ring
    have htokens : (((newTokenBucket capacity fillRate fun _ => 0).after
        [((capacity + 1) / -fillRate, .allow 0)]).shard .globalShard).tokens = -1 := by
      simp only [TokenBucket.after, TokenBucket.shard, TokenBucket.call, TokenBucket.allow,
        newTokenBucket, Shard.request, Shard.refill_eq, hfill]
      rw [min_eq_right (by linarith)]
      norm_num
    rw [htokens] at hnonneg
    norm_num at hnonneg

/-- The buckets whose rate is limited, whatever the clock and the calls are, are those whose
capacity and fill rate are not negative. -/
theorem tokenBucket_limits_iff (capacity fillRate : ℤ) :
    (∀ created calls, Timely created calls →
      Limits (newTokenBucket capacity fillRate created) calls) ↔
    0 ≤ capacity ∧ 0 ≤ fillRate := by
  constructor
  · intro h
    have hcapacity : 0 ≤ capacity := by
      have hnew := (h (fun _ => 0) [] ⟨by simp, List.Pairwise.nil, by simp⟩ .globalShard).1.1
      have hburst : (0 : ℚ) ≤ capacity := hnew
      exact_mod_cast hburst
    refine ⟨hcapacity, ?_⟩
    by_contra hneg
    rcases not_limits_of_fillRate_neg hcapacity (not_le.mp hneg) with ⟨calls, htimely, hnot⟩
    exact hnot (h _ calls htimely)
  · rintro ⟨hcapacity, hfillRate⟩ created calls htimely
    exact limits_newTokenBucket hcapacity hfillRate htimely

/-- The tokens of a new bucket for less than nothing are negative. -/
theorem not_tokenBucket_limits : ¬ ∀ (capacity fillRate : ℤ) (created : ShardName → ℚ)
    (calls : List (ℚ × Call)), Timely created calls →
      Limits (newTokenBucket capacity fillRate created) calls := by
  intro h
  have hnew := (h (-1) 1 (fun _ => 0) [] ⟨by simp, List.Pairwise.nil, by simp⟩ .globalShard).1.1
  have hburst : (0 : ℚ) ≤ ((-1 : ℤ) : ℚ) := hnew
  norm_num at hburst

end Gmaker.Limiter
