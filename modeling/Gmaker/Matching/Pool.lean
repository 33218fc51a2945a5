import Gmaker.Lib.SortSlice
import Gmaker.Matching.Model

/-!
# Gmaker.Matching.Pool — the MMR buckets

Tickets are shared by pointer: the pool, the ticket table and a candidate all refer to the
same ticket, and a change of its state is seen through each of them. A `Heap` gives every
pointer its ticket. The pool files pointers by mode and MMR bucket; a bucket is sorted on
every insertion, by an algorithm that need not be stable.
-/

namespace Gmaker.Matching

open Gmaker.Lib

/-- A pointer to a ticket. -/
abbrev Ptr := ℕ

/-- What the pointers point to. -/
abbrev Heap := Ptr → Ticket

/-! ## Buckets -/

/-- The tickets of one bucket. -/
abbrev Bucket := List Ptr

namespace Bucket

/-- The order of a bucket: the higher priority first, then the lower MMR. -/
def less (h : Heap) (a b : Ptr) : Bool :=
  if (h a).priority ≠ (h b).priority then (h b).priority < (h a).priority else (h a).mmr < (h b).mmr

/-- `Bucket.Push`. -/
def push (S : SortSlice) (h : Heap) (b : Bucket) (p : Ptr) : Bucket := S.sort (less h) (b ++ [p])

/-- `Bucket.Remove`: the first ticket of the player goes. -/
def remove (h : Heap) (b : Bucket) (uid : UInt64) : Bucket := b.eraseP fun p => (h p).uid = uid

variable {S : SortSlice} {h : Heap} {b : Bucket} {p q : Ptr} {uid : UInt64}

theorem mem_push : q ∈ push S h b p ↔ q ∈ b ∨ q = p := by
  rw [push, S.mem_sort, List.mem_append, List.mem_singleton]

theorem mem_of_mem_remove (hq : q ∈ remove h b uid) : q ∈ b := List.mem_of_mem_eraseP hq

end Bucket

/-! ## The pool -/

/-- `BucketPool`: mode, then bucket index. A mode is there from its first bucket on. -/
structure BucketPool where
  buckets : Int32 → Option (Int32 → Option Bucket) := fun _ => none

namespace BucketPool

/-- The bucket that is filed under a mode and an index. -/
def bucket (pool : BucketPool) (k : Int32 × Int32) : Option Bucket :=
  (pool.buckets k.1).bind fun modeBuckets => modeBuckets k.2

def setBucket (pool : BucketPool) (k : Int32 × Int32) (b : Bucket) : BucketPool :=
  { buckets := Function.update pool.buckets k.1
      (some (Function.update ((pool.buckets k.1).getD fun _ => none) k.2 (some b))) }

/-- `BucketPool.Enqueue`, with `getOrCreateBucket`. -/
def enqueue (S : SortSlice) (h : Heap) (pool : BucketPool) (p : Ptr) : BucketPool :=
  pool.setBucket (h p).slot (Bucket.push S h ((pool.bucket (h p).slot).getD []) p)

/-- `BucketPool.Dequeue`. In a mode that is there the bucket is taken for granted: where it
is not, `Remove` is called on a nil pointer. -/
def dequeue (h : Heap) (pool : BucketPool) (p : Ptr) : Option BucketPool :=
  match pool.buckets (h p).mode with
  | none => some pool
  | some modeBuckets =>
    match modeBuckets (h p).bucketIndex with
    | none => none
    | some b => some (pool.setBucket (h p).slot (Bucket.remove h b (h p).uid))

/-- The bucket indices from one to the other. -/
def indices (minBucket maxBucket : Int32) : List Int32 :=
  (List.range (maxBucket.toInt - minBucket.toInt + 1).toNat).map fun k => minBucket + Int32.ofNat k

/-- Within the radius, as the program computes it. -/
def inRadius (t : Ticket) (centerMMR radius : Int32) : Bool :=
  let diff := t.mmr - centerMMR
  let diff := if diff < 0 then -diff else diff
  diff ≤ radius

/-- `BucketPool.QueryRange`. -/
def queryRange (h : Heap) (pool : BucketPool) (mode centerMMR radius : Int32) : List Ptr :=
  let minBucket := (centerMMR - radius) / bucketMMRRange
  let maxBucket := (centerMMR + radius) / bucketMMRRange
  let minBucket := if minBucket < 0 then 0 else minBucket
  match pool.buckets mode with
  | none => []
  | some modeBuckets =>
    ((indices minBucket maxBucket).filterMap modeBuckets).flatten.filter fun p =>
      (h p).state = .queuing && inRadius (h p) centerMMR radius

/-! ### What the operations do to a bucket -/

variable {S : SortSlice} {h : Heap} {pool pool' : BucketPool} {p q : Ptr} {b : Bucket}
  {k j : Int32 × Int32}

theorem bucket_setBucket (pool : BucketPool) (k j : Int32 × Int32) (b : Bucket) :
    (pool.setBucket k b).bucket j = if j = k then some b else pool.bucket j := by
  obtain ⟨mode, index⟩ := k
  obtain ⟨mode', index'⟩ := j
  unfold setBucket bucket
  by_cases hmode : mode' = mode
  · subst hmode
    simp only [Function.update_self, Option.bind_some]
    by_cases hindex : index' = index
    · subst hindex
      rw [Function.update_self, if_pos rfl]
    · rw [Function.update_of_ne hindex, if_neg fun heq => hindex (congrArg Prod.snd heq)]
      cases pool.buckets mode' with
      | none => rfl
      | some modeBuckets => rfl
  · simp only [Function.update_of_ne hmode]
    rw [if_neg fun heq => hmode (congrArg Prod.fst heq)]

theorem bucket_enqueue (pool : BucketPool) (p : Ptr) (j : Int32 × Int32) :
    (pool.enqueue S h p).bucket j =
      if j = (h p).slot then some (Bucket.push S h ((pool.bucket j).getD []) p) else pool.bucket j := by
  unfold enqueue
  rw [bucket_setBucket]
  split_ifs with hj
  · rw [hj]
  · rfl

/-- A removal concerns the bucket of its ticket. -/
theorem bucket_dequeue (hpool : pool.dequeue h p = some pool') (j : Int32 × Int32) :
    pool'.bucket j =
      if j = (h p).slot then (pool.bucket j).map fun b => Bucket.remove h b (h p).uid
      else pool.bucket j := by
  unfold dequeue at hpool
  cases hmode : pool.buckets (h p).mode with
  | none =>
    rw [hmode] at hpool
    cases hpool
    split_ifs with hj
    · rw [hj]
      unfold bucket Ticket.slot
      rw [hmode]
      rfl
    · rfl
  | some modeBuckets =>
    rw [hmode] at hpool
    cases hindex : modeBuckets (h p).bucketIndex with
    | none =>
      simp only [hindex] at hpool
      cases hpool
    | some b =>
      simp only [hindex, Option.some.injEq] at hpool
      subst hpool
      rw [bucket_setBucket]
      split_ifs with hj
      · have hb : pool.bucket (h p).slot = some b := by
          unfold bucket Ticket.slot
          rw [hmode]
          exact hindex
        rw [hj, hb]
        rfl
      · rfl

/-- What a query returns: queuing tickets out of the mode's buckets. -/
theorem mem_queryRange {mode centerMMR radius : Int32}
    (hq : q ∈ pool.queryRange h mode centerMMR radius) :
    (h q).state = .queuing ∧ inRadius (h q) centerMMR radius = true ∧
      ∃ index b, pool.bucket (mode, index) = some b ∧ q ∈ b := by
  unfold queryRange at hq
  cases hmode : pool.buckets mode with
  | none =>
    simp only [hmode] at hq
    cases hq
  | some modeBuckets =>
    simp only [hmode, List.mem_filter, List.mem_flatten, List.mem_filterMap, Bool.and_eq_true,
      decide_eq_true_eq] at hq
    obtain ⟨⟨b, ⟨index, -, hb⟩, hmem⟩, hstate, hnear⟩ := hq
    refine ⟨hstate, hnear, index, b, ?_, hmem⟩
    unfold bucket
    rw [hmode]
    exact hb

/-! ### Filing -/

/-- Every pointer in the pool is one that was handed out, and is filed where its ticket's
mode and MMR say. -/
def Filed (h : Heap) (fresh : Ptr) (pool : BucketPool) : Prop :=
  ∀ k b, pool.bucket k = some b → ∀ p ∈ b, p < fresh ∧ (h p).slot = k

variable {fresh fresh' : Ptr}

theorem filed_empty : Filed h fresh {} := by
  intro k b hb
  cases hb

/-- Nothing is refiled while modes and MMRs stay. -/
theorem Filed.mono (hf : Filed h fresh pool) {h' : Heap} (hfresh : fresh ≤ fresh')
    (hslot : ∀ p < fresh, (h' p).slot = (h p).slot) : Filed h' fresh' pool := by
  intro k b hb p hp
  obtain ⟨hlt, hk⟩ := hf k b hb p hp
  exact ⟨hlt.trans_le hfresh, (hslot p hlt).trans hk⟩

theorem Filed.enqueue (hf : Filed h fresh pool) (hp : p < fresh) :
    Filed h fresh (pool.enqueue S h p) := by
  intro k b hb q hq
  rw [bucket_enqueue] at hb
  split_ifs at hb with hk
  · cases hb
    rcases Bucket.mem_push.mp hq with hold | rfl
    · cases hpool : pool.bucket k with
      | none =>
        rw [hpool] at hold
        cases hold
      | some b =>
        rw [hpool] at hold
        exact hf k b hpool q hold
    · exact ⟨hp, hk.symm⟩
  · exact hf k b hb q hq

theorem Filed.dequeue (hf : Filed h fresh pool) (hpool : pool.dequeue h p = some pool') :
    Filed h fresh pool' := by
  intro k b hb q hq
  rw [bucket_dequeue hpool] at hb
  split_ifs at hb with hk
  · obtain ⟨b', hb', rfl⟩ := Option.map_eq_some_iff.mp hb
    exact hf k b' hb' q (Bucket.mem_of_mem_remove hq)
  · exact hf k b hb q hq

end BucketPool

end Gmaker.Matching
