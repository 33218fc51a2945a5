import Gmaker.Lib.Filing
import Gmaker.Lib.Machine
import Gmaker.Matching.Pool

/-!
# Gmaker.Matching.MmrIndex — what a query of the buckets finds

The pool is an index: tickets are filed by mode and by MMR in steps of 300, and a query of a
range goes through the buckets the range touches. Whatever was put in and taken out before,
the answer should be the one that the plain list of queuing tickets gives.

The index is not told which MMRs there are. Division cuts towards zero, so that the buckets of
MMRs from -300 down have negative indices, and the query starts at index 0 at the lowest;
sums and differences are of 32 bits and wrap. Where nothing wraps, these tickets are all that
is missed.
-/

namespace Gmaker.Matching

open Gmaker.Lib

/-! ## Numbers of 32 bits -/

namespace BucketPool

/-- What fits does not wrap. -/
theorem bmod_eq_self {n : ℤ} (hl : -2 ^ 31 ≤ n) (hu : n < 2 ^ 31) : n.bmod (2 ^ 32) = n := by
  rw [Int.bmod_eq_of_le]
  · omega
  · omega

theorem toInt_add_ofNat {a : Int32} {k : ℕ} (hk : a.toInt + k < 2 ^ 31) :
    (a + Int32.ofNat k).toInt = a.toInt + k := by
  have hsize : Int32.size = 2 ^ 32 := rfl
  rw [Int32.toInt_add, Int32.toInt_ofNat', hsize, Int.add_bmod_bmod]
  have ha := a.le_toInt
  exact bmod_eq_self (by omega) hk

theorem toInt_div_bucketMMRRange (a : Int32) : (a / bucketMMRRange).toInt = a.toInt.tdiv 300 := by
  rw [Int32.toInt_div_of_ne_right a bucketMMRRange (by decide)]
  rfl

/-- Division cuts towards zero: bucket 0 starts above -300. -/
theorem tdiv_nonneg_iff {m : ℤ} : 0 ≤ m.tdiv 300 ↔ -300 < m := by
  constructor
  · intro h
    by_contra hm
    have hle : m.tdiv 300 ≤ Int.tdiv (-300) 300 := Int.tdiv_le_tdiv (by omega) (by omega)
    have hlast : Int.tdiv (-300) 300 = -1 := by decide
    omega
  · intro h
    have hle : Int.tdiv (-299) 300 ≤ m.tdiv 300 := Int.tdiv_le_tdiv (by omega) (by omega)
    have hfirst : Int.tdiv (-299) 300 = 0 := by decide
    omega

/-! ## The buckets of a query -/

variable {S : SortSlice} {h : Heap} {pool pool' : BucketPool} {p q : Ptr}
  {mode centerMMR radius : Int32}

theorem mem_indices {a b i : Int32} :
    i ∈ indices a b ↔ a.toInt ≤ i.toInt ∧ i.toInt ≤ b.toInt := by
  have hb := b.toInt_lt
  rw [indices, List.mem_map]
  constructor
  · rintro ⟨k, hk, rfl⟩
    rw [List.mem_range] at hk
    rw [toInt_add_ofNat (by omega)]
    omega
  · rintro ⟨hai, hib⟩
    refine ⟨(i.toInt - a.toInt).toNat, List.mem_range.mpr (by omega), ?_⟩
    rw [← Int32.toInt_inj, toInt_add_ofNat (by omega)]
    omega

theorem nodup_indices (a b : Int32) : (indices a b).Nodup := by
  have hb := b.toInt_lt
  refine List.Nodup.map_on ?_ List.nodup_range
  intro j hj k hk hjk
  rw [List.mem_range] at hj hk
  have htoInt := congrArg Int32.toInt hjk
  rw [toInt_add_ofNat (by omega), toInt_add_ofNat (by omega)] at htoInt
  omega

/-- The lowest bucket a query looks at. -/
def minBucket (centerMMR radius : Int32) : Int32 :=
  let minBucket := (centerMMR - radius) / bucketMMRRange
  if minBucket < 0 then 0 else minBucket

/-- The highest. -/
def maxBucket (centerMMR radius : Int32) : Int32 := (centerMMR + radius) / bucketMMRRange

/-- A bucket as a list: the one that is not there has nothing in it. -/
def tickets (pool : BucketPool) (k : Int32 × Int32) : List Ptr := (pool.bucket k).getD []

/-- A query goes through the buckets in between and filters. -/
theorem queryRange_eq (h : Heap) (pool : BucketPool) (mode centerMMR radius : Int32) :
    pool.queryRange h mode centerMMR radius =
      (((indices (minBucket centerMMR radius) (maxBucket centerMMR radius)).map
        fun i => (mode, i)).flatMap pool.tickets).filter fun p =>
          (h p).state = .queuing && inRadius (h p) centerMMR radius := by
  have hgetD : ∀ (f : Int32 → Option Bucket) (l : List Int32),
      (l.filterMap f).flatten = l.flatMap fun i => (f i).getD [] := by
    intro f l
    induction l with
    | nil => rfl
    | cons i l ih =>
      rw [List.flatMap_cons, ← ih, List.filterMap_cons]
      cases f i with
      | none => rfl
      | some b => rfl
  unfold queryRange
  cases hmode : pool.buckets mode with
  | none =>
    have htickets : ∀ i, pool.tickets (mode, i) = [] := by
      intro i
      simp [tickets, bucket, hmode]
    simp [List.flatMap_map, htickets]
  | some modeBuckets =>
    have htickets : ∀ i, pool.tickets (mode, i) = (modeBuckets i).getD [] := by
      intro i
      simp [tickets, bucket, hmode]
    simp only [List.flatMap_map, htickets, ← hgetD]
    rfl

/-! ## Near enough -/

/-- The queuing tickets of a mode within the radius; the difference is taken over the
integers. -/
def Wanted (h : Heap) (mode centerMMR radius : Int32) (p : Ptr) : Prop :=
  (h p).mode = mode ∧ (h p).state = .queuing ∧
    |(h p).mmr.toInt - centerMMR.toInt| ≤ radius.toInt

instance : Decidable (Wanted h mode centerMMR radius p) :=
  inferInstanceAs (Decidable (_ ∧ _ ∧ _))

/-- Where the difference fits, the program's is the integers'. -/
theorem inRadius_iff {t : Ticket} (hfits : |t.mmr.toInt - centerMMR.toInt| < 2 ^ 31) :
    inRadius t centerMMR radius = true ↔ |t.mmr.toInt - centerMMR.toInt| ≤ radius.toInt := by
  obtain ⟨hl, hu⟩ := abs_lt.mp hfits
  have hdiff : (t.mmr - centerMMR).toInt = t.mmr.toInt - centerMMR.toInt := by
    rw [Int32.toInt_sub]
    exact bmod_eq_self hl.le hu
  unfold inRadius
  simp only [decide_eq_true_eq, Int32.le_iff_toInt_le]
  by_cases hneg : t.mmr - centerMMR < 0
  · rw [if_pos hneg, Int32.toInt_neg, hdiff, bmod_eq_self (by omega) (by omega)]
    rw [Int32.lt_iff_toInt_lt, hdiff, Int32.toInt_zero] at hneg
    rw [abs_of_neg hneg]
  · rw [if_neg hneg, hdiff]
    rw [Int32.lt_iff_toInt_lt, hdiff, Int32.toInt_zero] at hneg
    rw [abs_of_nonneg (by omega)]

/-- The ends of the interval and the differences to the tickets that could be wanted fit in 32
bits. -/
structure Fits (h : Heap) (queued : List Ptr) (mode centerMMR radius : Int32) : Prop where
  low : -2 ^ 31 ≤ centerMMR.toInt - radius.toInt
  high : centerMMR.toInt + radius.toInt < 2 ^ 31
  diff : ∀ p ∈ queued, (h p).mode = mode → (h p).state = .queuing →
    |(h p).mmr.toInt - centerMMR.toInt| < 2 ^ 31

variable {queued : List Ptr}

/-- The buckets a query goes through are those of the range, but for the negative ones. -/
theorem mem_buckets_iff {t : Ticket} (hlow : -2 ^ 31 ≤ centerMMR.toInt - radius.toInt)
    (hhigh : centerMMR.toInt + radius.toInt < 2 ^ 31)
    (hnear : |t.mmr.toInt - centerMMR.toInt| ≤ radius.toInt) :
    t.bucketIndex ∈ indices (minBucket centerMMR radius) (maxBucket centerMMR radius) ↔
      -300 < t.mmr.toInt := by
  obtain ⟨hl, hu⟩ := abs_le.mp hnear
  have hc := centerMMR.toInt_lt
  have hc' := centerMMR.le_toInt
  have hlowest : ((centerMMR - radius) / bucketMMRRange).toInt =
      (centerMMR.toInt - radius.toInt).tdiv 300 := by
    rw [toInt_div_bucketMMRRange, Int32.toInt_sub, bmod_eq_self hlow (by omega)]
  have hhighest : (maxBucket centerMMR radius).toInt =
      (centerMMR.toInt + radius.toInt).tdiv 300 := by
    rw [maxBucket, toInt_div_bucketMMRRange, Int32.toInt_add, bmod_eq_self (by omega) hhigh]
  have hindex : t.bucketIndex.toInt = t.mmr.toInt.tdiv 300 := toInt_div_bucketMMRRange t.mmr
  have hle : (centerMMR.toInt - radius.toInt).tdiv 300 ≤ t.mmr.toInt.tdiv 300 :=
    Int.tdiv_le_tdiv (by omega) (by omega)
  have hge : t.mmr.toInt.tdiv 300 ≤ (centerMMR.toInt + radius.toInt).tdiv 300 :=
    Int.tdiv_le_tdiv (by omega) (by omega)
  rw [mem_indices, hhighest, hindex, ← tdiv_nonneg_iff, and_iff_left hge]
  unfold minBucket
  simp only [Int32.lt_iff_toInt_lt, Int32.toInt_zero, hlowest]
  split_ifs with hneg
  · rw [Int32.toInt_zero]
  · rw [hlowest]
    omega

/-- A query looks at no bucket of a ticket from -300 down. -/
theorem lt_mmr_of_mem_buckets {t : Ticket}
    (hmem : t.bucketIndex ∈ indices (minBucket centerMMR radius) (maxBucket centerMMR radius)) :
    -300 < t.mmr.toInt := by
  have hindex : t.bucketIndex.toInt = t.mmr.toInt.tdiv 300 := toInt_div_bucketMMRRange t.mmr
  have hfirst : 0 ≤ (minBucket centerMMR radius).toInt := by
    unfold minBucket
    simp only [Int32.lt_iff_toInt_lt, Int32.toInt_zero]
    split_ifs with hneg
    · rw [Int32.toInt_zero]
    · exact not_lt.mp hneg
  rw [← tdiv_nonneg_iff, ← hindex]
  exact hfirst.trans (mem_indices.mp hmem).1

/-! ## What a query finds of what is filed -/

/-- The tickets of the queue are in the pool, filed by mode and bucket. -/
abbrev Holds (h : Heap) (pool : BucketPool) (queued : List Ptr) : Prop :=
  FiledBy (fun p => (h p).slot) pool.tickets queued

theorem queryRange_perm (hf : Holds h pool queued) :
    (pool.queryRange h mode centerMMR radius).Perm (queued.filter fun p =>
      (h p).mode = mode ∧
        (h p).bucketIndex ∈ indices (minBucket centerMMR radius) (maxBucket centerMMR radius) ∧
          (h p).state = .queuing ∧ inRadius (h p) centerMMR radius = true) := by
  have hks : ((indices (minBucket centerMMR radius) (maxBucket centerMMR radius)).map
      fun i => (mode, i)).Nodup :=
    (nodup_indices _ _).map (Prod.mk_right_injective mode)
  rw [queryRange_eq]
  refine ((hf.flatMap hks).filter _).trans (.of_eq ?_)
  rw [List.filter_filter]
  refine List.filter_congr fun p _ => ?_
  rw [Bool.eq_iff_iff]
  simp only [Ticket.slot, List.mem_map, Prod.mk.injEq, Bool.and_eq_true, decide_eq_true_eq]
  constructor
  · rintro ⟨⟨hstate, hnear⟩, i, hi, hmode, hindex⟩
    subst hindex
    exact ⟨hmode.symm, hi, hstate, hnear⟩
  · rintro ⟨hmode, hi, hstate, hnear⟩
    exact ⟨⟨hstate, hnear⟩, _, hi, hmode.symm, rfl⟩

/-- Where nothing wraps: the wanted ones, but for those of the negative buckets. -/
theorem queryRange_perm_of_fits (hf : Holds h pool queued)
    (hfits : Fits h queued mode centerMMR radius) :
    (pool.queryRange h mode centerMMR radius).Perm (queued.filter fun p =>
      Wanted h mode centerMMR radius p ∧ -300 < (h p).mmr.toInt) := by
  refine (queryRange_perm hf).trans (.of_eq (List.filter_congr fun p hp => ?_))
  rw [Bool.eq_iff_iff, decide_eq_true_eq, decide_eq_true_eq]
  constructor
  · rintro ⟨hmode, hi, hstate, hnear⟩
    rw [inRadius_iff (hfits.diff p hp hmode hstate)] at hnear
    exact ⟨⟨hmode, hstate, hnear⟩, (mem_buckets_iff hfits.low hfits.high hnear).mp hi⟩
  · rintro ⟨⟨hmode, hstate, hnear⟩, hlt⟩
    refine ⟨hmode, (mem_buckets_iff hfits.low hfits.high hnear).mpr hlt, hstate, ?_⟩
    exact (inRadius_iff (hfits.diff p hp hmode hstate)).mpr hnear

/-- What `matchMode` goes through. -/
theorem mem_snapshot (hf : Holds h pool queued) :
    p ∈ pool.queryRange h mode 0 99999 ↔
      p ∈ queued ∧ (h p).mode = mode ∧ (h p).state = .queuing ∧
        -300 < (h p).mmr.toInt ∧ (h p).mmr.toInt ≤ 99999 := by
  have hzero : (0 : Int32).toInt = 0 := rfl
  have hradius : (99999 : Int32).toInt = 99999 := rfl
  have hm := (h p).mmr.toInt_lt
  rw [(queryRange_perm hf).mem_iff, List.mem_filter, decide_eq_true_eq]
  constructor
  · rintro ⟨hp, hmode, hi, hstate, hnear⟩
    have hlt := lt_mmr_of_mem_buckets hi
    rw [inRadius_iff (abs_lt.mpr (by omega)), hzero, hradius] at hnear
    obtain ⟨-, hle⟩ := abs_le.mp hnear
    exact ⟨hp, hmode, hstate, hlt, by omega⟩
  · rintro ⟨hp, hmode, hstate, hlt, hle⟩
    have hnear : |(h p).mmr.toInt - (0 : Int32).toInt| ≤ (99999 : Int32).toInt :=
      abs_le.mpr (by omega)
    refine ⟨hp, hmode, (mem_buckets_iff (by omega) (by omega) hnear).mpr hlt, hstate, ?_⟩
    exact (inRadius_iff (abs_lt.mpr (by omega))).mpr hnear

/-! ### Putting in and taking out -/

/-- Where a player has one ticket in a bucket, that one is removed. -/
theorem Bucket.remove_eq_erase {b : Bucket} (hone : ∀ q ∈ b, (h q).uid = (h p).uid → q = p) :
    Bucket.remove h b (h p).uid = b.erase p := by
  unfold Bucket.remove
  induction b with
  | nil => rfl
  | cons q b ih =>
    by_cases hq : q = p
    · subst hq
      rw [List.erase_cons_head, List.eraseP_cons_of_pos (by simp)]
    · have hne : (h q).uid ≠ (h p).uid := fun huid => hq (hone q List.mem_cons_self huid)
      rw [List.erase_cons_tail (by simpa using hq), List.eraseP_cons_of_neg (by simpa using hne),
        ih fun r hr => hone r (List.mem_cons_of_mem q hr)]

theorem Holds.enqueue (hf : Holds h pool queued) : Holds h (pool.enqueue S h p) (p :: queued) := by
  refine FiledBy.cons hf ?_ fun k hk => ?_
  · unfold tickets
    rw [bucket_enqueue, if_pos rfl]
    refine (S.perm _ _).trans ?_
    exact List.perm_append_singleton _ _
  · unfold tickets
    rw [bucket_enqueue, if_neg hk]

/-- Among the tickets that are filed where this one is, no other is of its player. -/
def OnlyOne (h : Heap) (queued : List Ptr) (p : Ptr) : Prop :=
  ∀ q ∈ queued, (h q).slot = (h p).slot → (h q).uid = (h p).uid → q = p

theorem Holds.dequeue (hf : Holds h pool queued) (hone : OnlyOne h queued p)
    (hpool : pool.dequeue h p = some pool') : Holds h pool' (queued.erase p) := by
  refine FiledBy.erase hf ?_ fun k hk => ?_
  · unfold tickets
    rw [bucket_dequeue hpool, if_pos rfl]
    cases hb : pool.bucket (h p).slot with
    | none => exact .nil
    | some b =>
      have hbucket : pool.tickets (h p).slot = b := by
        unfold tickets
        rw [hb]
        rfl
      rw [Option.map_some, Option.getD_some, Option.getD_some, Bucket.remove_eq_erase]
      -- the player's first ticket in the bucket is this one
      intro q hq huid
      obtain ⟨hq, hslot⟩ := hf.mem_iff.mp (hbucket ▸ hq)
      exact hone q hq hslot huid
  · unfold tickets
    rw [bucket_dequeue hpool, if_neg hk]

end BucketPool

/-! ## The pool in use -/

/-- The pool, and the tickets that were put in and not taken out since. -/
structure MmrIndex where
  heap : Heap
  pool : BucketPool := {}
  queued : List Ptr := []

inductive PoolOp where
  | enqueue (p : Ptr)
  | dequeue (p : Ptr)
  /-- Something else of a ticket changes: its state, its priority, its match. -/
  | write (p : Ptr) (t : Ticket)

namespace MmrIndex

/-- One operation; none where the program stops on a bucket that is not there. -/
def next (S : SortSlice) (s : MmrIndex) : PoolOp → Option MmrIndex
  | .enqueue p => some { s with pool := s.pool.enqueue S s.heap p, queued := p :: s.queued }
  | .dequeue p => (s.pool.dequeue s.heap p).map fun pool =>
      { s with pool, queued := s.queued.erase p }
  | .write p t =>
    if t.uid = (s.heap p).uid ∧ t.mode = (s.heap p).mode ∧ t.mmr = (s.heap p).mmr then
      some { s with heap := Function.update s.heap p t }
    else none

/-- No ticket is put in that is in, and what is taken out is the only one of its player in
its bucket. -/
def CleanOp (s : MmrIndex) : PoolOp → Prop
  | .enqueue p => p ∉ s.queued
  | .dequeue p => BucketPool.OnlyOne s.heap s.queued p
  | .write _ _ => True

instance (s : MmrIndex) (op : PoolOp) : Decidable (s.CleanOp op) :=
  match op with
  | .enqueue p => inferInstanceAs (Decidable (p ∉ s.queued))
  | .dequeue p => inferInstanceAs (Decidable (∀ q ∈ s.queued,
      (s.heap q).slot = (s.heap p).slot → (s.heap q).uid = (s.heap p).uid → q = p))
  | .write _ _ => .isTrue trivial

/-- A query answers with the queuing tickets within the radius, each once. -/
structure Answers (s : MmrIndex) (mode centerMMR radius : Int32) : Prop where
  nodup : (s.pool.queryRange s.heap mode centerMMR radius).Nodup
  mem_iff : ∀ p, p ∈ s.pool.queryRange s.heap mode centerMMR radius ↔
    p ∈ s.queued ∧ BucketPool.Wanted s.heap mode centerMMR radius p

/-- The snapshot of `matchMode` has every queuing ticket of the mode. -/
def Snapshots (s : MmrIndex) (mode : Int32) : Prop :=
  ∀ p ∈ s.queued, (s.heap p).mode = mode → (s.heap p).state = .queuing →
    p ∈ s.pool.queryRange s.heap mode 0 99999

/-- The index is exact. -/
def Exact (s : MmrIndex) : Prop :=
  (∀ mode centerMMR radius, s.Answers mode centerMMR radius) ∧ ∀ mode, s.Snapshots mode

/-- The queue has no ticket twice, and the pool has what the queue has. -/
structure Inv (s : MmrIndex) : Prop where
  nodup : s.queued.Nodup
  holds : BucketPool.Holds s.heap s.pool s.queued

variable {S : SortSlice} {s s' : MmrIndex} {op : PoolOp} {mode centerMMR radius : Int32}

theorem inv_empty (h : Heap) : Inv { heap := h } := ⟨.nil, filedBy_nil⟩

theorem Inv.next (hinv : Inv s) (hclean : s.CleanOp op) (hnext : next S s op = some s') :
    Inv s' := by
  cases op with
  | enqueue p =>
    cases hnext
    exact ⟨List.nodup_cons.mpr ⟨hclean, hinv.nodup⟩, hinv.holds.enqueue⟩
  | dequeue p =>
    obtain ⟨pool, hpool, rfl⟩ := Option.map_eq_some_iff.mp hnext
    exact ⟨hinv.nodup.erase p, hinv.holds.dequeue hclean hpool⟩
  | write p t =>
    simp only [MmrIndex.next] at hnext
    split_ifs at hnext with hsame
    cases hnext
    refine ⟨hinv.nodup, ?_⟩
    -- the ticket stays in its bucket
    have hslot : ∀ q, (Function.update s.heap p t q).slot = (s.heap q).slot := by
      intro q
      by_cases hq : q = p
      · subst hq
        rw [Function.update_self, Ticket.slot, Ticket.slot, Ticket.bucketIndex, Ticket.bucketIndex,
          hsame.2.1, hsame.2.2]
      · rw [Function.update_of_ne hq]
    intro k
    simp only [hslot]
    exact hinv.holds k

/-- Where nothing wraps, a query is exact if and only if no ticket it should find is in a
negative bucket. -/
theorem Inv.answers_iff (hinv : Inv s)
    (hfits : BucketPool.Fits s.heap s.queued mode centerMMR radius) :
    s.Answers mode centerMMR radius ↔
      ∀ p ∈ s.queued, BucketPool.Wanted s.heap mode centerMMR radius p →
        -300 < (s.heap p).mmr.toInt := by
  have hperm := BucketPool.queryRange_perm_of_fits hinv.holds hfits
  have hmem : ∀ p, p ∈ s.pool.queryRange s.heap mode centerMMR radius ↔
      p ∈ s.queued ∧ BucketPool.Wanted s.heap mode centerMMR radius p ∧
        -300 < (s.heap p).mmr.toInt := by
    intro p
    rw [hperm.mem_iff, List.mem_filter, decide_eq_true_eq]
  constructor
  · intro hanswers p hp hwanted
    exact ((hmem p).mp ((hanswers.mem_iff p).mpr ⟨hp, hwanted⟩)).2.2
  · intro h
    refine ⟨hperm.nodup_iff.mpr (hinv.nodup.filter _), fun p => ?_⟩
    rw [hmem p]
    constructor
    · rintro ⟨hp, hwanted, -⟩
      exact ⟨hp, hwanted⟩
    · rintro ⟨hp, hwanted⟩
      exact ⟨hp, hwanted, h p hp hwanted⟩

/-- The snapshot is complete if and only if no queuing ticket of the mode has an MMR from -300
down or above 99999. -/
theorem Inv.snapshots_iff (hinv : Inv s) :
    s.Snapshots mode ↔ ∀ p ∈ s.queued, (s.heap p).mode = mode → (s.heap p).state = .queuing →
      -300 < (s.heap p).mmr.toInt ∧ (s.heap p).mmr.toInt ≤ 99999 := by
  constructor
  · intro h p hp hmode hstate
    exact ((BucketPool.mem_snapshot hinv.holds).mp (h p hp hmode hstate)).2.2.2
  · intro h p hp hmode hstate
    exact (BucketPool.mem_snapshot hinv.holds).mpr ⟨hp, hmode, hstate, h p hp hmode hstate⟩

/-- One player with an MMR of -300, in mode 1. -/
def lowRated : Heap := fun _ =>
  { uid := 7, mmr := -300, mode := 1, teamSize := 5, state := .queuing }

/-- The player is not found with the very MMR it has, and is not in the snapshot. -/
theorem lowRated_not_exact :
    ¬ ∀ (S : SortSlice) (h : Heap) (ops : List PoolOp) (s : MmrIndex),
      run (next S) { heap := h } ops = some s → s.Exact := by
  intro h
  obtain ⟨hanswers, -⟩ := h .insertion lowRated [.enqueue 0] _ rfl
  have hfound := ((hanswers 1 (-300) 20).mem_iff 0).mpr ⟨List.mem_singleton.mpr rfl, by decide⟩
  exact absurd hfound (by decide)

/-- After every run that puts in no ticket twice, a query is exact if its numbers fit in 32
bits and none of the tickets it should find is in a negative bucket; and the snapshot is complete
if and only if the MMRs are in between. -/
theorem index_exact (S : SortSlice) (h : Heap) {ops : List PoolOp} {s : MmrIndex}
    (hclean : RunOk (next S) CleanOp { heap := h } ops)
    (hrun : run (next S) { heap := h } ops = some s) :
    (∀ mode centerMMR radius, BucketPool.Fits s.heap s.queued mode centerMMR radius →
      (s.Answers mode centerMMR radius ↔
        ∀ p ∈ s.queued, BucketPool.Wanted s.heap mode centerMMR radius p →
          -300 < (s.heap p).mmr.toInt)) ∧
    ∀ mode, s.Snapshots mode ↔
      ∀ p ∈ s.queued, (s.heap p).mode = mode → (s.heap p).state = .queuing →
        -300 < (s.heap p).mmr.toInt ∧ (s.heap p).mmr.toInt ≤ 99999 := by
  have hinv : Inv s := run_invariant (fun _ _ _ hclean h hnext => h.next hclean hnext)
    (inv_empty h) hclean hrun
  exact ⟨fun _ _ _ hfits => hinv.answers_iff hfits, fun _ => hinv.snapshots_iff⟩

/-- Two players with MMRs around 1500. -/
def midRated : Heap := fun p =>
  { uid := UInt64.ofNat p + 1, mmr := 1500 - 10 * Int32.ofNat p, mode := 1, teamSize := 5
    state := .queuing }

/-- One of them leaves and comes back. -/
theorem index_exact_midRated :
    ∃ s, run (next .insertion) { heap := midRated }
        [.enqueue 0, .enqueue 1, .dequeue 0, .enqueue 0] = some s ∧
      s.Answers 1 1500 20 ∧ s.Snapshots 1 := by
  have hclean : RunOk (next .insertion) CleanOp { heap := midRated }
      [.enqueue 0, .enqueue 1, .dequeue 0, .enqueue 0] := by decide
  refine ⟨_, rfl, ?_⟩
  obtain ⟨hanswers, hsnapshots⟩ := index_exact .insertion midRated hclean rfl
  exact ⟨(hanswers 1 1500 20 ⟨by decide, by decide, by decide⟩).mpr (by decide),
    (hsnapshots 1).mpr (by decide)⟩

end MmrIndex

end Gmaker.Matching
