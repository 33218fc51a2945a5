import Mathlib
import Gmaker.Lib.Fold
import Gmaker.Matching.Engine
import Gmaker.Matching.MmrIndex

/-!
# Gmaker.Matching.DoMatch — one call of `doMatch`

One call goes through a snapshot of the queue while nothing else happens: the pool answers
every anchor from what the snapshot was taken of. What it returns are sound matches
(`doMatch_sound`): the teams are full, everybody is near the anchor, nobody plays twice, and
dealing out by falling MMR keeps the teams as close as the picked tickets are.
-/

namespace Gmaker.Matching

open Gmaker.Lib

namespace Engine

/-- `doMatch` with the pool as it is; `now` is when the wait of an anchor is looked at. -/
def doMatch (S : SortSlice) (h : Heap) (pool : BucketPool) (now : Ptr → ℤ) (allTickets : List Ptr)
    (mode : Int32) (queueLen : ℕ) (relaxed : Bool) : List Candidate :=
  let allTickets := S.sort (fun a b => (h b).priority < (h a).priority) allTickets
  (allTickets.foldl (fun (s : Search) anchor =>
    s.anchor S h (totalNeeded mode) anchor (pool.queryRange h mode (h anchor).mmr
      (anchorRadius queueLen ((h anchor).waitMs (now anchor)) relaxed))) {}).results

/-! ## Dealing out -/

section Deal

variable {α : Type} {f : α → ℤ} {l : List α} {lo hi : ℤ}

theorem everyOther_cons (a : α) (l : List α) : everyOther (a :: l) = a :: everyOther l.tail := by
  rcases l with _ | ⟨b, l⟩
  all_goals rfl

/-- Dealt out in falling order, the one hand has at least what the other has, and no more than
the highest exceeds the lowest. -/
theorem alternate_bounds (hsorted : l.Pairwise fun a b => f b ≤ f a) (heven : l.length % 2 = 0)
    (hle : lo ≤ hi) (hbounds : ∀ a ∈ l, lo ≤ f a ∧ f a ≤ hi) :
    0 ≤ ((everyOther l).map f).sum - ((everyOther l.tail).map f).sum ∧
      ((everyOther l).map f).sum - ((everyOther l.tail).map f).sum ≤ hi - lo := by
  induction l using everyOther.induct generalizing hi with
  | case1 =>
    simp only [everyOther, List.tail_nil, List.map_nil, List.sum_nil]
    omega
  | case2 a => cases heven
  | case3 a b l ih =>
    rcases List.pairwise_cons.mp hsorted with ⟨ha, hrest⟩
    rcases List.pairwise_cons.mp hrest with ⟨hb, hsorted'⟩
    have hab : f b ≤ f a := ha b List.mem_cons_self
    have hahi : f a ≤ hi := (hbounds a List.mem_cons_self).2
    have hblo : lo ≤ f b := (hbounds b (List.mem_cons_of_mem _ List.mem_cons_self)).1
    have heven' : l.length % 2 = 0 := by
      rw [List.length_cons, List.length_cons] at heven
      omega
    -- nothing that is left is higher than the second
    rcases ih hsorted' heven' hblo fun c hc =>
      ⟨(hbounds c (List.mem_cons_of_mem _ (List.mem_cons_of_mem _ hc))).1, hb c hc⟩ with ⟨hpos, hmost⟩
    rw [everyOther_cons, List.tail_cons, List.tail_cons, everyOther_cons]
    simp only [List.map_cons, List.sum_cons]
    omega

end Deal

/-! ## The search around an anchor -/

/-- The radius is at most the largest, and never so low that it wraps. -/
theorem anchorRadius_bounds (queueLen : ℕ) (waitMs : Int32) (relaxed : Bool) :
    -2 ^ 30 ≤ (anchorRadius queueLen waitMs relaxed).toInt ∧
      (anchorRadius queueLen waitMs relaxed).toInt ≤ maxSearchRadius.toInt := by
  have hmax : maxSearchRadius.toInt = 300 := rfl
  have htdiv : ∀ (a : Int32) (d : ℤ), 0 < d →
      (-2 ^ 31 : ℤ).tdiv d ≤ a.toInt.tdiv d ∧ a.toInt.tdiv d ≤ (2 ^ 31 - 1 : ℤ).tdiv d := by
    intro a d hd
    have hlt := a.toInt_lt
    exact ⟨Int.tdiv_le_tdiv hd a.le_toInt, Int.tdiv_le_tdiv hd (by omega)⟩
  -- the summands are far from the ends of the range
  have hsearch : -2 ^ 28 ≤ (searchRadius queueLen waitMs).toInt ∧
      (searchRadius queueLen waitMs).toInt ≤ 300 := by
    have hpop := htdiv (Int32.ofNat queueLen) 10 (by decide)
    have hwait := htdiv waitMs 50 (by decide)
    have hlow10 : (-2 ^ 31 : ℤ).tdiv 10 = -214748364 := by decide
    have hhigh10 : (2 ^ 31 - 1 : ℤ).tdiv 10 = 214748364 := by decide
    have hlow50 : (-2 ^ 31 : ℤ).tdiv 50 = -42949672 := by decide
    have hhigh50 : (2 ^ 31 - 1 : ℤ).tdiv 50 = 42949672 := by decide
    have hpopInt : (Int32.ofNat queueLen / popRadiusFactor).toInt =
        (Int32.ofNat queueLen).toInt.tdiv 10 :=
      Int32.toInt_div_of_ne_right _ popRadiusFactor (by decide)
    have hwaitInt : (waitMs / waitRadiusFactor).toInt = waitMs.toInt.tdiv 50 :=
      Int32.toInt_div_of_ne_right _ waitRadiusFactor (by decide)
    have hbase : baseSearchRadius.toInt = 20 := rfl
    have hsum : (baseSearchRadius + Int32.ofNat queueLen / popRadiusFactor +
        waitMs / waitRadiusFactor).toInt =
        20 + (Int32.ofNat queueLen).toInt.tdiv 10 + waitMs.toInt.tdiv 50 := by
      rw [Int32.toInt_add, Int32.toInt_add, hbase, hpopInt, hwaitInt,
        BucketPool.bmod_eq_self (n := 20 + _) (by omega) (by omega),
        BucketPool.bmod_eq_self (by omega) (by omega)]
    unfold searchRadius
    dsimp only
    split_ifs with hcap
    · exact ⟨by decide, le_of_eq rfl⟩
    · rw [Int32.lt_iff_toInt_lt, hsum, hmax] at hcap
      rw [hsum]
      omega
  unfold anchorRadius
  dsimp only
  split_ifs with hrelaxed hcap
  · exact ⟨by decide, le_rfl⟩
  · rw [Int32.lt_iff_toInt_lt, not_lt] at hcap
    refine ⟨?_, hcap⟩
    have hthree : (3 : Int32).toInt = 3 := rfl
    have htwo : (searchRadius queueLen waitMs * 3 / 2).toInt =
        ((searchRadius queueLen waitMs).toInt * 3).tdiv 2 := by
      rw [Int32.toInt_div_of_ne_right _ 2 (by decide), Int32.toInt_mul, hthree,
        BucketPool.bmod_eq_self (by omega) (by omega)]
      rfl
    have hlow : (-2 ^ 28 * 3 : ℤ).tdiv 2 ≤ ((searchRadius queueLen waitMs).toInt * 3).tdiv 2 :=
      Int.tdiv_le_tdiv (by decide) (by omega)
    have hhalf : (-2 ^ 28 * 3 : ℤ).tdiv 2 = -402653184 := by decide
    rw [htwo]
    omega
  · rw [hmax]
    omega

variable {S : SortSlice} {h : Heap} {pool : BucketPool} {queued : List Ptr}
  {mode centerMMR radius : Int32} {p : Ptr}

open BucketPool in
/-- Around an anchor of a snapshot nothing wraps: what the pool answers is in the radius. -/
theorem of_mem_queryRange (hf : Holds h pool queued) (hlow : -300 < centerMMR.toInt)
    (hhigh : centerMMR.toInt ≤ 99999) (hradius : -2 ^ 30 ≤ radius.toInt) (hmax : radius.toInt ≤ 300)
    (hmem : p ∈ pool.queryRange h mode centerMMR radius) :
    p ∈ queued ∧ (h p).mode = mode ∧ (h p).state = .queuing ∧
      |(h p).mmr.toInt - centerMMR.toInt| ≤ radius.toInt := by
  rw [(queryRange_perm hf).mem_iff, List.mem_filter, decide_eq_true_eq] at hmem
  rcases hmem with ⟨hp, hmode, hi, hstate, hnear⟩
  refine ⟨hp, hmode, hstate, ?_⟩
  have hfirst := lt_mmr_of_mem_buckets hi
  have hlast : (h p).mmr.toInt < 100500 := by
    have hindex : (h p).bucketIndex.toInt = (h p).mmr.toInt.tdiv 300 :=
      toInt_div_bucketMMRRange (h p).mmr
    have hmaxBucket : (maxBucket centerMMR radius).toInt =
        (centerMMR.toInt + radius.toInt).tdiv 300 := by
      rw [maxBucket, toInt_div_bucketMMRRange, Int32.toInt_add,
        bmod_eq_self (by omega) (by omega)]
    have hbucket := (mem_indices.mp hi).2
    rw [hindex, hmaxBucket] at hbucket
    have htop : (centerMMR.toInt + radius.toInt).tdiv 300 ≤ (100299 : ℤ).tdiv 300 :=
      Int.tdiv_le_tdiv (by decide) (by omega)
    have htopIndex : (100299 : ℤ).tdiv 300 = 334 := by decide
    by_contra hfar
    have hbeyond : (100500 : ℤ).tdiv 300 ≤ (h p).mmr.toInt.tdiv 300 :=
      Int.tdiv_le_tdiv (by decide) (by omega)
    have hbeyondIndex : (100500 : ℤ).tdiv 300 = 335 := by decide
    omega
  exact (inRadius_iff (abs_lt.mpr (by omega))).mp hnear

/-! ## A sound match -/

/-- The MMRs of a team, added up. -/
def totalMMR (h : Heap) (team : List Ptr) : ℤ := (team.map fun p => (h p).mmr.toInt).sum

/-- A match out of one call, with the radius around each anchor. -/
structure Sound (h : Heap) (mode : Int32) (radius : Ptr → Int32) (c : Candidate) : Prop where
  teamA : c.teamA.length = teamLength mode
  teamB : c.teamB.length = teamLength mode
  queuing : ∀ p ∈ c.tickets, (h p).state = .queuing ∧ (h p).mode = mode
  near : ∃ anchor ∈ c.tickets, ∀ p ∈ c.tickets,
    |(h p).mmr.toInt - (h anchor).mmr.toInt| ≤ min (radius anchor).toInt maxSearchRadius.toInt
  ahead : 0 ≤ totalMMR h c.teamA - totalMMR h c.teamB
  close : ∃ hi ∈ c.tickets, ∃ lo ∈ c.tickets,
    (∀ p ∈ c.tickets, (h lo).mmr.toInt ≤ (h p).mmr.toInt ∧ (h p).mmr.toInt ≤ (h hi).mmr.toInt) ∧
      totalMMR h c.teamA - totalMMR h c.teamB ≤ (h hi).mmr.toInt - (h lo).mmr.toInt

/-- What `matchMode` has taken of a pool in which nothing has changed since, and in which a player
queues once. -/
structure Snapshot (h : Heap) (pool : BucketPool) (queued : List Ptr) (mode : Int32)
    (allTickets : List Ptr) : Prop where
  taken : allTickets.Perm (pool.queryRange h mode 0 99999)
  holds : BucketPool.Holds h pool queued
  once : ((queued.filter fun p => (h p).mode = mode ∧ (h p).state = .queuing).map
    fun p => (h p).uid).Nodup

/-- The balance of a match. -/
theorem deal_balanced {picked : List Ptr} {n : ℕ} (hlen : picked.length = 2 * n) (hpos : 0 < n) :
    0 ≤ totalMMR h (deal S h picked).teamA - totalMMR h (deal S h picked).teamB ∧
      ∃ hi ∈ (deal S h picked).tickets, ∃ lo ∈ (deal S h picked).tickets,
        (∀ p ∈ (deal S h picked).tickets,
          (h lo).mmr.toInt ≤ (h p).mmr.toInt ∧ (h p).mmr.toInt ≤ (h hi).mmr.toInt) ∧
        totalMMR h (deal S h picked).teamA - totalMMR h (deal S h picked).teamB ≤
          (h hi).mmr.toInt - (h lo).mmr.toInt := by
  have hmem : ∀ p, p ∈ (deal S h picked).tickets ↔
      p ∈ S.sort (fun a b => (h b).mmr < (h a).mmr) picked := by
    intro p
    rw [(deal_perm picked).mem_iff, S.mem_sort]
  have hsorted : (S.sort (fun a b => (h b).mmr < (h a).mmr) picked).Pairwise
      fun a b => (h b).mmr.toInt ≤ (h a).mmr.toInt := by
    have hweak : StrictWeak fun a b : Ptr => decide ((h b).mmr < (h a).mmr) := by
      refine strictWeak_of_lt (fun p => -(h p).mmr.toInt) fun a b => ?_
      rw [decide_eq_true_iff, Int32.lt_iff_toInt_lt]
      exact neg_lt_neg_iff.symm
    refine (S.ordered _ picked hweak).imp fun {a b} hab => ?_
    rw [decide_eq_false_iff_not, Int32.lt_iff_toInt_lt, not_lt] at hab
    exact hab
  have heven : (S.sort (fun a b => (h b).mmr < (h a).mmr) picked).length % 2 = 0 := by
    rw [S.length_sort, hlen]
    omega
  -- the highest and the lowest of the picked ones
  have hsome : (deal S h picked).tickets.toFinset.Nonempty := by
    rw [List.toFinset_nonempty_iff, ← List.length_pos_iff, (deal_perm picked).length_eq, hlen]
    omega
  rcases Finset.exists_max_image _ (fun p => (h p).mmr.toInt) hsome with ⟨hi, hhi, hmax⟩
  rcases Finset.exists_min_image _ (fun p => (h p).mmr.toInt) hsome with ⟨lo, hlo, hmin⟩
  have hbounds : ∀ p ∈ (deal S h picked).tickets,
      (h lo).mmr.toInt ≤ (h p).mmr.toInt ∧ (h p).mmr.toInt ≤ (h hi).mmr.toInt :=
    fun p hp => ⟨hmin p (List.mem_toFinset.mpr hp), hmax p (List.mem_toFinset.mpr hp)⟩
  rcases alternate_bounds hsorted heven (hmax lo hlo)
    (fun p hp => hbounds p ((hmem p).mpr hp)) with ⟨hahead, hclose⟩
  exact ⟨hahead, hi, List.mem_toFinset.mp hhi, lo, List.mem_toFinset.mp hlo, hbounds, hclose⟩

/-! ## The loop -/

variable {needed : ℕ} {used : List UInt64} {anchor : Ptr} {nearby picked : List Ptr}

/-- Nobody is picked twice, and nobody who has been used. -/
theorem uids_of_pick (hanchor : (h anchor).uid ∉ used)
    (hnearby : (nearby.map fun p => (h p).uid).Nodup)
    (hpick : pick S h needed used anchor nearby = some picked) :
    (picked.map fun p => (h p).uid).Nodup ∧ ∀ p ∈ picked, (h p).uid ∉ used := by
  unfold pick at hpick
  dsimp only at hpick
  split_ifs at hpick with hfew hshort
  cases hpick
  have hfree : ∀ p ∈ nearby.filter (fun p =>
      !used.contains (h p).uid && (h p).uid != (h anchor).uid),
      (h p).uid ∉ used ∧ (h p).uid ≠ (h anchor).uid := by
    intro p hp
    simpa using (List.mem_filter.mp hp).2
  have hmem : ∀ p ∈ (S.sort (fun a b => (h anchor).matchQuality (h a) <
      (h anchor).matchQuality (h b)) (nearby.filter fun p =>
        !used.contains (h p).uid && (h p).uid != (h anchor).uid)).take (needed - 1),
      (h p).uid ∉ used ∧ (h p).uid ≠ (h anchor).uid :=
    fun p hp => hfree p (S.mem_sort.mp (List.mem_of_mem_take hp))
  constructor
  · rw [List.map_cons, List.nodup_cons]
    constructor
    · intro hself
      rcases List.mem_map.mp hself with ⟨p, hp, huid⟩
      exact (hmem p hp).2 huid
    · have hsub := (List.filter_sublist (l := nearby) (p := fun p =>
        !used.contains (h p).uid && (h p).uid != (h anchor).uid)).map fun p => (h p).uid
      have hsorted := ((S.perm (fun a b => (h anchor).matchQuality (h a) <
        (h anchor).matchQuality (h b)) _).map fun p => (h p).uid).nodup_iff.mpr (hsub.nodup hnearby)
      exact ((List.take_sublist _ _).map _).nodup hsorted
  · intro p hp
    rcases List.mem_cons.mp hp with rfl | htake
    · exact hanchor
    · exact (hmem p htake).1

/-- An anchor is not enough for a match. -/
theorem exists_mem_of_pick (hneeded : 2 ≤ needed)
    (hpick : pick S h needed used anchor nearby = some picked) : ∃ q, q ∈ nearby := by
  unfold pick at hpick
  dsimp only at hpick
  split_ifs at hpick with hfew hshort
  have hpos : 0 < (nearby.filter fun p =>
      !used.contains (h p).uid && (h p).uid != (h anchor).uid).length := by omega
  rcases List.exists_mem_of_length_pos hpos with ⟨q, hq⟩
  exact ⟨q, (List.mem_filter.mp hq).1⟩

/-- What holds between two anchors: the matches so far are sound, and their players are those
who have been used, once each. -/
structure Progress (h : Heap) (mode : Int32) (radius : Ptr → Int32) (s : Search) : Prop where
  sound : ∀ c ∈ s.results, Sound h mode radius c
  used : (s.results.flatMap fun c => c.tickets.map fun p => (h p).uid).Perm s.used
  once : s.used.Nodup

variable {allTickets : List Ptr} {radius : Ptr → Int32}

/-- The players near an anchor are all different. -/
theorem Snapshot.nodup_queryRange (hsnap : Snapshot h pool queued mode allTickets)
    (centerMMR radius : Int32) :
    ((pool.queryRange h mode centerMMR radius).map fun p => (h p).uid).Nodup := by
  refine ((BucketPool.queryRange_perm hsnap.holds).map _).nodup_iff.mpr ?_
  refine List.Sublist.nodup (List.Sublist.map _ ?_) hsnap.once
  refine List.monotone_filter_right queued fun p hp => ?_
  rw [decide_eq_true_iff] at hp ⊢
  exact ⟨hp.1, hp.2.2.1⟩

/-- One anchor of the snapshot. -/
theorem Progress.step {s : Search} (hs : Progress h mode radius s)
    (hsnap : Snapshot h pool queued mode allTickets) (hanchor : anchor ∈ allTickets)
    (hradius : -2 ^ 30 ≤ (radius anchor).toInt ∧ (radius anchor).toInt ≤ maxSearchRadius.toInt) :
    Progress h mode radius (s.anchor S h (totalNeeded mode) anchor
      (pool.queryRange h mode (h anchor).mmr (radius anchor))) := by
  have hmax : maxSearchRadius.toInt = 300 := rfl
  rcases (BucketPool.mem_snapshot hsnap.holds).mp (hsnap.taken.mem_iff.mp hanchor) with
    ⟨hqueued, hmode, hstate, hlow, hhigh⟩
  have hnear : ∀ p ∈ pool.queryRange h mode (h anchor).mmr (radius anchor),
      (h p).mode = mode ∧ (h p).state = .queuing ∧
        |(h p).mmr.toInt - (h anchor).mmr.toInt| ≤ (radius anchor).toInt :=
    fun p hp => (of_mem_queryRange hsnap.holds hlow hhigh hradius.1 (hmax ▸ hradius.2) hp).2
  unfold Search.anchor
  split_ifs with hused
  · exact hs
  · rcases hpick : pick S h (totalNeeded mode) s.used anchor
      (pool.queryRange h mode (h anchor).mmr (radius anchor)) with _ | picked
    · exact hs
    have hunused : (h anchor).uid ∉ s.used := by simpa using hused
    have hpos := teamLength_pos mode
    have htwice := totalNeeded_eq mode
    rcases of_pick (by omega) hpick with ⟨hlen, hmem⟩
    rcases uids_of_pick hunused (hsnap.nodup_queryRange _ _) hpick with ⟨honce, hfree⟩
    rcases exists_mem_of_pick (by omega) hpick with ⟨q, hq⟩
    have hwide : 0 ≤ (radius anchor).toInt := (abs_nonneg _).trans (hnear q hq).2.2
    rw [htwice] at hlen
    have hdeal : ∀ p ∈ (deal S h picked).tickets, p = anchor ∨
        p ∈ pool.queryRange h mode (h anchor).mmr (radius anchor) :=
      fun p hp => hmem p ((deal_perm picked).mem_iff.mp hp)
    rcases length_deal (S := S) (h := h) hlen with ⟨hA, hB⟩
    rcases deal_balanced (S := S) (h := h) hlen hpos with ⟨hahead, hclose⟩
    have hpicked : anchor ∈ picked := by
      unfold pick at hpick
      dsimp only at hpick
      split_ifs at hpick
      cases hpick
      exact List.mem_cons_self
    dsimp only
    constructor
    case sound =>
      intro c hc
      rcases List.mem_append.mp hc with hold | hnew
      · exact hs.sound c hold
      · rw [List.mem_singleton.mp hnew]
        refine ⟨hA, hB, fun p hp => ?_, ⟨anchor, (deal_perm picked).mem_iff.mpr hpicked,
          fun p hp => ?_⟩, hahead, hclose⟩
        · rcases hdeal p hp with rfl | hin
          · exact ⟨hstate, hmode⟩
          · exact ⟨(hnear p hin).2.1, (hnear p hin).1⟩
        · rw [min_eq_left hradius.2]
          rcases hdeal p hp with rfl | hin
          · rw [sub_self, abs_zero]
            exact hwide
          · exact (hnear p hin).2.2
    case used =>
      rw [List.flatMap_append, List.flatMap_singleton]
      exact hs.used.append ((deal_perm picked).map fun p => (h p).uid)
    case once =>
      refine List.nodup_append.mpr ⟨hs.once, honce, ?_⟩
      rintro uid hold _ hnew rfl
      rcases List.mem_map.mp hnew with ⟨p, hp, rfl⟩
      exact hfree p hp hold

/-- The matches of one call: each is sound, and nobody is in two of them or twice in one. -/
theorem doMatch_sound (S : SortSlice) (h : Heap) (pool : BucketPool) (queued : List Ptr)
    (now : Ptr → ℤ) (allTickets : List Ptr) (mode : Int32) (queueLen : ℕ) (relaxed : Bool)
    (hsnap : Snapshot h pool queued mode allTickets) :
    (∀ c ∈ doMatch S h pool now allTickets mode queueLen relaxed, Sound h mode
      (fun anchor => anchorRadius queueLen ((h anchor).waitMs (now anchor)) relaxed) c) ∧
    ((doMatch S h pool now allTickets mode queueLen relaxed).flatMap
      fun c => c.tickets.map fun p => (h p).uid).Nodup := by
  have hloop := foldl_invariant_all (I := Progress h mode
      fun anchor => anchorRadius queueLen ((h anchor).waitMs (now anchor)) relaxed)
    (f := fun (s : Search) anchor => s.anchor S h (totalNeeded mode) anchor
      (pool.queryRange h mode (h anchor).mmr
        (anchorRadius queueLen ((h anchor).waitMs (now anchor)) relaxed)))
    (l := S.sort (fun a b => (h b).priority < (h a).priority) allTickets) (s := {})
    (fun s anchor hanchor hs => hs.step hsnap (S.mem_sort.mp hanchor)
      (anchorRadius_bounds queueLen ((h anchor).waitMs (now anchor)) relaxed))
    ⟨nofun, .nil, .nil⟩
  exact ⟨hloop.sound, hloop.used.nodup_iff.mpr hloop.once⟩

/-- Two players of a mode for two. -/
def duelHeap : Heap := fun p =>
  { uid := UInt64.ofNat (p + 1), mmr := 1000 + 10 * Int32.ofNat p, mode := 3, state := .queuing }

def duelPool : BucketPool :=
  (({} : BucketPool).enqueue .insertion duelHeap 0).enqueue .insertion duelHeap 1

theorem duel_snapshot : Snapshot duelHeap duelPool [1, 0] 3 [0, 1] :=
  ⟨by decide, BucketPool.Holds.enqueue (BucketPool.Holds.enqueue filedBy_nil),
    by decide⟩

/-- They are matched, and the match is sound. -/
theorem duel_sound :
    doMatch .insertion duelHeap duelPool (fun _ => 0) [0, 1] 3 2 false = [⟨[1], [0]⟩] ∧
      (∀ c ∈ doMatch .insertion duelHeap duelPool (fun _ => 0) [0, 1] 3 2 false, Sound duelHeap 3
        (fun anchor => anchorRadius 2 ((duelHeap anchor).waitMs 0) false) c) ∧
      ((doMatch .insertion duelHeap duelPool (fun _ => 0) [0, 1] 3 2 false).flatMap
        fun c => c.tickets.map fun p => (duelHeap p).uid).Nodup :=
  ⟨by decide,
    doMatch_sound .insertion duelHeap duelPool [1, 0] (fun _ => 0) [0, 1] 3 2 false duel_snapshot⟩

end Engine

end Gmaker.Matching
