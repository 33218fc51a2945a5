import Gmaker.Chat.Membership
import Gmaker.Lib.ExchangeSort
import Gmaker.Lib.Fold
import Gmaker.Lib.Pages

/-!
# Gmaker.Chat.Listing — the pages of the active rooms

Without a database and without Redis, every request for a page lists the active rooms anew: a map
gives them in any order, and the sort by time leaves rooms of one second in the order they came in.
The offset of the page is a product of 32 bits. `listRooms_partition_iff` says when the pages show
each room once: for all pages a client can ask for, and for as many as the rooms fill.
-/

namespace Gmaker.Chat

open Gmaker.Lib

/-! ## A page -/

/-- `all[start:end]`. -/
def slice {α : Type} (all : List α) (start stop : UInt32) : Option (List α) :=
  if start ≤ stop ∧ stop.toNat ≤ all.length then
    some ((all.drop start.toNat).take (stop.toNat - start.toNat))
  else none

/-- A slice that is moved onto the list. -/
theorem slice_eq {α : Type} {all : List α} {start stop : UInt32} {offset size : ℕ}
    (hstart : start.toNat = min offset all.length)
    (hstop : stop.toNat = min (start.toNat + size) all.length) :
    slice all start stop = some ((all.drop offset).take size) := by
  rw [slice, if_pos]
  · rcases Nat.le_total offset all.length with hle | hge
    · have htake : (all.drop offset).take size =
          (all.drop offset).take (min (offset + size) all.length - offset) := by
        rw [List.take_eq_take_iff, List.length_drop]
        omega
      rw [htake, hstop, hstart, Nat.min_eq_left hle]
    · rw [hstart, Nat.min_eq_right hge, List.drop_length, List.drop_eq_nil_of_le hge, List.take_nil,
        List.take_nil]
  · rw [UInt32.le_iff_toNat_le, hstop, hstart]
    omega

/-- Behind the first 2^32 - 1 elements, no slice shows any. -/
theorem mem_take_of_slice {α : Type} {all shown : List α} {start stop : UInt32}
    (h : slice all start stop = some shown) : ∀ a ∈ shown, a ∈ all.take (2 ^ 32 - 1) := by
  unfold slice at h
  split_ifs at h
  cases h
  intro a ha
  rw [← List.drop_take] at ha
  have hlt := stop.toNat_lt
  exact List.take_subset_take_left _ (by omega) (List.mem_of_mem_drop ha)

/-- The rooms of a page are at most so many. -/
def limitOf (limit : UInt32) : UInt32 := if limit = 0 ∨ 100 < limit then 20 else limit

def pageOf (page : UInt32) : UInt32 := if page = 0 then 1 else page

def offsetOf (page limit : UInt32) : UInt32 := (pageOf page - 1) * limitOf limit

namespace ChatService

/-- The rooms in memory, in the order in which the map gives them. -/
def memRoomsIn (s : ChatService) (o : Order ChatRoomInfo) : List ChatRoomInfo :=
  o.arrange (s.memRooms.map Prod.snd)

/-- The active rooms by time, the latest first. -/
def listed (s : ChatService) (o : Order ChatRoomInfo) : List ChatRoomInfo :=
  let all := (s.memRoomsIn o).filter fun r => r.status = 0
  ExchangeSort.sort (fun a b => a.createdAt < b.createdAt) all

/-- `HandleListRooms`, where there is neither a database nor Redis: the rooms of the page, and how
many there are of all. -/
def handleListRooms (s : ChatService) (o : Order ChatRoomInfo) (page limit : UInt32) :
    Option (List ChatRoomInfo × UInt32) :=
  let offset := offsetOf page limit
  let all := s.listed o
  let total := UInt32.ofNat all.length
  let start := if total < offset then total else offset
  let stop := start + limitOf limit
  let stop := if total < stop then total else stop
  -- a slice whose start is behind its end panics
  (slice all start stop).map fun rooms => (rooms, total)

/-- The rooms of the pages 1 to `n`, one after the other; each call goes through the map in an
order of its own. -/
def pages (s : ChatService) (orders : ℕ → Order ChatRoomInfo) (limit : UInt32) (n : ℕ) :
    Option (List ChatRoomInfo) :=
  ((List.range n).mapM fun k =>
    (s.handleListRooms (orders k) (.ofNat (k + 1)) limit).map Prod.fst).map List.flatten

/-- The active rooms. -/
def activeRooms (s : ChatService) : List ChatRoomInfo :=
  (s.memRooms.map Prod.snd).filter fun r => r.status = 0

/-- In the pages 1 to `n`, there is each active room exactly once and nothing else. -/
def Partition (s : ChatService) (limit : UInt32) (n : ℕ) : Prop :=
  ∀ orders, ∃ out, s.pages orders limit n = some out ∧ out.Perm s.activeRooms

/-! ## The rooms in memory -/

/-- Each room is filed under its id, and there is nothing but memory. -/
structure InMemory (s : ChatService) : Prop where
  noDB : s.hasDB = false
  noRedis : s.redis = none
  keyed : s.memRooms.keys.Nodup
  filed : ∀ p ∈ s.memRooms, p.2.roomId = p.1

variable {conv : FloatConv} {s s' : ChatService} {env : Env}

theorem InMemory.storeRoom (h : s.InMemory) (room : StoredRoom) : (s.storeRoom room).InMemory := by
  unfold ChatService.storeRoom
  rw [h.noRedis]
  refine ⟨h.noDB, rfl, Assoc.nodup_assign h.keyed _ _, ?_⟩
  intro p hp
  rcases Assoc.mem_assign hp with rfl | hin
  · rfl
  · exact h.filed p hin

theorem InMemory.closeStored (h : s.InMemory) (room : ChatRoomInfo) (roomId now : UInt64) :
    (s.closeStored room roomId now).InMemory := by
  unfold ChatService.closeStored
  rw [h.noRedis]
  cases hlookup : s.memRooms.lookup roomId with
  | none => exact ⟨h.noDB, rfl, h.keyed, h.filed⟩
  | some r =>
    refine ⟨h.noDB, rfl, Assoc.nodup_assign h.keyed _ _, ?_⟩
    intro p hp
    rcases Assoc.mem_assign hp with rfl | hin
    · exact h.filed (roomId, r) (Assoc.mem_of_lookup hlookup)
    · exact h.filed p hin

/-- What is written to Redis is written nowhere. -/
theorem InMemory.onRedis (h : s.InMemory) (f : RedisStore → RedisStore) :
    InMemory { s with redis := s.redis.map f } := by
  refine ⟨h.noDB, ?_, h.keyed, h.filed⟩
  rw [h.noRedis]
  rfl

/-- Every request keeps this. -/
theorem InMemory.handle (h : s.InMemory) (env : Env) (req : Request) :
    (s.handle conv env req).1.InMemory := by
  cases req with
  | createRoom name creatorId =>
    change (s.handleCreateRoom env name creatorId).1.InMemory
    unfold handleCreateRoom
    cases env.id with
    | none => exact h
    | some roomID =>
      dsimp only
      split_ifs
      · exact h
      · exact h
      · exact h.storeRoom _
  | joinRoom roomId playerId =>
    change (s.handleJoinRoom conv env roomId playerId).1.InMemory
    unfold handleJoinRoom
    cases s.getRoom conv env roomId with
    | none => exact h
    | some room =>
      dsimp only
      split_ifs
      · exact h
      · exact h.onRedis _
  | leaveRoom roomId playerId => exact h.onRedis _
  | sendMsg roomId senderId content senderName =>
    change (s.handleSendMsg conv env roomId senderId content senderName).1.InMemory
    unfold handleSendMsg
    cases s.getRoom conv env roomId with
    | none => exact h
    | some room =>
      dsimp only
      split_ifs
      · exact h
      · exact h.onRedis _
  | getHistory roomId limit => exact h
  | closeRoom roomId operatorId =>
    change (s.handleCloseRoom conv env roomId operatorId).1.InMemory
    unfold handleCloseRoom
    cases s.getRoom conv env roomId with
    | none => exact h
    | some room =>
      dsimp only
      split_ifs
      · exact h
      · exact h
      · exact h
      · exact h.closeStored room roomId env.now

/-- The service without a database and without Redis, after any requests. -/
theorem inMemory_of_run {requests : List (Env × Request)}
    (hrun : run (next conv) (new false none) requests = some s) : s.InMemory := by
  have hnew : (new false none).InMemory := ⟨rfl, rfl, List.nodup_nil, by simp [new]⟩
  refine run_invariant_all ?_ hnew hrun
  intro s l s' h hnext
  cases hnext
  exact h.handle l.1 l.2

theorem nodup_activeRooms (h : s.InMemory) : s.activeRooms.Nodup := by
  refine List.Nodup.filter _ (List.Nodup.of_map ChatRoomInfo.roomId ?_)
  have hids : (s.memRooms.map Prod.snd).map ChatRoomInfo.roomId = s.memRooms.keys := by
    rw [List.map_map]
    exact List.map_congr_left h.filed
  rw [hids]
  exact h.keyed

/-! ## The list that is cut into pages -/

/-- When a room was created. -/
def created (r : ChatRoomInfo) : ℕ := r.createdAt.toNat

variable {o : Order ChatRoomInfo} {limit : UInt32} {n k : ℕ}

theorem perm_listed (s : ChatService) (o : Order ChatRoomInfo) :
    (s.listed o).Perm s.activeRooms :=
  (ExchangeSort.perm_sort _).trans ((o.perm _).filter _)

theorem length_listed (s : ChatService) (o : Order ChatRoomInfo) :
    (s.listed o).length = s.activeRooms.length := (perm_listed s o).length_eq

theorem swap_eq_false {a b : ChatRoomInfo} :
    decide (a.createdAt < b.createdAt) = false ↔ created b ≤ created a := by
  rw [decide_eq_false_iff_not, UInt64.lt_iff_toNat_lt, not_lt]
  rfl

theorem descending_listed (s : ChatService) (o : Order ChatRoomInfo) :
    Descending created (s.listed o) := by
  have hweak : StrictWeak fun a b : ChatRoomInfo => decide (a.createdAt < b.createdAt) := by
    constructor
    · intro a b hab
      rw [swap_eq_false]
      exact (UInt64.lt_iff_toNat_lt.mp (of_decide_eq_true hab)).le
    · intro a b c hac
      have hlt := UInt64.lt_iff_toNat_lt.mp (of_decide_eq_true hac)
      simp only [decide_eq_true_eq, UInt64.lt_iff_toNat_lt]
      omega
  exact (ExchangeSort.ordered_sort hweak _).imp fun h => swap_eq_false.mp h

/-- Any list of the active rooms by time can come out. -/
theorem exists_listed {l : List ChatRoomInfo} (hperm : l.Perm s.activeRooms)
    (hsorted : Descending created l) : ∃ o, s.listed o = l := by
  have hactive : l.filter (fun r => r.status = 0) = l := by
    rw [List.filter_eq_self]
    intro r hr
    exact (List.mem_filter.mp (hperm.mem_iff.mp hr)).2
  have hall : (l ++ (s.memRooms.map Prod.snd).filter fun r => ¬ r.status = 0).Perm
      (s.memRooms.map Prod.snd) := by
    have hboth := List.filter_append_perm (fun r : ChatRoomInfo => r.status = 0)
      (s.memRooms.map Prod.snd)
    refine (hperm.append_right _).trans ?_
    simpa [activeRooms] using hboth
  refine ⟨Order.giving hall, ?_⟩
  unfold listed memRoomsIn
  rw [Order.arrange_giving, List.filter_append, hactive]
  have hclosed : ((s.memRooms.map Prod.snd).filter fun r => ¬ r.status = 0).filter
      (fun r => r.status = 0) = [] := by
    rw [List.filter_eq_nil_iff]
    intro r hr
    exact of_decide_eq_true (by simpa using (List.mem_filter.mp hr).2)
  rw [hclosed, List.append_nil]
  exact ExchangeSort.sort_of_ordered (hsorted.imp fun h => swap_eq_false.mpr h)

/-! ## One page -/

/-- How many rooms a page has at most. -/
def size (limit : UInt32) : ℕ := (limitOf limit).toNat

theorem size_pos (limit : UInt32) : 0 < size limit := by
  unfold size limitOf
  split_ifs with h
  · decide
  · have hne : limit ≠ 0 := fun heq => h (Or.inl heq)
    have hzero : limit.toNat ≠ 0 := fun heq => hne (UInt32.toNat_inj.mp heq)
    omega

theorem size_le (limit : UInt32) : size limit ≤ 100 := by
  unfold size limitOf
  split_ifs with h
  · decide
  · exact UInt32.le_iff_toNat_le.mp (UInt32.not_lt.mp fun hlt => h (Or.inr hlt))

/-- Where the page behind `k` others begins. -/
theorem toNat_offsetOf (limit : UInt32) (hk : k < 2 ^ 32 - 1) :
    (offsetOf (.ofNat (k + 1)) limit).toNat = k * size limit % 2 ^ 32 := by
  have hpage : pageOf (.ofNat (k + 1)) = .ofNat (k + 1) := by
    refine if_neg ?_
    intro hzero
    have hnat := congrArg UInt32.toNat hzero
    rw [UInt32.toNat_ofNat_of_lt' (by rw [UInt32.size]; omega)] at hnat
    exact absurd hnat (Nat.succ_ne_zero k)
  have hprevious : (UInt32.ofNat (k + 1) - 1).toNat = k := by
    rw [UInt32.toNat_sub_of_le, UInt32.toNat_ofNat_of_lt' (by rw [UInt32.size]; omega)]
    · rfl
    · rw [UInt32.le_iff_toNat_le, UInt32.toNat_ofNat_of_lt' (by rw [UInt32.size]; omega)]
      exact Nat.succ_le_succ (Nat.zero_le k)
  rw [offsetOf, hpage, UInt32.toNat_mul, hprevious, size]

/-- A number that is cut off at another. -/
theorem toNat_cut (a b : UInt32) : (if b < a then b else a).toNat = min a.toNat b.toNat := by
  split_ifs with hlt
  · have hle := (UInt32.lt_iff_toNat_lt.mp hlt).le
    exact (Nat.min_eq_right hle).symm
  · have hle := UInt32.le_iff_toNat_le.mp (UInt32.not_lt.mp hlt)
    exact (Nat.min_eq_left hle).symm

/-- What a page shows, where no number wraps. -/
theorem handleListRooms_eq {page : UInt32} (hlength : s.activeRooms.length < 2 ^ 32)
    (hfit : min (offsetOf page limit).toNat s.activeRooms.length + size limit < 2 ^ 32) :
    s.handleListRooms o page limit =
      some (((s.listed o).drop (offsetOf page limit).toNat).take (size limit),
        UInt32.ofNat s.activeRooms.length) := by
  have htotal : (UInt32.ofNat (s.listed o).length).toNat = (s.listed o).length :=
    UInt32.toNat_ofNat_of_lt' (by rw [length_listed]; exact hlength)
  rw [← length_listed s o] at hfit
  unfold handleListRooms
  dsimp only
  generalize hoffset : offsetOf page limit = offset at hfit
  generalize hall : s.listed o = all at *
  obtain ⟨start, hstart⟩ :
      ∃ start, start = if UInt32.ofNat all.length < offset then UInt32.ofNat all.length else offset :=
    ⟨_, rfl⟩
  have hstartNat : start.toNat = min offset.toNat all.length := by
    rw [hstart, toNat_cut, htotal]
  -- the start is not behind the last room, so that the sum does not wrap
  have hsum : (start + limitOf limit).toNat = start.toNat + size limit := by
    rw [UInt32.toNat_add, Nat.mod_eq_of_lt (by rw [hstartNat]; exact hfit)]
    rfl
  obtain ⟨stop, hstop⟩ : ∃ stop, stop = if UInt32.ofNat all.length < start + limitOf limit then
      UInt32.ofNat all.length else start + limitOf limit := ⟨_, rfl⟩
  have hstopNat : stop.toNat = min (start.toNat + size limit) all.length := by
    rw [hstop, toNat_cut, hsum, htotal]
  rw [← hstart, ← hstop, slice_eq hstartNat hstopNat, Option.map_some, ← length_listed s o, hall]

/-- What the page behind `k` others shows, where no number wraps. -/
theorem page_of_offset {j : ℕ} (hlength : s.activeRooms.length < 2 ^ 32) (hk : k < 2 ^ 32 - 1)
    (hoffset : k * size limit % 2 ^ 32 = j)
    (hfit : min j s.activeRooms.length + size limit < 2 ^ 32) (o : Order ChatRoomInfo) :
    ∃ total, s.handleListRooms o (.ofNat (k + 1)) limit =
      some (((s.listed o).drop j).take (size limit), total) := by
  have hnat := toNat_offsetOf limit hk
  rw [hoffset] at hnat
  refine ⟨UInt32.ofNat s.activeRooms.length, ?_⟩
  rw [handleListRooms_eq hlength, hnat]
  rw [hnat]
  exact hfit

/-- Behind the first 2^32 - 1 rooms nothing is shown. -/
theorem mem_take_of_page {page total : UInt32} {rooms : List ChatRoomInfo}
    (h : s.handleListRooms o page limit = some (rooms, total)) :
    ∀ r ∈ rooms, r ∈ (s.listed o).take (2 ^ 32 - 1) := by
  rcases Option.map_eq_some_iff.mp h with ⟨shown, hslice, heq⟩
  cases heq
  exact mem_take_of_slice hslice

/-! ## All pages -/

/-- What is shown is in a page of some call. -/
theorem pages_eq_some {orders : ℕ → Order ChatRoomInfo} {out : List ChatRoomInfo} :
    s.pages orders limit n = some out ↔ ∃ shown : ℕ → List ChatRoomInfo,
      (∀ k < n, ∃ total, s.handleListRooms (orders k) (.ofNat (k + 1)) limit =
        some (shown k, total)) ∧ out = (List.range n).flatMap shown := by
  unfold pages
  rw [Option.map_eq_some_iff]
  constructor
  · rintro ⟨lists, hlists, rfl⟩
    obtain ⟨shown, hshown⟩ : ∃ shown : ℕ → List ChatRoomInfo, shown = fun k =>
        ((s.handleListRooms (orders k) (.ofNat (k + 1)) limit).map Prod.fst).getD [] := ⟨_, rfl⟩
    have hpage : ∀ k ∈ List.range n,
        (s.handleListRooms (orders k) (.ofNat (k + 1)) limit).map Prod.fst = some (shown k) := by
      intro k hk
      rcases exists_of_mapM hlists k hk with ⟨rooms, hrooms⟩
      rw [hshown]
      dsimp only
      rw [hrooms, Option.getD_some]
    rw [mapM_eq_some hpage] at hlists
    refine ⟨shown, ?_, ?_⟩
    · intro k hk
      rcases Option.map_eq_some_iff.mp (hpage k (List.mem_range.mpr hk)) with ⟨p, hp, hfst⟩
      exact ⟨p.2, by rw [hp, ← hfst]⟩
    · rw [← Option.some.inj hlists, List.flatMap_def]
  · rintro ⟨shown, hpage, rfl⟩
    refine ⟨(List.range n).map shown, mapM_eq_some ?_, List.flatMap_def.symm⟩
    intro k hk
    rcases hpage k (List.mem_range.mp hk) with ⟨total, htotal⟩
    rw [htotal, Option.map_some]

/-- Where no number wraps, the pages are pieces of the lists. -/
theorem pages_of_fit (orders : ℕ → Order ChatRoomInfo) (hlength : s.activeRooms.length < 2 ^ 32)
    (hn : n ≤ 2 ^ 32 - 1)
    (hfit : ∀ k < n, min (k * size limit % 2 ^ 32) s.activeRooms.length + size limit < 2 ^ 32) :
    s.pages orders limit n = some ((List.range n).flatMap fun k =>
      ((s.listed (orders k)).drop (k * size limit % 2 ^ 32)).take (size limit)) := by
  rw [pages_eq_some]
  refine ⟨_, ?_, rfl⟩
  intro k hk
  exact page_of_offset hlength (hk.trans_le hn) rfl (hfit k hk) (orders k)

/-- No room is in two pages. -/
theorem Partition.not_twice (h : s.InMemory) (hpart : s.Partition limit n)
    (orders : ℕ → Order ChatRoomInfo) {j k : ℕ} (hj : j < n) (hk : k < n) (hne : j ≠ k)
    {rooms rooms' : List ChatRoomInfo} {total total' : UInt32}
    (hrooms : s.handleListRooms (orders j) (.ofNat (j + 1)) limit = some (rooms, total))
    (hrooms' : s.handleListRooms (orders k) (.ofNat (k + 1)) limit = some (rooms', total'))
    {a : ChatRoomInfo} (ha : a ∈ rooms) : a ∉ rooms' := by
  rcases hpart orders with ⟨out, hout, hperm⟩
  rcases pages_eq_some.mp hout with ⟨shown, hshown, rfl⟩
  have hnodup := hperm.nodup_iff.mpr (nodup_activeRooms h)
  rcases List.nodup_flatMap.mp hnodup with ⟨-, hdisjoint⟩
  have hsymm : Std.Symm (Function.onFun List.Disjoint shown) := by
    constructor
    intro a b hab
    exact hab.symm
  have hpair : List.Disjoint (shown j) (shown k) :=
    hdisjoint.forall (List.mem_range.mpr hj) (List.mem_range.mpr hk) hne
  rcases hshown j hj with ⟨_, hj'⟩
  rcases hshown k hk with ⟨_, hk'⟩
  cases hrooms.symm.trans hj'
  cases hrooms'.symm.trans hk'
  exact hpair ha

/-- Rooms are not more than a number of 32 bits can say. -/
theorem Partition.length_lt (h : s.InMemory) (hpart : s.Partition limit n) :
    s.activeRooms.length < 2 ^ 32 := by
  by_contra hge
  obtain ⟨l, hl⟩ : ∃ l, l = s.listed Order.asIs := ⟨_, rfl⟩
  have hperm : l.Perm s.activeRooms := hl ▸ perm_listed s _
  -- the room behind the first 2^32 - 1 is in no page
  have hlt : 2 ^ 32 - 1 < l.length := by
    rw [hperm.length_eq]
    omega
  obtain ⟨out, hout, hperm'⟩ := hpart fun _ => Order.asIs
  rcases pages_eq_some.mp hout with ⟨shown, hshown, rfl⟩
  have hin : l[2 ^ 32 - 1] ∈ (List.range n).flatMap shown :=
    hperm'.mem_iff.mpr (hperm.mem_iff.mp (List.getElem_mem hlt))
  rcases List.mem_flatMap.mp hin with ⟨k, hk, hin⟩
  rcases hshown k (List.mem_range.mp hk) with ⟨total, hpage⟩
  have htake := mem_take_of_page hpage _ hin
  rw [← hl] at htake
  rcases List.mem_iff_getElem.mp htake with ⟨i, hi, heq⟩
  rw [List.getElem_take] at heq
  have hnodup := hperm.nodup_iff.mpr (nodup_activeRooms h)
  have hsame := (List.Nodup.getElem_inj_iff hnodup).mp heq
  rw [List.length_take] at hi
  omega

/-- As long as no offset wraps, a page is a block of its list. -/
theorem page_eq_block (hlength : s.activeRooms.length < 2 ^ 32) (hfit : (k + 1) * size limit < 2 ^ 32)
    (o : Order ChatRoomInfo) : ∃ total, s.handleListRooms o (.ofNat (k + 1)) limit =
      some (block (size limit) (s.listed o) k, total) := by
  have hpos := size_pos limit
  have hk : k + 1 ≤ (k + 1) * size limit := Nat.le_mul_of_pos_right _ hpos
  rw [Nat.succ_mul] at hfit
  rw [Nat.succ_mul] at hk
  refine page_of_offset hlength ?_ (Nat.mod_eq_of_lt ?_) ?_ o
  · omega
  · omega
  · exact lt_of_le_of_lt (Nat.add_le_add_right (Nat.min_le_left _ _) _) hfit

/-- The pages that the rooms fill: rooms of one second are in one page. -/
theorem partition_iff_aligned (h : s.InMemory) (hfit : n * size limit < 2 ^ 32)
    (hfill : s.activeRooms.length ≤ n * size limit) :
    s.Partition limit n ↔ Aligned created (size limit) s.activeRooms := by
  have hpos := size_pos limit
  have hlength : s.activeRooms.length < 2 ^ 32 := hfill.trans_lt hfit
  have hpage : ∀ k < n, ∀ o, ∃ total, s.handleListRooms o (.ofNat (k + 1)) limit =
      some (block (size limit) (s.listed o) k, total) := by
    intro k hk o
    exact page_eq_block hlength ((Nat.mul_le_mul_right _ hk).trans_lt hfit) o
  constructor
  · intro hpart
    -- if two rooms can change places across a cut, one of them is shown twice
    by_contra hnot
    obtain ⟨l, hl⟩ : ∃ l, l = s.listed Order.asIs := ⟨_, rfl⟩
    have hperm : l.Perm s.activeRooms := hl ▸ perm_listed s _
    rw [← aligned_of_perm hperm] at hnot
    obtain ⟨l', k, a, hperm', hsorted', hcut, ha, ha'⟩ :=
      exists_torn hpos (hl ▸ descending_listed s _) hnot
    rcases exists_listed (hperm'.trans hperm) hsorted' with ⟨o', hl'⟩
    have hk : k + 1 < n := by
      rw [hperm.length_eq] at hcut
      exact Nat.lt_of_mul_lt_mul_right (hcut.trans_le hfill)
    rcases hpage k (Nat.lt_of_succ_lt hk) Order.asIs with ⟨total, hfirst⟩
    rcases hpage (k + 1) hk o' with ⟨total', hsecond⟩
    rw [← hl] at hfirst
    rw [hl'] at hsecond
    obtain ⟨orders, horders⟩ : ∃ orders : ℕ → Order ChatRoomInfo,
        orders = fun j => if j = k then Order.asIs else o' := ⟨_, rfl⟩
    have hk₁ : orders k = Order.asIs := by
      rw [horders]
      exact if_pos rfl
    have hk₂ : orders (k + 1) = o' := by
      rw [horders]
      exact if_neg (Nat.succ_ne_self k)
    rw [← hk₁] at hfirst
    rw [← hk₂] at hsecond
    exact hpart.not_twice h _ (Nat.lt_of_succ_lt hk) hk (Nat.succ_ne_self k).symm hfirst hsecond
      ha ha'
  · intro haligned orders
    obtain ⟨l, hl⟩ : ∃ l, l = s.listed Order.asIs := ⟨_, rfl⟩
    have hperm : l.Perm s.activeRooms := hl ▸ perm_listed s _
    refine ⟨(List.range n).flatMap fun k => block (size limit) (s.listed (orders k)) k, ?_, ?_⟩
    · exact pages_eq_some.mpr ⟨_, fun k hk => hpage k hk (orders k), rfl⟩
    -- each list has the same rooms in the same block
    · have hblocks : ((List.range n).flatMap fun k => block (size limit) (s.listed (orders k)) k).Perm
          ((List.range n).flatMap (block (size limit) l)) := by
        refine List.Perm.flatMap_left _ ?_
        intro k _
        exact perm_block hpos (hperm.nodup_iff.mpr (nodup_activeRooms h))
          ((perm_listed s _).trans hperm.symm) (hl ▸ descending_listed s _) (descending_listed s _)
          ((aligned_of_perm hperm).mpr haligned) k
      refine hblocks.trans ?_
      rw [List.flatMap_def, flatten_blocks, List.take_of_length_le (by rw [hperm.length_eq]; exact hfill)]
      exact hperm

/-- Two pages with one offset show the same. -/
theorem Partition.size_odd (h : s.InMemory) (hpart : s.Partition limit (2 ^ 32 - 1))
    (hsome : s.activeRooms ≠ []) : size limit % 2 = 1 := by
  have hlength := hpart.length_lt h
  have hsize := size_le limit
  by_contra heven
  obtain ⟨a, ha⟩ : ∃ a, a ∈ (s.listed Order.asIs).take (size limit) := by
    refine List.exists_mem_of_ne_nil _ ?_
    intro hnil
    rcases List.take_eq_nil_iff.mp hnil with hzero | hnil
    · exact absurd hzero (size_pos limit).ne'
    · have hperm := perm_listed s Order.asIs
      rw [hnil] at hperm
      exact hsome hperm.nil_eq.symm
  -- half of 2^32 pages further the offset is 0 again
  have hpage : ∀ k < 2 ^ 32 - 1, k * size limit % 2 ^ 32 = 0 → ∃ total,
      s.handleListRooms Order.asIs (.ofNat (k + 1)) limit =
        some ((s.listed Order.asIs).take (size limit), total) := by
    intro k hk hzero
    exact page_of_offset hlength hk hzero (by omega) Order.asIs
  rcases hpage 0 (by decide) (by rw [Nat.zero_mul, Nat.zero_mod]) with ⟨total, hfirst⟩
  rcases hpage (2 ^ 31) (by decide) (by omega) with ⟨total', hsecond⟩
  exact hpart.not_twice h (fun _ => Order.asIs) (by decide) (by decide) (by decide)
    hfirst hsecond ha ha

/-- An odd size has a page that begins with the second room. -/
theorem exists_offset_one (limit : UInt32) (hodd : size limit % 2 = 1) :
    ∃ k < 2 ^ 32 - 1, k ≠ 0 ∧ k * size limit % 2 ^ 32 = 1 := by
  have hsize := size_le limit
  have hcoprime : Nat.Coprime (size limit) (2 ^ 32) :=
    Nat.Coprime.pow_right 32 (Nat.coprime_two_right.mpr (Nat.odd_iff.mpr hodd))
  rcases Nat.exists_mul_mod_eq_one_of_coprime hcoprime (by decide) with ⟨k, hlt, hinverse⟩
  rw [Nat.mul_comm] at hinverse
  refine ⟨k, ?_, ?_, hinverse⟩
  · by_contra hge
    have hlast : k = 2 ^ 32 - 1 := by omega
    rw [hlast] at hinverse
    omega
  · intro hzero
    rw [hzero, Nat.zero_mul] at hinverse
    cases hinverse

/-- With two rooms, the second is in a page of its own. -/
theorem Partition.size_one (h : s.InMemory) (hpart : s.Partition limit (2 ^ 32 - 1))
    (htwo : 2 ≤ s.activeRooms.length) : size limit = 1 := by
  have hlength := hpart.length_lt h
  have hsize := size_le limit
  have hodd := hpart.size_odd h (List.ne_nil_of_length_pos (Nat.zero_lt_of_lt htwo))
  by_contra hne
  -- the second room is in the first page and in the one that begins with it
  rcases exists_offset_one limit hodd with ⟨k, hk, hzero, hone⟩
  obtain ⟨l, hl⟩ : ∃ l, l = s.listed Order.asIs := ⟨_, rfl⟩
  have htwo' : 1 < l.length := by
    rw [hl, length_listed]
    exact htwo
  have hstart : 0 * size limit % 2 ^ 32 = 0 := by rw [Nat.zero_mul, Nat.zero_mod]
  rcases page_of_offset hlength (by decide) hstart (by omega) Order.asIs with ⟨total, hfirst⟩
  rcases page_of_offset hlength hk hone (by omega) Order.asIs with ⟨total', hsecond⟩
  rw [List.drop_zero, ← hl] at hfirst
  rw [← hl] at hsecond
  have hin : l[1] ∈ l.take (size limit) :=
    List.mem_iff_getElem?.mpr ⟨1, by
      rw [List.getElem?_take, if_pos (by omega), List.getElem?_eq_getElem htwo']⟩
  have hin' : l[1] ∈ (l.drop 1).take (size limit) :=
    List.mem_iff_getElem?.mpr ⟨0, by
      rw [List.getElem?_take, if_pos (size_pos limit), List.getElem?_drop,
        List.getElem?_eq_getElem htwo']⟩
  exact hpart.not_twice h (fun _ => Order.asIs) (by decide) hk hzero.symm hfirst hsecond hin hin'

/-- With an odd size only the first page begins with the first room. -/
theorem offset_pos_of_odd (hodd : size limit % 2 = 1) (hk : k < 2 ^ 32) (hne : k ≠ 0) :
    0 < k * size limit % 2 ^ 32 := by
  by_contra hzero
  have hdvd : 2 ^ 32 ∣ k * size limit := Nat.dvd_of_mod_eq_zero (by omega)
  have hcoprime : Nat.Coprime (2 ^ 32) (size limit) :=
    Nat.Coprime.pow_left 32 (Nat.coprime_two_left.mpr (Nat.odd_iff.mpr hodd))
  have hle := Nat.le_of_dvd (Nat.pos_of_ne_zero hne) (hcoprime.dvd_of_dvd_mul_right hdvd)
  exact absurd hk hle.not_gt

/-- One room, or none, is shown by the first page alone if no other offset is 0. -/
theorem partition_of_small (hsmall : s.activeRooms.length ≤ 1)
    (hodd : s.activeRooms ≠ [] → size limit % 2 = 1) : s.Partition limit (2 ^ 32 - 1) := by
  have hsize := size_le limit
  intro orders
  refine ⟨_, pages_of_fit orders (by omega) le_rfl (fun k _ => by omega), ?_⟩
  obtain ⟨shown, hshown⟩ : ∃ shown : ℕ → List ChatRoomInfo, shown = fun k =>
      ((s.listed (orders k)).drop (k * size limit % 2 ^ 32)).take (size limit) := ⟨_, rfl⟩
  rw [← hshown]
  rcases Nat.le_one_iff_eq_zero_or_eq_one.mp hsmall with hzero | hone
  · have hempty : ∀ k ∈ List.range (2 ^ 32 - 1), shown k = [] := by
      intro k _
      have hnil : s.listed (orders k) = [] := by
        rw [← List.length_eq_zero_iff, length_listed]
        exact hzero
      rw [hshown]
      dsimp only
      rw [hnil, List.drop_nil, List.take_nil]
    rw [List.flatMap_eq_nil_iff.mpr hempty, List.length_eq_zero_iff.mp hzero]
  · rcases List.length_eq_one_iff.mp hone with ⟨a, ha⟩
    have hlist : ∀ k, s.listed (orders k) = [a] := by
      intro k
      exact List.perm_singleton.mp (ha ▸ perm_listed s (orders k))
    have hodd' := hodd (by rw [ha]; exact List.cons_ne_nil a [])
    have hself : shown 0 = [a] := by
      rw [hshown]
      dsimp only
      rw [hlist, Nat.zero_mul, Nat.zero_mod, List.drop_zero]
      exact List.take_of_length_le (size_pos limit)
    have hother : ∀ k ∈ List.range (2 ^ 32 - 1), k ≠ 0 → shown k = [] := by
      intro k hk hne
      have hlt : k < 2 ^ 32 := (List.mem_range.mp hk).trans (Nat.lt_succ_self _)
      have hbehind : 1 ≤ k * size limit % 2 ^ 32 := offset_pos_of_odd hodd' hlt hne
      rw [hshown]
      dsimp only
      rw [hlist, List.drop_eq_nil_of_le hbehind, List.take_nil]
    rw [flatMap_eq_singleton List.nodup_range (List.mem_range.mpr (by decide)) hself hother, ha]

/-- For every service without a database and without Redis and every limit. All pages together show
each active room exactly once, if and only if there is no room, or there is one and the pages are of
an odd size, or the pages are of one room and no two rooms are of one second. The pages that the
rooms fill do so if and only if rooms of one second are in one page. -/
theorem listRooms_partition_iff (conv : FloatConv) (requests : List (Env × Request))
    (s : ChatService) (hrun : run (next conv) (new false none) requests = some s) (limit : UInt32) :
    (s.Partition limit (2 ^ 32 - 1) ↔
      s.activeRooms = [] ∨ s.activeRooms.length = 1 ∧ size limit % 2 = 1 ∨
        size limit = 1 ∧ s.activeRooms.length < 2 ^ 32 ∧ (s.activeRooms.map created).Nodup) ∧
    ∀ n, n * size limit < 2 ^ 32 → s.activeRooms.length ≤ n * size limit →
      (s.Partition limit n ↔ Aligned created (size limit) s.activeRooms) := by
  have h := inMemory_of_run hrun
  refine ⟨?_, fun n hfit hfill => partition_iff_aligned h hfit hfill⟩
  have hone : size limit = 1 → s.activeRooms.length < 2 ^ 32 →
      (s.Partition limit (2 ^ 32 - 1) ↔ (s.activeRooms.map created).Nodup) := by
    intro hsize hlength
    rw [partition_iff_aligned h (by rw [hsize]; decide) (by rw [hsize]; omega), hsize,
      aligned_one_iff]
  constructor
  · intro hpart
    rcases Nat.lt_or_ge 1 s.activeRooms.length with htwo | hsmall
    · have hsize := hpart.size_one h htwo
      have hlength := hpart.length_lt h
      exact Or.inr (Or.inr ⟨hsize, hlength, (hone hsize hlength).mp hpart⟩)
    · rcases Nat.le_one_iff_eq_zero_or_eq_one.mp hsmall with hzero | hone'
      · exact Or.inl (List.length_eq_zero_iff.mp hzero)
      · refine Or.inr (Or.inl ⟨hone', hpart.size_odd h ?_⟩)
        exact List.ne_nil_of_length_pos (by omega)
  · rintro (hnone | ⟨hsingle, hodd⟩ | ⟨hsize, hlength, hnodup⟩)
    · refine partition_of_small ?_ ?_
      · rw [hnone]
        exact Nat.zero_le 1
      · intro hne
        exact absurd hnone hne
    · exact partition_of_small hsingle.le fun _ => hodd
    · exact (hone hsize hlength).mpr hnodup

/-- Two rooms, created at these times. -/
def twoRooms (first second : UInt64) : List (Env × Request) :=
  [(⟨first, some 1, none, .done⟩, .createRoom "lobby" 7),
    (⟨second, some 2, none, .done⟩, .createRoom "arena" 7)]

/-- Two rooms that were not created in one second, in pages of one. -/
theorem listRooms_partition_iff_two :
    ∃ s, run (next .amd64) (new false none) (twoRooms 100 101) = some s ∧
      (s.Partition 1 (2 ^ 32 - 1) ↔
        s.activeRooms = [] ∨ s.activeRooms.length = 1 ∧ size 1 % 2 = 1 ∨
          size 1 = 1 ∧ s.activeRooms.length < 2 ^ 32 ∧ (s.activeRooms.map created).Nodup) ∧
      ∀ n, n * size 1 < 2 ^ 32 → s.activeRooms.length ≤ n * size 1 →
        (s.Partition 1 n ↔ Aligned created (size 1) s.activeRooms) :=
  ⟨_, rfl, listRooms_partition_iff .amd64 (twoRooms 100 101) _ rfl 1⟩

/-- Two rooms of one second, in pages of one: the two calls can list them in different orders. -/
theorem not_listRooms_partition : ¬ ∀ (conv : FloatConv) (requests : List (Env × Request))
    (s : ChatService), run (next conv) (new false none) requests = some s →
    ∀ limit : UInt32, 1 ≤ limit → s.Partition limit (2 ^ 32 - 1) := by
  intro h
  obtain ⟨s, hrun⟩ : ∃ s, run (next .amd64) (new false none) (twoRooms 100 100) = some s := ⟨_, rfl⟩
  have hrooms : s.activeRooms.map created = [100, 100] := by
    cases hrun
    rfl
  have hlength : s.activeRooms.length = 2 := by
    rw [← List.length_map (f := created), hrooms]
    rfl
  have hsize : size 1 = 1 := rfl
  have hpart := h .amd64 _ s hrun 1 (by decide)
  rw [partition_iff_aligned (inMemory_of_run hrun) (by rw [hsize]; decide)
    (by rw [hsize, hlength]; decide), hsize, aligned_one_iff, hrooms] at hpart
  exact absurd hpart (by decide)

end ChatService

end Gmaker.Chat
