import Gmaker.Matching.DriveForward

/-!
# Gmaker.Matching.Rollback — what a rollback undoes

A match whose room could not be made is rolled back: its tickets are set to queuing and go
back to the pool, and its players are no longer filed under it. The rollback undoes what the
tick loop did to the tickets, the pool and the index; the reservations that `CASConfirm` made
it leaves to run out by themselves, and it takes for granted that each player still has a
ticket, and one that is not in the pool.

`freed_iff` says of every rollback that nobody else interferes with when the players are
afterwards as those that have just been put in the queue.
-/

namespace Gmaker.Matching

open Gmaker.Lib

/-! ## Players that can be matched -/

namespace BucketPool

/-- How often a ticket is in a bucket. -/
def copies (pool : BucketPool) (k : Int32 × Int32) (p : Ptr) : ℕ :=
  ((pool.bucket k).getD []).count p

/-- The ticket is in the pool exactly once. -/
def HasOnce (pool : BucketPool) (p : Ptr) : Prop :=
  ∃ k, pool.copies k p = 1 ∧ ∀ j, j ≠ k → pool.copies j p = 0

/-- The ticket is not in the pool. -/
def Lacks (pool : BucketPool) (p : Ptr) : Prop := ∀ k, pool.copies k p = 0

variable {S : SortSlice} {h : Heap} {pool : BucketPool} {p q : Ptr} {k : Int32 × Int32}

theorem copies_enqueue (pool : BucketPool) (k : Int32 × Int32) (p q : Ptr) :
    (pool.enqueue S h q).copies k p =
      pool.copies k p + if q = p ∧ k = (h q).slot then 1 else 0 := by
  unfold copies
  rw [bucket_enqueue]
  by_cases hk : k = (h q).slot
  · rw [if_pos hk, Option.getD_some, Bucket.push, (S.perm _ _).count_eq, List.count_append,
      List.count_singleton]
    simp [hk]
  · simp [hk]

end BucketPool

/-- The player is reserved for the match. -/
def ReservedFor (redis : Option Redis) (uid matchID : UInt64) : Prop :=
  ∃ r, redis = some r ∧ r.settling.lookup uid = some matchID

namespace State

/-- The player's ticket queues and is in the pool once, the player is in no match, and not
reserved for this one. -/
structure Matchable (s : State) (matchID uid : UInt64) : Prop where
  queues : ∃ p, s.mem.getTicket uid = some p ∧ (s.heap p).state = .queuing ∧ s.pool.HasOnce p
  unbound : s.mem.uidToMatch.lookup uid = none
  unreserved : ¬ ReservedFor s.redis uid matchID

/-- All players of the match can be matched again. -/
def Freed (s : State) (m : Match) : Prop := ∀ uid ∈ m.allUIDs, s.Matchable m.id uid

/-- What a rollback needs to find: a ticket for each player, no two the same and none in the
pool, and no reservation that is left. -/
structure CanFree (s : State) (m : Match) : Prop where
  tickets : ∀ uid ∈ m.allUIDs, ∃ p, s.mem.getTicket uid = some p ∧ s.pool.Lacks p
  different : (m.allUIDs.map s.mem.getTicket).Nodup
  unreserved : ∀ uid ∈ m.allUIDs, ¬ ReservedFor s.redis uid m.id

/-- Nothing of the players has changed. -/
structure Untouched (uids : List UInt64) (s s' : State) : Prop where
  ticket : ∀ uid ∈ uids, s'.mem.getTicket uid = s.mem.getTicket uid
  same : ∀ uid ∈ uids, ∀ p, s.mem.getTicket uid = some p →
    s'.heap p = s.heap p ∧ ∀ k, s'.pool.copies k p = s.pool.copies k p
  index : ∀ uid ∈ uids, s'.mem.uidToMatch.lookup uid = s.mem.uidToMatch.lookup uid
  reserved : ∀ uid ∈ uids, ∀ matchID,
    ReservedFor s'.redis uid matchID ↔ ReservedFor s.redis uid matchID

end State

/-- The steps a rollback is made of. -/
def Event.undoes : Event → Bool
  | .drive | .releaseTickets | .rollbackGet | .rollbackEnqueue => true
  | _ => false

section Rollback

variable (S : SortSlice) (room : Match → Option UInt64)

/-- The step belongs to the rollback, or leaves its players alone. The next match is not yet
taken up. -/
def LeavesAlone (uids : List UInt64) (s : State) (e : Event) : Prop :=
  e.undoes = true ∨ e ≠ .receiveMatch ∧
    ∀ s', next S room s e = some s' → State.Untouched uids s s'

/-! ## The state of a rollback -/

/-- What has happened to the players since `s₀`, when the match was taken up. The players of
`done` have been put back. -/
structure Undoing (m : Match) (s₀ : State) (released : Bool) (done : List UInt64) (s : State) :
    Prop where
  ticket : ∀ uid ∈ m.allUIDs, s.mem.getTicket uid = s₀.mem.getTicket uid
  slot : ∀ uid ∈ m.allUIDs, ∀ p, s₀.mem.getTicket uid = some p →
    (s.heap p).slot = (s₀.heap p).slot
  queues : released = true → ∀ uid ∈ m.allUIDs, ∀ p, s₀.mem.getTicket uid = some p →
    (s.heap p).state = .queuing
  copies : ∀ uid ∈ m.allUIDs, ∀ p, s₀.mem.getTicket uid = some p → ∀ k,
    s.pool.copies k p = s₀.pool.copies k p +
      if k = (s₀.heap p).slot then (done.map s₀.mem.getTicket).count (some p) else 0
  unbound : released = true → ∀ uid ∈ m.allUIDs, s.mem.uidToMatch.lookup uid = none
  reserved : ∀ uid ∈ m.allUIDs, ReservedFor s.redis uid m.id ↔ ReservedFor s₀.redis uid m.id

/-- Where the rollback is. -/
def AtStage (m : Match) (place : ℕ) (s₀ s : State) : Prop :=
  match s.settlementLoop with
  | .driving place' => place' = place ∧ s.records[place]? = some m ∧ Undoing m s₀ false [] s
  | .rollingBack place' => place' = place ∧
      (∃ m', s.records[place]? = some m' ∧ m'.allUIDs = m.allUIDs) ∧ Undoing m s₀ false [] s
  | .requeuing todo found => (∃ done, done ++ todo = m.allUIDs ∧ Undoing m s₀ true done s) ∧
      ∀ p, found = some p → ∃ uid rest, todo = uid :: rest ∧ s₀.mem.getTicket uid = some p
  | .waiting => Undoing m s₀ true m.allUIDs s
  | .settling _ => False

variable {S room} {m : Match} {place : ℕ} {s₀ s s' : State} {released : Bool}
  {done : List UInt64} {e : Event}

theorem undoing_start (m : Match) (s₀ : State) : Undoing m s₀ false [] s₀ := by
  refine ⟨fun _ _ => rfl, fun _ _ _ _ => rfl, fun h => ?_, fun _ _ _ _ _ => ?_, fun h => ?_,
    fun _ _ => Iff.rfl⟩
  · cases h
  · rw [List.map_nil, List.count_nil, ite_self, Nat.add_zero]
  · cases h

/-- Others may go on, if they leave the players alone. -/
theorem Undoing.untouched (h : Undoing m s₀ released done s)
    (hsame : State.Untouched m.allUIDs s s') : Undoing m s₀ released done s' := by
  have hheap : ∀ uid ∈ m.allUIDs, ∀ p, s₀.mem.getTicket uid = some p →
      s'.heap p = s.heap p ∧ ∀ k, s'.pool.copies k p = s.pool.copies k p := by
    intro uid huid p hp
    rw [← h.ticket uid huid] at hp
    exact hsame.same uid huid p hp
  refine ⟨fun uid huid => (hsame.ticket uid huid).trans (h.ticket uid huid),
    fun uid huid p hp => ?_, fun hrel uid huid p hp => ?_, fun uid huid p hp k => ?_,
    fun hrel uid huid => (hsame.index uid huid).trans (h.unbound hrel uid huid),
    fun uid huid => (hsame.reserved uid huid m.id).trans (h.reserved uid huid)⟩
  · rw [(hheap uid huid p hp).1]
    exact h.slot uid huid p hp
  · rw [(hheap uid huid p hp).1]
    exact h.queues hrel uid huid p hp
  · rw [(hheap uid huid p hp).2]
    exact h.copies uid huid p hp k

/-- Only the players' tickets, the pool, the index and the reservations count. -/
theorem Undoing.congr (h : Undoing m s₀ released done s) (hheap : s'.heap = s.heap)
    (hpool : s'.pool = s.pool) (hmem : s'.mem = s.mem) (hredis : s'.redis = s.redis) :
    Undoing m s₀ released done s' := by
  refine h.untouched ⟨fun _ _ => by rw [hmem], fun _ _ _ _ => ?_, fun _ _ => by rw [hmem],
    fun _ _ _ => by rw [hredis]⟩
  rw [hheap, hpool]
  exact ⟨rfl, fun _ => rfl⟩

/-! ## The steps -/

/-- The ticket of one player is released. -/
theorem release_spec (h : Heap) (mem : MemoryStore) (uid : UInt64) (p : Ptr) :
    ((match mem.getTicket uid with
      | none => h
      | some q => Function.update h q (MemoryStore.released (h q))) p).slot = (h p).slot ∧
    ((h p).state = .queuing ∨ mem.getTicket uid = some p →
      ((match mem.getTicket uid with
        | none => h
        | some q => Function.update h q (MemoryStore.released (h q))) p).state = .queuing) := by
  cases mem.getTicket uid with
  | none => exact ⟨rfl, fun hp => hp.resolve_right fun hnone => by cases hnone⟩
  | some q =>
    by_cases hq : p = q
    · subst hq
      simp only [Function.update_self]
      exact ⟨rfl, fun _ => rfl⟩
    · simp only [Function.update_of_ne hq]
      exact ⟨trivial, fun hp => hp.resolve_right fun heq => hq (Option.some.inj heq).symm⟩

/-- The tickets after `ReleaseTickets`: those of the players queue. -/
theorem releaseStates_spec (h : Heap) (mem : MemoryStore) (uids : List UInt64) (p : Ptr) :
    (mem.releaseStates h uids p).slot = (h p).slot ∧
      ((h p).state = .queuing ∨ (∃ uid ∈ uids, mem.getTicket uid = some p) →
        (mem.releaseStates h uids p).state = .queuing) := by
  unfold MemoryStore.releaseStates
  induction uids generalizing h with
  | nil =>
    refine ⟨rfl, fun hp => hp.resolve_right ?_⟩
    rintro ⟨uid, huid, -⟩
    cases huid
  | cons uid uids ih =>
    obtain ⟨hslot, hstate⟩ := release_spec h mem uid p
    obtain ⟨hslots, hstates⟩ := ih (match mem.getTicket uid with
      | none => h
      | some q => Function.update h q (MemoryStore.released (h q)))
    rw [List.foldl_cons]
    refine ⟨hslots.trans hslot, fun hp => hstates ?_⟩
    rcases hp with hp | ⟨uid', huid', hp⟩
    · exact .inl (hstate (.inl hp))
    · rcases List.mem_cons.mp huid' with rfl | hmem
      · exact .inl (hstate (.inr hp))
      · exact .inr ⟨uid', hmem, hp⟩

theorem lookup_foldl_erase {α : Type} (t : Assoc UInt64 α) (uids : List UInt64) (uid : UInt64) :
    (uids.foldl (fun t uid => t.erase uid) t).lookup uid =
      if uid ∈ uids then none else t.lookup uid := by
  induction uids generalizing t with
  | nil => rfl
  | cons uid' uids ih =>
    rw [List.foldl_cons, ih, Assoc.lookup_erase]
    by_cases hhead : uid = uid'
    · simp [hhead]
    · simp [hhead]

theorem Undoing.releaseTickets (h : Undoing m s₀ false [] s) {m' : Match}
    (hm' : m'.allUIDs = m.allUIDs) : Undoing m s₀ true [] (s.releaseTickets m') := by
  have hspec := fun p => releaseStates_spec s.heap s.mem m'.allUIDs p
  rw [hm'] at hspec
  refine ⟨h.ticket, fun uid huid p hp => ?_, fun _ uid huid p hp => ?_, h.copies,
    fun _ uid huid => ?_, h.reserved⟩
  · change (s.mem.releaseStates s.heap m'.allUIDs p).slot = _
    rw [hm']
    exact (hspec p).1.trans (h.slot uid huid p hp)
  · change (s.mem.releaseStates s.heap m'.allUIDs p).state = _
    rw [hm']
    exact (hspec p).2 (.inr ⟨uid, huid, (h.ticket uid huid).trans hp⟩)
  · change (m'.allUIDs.foldl (fun t uid => t.erase uid) s.mem.uidToMatch).lookup uid = none
    rw [lookup_foldl_erase, hm', if_pos huid]

/-- A player without a ticket is passed over. -/
theorem Undoing.skip (h : Undoing m s₀ true done s) {uid : UInt64}
    (hnone : s₀.mem.getTicket uid = none) : Undoing m s₀ true (done ++ [uid]) s := by
  refine ⟨h.ticket, h.slot, h.queues, fun uid' huid' p hp k => ?_, h.unbound, h.reserved⟩
  rw [h.copies uid' huid' p hp k, List.map_append, List.count_append, List.map_singleton, hnone]
  simp

/-- A ticket goes back to the pool. -/
theorem Undoing.enqueue (h : Undoing m s₀ true done s) {uid : UInt64} {p : Ptr}
    (huid : uid ∈ m.allUIDs) (hp : s₀.mem.getTicket uid = some p) (todo : List UInt64) :
    Undoing m s₀ true (done ++ [uid]) (s.rollbackEnqueue S p todo) := by
  refine ⟨h.ticket, h.slot, h.queues, fun uid' huid' q hq k => ?_, h.unbound, h.reserved⟩
  change (s.pool.enqueue S s.heap p).copies k q = _
  rw [BucketPool.copies_enqueue, h.copies uid' huid' q hq k, h.slot uid huid p hp,
    List.map_append, List.count_append, List.map_singleton, hp, List.count_singleton]
  by_cases hpq : p = q
  · subst hpq
    by_cases hk : k = (s₀.heap p).slot
    · simp [hk, Nat.add_assoc]
    · simp [hk]
  · simp [hpq]

/-- Players are left, or the rollback is over. -/
theorem atStage_requeue {todo : List UInt64} (hloop : s.settlementLoop = State.requeue todo)
    (hdone : done ++ todo = m.allUIDs) (h : Undoing m s₀ true done s) : AtStage m place s₀ s := by
  unfold AtStage
  rw [hloop]
  unfold State.requeue
  split_ifs with htodo
  · rw [htodo, List.append_nil] at hdone
    exact hdone ▸ h
  · exact ⟨⟨done, hdone, h⟩, fun p hp => by cases hp⟩

/-- A step of others that leaves the players alone. -/
theorem AtStage.untouched (h : AtStage m place s₀ s)
    (hloop : s'.settlementLoop = s.settlementLoop)
    (hrecords : ∀ (i : ℕ) (mt : Match), s.records[i]? = some mt → s'.records[i]? = some mt)
    (hsame : State.Untouched m.allUIDs s s') : AtStage m place s₀ s' := by
  unfold AtStage at h ⊢
  rw [hloop]
  cases hcase : s.settlementLoop with
  | driving place' =>
    rw [hcase] at h
    obtain ⟨hplace, hm, hundo⟩ := h
    exact ⟨hplace, hrecords _ _ hm, hundo.untouched hsame⟩
  | rollingBack place' =>
    rw [hcase] at h
    obtain ⟨hplace, ⟨m', hm', huids⟩, hundo⟩ := h
    exact ⟨hplace, ⟨m', hrecords _ _ hm', huids⟩, hundo.untouched hsame⟩
  | requeuing todo found =>
    rw [hcase] at h
    obtain ⟨⟨done, hdone, hundo⟩, hfound⟩ := h
    exact ⟨⟨done, hdone, hundo.untouched hsame⟩, hfound⟩
  | waiting =>
    rw [hcase] at h
    exact h.untouched hsame
  | settling todo =>
    rw [hcase] at h
    exact h.elim

theorem AtStage.step (h : AtStage m place s₀ s) (hstate : m.state = .retry)
    (hretries : maxRetries ≤ m.retries) (hok : LeavesAlone S room m.allUIDs s e)
    (hnext : next S room s e = some s') : AtStage m place s₀ s' := by
  have hstep := step_of_next hnext
  by_cases hundoes : e.undoes = true
  · unfold AtStage at h
    cases hstep with
    | drive hloop hm =>
      rename_i place' m'
      rw [hloop] at h
      obtain ⟨rfl, hm', hundo⟩ := h
      rw [hm'] at hm
      cases hm
      unfold AtStage State.drive
      rw [hstate]
      simp only [if_pos hretries]
      exact ⟨trivial, ⟨_, getElem?_matchTo hm' .rollback id, rfl⟩, hundo.congr rfl rfl rfl rfl⟩
    | releaseTickets hloop hm =>
      rename_i place' m'
      rw [hloop] at h
      obtain ⟨rfl, ⟨m'', hm'', huids⟩, hundo⟩ := h
      rw [hm''] at hm
      cases hm
      exact atStage_requeue (congrArg State.requeue huids) (List.nil_append _)
        (hundo.releaseTickets huids)
    | rollbackGet hloop =>
      rename_i uid todo
      rw [hloop] at h
      obtain ⟨⟨done, hdone, hundo⟩, -⟩ := h
      have huid : uid ∈ m.allUIDs := by
        rw [← hdone]
        simp
      have hticket := hundo.ticket uid huid
      cases hp : s.mem.getTicket uid with
      | none =>
        have hskip := hundo.skip (hticket.symm.trans hp)
        refine atStage_requeue ?_ (by simpa using hdone) (hskip.congr rfl rfl rfl rfl)
        simp [State.rollbackGet, hp]
      | some p =>
        unfold AtStage State.rollbackGet
        simp only [hp]
        refine ⟨⟨done, hdone, hundo.congr rfl rfl rfl rfl⟩, fun q hq => ?_⟩
        cases hq
        exact ⟨uid, todo, rfl, hticket.symm.trans hp⟩
    | rollbackEnqueue hloop =>
      rename_i uid p todo
      rw [hloop] at h
      obtain ⟨⟨done, hdone, hundo⟩, hfound⟩ := h
      obtain ⟨uid', todo', htodo, hp⟩ := hfound p rfl
      cases htodo
      have huid : uid ∈ m.allUIDs := by
        rw [← hdone]
        simp
      exact atStage_requeue rfl (by simpa using hdone) (hundo.enqueue huid hp todo)
    | _ => cases hundoes
  · obtain ⟨hreceive, hsame⟩ := hok.resolve_left hundoes
    have hof : e.ofSettlement = false := by
      cases hstep with
      | drive | releaseTickets | rollbackGet | rollbackEnqueue => exact absurd rfl hundoes
      | receiveMatch => exact absurd rfl hreceive
      | settleTicket hloop =>
        unfold AtStage at h
        rw [hloop] at h
        exact h.elim
      | _ => rfl
    obtain ⟨hloop, hrecords⟩ := settlement_of_step S room hstep hof
    exact h.untouched hloop hrecords (hsame s' hnext)

/-- Nobody acts in between. -/
theorem leavesAlone_of_undoes {uids : List UInt64} {es : List Event}
    (hes : ∀ e ∈ es, e.undoes = true) : RunOk (next S room) (LeavesAlone S room uids) s es := by
  induction es generalizing s with
  | nil => trivial
  | cons e es ih =>
    exact ⟨.inl (hes e List.mem_cons_self), fun _ _ => ih fun e he => hes e (List.mem_cons_of_mem _ he)⟩

/-! ## The rollback -/

/-- After the rollback, the players can be matched again if and only if the rollback found
what it needs. -/
theorem Undoing.canFree_iff (h : Undoing m s₀ true m.allUIDs s) : s.Freed m ↔ s₀.CanFree m := by
  constructor
  · intro hfreed
    have hticket : ∀ uid ∈ m.allUIDs, ∃ p, s₀.mem.getTicket uid = some p ∧ s₀.pool.Lacks p ∧
        (m.allUIDs.map s₀.mem.getTicket).count (some p) = 1 := by
      intro uid huid
      obtain ⟨p, hp, -, k, hk, hothers⟩ := (hfreed uid huid).queues
      rw [h.ticket uid huid] at hp
      have hcount : 0 < (m.allUIDs.map s₀.mem.getTicket).count (some p) :=
        List.count_pos_iff.mpr (List.mem_map.mpr ⟨uid, huid, hp⟩)
      have hcopies := h.copies uid huid p hp
      -- the one place it is in is where the rollback has put it
      have hslot : (s₀.heap p).slot = k := by
        by_contra hne
        have hzero := hothers _ hne
        rw [hcopies, if_pos rfl] at hzero
        omega
      refine ⟨p, hp, fun j => ?_, ?_⟩
      · by_cases hj : j = k
        · rw [hj]
          rw [hcopies, if_pos hslot.symm] at hk
          omega
        · have hzero := hothers j hj
          rw [hcopies] at hzero
          omega
      · rw [hcopies, if_pos hslot.symm] at hk
        omega
    refine ⟨fun uid huid => ?_, ?_, fun uid huid => ?_⟩
    · obtain ⟨p, hp, hlacks, -⟩ := hticket uid huid
      exact ⟨p, hp, hlacks⟩
    · refine List.nodup_iff_count_le_one.mpr fun a => ?_
      by_cases ha : a ∈ m.allUIDs.map s₀.mem.getTicket
      · obtain ⟨uid, huid, rfl⟩ := List.mem_map.mp ha
        obtain ⟨p, hp, -, hone⟩ := hticket uid huid
        rw [hp, hone]
      · rw [List.count_eq_zero_of_not_mem ha]
        exact Nat.zero_le 1
    · rw [← h.reserved uid huid]
      exact (hfreed uid huid).unreserved
  · intro hcan uid huid
    obtain ⟨p, hp, hlacks⟩ := hcan.tickets uid huid
    have hcopies := h.copies uid huid p hp
    have hone : (m.allUIDs.map s₀.mem.getTicket).count (some p) = 1 :=
      List.count_eq_one_of_mem hcan.different (List.mem_map.mpr ⟨uid, huid, hp⟩)
    refine ⟨⟨p, (h.ticket uid huid).trans hp, h.queues rfl uid huid p hp,
      (s₀.heap p).slot, ?_, fun j hj => ?_⟩, h.unbound rfl uid huid, ?_⟩
    · rw [hcopies, hlacks, if_pos rfl, hone]
    · rw [hcopies, hlacks, if_neg hj]
    · rw [h.reserved uid huid]
      exact hcan.unreserved uid huid

/-- A match that has failed too often is rolled back, and nobody else touches its players
meanwhile: they can be matched again if and only if each had a ticket of its own that was not
in the pool, and no reservation for the match was left. -/
theorem freed_iff {es : List Event} (hloop : s.settlementLoop = .driving place)
    (hm : s.records[place]? = some m) (hstate : m.state = .retry)
    (hretries : maxRetries ≤ m.retries)
    (hok : RunOk (next S room) (LeavesAlone S room m.allUIDs) s es)
    (hrun : run (next S room) s es = some s') (hdone : s'.settlementLoop = .waiting) :
    s'.Freed m ↔ s.CanFree m := by
  have hstart : AtStage m place s s := by
    unfold AtStage
    rw [hloop]
    exact ⟨rfl, hm, undoing_start m s⟩
  have hstage := run_invariant (fun _ _ _ hok h hnext => AtStage.step h hstate hretries hok hnext)
    hstart hok hrun
  unfold AtStage at hstage
  rw [hdone] at hstage
  exact hstage.canFree_iff

/-- The rollback of a match of two. -/
def rollbackOfTwo : List Event :=
  [.drive, .releaseTickets, .rollbackGet, .rollbackEnqueue, .rollbackGet, .rollbackEnqueue]

/-- A service without Redis, and a match whose room was asked for often enough. -/
def failedDuel : State :=
  { heap := fun p => { uid := UInt64.ofNat (p + 1), mode := 3, state := .matching }
    fresh := 2
    mem := { tickets := [(1, 0), (2, 1)], uidToMatch := [(1, 7), (2, 7)] }
    records := [{ duelMatch 7 1 2 with state := .retry, retries := 3 }]
    settlementLoop := .driving 0 }

theorem freed_failedDuel :
    ∃ s', run (next .insertion createRoom) failedDuel rollbackOfTwo = some s' ∧
      s'.Freed { duelMatch 7 1 2 with state := .retry, retries := 3 } := by
  have hwaits : (run (next .insertion createRoom) failedDuel rollbackOfTwo).map
      State.settlementLoop = some .waiting := by decide +kernel
  obtain ⟨s', hrun, hdone⟩ := Option.map_eq_some_iff.mp hwaits
  have htickets : ∀ uid ∈ [1, 2], ∃ p, failedDuel.mem.getTicket uid = some p ∧
      failedDuel.pool.Lacks p := by
    intro uid huid
    rcases List.mem_cons.mp huid with rfl | huid
    · exact ⟨0, rfl, fun _ => rfl⟩
    · rw [List.mem_singleton.mp huid]
      exact ⟨1, rfl, fun _ => rfl⟩
  refine ⟨s', hrun, (freed_iff rfl rfl rfl (by decide) (leavesAlone_of_undoes (by decide)) hrun
    hdone).mpr ⟨htickets, by decide, ?_⟩⟩
  rintro uid - ⟨r, hr, -⟩
  cases hr

/-- A player asks for a match of one against one. -/
def joinQueue (uid : UInt64) (i : ℕ) : List Event :=
  [.matchReq uid 1000 3 0, .countQueuing i, .checkTicket i, .putTicket i 0, .poolEnqueue i]

/-- Two players are matched and reserved, and their room cannot be made three times. -/
def threeFailures : List Event :=
  joinQueue 1 0 ++ joinQueue 2 1 ++
    [.tick, .matchMode, .matchMode, .matchMode, .anchor 0, .anchor 0, .nextMatchID 0 false 0,
      .markMatching, .removeFromPool, .markMatching, .removeFromPool, .casConfirm true true,
      .putMatch, .bindMatch, .notify, .receiveMatch, .drive, .drive, .drive, .drive, .drive, .drive]

/-- The players stay reserved for the match that is rolled back. -/
theorem threeFailures_not_freed :
    ¬ ∀ (S : SortSlice) (room : Match → Option UInt64) (redis : Option Redis)
      (path es : List Event) (s s' : State) (place : ℕ) (m : Match),
      run (next S room) { redis } path = some s → s.settlementLoop = .driving place →
      s.records[place]? = some m → m.state = .retry → maxRetries ≤ m.retries →
      RunOk (next S room) (LeavesAlone S room m.allUIDs) s es →
      run (next S room) s es = some s' → s'.settlementLoop = .waiting → s'.Freed m := by
  intro h
  have hruns : ((run (next .insertion fun _ => none) { redis := some {} } threeFailures).bind
      fun s => (run (next .insertion fun _ => none) s rollbackOfTwo).map fun s' =>
        decide (s.settlementLoop = .driving 0 ∧
          s.records = [{ id := 1, state := .retry, mode := 3, teamSize := 1, teamA := [1]
                         teamB := [2], retries := 3, createdAt := 0 }] ∧
          s'.settlementLoop = .waiting ∧
          (s'.redis.bind fun r => r.settling.lookup 1) = some 1)) = some true := by
    decide +kernel
  obtain ⟨s, hpath, hrest⟩ := Option.bind_eq_some_iff.mp hruns
  obtain ⟨s', hrun, hfacts⟩ := Option.map_eq_some_iff.mp hrest
  obtain ⟨hloop, hrecords, hdone, hsettling⟩ := of_decide_eq_true hfacts
  obtain ⟨r, hredis, hlookup⟩ := Option.bind_eq_some_iff.mp hsettling
  have hfreed := h .insertion (fun _ => none) (some {}) threeFailures rollbackOfTwo s s' 0 _ hpath
    hloop (by rw [hrecords]; rfl) rfl (by decide) (leavesAlone_of_undoes (by decide)) hrun hdone
  exact (hfreed 1 (by decide)).unreserved ⟨r, hredis, hlookup⟩

end Rollback

end Gmaker.Matching
