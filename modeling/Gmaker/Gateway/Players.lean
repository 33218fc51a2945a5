import Gmaker.Lib.Renaming

/-!
# Gmaker.Gateway.Players — who is bound to which connection

What the gateway guards with `player_mtx_`: the player of each connection, the
connection of each player, and the bind requests that wait for an answer. Every
function here is one critical section of the source. Connections are any type `κ`:
the gateway itself goes by their `ID()`.
-/

namespace Gmaker.Gateway

open Gmaker.Lib

variable {κ : Type} [DecidableEq κ]

/-- `PendingBind`. -/
structure PendingBind where
  playerId : UInt64
  seqId : UInt32
  createdAt : ℤ
deriving DecidableEq

/-- `player_conn_`, `conn_player_` and `pending_binds_`. -/
structure Players (κ : Type) where
  playerConn : UInt64 → Option κ := fun _ => none
  connPlayer : κ → Option UInt64 := fun _ => none
  pendingBinds : κ → Option PendingBind := fun _ => none

/-- `kPendingBindTimeout`: 10 s, in ms. -/
def pendingBindTimeout : ℤ := 10 * 1000

namespace Players

/-- `IsPlayerBound`. -/
def isPlayerBound (p : Players κ) (conn : κ) : Bool := (p.connPlayer conn).isSome

/-- `pending_binds_[conn] = b`: a later request of the connection replaces an earlier
one. -/
def setPending (p : Players κ) (conn : κ) (b : PendingBind) : Players κ :=
  { p with pendingBinds := Function.update p.pendingBinds conn (some b) }

/-- `pending_binds_.erase(conn)`. -/
def erasePending (p : Players κ) (conn : κ) : Players κ :=
  { p with pendingBinds := Function.update p.pendingBinds conn none }

/-- Erase the pending bind of the connection if it has this sequence number; the
player it was for. -/
def takePending (p : Players κ) (conn : κ) (seqId : UInt32) : Players κ × Option UInt64 :=
  match p.pendingBinds conn with
  | some b => if b.seqId = seqId then (p.erasePending conn, some b.playerId) else (p, none)
  | none => (p, none)

/-- Erase every pending bind with this sequence number, whatever its connection. -/
def erasePendingSeq (p : Players κ) (seqId : UInt32) : Players κ :=
  { p with pendingBinds := fun conn => (p.pendingBinds conn).filter fun b => b.seqId ≠ seqId }

/-- The scan of `HeartbeatLoop`. -/
def expirePending (p : Players κ) (now : ℤ) : Players κ :=
  { p with pendingBinds := fun conn =>
      (p.pendingBinds conn).filter fun b => now - b.createdAt ≤ pendingBindTimeout }

/-- The connection and its player are no longer bound; the player may have another
connection by now. -/
def unbind (p : Players κ) (conn : κ) (playerId : UInt64) : Players κ :=
  { p with
    playerConn :=
      if p.playerConn playerId = some conn then Function.update p.playerConn playerId none
      else p.playerConn
    connPlayer := Function.update p.connPlayer conn none }

/-- The connection that the player has, if it is another one. -/
def otherConn (p : Players κ) (playerId : UInt64) (conn : κ) : Option κ :=
  (p.playerConn playerId).filter fun old => old ≠ conn

/-- The end of `BindPlayer`: the connection that the player had before has no player. -/
def bindNew (p : Players κ) (playerId : UInt64) (conn : κ) : Players κ :=
  let connPlayer :=
    match p.otherConn playerId conn with
    | some old => Function.update p.connPlayer old none
    | none => p.connPlayer
  { p with
    playerConn := Function.update p.playerConn playerId (some conn)
    connPlayer := Function.update connPlayer conn (some playerId) }

/-- The player that the connection had before loses it. -/
def unbindOther (p : Players κ) (playerId : UInt64) (conn : κ) : Players κ :=
  match p.connPlayer conn with
  | some old => if old ≠ playerId then p.unbind conn old else p
  | none => p

/-- `BindPlayer`: a connection has one player and a player one connection. The
connection that the player had before, which is to be kicked. -/
def bindPlayer (p : Players κ) (playerId : UInt64) (conn : κ) : Players κ × Option κ :=
  let p := p.unbindOther playerId conn
  (p.bindNew playerId conn, p.otherConn playerId conn)

/-- `CleanupPlayerState`. -/
def cleanupPlayerState (p : Players κ) (conn : κ) : Players κ :=
  let p := p.erasePending conn
  match p.connPlayer conn with
  | none => p
  | some playerId => p.unbind conn playerId

/-! ## Pending binds -/

section Pending

variable {p : Players κ} {conn c : κ} {b : PendingBind} {seqId : UInt32}

theorem setPending_pendingBinds :
    (p.setPending conn b).pendingBinds c = if c = conn then some b else p.pendingBinds c := by
  simp [setPending, Function.update_apply]

/-- What is still pending after one was erased was pending before. -/
theorem pendingBinds_of_erasePending (h : (p.erasePending conn).pendingBinds c = some b) :
    p.pendingBinds c = some b := by
  by_cases hc : c = conn
  · simp [erasePending, hc] at h
  · simpa [erasePending, Function.update_of_ne hc] using h

theorem pendingBinds_of_takePending (h : (p.takePending conn seqId).1.pendingBinds c = some b) :
    p.pendingBinds c = some b := by
  unfold takePending at h
  cases hconn : p.pendingBinds conn with
  | none => simpa [hconn] using h
  | some old =>
    rw [hconn] at h
    simp only at h
    split_ifs at h
    · exact pendingBinds_of_erasePending h
    · exact h

omit [DecidableEq κ] in
theorem pendingBinds_of_expirePending {now : ℤ}
    (h : (p.expirePending now).pendingBinds c = some b) : p.pendingBinds c = some b :=
  (Option.filter_eq_some_iff.mp h).1

theorem pendingBinds_of_cleanupPlayerState
    (h : (p.cleanupPlayerState conn).pendingBinds c = some b) : p.pendingBinds c = some b := by
  unfold cleanupPlayerState at h
  cases hplayer : (p.erasePending conn).connPlayer conn with
  | none =>
    simp only [hplayer] at h
    exact pendingBinds_of_erasePending h
  | some playerId =>
    simp only [hplayer] at h
    exact pendingBinds_of_erasePending h

/-- Nothing is pending for the connection afterwards. -/
theorem cleanupPlayerState_pendingBinds (p : Players κ) (conn : κ) :
    (p.cleanupPlayerState conn).pendingBinds conn = none := by
  have herase : (p.erasePending conn).pendingBinds conn = none := Function.update_self _ _ _
  unfold cleanupPlayerState
  cases hplayer : (p.erasePending conn).connPlayer conn with
  | none =>
    simp only [hplayer]
    exact herase
  | some playerId =>
    simp only [hplayer]
    exact herase

@[simp] theorem bindPlayer_pendingBinds (p : Players κ) (playerId : UInt64) (conn : κ) :
    (p.bindPlayer playerId conn).1.pendingBinds = p.pendingBinds := by
  change (p.unbindOther playerId conn).pendingBinds = p.pendingBinds
  unfold unbindOther
  cases p.connPlayer conn with
  | none => rfl
  | some old =>
    simp only
    split_ifs
    · rfl
    · rfl

/-- A pending bind is taken by its own sequence number only. -/
theorem takePending_eq_some {playerId : UInt64}
    (h : (p.takePending conn seqId).2 = some playerId) :
    ∃ b, p.pendingBinds conn = some b ∧ b.seqId = seqId ∧ b.playerId = playerId := by
  unfold takePending at h
  cases hconn : p.pendingBinds conn with
  | none =>
    rw [hconn] at h
    cases h
  | some b =>
    rw [hconn] at h
    simp only at h
    split_ifs at h with hseq
    exact ⟨b, rfl, hseq, Option.some.inj h⟩

theorem takePending_of_pending (hb : p.pendingBinds conn = some b) :
    (p.takePending conn b.seqId).2 = some b.playerId := by
  unfold takePending
  rw [hb]
  simp

end Pending

/-! ## Under other keys -/

section Renamed

variable {ν : Type} [DecidableEq ν] {f : κ → ν} {D P : Set κ} {a : Players κ} {b : Players ν}
  {k : κ} {seqId : UInt32}

omit [DecidableEq κ] [DecidableEq ν] in
/-- `b` is `a` under other keys. Bound connections are in `D`, those with a pending bind
in `P`. -/
structure Renamed (f : κ → ν) (D P : Set κ) (a : Players κ) (b : Players ν) : Prop where
  player : ∀ p, b.playerConn p = (a.playerConn p).map f
  playerKey : ∀ p k, a.playerConn p = some k → k ∈ D
  conn : Renames f D a.connPlayer b.connPlayer
  pending : Renames f P a.pendingBinds b.pendingBinds

namespace Renamed

omit [DecidableEq κ] [DecidableEq ν]

theorem isPlayerBound (h : Renamed f D P a b) (hk : Alone f D k) :
    b.isPlayerBound (f k) = a.isPlayerBound k := by
  unfold Players.isPlayerBound
  rw [h.conn.get hk]

/-- The player's connection is this one under its name if and only if it is this one. -/
theorem playerConn_eq_iff (h : Renamed f D P a b) (hk : Alone f D k) (p : UInt64) :
    b.playerConn p = some (f k) ↔ a.playerConn p = some k := by
  rw [h.player p]
  cases hp : a.playerConn p with
  | none => simp
  | some j =>
    rw [Option.map_some, Option.some.injEq, Option.some.injEq]
    constructor
    · intro hname
      exact hk j (h.playerKey p j hp) hname
    · intro hjk
      rw [hjk]

theorem filterPending (h : Renamed f D P a b) (keep : PendingBind → Bool) :
    Renamed f D P { a with pendingBinds := fun k => (a.pendingBinds k).filter keep }
      { b with pendingBinds := fun y => (b.pendingBinds y).filter keep } :=
  { h with pending := h.pending.filter keep }

theorem erasePendingSeq (h : Renamed f D P a b) (seqId : UInt32) :
    Renamed f D P (a.erasePendingSeq seqId) (b.erasePendingSeq seqId) :=
  h.filterPending _

theorem expirePending (h : Renamed f D P a b) (now : ℤ) :
    Renamed f D P (a.expirePending now) (b.expirePending now) :=
  h.filterPending _

variable [DecidableEq κ] [DecidableEq ν]

theorem setPending (h : Renamed f D P a b) (hk : k ∈ P) (halone : Alone f P k) (p : PendingBind) :
    Renamed f D P (a.setPending k p) (b.setPending (f k) p) :=
  { h with pending := h.pending.set hk halone (some p) }

theorem erasePending (h : Renamed f D P a b) (halone : Alone f P k) :
    Renamed f D P (a.erasePending k) (b.erasePending (f k)) :=
  { h with pending := h.pending.erase halone }

theorem takePending (h : Renamed f D P a b) (halone : Alone f P k) (seqId : UInt32) :
    (b.takePending (f k) seqId).2 = (a.takePending k seqId).2 ∧
      Renamed f D P (a.takePending k seqId).1 (b.takePending (f k) seqId).1 := by
  unfold Players.takePending
  rw [h.pending.get halone]
  cases a.pendingBinds k with
  | none => exact ⟨rfl, h⟩
  | some p =>
    simp only
    split_ifs
    · exact ⟨rfl, h.erasePending halone⟩
    · exact ⟨rfl, h⟩

theorem unbind (h : Renamed f D P a b) (hk : Alone f D k) (p : UInt64) :
    Renamed f D P (a.unbind k p) (b.unbind (f k) p) := by
  unfold Players.unbind
  simp only [h.playerConn_eq_iff hk p]
  constructor
  · intro q
    simp only
    split_ifs with hp
    · by_cases hq : q = p
      · rw [hq, Function.update_self, Function.update_self]
        rfl
      · rw [Function.update_of_ne hq, Function.update_of_ne hq]
        exact h.player q
    · exact h.player q
  · intro q j hj
    simp only at hj
    split_ifs at hj with hp
    · by_cases hq : q = p
      · rw [hq, Function.update_self] at hj
        cases hj
      · rw [Function.update_of_ne hq] at hj
        exact h.playerKey q j hj
    · exact h.playerKey q j hj
  · exact h.conn.erase hk
  · exact h.pending

theorem cleanupPlayerState (h : Renamed f D P a b) (hk : Alone f D k) (hpending : Alone f P k) :
    Renamed f D P (a.cleanupPlayerState k) (b.cleanupPlayerState (f k)) := by
  have h' := h.erasePending hpending
  unfold Players.cleanupPlayerState
  simp only
  rw [h'.conn.get hk]
  cases (a.erasePending k).connPlayer k with
  | none => exact h'
  | some p => exact h'.unbind hk p

theorem unbindOther (h : Renamed f D P a b) (hk : Alone f D k) (p : UInt64) :
    Renamed f D P (a.unbindOther p k) (b.unbindOther p (f k)) := by
  unfold Players.unbindOther
  rw [h.conn.get hk]
  cases a.connPlayer k with
  | none => exact h
  | some old =>
    simp only
    by_cases hold : old ≠ p
    · rw [if_pos hold, if_pos hold]
      exact h.unbind hk old
    · rw [if_neg hold, if_neg hold]
      exact h

theorem otherConn (h : Renamed f D P a b) (hk : Alone f D k) (p : UInt64) :
    b.otherConn p (f k) = (a.otherConn p k).map f := by
  unfold Players.otherConn
  rw [h.player p]
  cases hp : a.playerConn p with
  | none => rfl
  | some j =>
    have hname : f j = f k ↔ j = k :=
      ⟨fun hname => hk j (h.playerKey p j hp) hname, fun hjk => by rw [hjk]⟩
    by_cases hjk : j = k
    · simp [Option.filter, hjk]
    · simp [Option.filter, hjk, hname]

omit [DecidableEq ν] in
theorem mem_of_otherConn (h : Renamed f D P a b) {p : UInt64} {old : κ}
    (hold : a.otherConn p k = some old) : old ∈ D :=
  h.playerKey p old (Option.filter_eq_some_iff.mp hold).1

theorem bindNew (h : Renamed f D P a b) (hD : ∀ j ∈ D, Alone f D j) (hk : k ∈ D) (p : UInt64) :
    Renamed f D P (a.bindNew p k) (b.bindNew p (f k)) := by
  unfold Players.bindNew
  rw [h.otherConn (hD k hk)]
  constructor
  · intro q
    by_cases hq : q = p
    · simp [hq]
    · simp only [Function.update_of_ne hq]
      exact h.player q
  · intro q j hj
    by_cases hq : q = p
    · simp only [hq, Function.update_self, Option.some.injEq] at hj
      exact hj ▸ hk
    · simp only [Function.update_of_ne hq] at hj
      exact h.playerKey q j hj
  · cases hold : a.otherConn p k with
    | none => exact h.conn.set hk (hD k hk) (some p)
    | some old => exact (h.conn.erase (hD old (h.mem_of_otherConn hold))).set hk (hD k hk) (some p)
  · exact h.pending

theorem bindPlayer (h : Renamed f D P a b) (hD : ∀ j ∈ D, Alone f D j) (hk : k ∈ D) (p : UInt64) :
    (b.bindPlayer p (f k)).2 = (a.bindPlayer p k).2.map f ∧
      (∀ old, (a.bindPlayer p k).2 = some old → old ∈ D) ∧
      Renamed f D P (a.bindPlayer p k).1 (b.bindPlayer p (f k)).1 := by
  have h' := h.unbindOther (hD k hk) p
  refine ⟨h'.otherConn (hD k hk) p, ?_, h'.bindNew hD hk p⟩
  intro old hold
  exact h'.mem_of_otherConn hold

end Renamed

end Renamed

end Players

end Gmaker.Gateway
