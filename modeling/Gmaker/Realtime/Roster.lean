import Gmaker.Realtime.BattleRoom

/-!
# Gmaker.Realtime.Roster — who is in the room

Four containers of `BattleRoom` say who is in the room: `players_`, the lists of the
blue and the red side, and `conn_to_player_`, which this module adds to the room.

Players that enter once and leave are listed where they belong (`Inv`). A player that
enters again is put into a list a second time, and one that reconnects leaves the old
connection in `conn_to_player_` behind; these two are all that goes wrong
(`rosterKept_exact`).
-/

namespace Gmaker.Realtime

open Gmaker.Lib

/-- `BattleRoom` with `conn_to_player_`. -/
structure Roster where
  room : BattleRoom
  connToPlayer : UInt64 → Option UInt64 := fun _ => none

namespace Roster

/-! ## Messages and ticks -/

/-- `BattleRoom::BattleRoom`. -/
def new (cfg : BattleRoomConfig) : Roster := { room := .new cfg }

/-- `OnPlayerEnter`. -/
def onPlayerEnter (cfg : BattleRoomConfig) (s : Roster) (playerId connId : UInt64) : Roster :=
  if s.room.full cfg then s
  else
    { room := s.room.onPlayerEnter cfg playerId connId
      connToPlayer := Function.update s.connToPlayer connId (some playerId) }

/-- `RemovePlayer`. -/
def removePlayer (s : Roster) (playerId : UInt64) : Roster :=
  match s.room.findPlayer playerId with
  | none => s
  | some info =>
    { room := s.room.removePlayer playerId
      connToPlayer := Function.update s.connToPlayer info.connId none }

/-- `OnPlayerLeave`. -/
def onPlayerLeave (s : Roster) (playerId : UInt64) : Roster :=
  if s.room.battleState = .fighting then { s with room := s.room.onPlayerLeave playerId }
  else s.removePlayer playerId

/-- `HandleReconnect`. -/
def handleReconnect (s : Roster) (playerId connId : UInt64) : Roster :=
  match s.room.findPlayer playerId with
  | none => s
  | some _ =>
    { room := s.room.handleReconnect playerId connId
      connToPlayer := Function.update s.connToPlayer connId (some playerId) }

/-- The players that have been waited for long enough are removed. -/
def dropDisconnected (cfg : BattleRoomConfig) (s : Roster) (frame : UInt32) : Roster :=
  let gone := s.room.disconnectedPlayers.filter (BattleRoom.waitOver cfg frame)
  let s := gone.foldl (fun s dc => s.removePlayer dc.playerId) s
  let waiting := s.room.disconnectedPlayers.filter fun dc => !BattleRoom.waitOver cfg frame dc
  { s with room := { s.room with disconnectedPlayers := waiting } }

/-- `TickFighting`. -/
def tickFighting (cfg : BattleRoomConfig) (s : Roster) (frame : UInt32) (passes : ℕ)
    (won : Bool) : Option Roster := do
  let r := s.room
  let (lockstep, confirmed) ← LockstepEngine.tryAdvance passes (r.lockstep.setCurrentFrame frame)
  let r := { r with
    lockstep
    frameHistory := confirmed.foldl BattleRoom.pushHistory r.frameHistory
    returned := r.returned ++ confirmed }
  let r := if won then r.changeState .finished else r
  some (dropDisconnected cfg { s with room := r } frame)

/-- The `switch` of `Tick`. -/
def tickState (cfg : BattleRoomConfig) (s : Roster) (frame : UInt32) (passes : ℕ) (won : Bool) :
    Option Roster :=
  match s.room.battleState with
  | .fighting => s.tickFighting cfg frame passes won
  | _ => (s.room.tickState cfg frame passes won).map fun room => { s with room }

/-- `Tick`. -/
def tick (cfg : BattleRoomConfig) (s : Roster) (passes : ℕ) (won : Bool) : Option Roster :=
  let frame := s.room.battleFrame + 1
  let room :=
    { s.room with battleFrame := frame, lockstep := s.room.lockstep.tickFrameCounter }
  tickState cfg { s with room } frame passes won

/-- One message or one tick. -/
def next (cfg : BattleRoomConfig) (s : Roster) : Event → Option Roster
  | .playerEnter playerId connId => some (s.onPlayerEnter cfg playerId connId)
  | .playerLeave playerId => some (s.onPlayerLeave playerId)
  | .playerDisconnect playerId => some { s with room := s.room.onPlayerDisconnect playerId }
  | .playerReconnect playerId connId => some (s.handleReconnect playerId connId)
  | .battleReady playerId => some { s with room := s.room.onBattleReady playerId }
  | .hero msg => some { s with room := s.room.onHero msg }
  | .tick passes won => s.tick cfg passes won

/-! ## The room of a roster -/

section Room

variable {cfg : BattleRoomConfig} {s : Roster} {playerId connId : UInt64}

theorem onPlayerEnter_room :
    (s.onPlayerEnter cfg playerId connId).room = s.room.onPlayerEnter cfg playerId connId := by
  unfold onPlayerEnter BattleRoom.onPlayerEnter
  split_ifs <;> rfl

theorem removePlayer_room : (s.removePlayer playerId).room = s.room.removePlayer playerId := by
  unfold removePlayer BattleRoom.removePlayer
  cases s.room.findPlayer playerId <;> rfl

theorem handleReconnect_room :
    (s.handleReconnect playerId connId).room = s.room.handleReconnect playerId connId := by
  unfold handleReconnect BattleRoom.handleReconnect
  cases s.room.findPlayer playerId <;> rfl

theorem onPlayerLeave_room : (s.onPlayerLeave playerId).room = s.room.onPlayerLeave playerId := by
  unfold onPlayerLeave
  split_ifs with hstate
  · rfl
  · rw [removePlayer_room]
    exact (if_neg hstate).symm

theorem foldl_removePlayer_room (gone : List DisconnectInfo) (s : Roster) :
    (gone.foldl (fun s dc => s.removePlayer dc.playerId) s).room =
      gone.foldl (fun r dc => r.removePlayer dc.playerId) s.room := by
  induction gone generalizing s with
  | nil => rfl
  | cons dc gone ih =>
    rw [List.foldl_cons, List.foldl_cons, ih, removePlayer_room]

theorem dropDisconnected_room {frame : UInt32} :
    (s.dropDisconnected cfg frame).room = s.room.dropDisconnected cfg frame := by
  unfold dropDisconnected BattleRoom.dropDisconnected
  simp only [foldl_removePlayer_room]

/-- The roster is the room and one more map: what happens to the room is what happens
to it there. -/
theorem next_room (s : Roster) (e : Event) :
    (s.next cfg e).map Roster.room = s.room.next cfg e := by
  cases e with
  | playerEnter playerId connId => exact congrArg some onPlayerEnter_room
  | playerLeave playerId => exact congrArg some onPlayerLeave_room
  | playerDisconnect playerId => rfl
  | playerReconnect playerId connId => exact congrArg some handleReconnect_room
  | battleReady playerId => rfl
  | hero msg => rfl
  | tick passes won =>
    change (tickState cfg _ _ passes won).map Roster.room = BattleRoom.tickState cfg _ _ passes won
    generalize { s.room with
      battleFrame := s.room.battleFrame + 1
      lockstep := s.room.lockstep.tickFrameCounter } = r
    generalize s.room.battleFrame + 1 = frame
    have hmap : ∀ o : Option BattleRoom,
        (o.map fun room => { s with room }).map Roster.room = o := by
      intro o
      cases o <;> rfl
    unfold tickState
    cases hstate : r.battleState with
    | fighting =>
      have htick : r.tickState cfg frame passes won = r.tickFighting cfg frame passes won := by
        unfold BattleRoom.tickState
        rw [hstate]
      rw [htick]
      change ((LockstepEngine.tryAdvance passes (r.lockstep.setCurrentFrame frame)).bind _).map _ =
        (LockstepEngine.tryAdvance passes (r.lockstep.setCurrentFrame frame)).bind _
      cases LockstepEngine.tryAdvance passes (r.lockstep.setCurrentFrame frame) with
      | none => rfl
      | some p => exact congrArg some dropDisconnected_room
    | _ => exact hmap _

end Room

/-! ## A consistent roster -/

/-- The containers agree: every player is in the list of the player's side, once, and
nobody else is; no side is too large; a connection leads to a player only if it is the
player's own. -/
structure Consistent (cfg : BattleRoomConfig) (s : Roster) : Prop where
  once : ∀ info ∈ s.room.players,
    (s.room.bluePlayers ++ s.room.redPlayers).count info.playerId = 1
  side : ∀ info ∈ s.room.players, info.team = .blue ∧ info.playerId ∈ s.room.bluePlayers ∨
    info.team = .red ∧ info.playerId ∈ s.room.redPlayers
  known : ∀ pid ∈ s.room.bluePlayers ++ s.room.redPlayers,
    ∃ info ∈ s.room.players, info.playerId = pid
  blue_le : s.room.bluePlayers.length ≤ cfg.teamSize.toNat
  red_le : s.room.redPlayers.length ≤ cfg.teamSize.toNat
  current : ∀ conn pid, s.connToPlayer conn = some pid →
    ∃ info ∈ s.room.players, info.playerId = pid ∧ info.connId = conn

/-- The sides differ by one player at most. -/
def Balanced (s : Roster) : Prop :=
  s.room.bluePlayers.length ≤ s.room.redPlayers.length + 1 ∧
    s.room.redPlayers.length ≤ s.room.bluePlayers.length + 1

/-- Nobody is removed: no player leaves outside the battle, and no tick of it ends the
wait for someone. -/
def KeepsPlayers (s : Roster) : Event → Prop
  | .playerLeave _ => s.room.battleState = .fighting
  | .tick _ _ => s.room.battleState ≠ .fighting
  | _ => True

/-- The message keeps the roster consistent: who enters is not in the room yet, and who
reconnects leaves no old connection behind. -/
def KeepsRoster (cfg : BattleRoomConfig) (s : Roster) : Event → Prop
  | .playerEnter playerId _ => s.room.full cfg = true ∨ s.room.findPlayer playerId = none
  | .playerReconnect playerId connId => ∀ info ∈ s.room.findPlayer playerId,
    info.connId = connId ∨ s.connToPlayer info.connId ≠ some playerId
  | _ => True

/-! ## The invariant -/

/-- The players of the blue side. -/
def blueOf (players : List PlayerInfo) : List UInt64 :=
  (players.filter fun info => info.team = .blue).map fun info => info.playerId

/-- The players of the other side. -/
def redOf (players : List PlayerInfo) : List UInt64 :=
  (players.filter fun info => info.team ≠ .blue).map fun info => info.playerId

/-- Players have one entry each, and each list is read off the entries. -/
structure Inv (cfg : BattleRoomConfig) (s : Roster) : Prop where
  keyed : (s.room.players.map fun info => info.playerId).Nodup
  sided : ∀ info ∈ s.room.players, info.team = .blue ∨ info.team = .red
  blue : s.room.bluePlayers = blueOf s.room.players
  red : s.room.redPlayers = redOf s.room.players
  blue_le : s.room.bluePlayers.length ≤ cfg.teamSize.toNat
  red_le : s.room.redPlayers.length ≤ cfg.teamSize.toNat
  current : ∀ conn pid, s.connToPlayer conn = some pid →
    ∃ info ∈ s.room.players, info.playerId = pid ∧ info.connId = conn

section Players

variable {players : List PlayerInfo} {info : PlayerInfo} {playerId : UInt64}

/-- Both sides together are all players. -/
theorem perm_blueOf_redOf (players : List PlayerInfo) :
    (blueOf players ++ redOf players).Perm (players.map fun info => info.playerId) := by
  unfold blueOf redOf
  rw [← List.map_append]
  refine List.Perm.map _ ?_
  have hperm := List.filter_append_perm (fun info => decide (info.team = .blue)) players
  simpa only [decide_not] using hperm

theorem length_blueOf_add_length_redOf (players : List PlayerInfo) :
    (blueOf players).length + (redOf players).length = players.length := by
  have hlen := (perm_blueOf_redOf players).length_eq
  rwa [List.length_append, List.length_map] at hlen

theorem blueOf_append (players : List PlayerInfo) (info : PlayerInfo) :
    blueOf (players ++ [info]) =
      if info.team = .blue then blueOf players ++ [info.playerId] else blueOf players := by
  unfold blueOf
  rw [List.filter_append, List.map_append]
  split_ifs with hteam <;> simp [hteam]

theorem redOf_append (players : List PlayerInfo) (info : PlayerInfo) :
    redOf (players ++ [info]) =
      if info.team = .blue then redOf players else redOf players ++ [info.playerId] := by
  unfold redOf
  rw [List.filter_append, List.map_append]
  split_ifs with hteam <;> simp [hteam]

/-- A player without an entry is in neither list. -/
theorem filter_ne_of_not_mem {pids : List UInt64} (h : playerId ∉ pids) :
    pids.filter (· ≠ playerId) = pids := by
  refine List.filter_eq_self.mpr fun pid hmem => ?_
  have hne : pid ≠ playerId := fun heq => h (heq ▸ hmem)
  simpa using hne

theorem blueOf_filter (players : List PlayerInfo) (playerId : UInt64) :
    blueOf (players.filter fun info => info.playerId ≠ playerId) =
      (blueOf players).filter (· ≠ playerId) := by
  unfold blueOf
  rw [List.filter_map, List.filter_filter, List.filter_filter]
  refine congrArg _ (List.filter_congr fun info _ => ?_)
  simp [Bool.and_comm]

theorem redOf_filter (players : List PlayerInfo) (playerId : UInt64) :
    redOf (players.filter fun info => info.playerId ≠ playerId) =
      (redOf players).filter (· ≠ playerId) := by
  unfold redOf
  rw [List.filter_map, List.filter_filter, List.filter_filter]
  refine congrArg _ (List.filter_congr fun info _ => ?_)
  simp [Bool.and_comm]

end Players

section Inv

variable {cfg : BattleRoomConfig} {s s' : Roster} {playerId connId : UInt64}

theorem inv_new (cfg : BattleRoomConfig) : Inv cfg (new cfg) where
  keyed := List.nodup_nil
  sided := by simp [new, BattleRoom.new]
  blue := rfl
  red := rfl
  blue_le := Nat.zero_le _
  red_le := Nat.zero_le _
  current := by simp [new]

/-- What is found is the only entry of the player. -/
theorem Inv.eq_of_findPlayer (h : Inv cfg s) {info info' : PlayerInfo}
    (hfind : s.room.findPlayer playerId = some info) (hmem : info' ∈ s.room.players)
    (hid : info'.playerId = playerId) : info' = info := by
  have hinfo : info ∈ s.room.players := List.mem_of_find?_eq_some hfind
  have hpid : info.playerId = playerId := by simpa using List.find?_some hfind
  exact List.inj_on_of_nodup_map h.keyed hmem hinfo (hid.trans hpid.symm)

theorem not_mem_of_findPlayer (hfind : s.room.findPlayer playerId = none) :
    playerId ∉ s.room.players.map fun info => info.playerId := by
  intro hmem
  obtain ⟨info, hinfo, hid⟩ := List.mem_map.mp hmem
  have hnot := List.find?_eq_none.mp hfind info hinfo
  simp [hid] at hnot

theorem mem_of_findPlayer {info : PlayerInfo} (hfind : s.room.findPlayer playerId = some info) :
    info ∈ s.room.players ∧ info.playerId = playerId :=
  ⟨List.mem_of_find?_eq_some hfind, by simpa using List.find?_some hfind⟩

/-- A consistent roster is what the invariant leaves. -/
theorem Inv.consistent (h : Inv cfg s) : Consistent cfg s := by
  have hperm := perm_blueOf_redOf s.room.players
  rw [← h.blue, ← h.red] at hperm
  refine ⟨fun info hmem => ?_, fun info hmem => ?_, fun pid hmem => ?_, h.blue_le, h.red_le,
    h.current⟩
  · rw [hperm.count_eq]
    exact List.count_eq_one_of_mem h.keyed (List.mem_map.mpr ⟨info, hmem, rfl⟩)
  · rcases h.sided info hmem with hteam | hteam
    · refine .inl ⟨hteam, ?_⟩
      rw [h.blue]
      exact List.mem_map.mpr ⟨info, List.mem_filter.mpr ⟨hmem, by simpa using hteam⟩, rfl⟩
    · refine .inr ⟨hteam, ?_⟩
      rw [h.red]
      exact List.mem_map.mpr ⟨info, List.mem_filter.mpr ⟨hmem, by simp [hteam]⟩, rfl⟩
  · exact List.mem_map.mp (hperm.mem_iff.mp hmem)

/-- The entries keep what the invariant reads of them. -/
structure SameEntries (players players' : List PlayerInfo) : Prop where
  playerIds : (players'.map fun info => info.playerId) = players.map fun info => info.playerId
  blue : blueOf players' = blueOf players
  red : redOf players' = redOf players
  sided : (∀ info ∈ players, info.team = .blue ∨ info.team = .red) →
    ∀ info ∈ players', info.team = .blue ∨ info.team = .red

theorem sameEntries_modifyPlayer {r : BattleRoom} {f : PlayerInfo → PlayerInfo}
    (hid : ∀ info, (f info).playerId = info.playerId) (hteam : ∀ info, (f info).team = info.team) :
    SameEntries r.players (r.modifyPlayer playerId f).players := by
  have hpid : ∀ info : PlayerInfo,
      (if info.playerId = playerId then f info else info).playerId = info.playerId := by
    intro info
    split_ifs
    · exact hid info
    · rfl
  have hside : ∀ info : PlayerInfo,
      (if info.playerId = playerId then f info else info).team = info.team := by
    intro info
    split_ifs
    · exact hteam info
    · rfl
  refine ⟨?_, ?_, ?_, fun hsided info hmem => ?_⟩
  · simp only [BattleRoom.modifyPlayer, List.map_map, Function.comp_def, hpid]
  · simp only [blueOf, BattleRoom.modifyPlayer, List.filter_map, List.map_map, Function.comp_def,
      hpid, hside]
  · simp only [redOf, BattleRoom.modifyPlayer, List.filter_map, List.map_map, Function.comp_def,
      hpid, hside]
  · obtain ⟨old, hold, rfl⟩ := List.mem_map.mp hmem
    rw [hside]
    exact hsided old hold

/-- Entries change, but neither players nor sides do. -/
theorem Inv.of_sameEntries (h : Inv cfg s) (hentries : SameEntries s.room.players s'.room.players)
    (hblue : s'.room.bluePlayers = s.room.bluePlayers)
    (hred : s'.room.redPlayers = s.room.redPlayers)
    (hcurrent : ∀ conn pid, s'.connToPlayer conn = some pid →
      ∃ info ∈ s'.room.players, info.playerId = pid ∧ info.connId = conn) : Inv cfg s' where
  keyed := by rw [hentries.playerIds]; exact h.keyed
  sided := hentries.sided h.sided
  blue := by rw [hblue, h.blue, hentries.blue]
  red := by rw [hred, h.red, hentries.red]
  blue_le := by rw [hblue]; exact h.blue_le
  red_le := by rw [hred]; exact h.red_le
  current := hcurrent

/-- The players, the lists and the connections stay. -/
theorem Inv.of_same (h : Inv cfg s) (hplayers : s'.room.players = s.room.players)
    (hblue : s'.room.bluePlayers = s.room.bluePlayers)
    (hred : s'.room.redPlayers = s.room.redPlayers)
    (hconn : s'.connToPlayer = s.connToPlayer) : Inv cfg s' := by
  refine h.of_sameEntries ?_ hblue hred ?_
  · rw [hplayers]
    exact ⟨rfl, rfl, rfl, id⟩
  · rw [hplayers, hconn]
    exact h.current

/-! ## One message -/

/-- A side that is not the larger one, in a room that is not full, has a place left. -/
theorem Inv.place_left (h : Inv cfg s) (hfull : ¬ s.room.full cfg = true) :
    s.room.bluePlayers.length + s.room.redPlayers.length < 2 * cfg.teamSize.toNat := by
  have hlen := length_blueOf_add_length_redOf s.room.players
  rw [← h.blue, ← h.red] at hlen
  have hroom : s.room.players.length < (cfg.teamSize * 2).toNat := by
    simpa [BattleRoom.full] using hfull
  have hwrap : (cfg.teamSize * 2).toNat ≤ cfg.teamSize.toNat * 2 := by
    rw [UInt32.toNat_mul]
    exact Nat.mod_le _ _
  omega

/-- What `AddPlayerToTeam` makes of the entries and the lists. -/
theorem addPlayerToTeam_players (r : BattleRoom) (team : TeamSide) :
    (r.addPlayerToTeam playerId connId team).players =
      (r.players.filter fun info => info.playerId ≠ playerId) ++
        [{ playerId := playerId, connId := connId, team := team }] := by
  unfold BattleRoom.addPlayerToTeam
  simp only
  split_ifs <;> rfl

theorem addPlayerToTeam_bluePlayers (r : BattleRoom) (team : TeamSide) :
    (r.addPlayerToTeam playerId connId team).bluePlayers =
      if team = .blue then r.bluePlayers ++ [playerId] else r.bluePlayers := by
  unfold BattleRoom.addPlayerToTeam
  simp only
  split_ifs <;> rfl

theorem addPlayerToTeam_redPlayers (r : BattleRoom) (team : TeamSide) :
    (r.addPlayerToTeam playerId connId team).redPlayers =
      if team = .blue then r.redPlayers else r.redPlayers ++ [playerId] := by
  unfold BattleRoom.addPlayerToTeam
  simp only
  split_ifs <;> rfl

/-- A new player is the last one of the side that is filled up. -/
theorem Inv.addPlayerToTeam (h : Inv cfg s) (hfind : s.room.findPlayer playerId = none)
    {team : TeamSide} (hteam : team = .blue ∨ team = .red)
    (hblue : team = .blue → s.room.bluePlayers.length < cfg.teamSize.toNat)
    (hred : team = .red → s.room.redPlayers.length < cfg.teamSize.toNat) :
    Inv cfg {
      room := s.room.addPlayerToTeam playerId connId team
      connToPlayer := Function.update s.connToPlayer connId (some playerId) } := by
  have hnew := not_mem_of_findPlayer hfind
  have hplayers : (s.room.addPlayerToTeam playerId connId team).players =
      s.room.players ++ [{ playerId := playerId, connId := connId, team := team }] := by
    rw [addPlayerToTeam_players]
    refine congrArg (· ++ _) (List.filter_eq_self.mpr fun info hmem => ?_)
    have hne : info.playerId ≠ playerId := fun heq => hnew (List.mem_map.mpr ⟨info, hmem, heq⟩)
    simpa using hne
  constructor
  · rw [hplayers, List.map_append]
    refine List.nodup_append'.mpr ⟨h.keyed, List.nodup_singleton _, ?_⟩
    exact List.disjoint_singleton.mpr hnew
  · rw [hplayers]
    intro info hmem
    rcases List.mem_append.mp hmem with hold | hlast
    · exact h.sided info hold
    · rw [List.mem_singleton.mp hlast]
      exact hteam
  · rw [addPlayerToTeam_bluePlayers, hplayers, blueOf_append, h.blue]
  · rw [addPlayerToTeam_redPlayers, hplayers, redOf_append, h.red]
  · rw [addPlayerToTeam_bluePlayers]
    split_ifs with hb
    · rw [List.length_append, List.length_singleton]
      exact hblue hb
    · exact h.blue_le
  · rw [addPlayerToTeam_redPlayers]
    split_ifs with hb
    · exact h.red_le
    · rw [List.length_append, List.length_singleton]
      exact hred (hteam.resolve_left hb)
  · rw [hplayers]
    intro conn pid hconn
    by_cases heq : conn = connId
    · subst heq
      simp only [Function.update_self, Option.some.injEq] at hconn
      subst hconn
      exact ⟨_, List.mem_append_right _ (List.mem_singleton_self _), rfl, rfl⟩
    · simp only [Function.update_of_ne heq] at hconn
      obtain ⟨info, hmem, hinfo⟩ := h.current conn pid hconn
      exact ⟨info, List.mem_append_left _ hmem, hinfo⟩

/-- A new player enters: the blue side fills up first. -/
theorem Inv.onPlayerEnter (h : Inv cfg s)
    (hnew : s.room.full cfg = true ∨ s.room.findPlayer playerId = none) :
    Inv cfg (s.onPlayerEnter cfg playerId connId) := by
  unfold Roster.onPlayerEnter BattleRoom.onPlayerEnter
  by_cases hfull : s.room.full cfg = true
  · rw [if_pos hfull]
    exact h
  rw [if_neg hfull, if_neg hfull]
  have hfind := hnew.resolve_left hfull
  have hplace := h.place_left hfull
  by_cases hle : s.room.bluePlayers.length ≤ s.room.redPlayers.length
  · rw [if_pos hle]
    exact h.addPlayerToTeam hfind (.inl rfl) (fun _ => by omega) (by simp)
  · rw [if_neg hle]
    exact h.addPlayerToTeam hfind (.inr rfl) (by simp) (fun _ => by omega)

/-- `RemovePlayer` takes the player out of the entries and out of the list of the
player's side: the other list does not have the player in it. -/
theorem Inv.removePlayer_room (h : Inv cfg s) {info : PlayerInfo}
    (hfind : s.room.findPlayer playerId = some info) :
    (s.room.removePlayer playerId).players =
        (s.room.players.filter fun info => info.playerId ≠ playerId) ∧
      (s.room.removePlayer playerId).bluePlayers = s.room.bluePlayers.filter (· ≠ playerId) ∧
      (s.room.removePlayer playerId).redPlayers = s.room.redPlayers.filter (· ≠ playerId) := by
  have hblue : info.team ≠ .blue → playerId ∉ s.room.bluePlayers := by
    intro hteam hin
    rw [h.blue] at hin
    obtain ⟨info', hmem', hid'⟩ := List.mem_map.mp hin
    have heq := h.eq_of_findPlayer hfind (List.mem_filter.mp hmem').1 hid'
    have hteam' : info'.team = .blue := by simpa using (List.mem_filter.mp hmem').2
    exact hteam (heq ▸ hteam')
  have hred : info.team = .blue → playerId ∉ s.room.redPlayers := by
    intro hteam hin
    rw [h.red] at hin
    obtain ⟨info', hmem', hid'⟩ := List.mem_map.mp hin
    have heq := h.eq_of_findPlayer hfind (List.mem_filter.mp hmem').1 hid'
    have hteam' : info'.team ≠ .blue := by simpa using (List.mem_filter.mp hmem').2
    exact hteam' (heq ▸ hteam)
  unfold BattleRoom.removePlayer
  rw [hfind]
  simp only
  split_ifs with hteam
  · exact ⟨rfl, rfl, (filter_ne_of_not_mem (hred hteam)).symm⟩
  · exact ⟨rfl, (filter_ne_of_not_mem (hblue hteam)).symm, rfl⟩

theorem Inv.removePlayer (h : Inv cfg s) : Inv cfg (s.removePlayer playerId) := by
  unfold Roster.removePlayer
  cases hfind : s.room.findPlayer playerId with
  | none => exact h
  | some info =>
    obtain ⟨hmem, hid⟩ := mem_of_findPlayer hfind
    obtain ⟨hplayers, hblue, hred⟩ := h.removePlayer_room hfind
    constructor
    · rw [hplayers]
      exact h.keyed.sublist (List.filter_sublist.map _)
    · rw [hplayers]
      exact fun info hmem => h.sided info (List.mem_filter.mp hmem).1
    · rw [hblue, hplayers, blueOf_filter, h.blue]
    · rw [hred, hplayers, redOf_filter, h.red]
    · rw [hblue]
      exact (List.length_filter_le _ _).trans h.blue_le
    · rw [hred]
      exact (List.length_filter_le _ _).trans h.red_le
    · rw [hplayers]
      intro conn pid hconn
      by_cases heq : conn = info.connId
      · subst heq
        simp at hconn
      · simp only [Function.update_of_ne heq] at hconn
        obtain ⟨info', hmem', hid', hconn'⟩ := h.current conn pid hconn
        refine ⟨info', List.mem_filter.mpr ⟨hmem', ?_⟩, hid', hconn'⟩
        -- a connection of the removed player would be the erased one
        have hne : info'.playerId ≠ playerId := by
          intro hp
          rw [h.eq_of_findPlayer hfind hmem' hp] at hconn'
          exact heq hconn'.symm
        simpa using hne

theorem Inv.markDisconnected (h : Inv cfg s) :
    Inv cfg { s with room := s.room.markDisconnected playerId } := by
  unfold BattleRoom.markDisconnected
  cases s.room.findPlayer playerId with
  | none => exact h
  | some info =>
    refine h.of_sameEntries (sameEntries_modifyPlayer (fun _ => rfl) fun _ => rfl) rfl rfl ?_
    intro conn pid hconn
    obtain ⟨info, hmem, hid, hinfo⟩ := h.current conn pid hconn
    refine ⟨_, List.mem_map.mpr ⟨info, hmem, rfl⟩, ?_, ?_⟩
    · split_ifs <;> exact hid
    · split_ifs <;> exact hinfo

theorem Inv.onBattleReady (h : Inv cfg s) :
    Inv cfg { s with room := s.room.onBattleReady playerId } := by
  refine h.of_sameEntries (sameEntries_modifyPlayer (fun _ => rfl) fun _ => rfl) rfl rfl ?_
  intro conn pid hconn
  obtain ⟨info, hmem, hid, hinfo⟩ := h.current conn pid hconn
  refine ⟨_, List.mem_map.mpr ⟨info, hmem, rfl⟩, ?_, ?_⟩
  · split_ifs <;> exact hid
  · split_ifs <;> exact hinfo

theorem Inv.onHero (h : Inv cfg s) (msg : HeroMsg) :
    Inv cfg { s with room := s.room.onHero msg } := by
  unfold BattleRoom.onHero
  split_ifs
  · exact h.of_same rfl rfl rfl rfl
  · exact h

/-- A reconnect that leaves no old connection behind. -/
theorem Inv.handleReconnect (h : Inv cfg s)
    (hold : ∀ info ∈ s.room.findPlayer playerId,
      info.connId = connId ∨ s.connToPlayer info.connId ≠ some playerId) :
    Inv cfg (s.handleReconnect playerId connId) := by
  unfold Roster.handleReconnect
  cases hfind : s.room.findPlayer playerId with
  | none => exact h
  | some info =>
    obtain ⟨hmem, hid⟩ := mem_of_findPlayer hfind
    have hroom : s.room.handleReconnect playerId connId = { s.room.modifyPlayer playerId
        (fun info => { info with connId, isConnected := true }) with
        lockstep := s.room.lockstep.playerReconnected playerId
        disconnectedPlayers :=
          s.room.disconnectedPlayers.filter fun dc => dc.playerId ≠ playerId } := by
      unfold BattleRoom.handleReconnect
      rw [hfind]
      rfl
    rw [hroom]
    refine h.of_sameEntries (sameEntries_modifyPlayer (fun _ => rfl) fun _ => rfl) rfl rfl ?_
    intro conn pid hconn
    by_cases heq : conn = connId
    · subst heq
      simp only [Function.update_self, Option.some.injEq] at hconn
      subst hconn
      refine ⟨_, List.mem_map.mpr ⟨info, hmem, rfl⟩, ?_, ?_⟩
      · rw [if_pos hid]
        exact hid
      · rw [if_pos hid]
    · simp only [Function.update_of_ne heq] at hconn
      obtain ⟨info', hmem', hid', hconn'⟩ := h.current conn pid hconn
      -- it is not a connection of the player: that would be the old one
      have hne : info'.playerId ≠ playerId := by
        intro hp
        have hsame := h.eq_of_findPlayer hfind hmem' hp
        rw [hsame] at hconn' hid'
        rcases hold info hfind with hc | hc
        · exact heq (hconn'.symm.trans hc)
        · rw [hconn', hconn, ← hid', hid] at hc
          exact hc rfl
      refine ⟨_, List.mem_map.mpr ⟨info', hmem', rfl⟩, ?_, ?_⟩
      · rw [if_neg hne]
        exact hid'
      · rw [if_neg hne]
        exact hconn'

theorem Inv.dropDisconnected (h : Inv cfg s) {frame : UInt32} :
    Inv cfg (s.dropDisconnected cfg frame) := by
  have hfold : ∀ (gone : List DisconnectInfo) (s : Roster), Inv cfg s →
      Inv cfg (gone.foldl (fun s dc => s.removePlayer dc.playerId) s) := by
    intro gone
    induction gone with
    | nil => exact fun s hs => hs
    | cons dc gone ih => exact fun s hs => ih _ hs.removePlayer
  exact (hfold _ s h).of_same rfl rfl rfl rfl

/-- A tick of the battle removes players at most. -/
theorem Inv.tickFighting (h : Inv cfg s) {frame : UInt32} {passes : ℕ} {won : Bool}
    (hstep : s.tickFighting cfg frame passes won = some s') : Inv cfg s' := by
  unfold Roster.tickFighting at hstep
  obtain ⟨⟨e, confirmed⟩, -, heq⟩ := Option.bind_eq_some_iff.mp hstep
  cases heq
  apply Inv.dropDisconnected
  refine h.of_same ?_ ?_ ?_ rfl
  · cases won <;> rfl
  · cases won <;> rfl
  · cases won <;> rfl

/-- The ticks before the battle leave the players alone. -/
theorem sameRoster_tickState {r r' : BattleRoom} {frame : UInt32} {passes : ℕ} {won : Bool}
    (hstate : r.battleState ≠ .fighting) (hstep : r.tickState cfg frame passes won = some r') :
    r'.players = r.players ∧ r'.bluePlayers = r.bluePlayers ∧ r'.redPlayers = r.redPlayers := by
  unfold BattleRoom.tickState at hstep
  cases hr : r.battleState with
  | waiting =>
    rw [hr] at hstep
    cases hstep
    unfold BattleRoom.tickWaiting
    split_ifs <;> exact ⟨rfl, rfl, rfl⟩
  | loading =>
    rw [hr] at hstep
    cases hstep
    unfold BattleRoom.tickLoading
    split_ifs <;> exact ⟨rfl, rfl, rfl⟩
  | countdown =>
    rw [hr] at hstep
    cases hstep
    unfold BattleRoom.tickCountdown
    simp only
    split_ifs <;> exact ⟨rfl, rfl, rfl⟩
  | fighting => exact absurd hr hstate
  | paused =>
    rw [hr] at hstep
    cases hstep
    exact ⟨rfl, rfl, rfl⟩
  | finished =>
    rw [hr] at hstep
    cases hstep
    exact ⟨rfl, rfl, rfl⟩

theorem Inv.tick (h : Inv cfg s) {passes : ℕ} {won : Bool}
    (hstep : s.tick cfg passes won = some s') : Inv cfg s' := by
  have hcount : Inv cfg { s with room := { s.room with
      battleFrame := s.room.battleFrame + 1
      lockstep := s.room.lockstep.tickFrameCounter } } := h.of_same rfl rfl rfl rfl
  change Roster.tickState cfg { s with room := { s.room with
    battleFrame := s.room.battleFrame + 1
    lockstep := s.room.lockstep.tickFrameCounter } } _ passes won = some s' at hstep
  generalize ({ s with room := { s.room with
    battleFrame := s.room.battleFrame + 1
    lockstep := s.room.lockstep.tickFrameCounter } } : Roster) = a at hcount hstep
  have hother : a.room.battleState ≠ .fighting →
      (a.room.tickState cfg (s.room.battleFrame + 1) passes won).map
        (fun room => { a with room }) = some s' → Inv cfg s' := by
    intro hstate hmap
    obtain ⟨r, hr, rfl⟩ := Option.map_eq_some_iff.mp hmap
    obtain ⟨hplayers, hblue, hred⟩ := sameRoster_tickState hstate hr
    exact hcount.of_same hplayers hblue hred rfl
  unfold Roster.tickState at hstep
  cases hstate : a.room.battleState with
  | fighting =>
    rw [hstate] at hstep
    exact hcount.tickFighting hstep
  | _ =>
    rw [hstate] at hstep
    exact hother (by simp [hstate]) hstep

/-- Every event keeps the invariant that meets the condition. -/
theorem Inv.next (h : Inv cfg s) {e : Event} (hkeeps : KeepsRoster cfg s e)
    (hstep : Roster.next cfg s e = some s') : Inv cfg s' := by
  cases e with
  | playerEnter playerId connId =>
    cases hstep
    exact h.onPlayerEnter hkeeps
  | playerLeave playerId =>
    cases hstep
    unfold Roster.onPlayerLeave
    split_ifs with hstate
    · unfold BattleRoom.onPlayerLeave
      rw [if_pos hstate]
      exact h.markDisconnected
    · exact h.removePlayer
  | playerDisconnect playerId =>
    cases hstep
    exact h.markDisconnected
  | playerReconnect playerId connId =>
    cases hstep
    exact h.handleReconnect hkeeps
  | battleReady playerId =>
    cases hstep
    exact h.onBattleReady
  | hero msg =>
    cases hstep
    exact h.onHero msg
  | tick passes won => exact h.tick hstep

/-! ## The other messages break it -/

/-- A player that enters again is listed once more. -/
theorem Inv.not_consistent_onPlayerEnter (h : Inv cfg s) (hfull : ¬ s.room.full cfg = true)
    {info : PlayerInfo} (hfind : s.room.findPlayer playerId = some info) :
    ¬ Consistent cfg (s.onPlayerEnter cfg playerId connId) := by
  intro hcons
  obtain ⟨hmem, hid⟩ := mem_of_findPlayer hfind
  have hold : (s.room.bluePlayers ++ s.room.redPlayers).count playerId = 1 :=
    hid ▸ h.consistent.once info hmem
  have hadd : ∀ team, s.onPlayerEnter cfg playerId connId = {
      room := s.room.addPlayerToTeam playerId connId team
      connToPlayer := Function.update s.connToPlayer connId (some playerId) } → False := by
    intro team heq
    rw [heq] at hcons
    have hmem' : ({ playerId := playerId, connId := connId, team := team } : PlayerInfo) ∈
        (s.room.addPlayerToTeam playerId connId team).players := by
      rw [addPlayerToTeam_players]
      exact List.mem_append_right _ (List.mem_singleton_self _)
    have hnew : ((s.room.addPlayerToTeam playerId connId team).bluePlayers ++
        (s.room.addPlayerToTeam playerId connId team).redPlayers).count playerId = 1 :=
      hcons.once _ hmem'
    rw [addPlayerToTeam_bluePlayers, addPlayerToTeam_redPlayers] at hnew
    rw [List.count_append] at hold
    split_ifs at hnew
    · rw [List.count_append, List.count_append, List.count_singleton_self] at hnew
      omega
    · rw [List.count_append, List.count_append, List.count_singleton_self] at hnew
      omega
  refine hadd (if s.room.bluePlayers.length ≤ s.room.redPlayers.length then .blue else .red) ?_
  unfold Roster.onPlayerEnter BattleRoom.onPlayerEnter
  rw [if_neg hfull, if_neg hfull]

/-- After a reconnect the old connection, if it still leads to the player, is not the
player's own any more. -/
theorem not_consistent_handleReconnect {info : PlayerInfo}
    (hfind : s.room.findPlayer playerId = some info) (hconn : info.connId ≠ connId)
    (hold : s.connToPlayer info.connId = some playerId) :
    ¬ Consistent cfg (s.handleReconnect playerId connId) := by
  intro hcons
  have heq : s.handleReconnect playerId connId = {
      room := s.room.handleReconnect playerId connId
      connToPlayer := Function.update s.connToPlayer connId (some playerId) } := by
    unfold Roster.handleReconnect
    rw [hfind]
  rw [heq] at hcons
  have hleft : Function.update s.connToPlayer connId (some playerId) info.connId =
      some playerId := by
    rw [Function.update_of_ne hconn]
    exact hold
  obtain ⟨info', hmem', hid', hconn'⟩ := hcons.current info.connId playerId hleft
  have hplayers : (s.room.handleReconnect playerId connId).players = (s.room.modifyPlayer playerId
      fun info => { info with connId, isConnected := true }).players := by
    unfold BattleRoom.handleReconnect
    rw [hfind]
  change info' ∈ (s.room.handleReconnect playerId connId).players at hmem'
  rw [hplayers] at hmem'
  obtain ⟨info₀, -, rfl⟩ := List.mem_map.mp hmem'
  by_cases hp : info₀.playerId = playerId
  · simp only [hp, if_true] at hconn'
    exact hconn hconn'.symm
  · simp only [hp, if_false] at hid'

theorem Inv.keepsRoster (h : Inv cfg s) {e : Event} (hstep : Roster.next cfg s e = some s')
    (hcons : Consistent cfg s') : KeepsRoster cfg s e := by
  cases e with
  | playerEnter playerId connId =>
    cases hstep
    by_cases hfull : s.room.full cfg = true
    · exact .inl hfull
    · right
      by_contra hfind
      obtain ⟨info, hinfo⟩ := Option.ne_none_iff_exists'.mp hfind
      exact h.not_consistent_onPlayerEnter hfull hinfo hcons
  | playerReconnect playerId connId =>
    cases hstep
    intro info hfind
    by_contra hnot
    push Not at hnot
    exact not_consistent_handleReconnect hfind hnot.1 hnot.2 hcons
  | _ => trivial

end Inv

/-! ## Balance -/

/-- As long as nobody is removed the blue side has as many players as the red one, or
one more. -/
def BlueFirst (s : Roster) : Prop :=
  s.room.redPlayers.length ≤ s.room.bluePlayers.length ∧
    s.room.bluePlayers.length ≤ s.room.redPlayers.length + 1

section Balance

variable {cfg : BattleRoomConfig} {s s' : Roster} {playerId connId : UInt64}

theorem BlueFirst.balanced (h : BlueFirst s) : Balanced s := by
  unfold BlueFirst at h
  unfold Balanced
  omega

theorem BlueFirst.of_same (h : BlueFirst s) (hblue : s'.room.bluePlayers = s.room.bluePlayers)
    (hred : s'.room.redPlayers = s.room.redPlayers) : BlueFirst s' := by
  unfold BlueFirst
  rw [hblue, hred]
  exact h

theorem BlueFirst.onPlayerEnter (h : BlueFirst s) :
    BlueFirst (s.onPlayerEnter cfg playerId connId) := by
  unfold Roster.onPlayerEnter BattleRoom.onPlayerEnter
  by_cases hfull : s.room.full cfg = true
  · rw [if_pos hfull]
    exact h
  rw [if_neg hfull, if_neg hfull]
  unfold BlueFirst at h ⊢
  simp only [addPlayerToTeam_bluePlayers, addPlayerToTeam_redPlayers]
  by_cases hle : s.room.bluePlayers.length ≤ s.room.redPlayers.length
  · simp only [hle, if_true, List.length_append, List.length_singleton]
    omega
  · simp only [hle, if_false, reduceCtorEq, List.length_append, List.length_singleton]
    omega

theorem markDisconnected_lists {r : BattleRoom} :
    (r.markDisconnected playerId).bluePlayers = r.bluePlayers ∧
      (r.markDisconnected playerId).redPlayers = r.redPlayers := by
  unfold BattleRoom.markDisconnected
  cases r.findPlayer playerId <;> exact ⟨rfl, rfl⟩

theorem handleReconnect_lists :
    (s.handleReconnect playerId connId).room.bluePlayers = s.room.bluePlayers ∧
      (s.handleReconnect playerId connId).room.redPlayers = s.room.redPlayers := by
  rw [handleReconnect_room]
  unfold BattleRoom.handleReconnect
  cases s.room.findPlayer playerId <;> exact ⟨rfl, rfl⟩

theorem BlueFirst.next (h : BlueFirst s) {e : Event} (hkeeps : KeepsPlayers s e)
    (hstep : Roster.next cfg s e = some s') : BlueFirst s' := by
  cases e with
  | playerEnter playerId connId =>
    cases hstep
    exact h.onPlayerEnter
  | playerLeave playerId =>
    cases hstep
    have hstate : s.room.battleState = .fighting := hkeeps
    unfold Roster.onPlayerLeave
    rw [if_pos hstate]
    unfold BattleRoom.onPlayerLeave
    rw [if_pos hstate]
    exact h.of_same markDisconnected_lists.1 markDisconnected_lists.2
  | playerDisconnect playerId =>
    cases hstep
    exact h.of_same markDisconnected_lists.1 markDisconnected_lists.2
  | playerReconnect playerId connId =>
    cases hstep
    exact h.of_same handleReconnect_lists.1 handleReconnect_lists.2
  | battleReady playerId =>
    cases hstep
    exact h.of_same rfl rfl
  | hero msg =>
    cases hstep
    refine h.of_same ?_ ?_
    · unfold BattleRoom.onHero
      split_ifs <;> rfl
    · unfold BattleRoom.onHero
      split_ifs <;> rfl
  | tick passes won =>
    have hstate : s.room.battleState ≠ .fighting := hkeeps
    have hroom : (s.next cfg (.tick passes won)).map Roster.room =
        s.room.next cfg (.tick passes won) := next_room s (.tick passes won)
    rw [hstep] at hroom
    obtain ⟨-, hblue, hred⟩ := sameRoster_tickState
      (r := { s.room with
        battleFrame := s.room.battleFrame + 1
        lockstep := s.room.lockstep.tickFrameCounter }) hstate hroom.symm
    exact h.of_same hblue hred

/-- While players are only entering the sides stay balanced, whoever enters. -/
theorem balanced_of_run {es : List Event} (hkeeps : RunOk (next cfg) KeepsPlayers (new cfg) es)
    (hrun : run (next cfg) (new cfg) es = some s) : Balanced s := by
  have hstep : ∀ s e s', KeepsPlayers s e → BlueFirst s → Roster.next cfg s e = some s' →
      BlueFirst s' := fun _ _ _ hk h hnext => h.next hk hnext
  have hinit : BlueFirst (new cfg) := ⟨Nat.le_refl 0, Nat.zero_le 1⟩
  exact (run_invariant hstep hinit hkeeps hrun).balanced

end Balance

/-! ## Every run -/

/-- In every state of the run the roster is consistent, and as long as nobody has been
removed the sides are balanced. -/
def RosterKept (cfg : BattleRoomConfig) (es : List Event) : Prop :=
  ∀ (ms : List Event) (s : Roster), ms <+: es → run (next cfg) (new cfg) ms = some s →
    Consistent cfg s ∧ (RunOk (next cfg) KeepsPlayers (new cfg) ms → Balanced s)

/-- A player enters twice and stands in both lists. -/
theorem enter_twice_not_kept : ¬ ∀ (cfg : BattleRoomConfig) (es : List Event), RosterKept cfg es := by
  intro h
  obtain ⟨hcons, -⟩ := h {} [.playerEnter 1 11, .playerEnter 1 12] _ _ (List.prefix_refl _) rfl
  have honce := hcons.once { playerId := 1, connId := 12, team := .red } (by decide)
  revert honce
  decide

/-- The roster is kept exactly when nobody enters who is in the room already and no
reconnect leaves an old connection behind. -/
theorem rosterKept_exact (cfg : BattleRoomConfig) (es : List Event) :
    RunOk (next cfg) (KeepsRoster cfg) (new cfg) es ↔ RosterKept cfg es := by
  have hnone : ∀ s e, next cfg s e = none → KeepsRoster cfg s e := by
    intro s e hnext
    cases e with
    | tick passes won => trivial
    | _ => cases hnext
  have hiff : RunOk (next cfg) (KeepsRoster cfg) (new cfg) es ↔
      ∀ ms s, ms <+: es → run (next cfg) (new cfg) ms = some s → Consistent cfg s :=
    runOk_iff_of_implies hnone (fun _ h => Inv.consistent h)
      (fun _ _ _ h hk hnext => Inv.next h hk hnext)
      (fun _ _ _ h hnext hcons => Inv.keepsRoster h hnext hcons) (inv_new cfg)
  constructor
  · intro hok ms s hpre hrun
    exact ⟨hiff.mp hok ms s hpre hrun, fun hkeeps => balanced_of_run hkeeps hrun⟩
  · intro h
    exact hiff.mpr fun ms s hpre hrun => (h ms s hpre hrun).1

end Roster

end Gmaker.Realtime
