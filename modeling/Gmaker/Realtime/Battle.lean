import Gmaker.Net.Packet
import Gmaker.Realtime.Arena
import Gmaker.Realtime.Roster

/-!
# Gmaker.Realtime.Battle — the whole battle room

`BattleRoom` in one piece: the roster with the engine, the arena, the checkpoints and
what is given to the broadcast callback. A tick of the battle confirms frames, plays them,
takes a checkpoint when it is time and looks for a winner, in the order of the source.

A step of the room is a step of its roster (`next_roster`), so that a run of the room is a
run of the roster (`run_roster`), and what holds in those holds in the room.
-/

namespace Gmaker.Realtime

open Gmaker.Lib
open Gmaker.Net (Bytes)

/-! ## Checkpoints -/

/-- `EntitySnapshot`, without what the model has not. -/
structure EntitySnapshot (F : Type) where
  entityId : UInt64
  type : EntityType
  team : TeamSide
  pos : Vec3 F
  yaw : F
  hp : ℤ
  maxHp : ℤ
  state : EntityState
  ownerPlayerId : UInt64 := 0
  kills : ℕ := 0
  deaths : ℕ := 0
  gold : ℕ := 0
  level : ℕ := 1
  towerGrade : TowerGrade := .outer
  minionType : MinionType := .melee
  casterId : UInt64 := 0
  reached : Bool := false
deriving DecidableEq

/-- `BattleCheckpoint`. -/
structure BattleCheckpoint (F : Type) where
  frame : UInt32
  timestampMs : UInt64
  battleState : BattleState
  entities : List (EntitySnapshot F)
  blueKills : UInt32
  redKills : UInt32
  blueTowersAlive : UInt32
  redTowersAlive : UInt32
deriving DecidableEq

section Checkpoints

variable {F : Type}

/-- The part of every kind. -/
def baseSnapshot (type : EntityType) (e : IEntity F) : EntitySnapshot F :=
  { entityId := e.entityId
    type
    team := e.team
    pos := e.pos
    yaw := e.yaw
    hp := e.hp
    maxHp := e.maxHp
    state := e.state }

/-- `SnapshotFromEntity`. -/
def snapshotFromEntity : Entity F → EntitySnapshot F
  | .hero h =>
    { baseSnapshot .hero h.toIEntity with
      ownerPlayerId := h.ownerPlayerId
      kills := h.kills
      deaths := h.deaths
      gold := h.gold
      level := h.level }
  | .tower t => { baseSnapshot .tower t.toIEntity with towerGrade := t.grade }
  | .minion m => { baseSnapshot .minion m.toIEntity with minionType := m.minionType }
  | .projectile p =>
    { baseSnapshot .projectile p.toIEntity with casterId := p.casterId, reached := p.reached }

/-- What a hero adds to the score of the blue side: its kills. -/
def blueKillsOf : Entity F → UInt32
  | .hero h => if h.team = .blue then UInt32.ofNat h.kills else 0
  | _ => 0

/-- What a hero adds to the score of the red side: its deaths. -/
def redKillsOf : Entity F → UInt32
  | .hero h => if h.team = .blue then 0 else UInt32.ofNat h.deaths
  | _ => 0

/-- Whether the entity is a tower of the blue side, or of the other one, that stands. -/
def towerAlive (blue : Bool) : Entity F → Bool
  | .tower t => t.isAlive && decide (t.team = .blue) = blue
  | _ => false

/-- `MakeSnapshot`. -/
def makeSnapshot (o : Order UInt64) (frame : UInt32) (timestampMs : UInt64)
    (battleState : BattleState) (m : EntityManager F) : BattleCheckpoint F :=
  let entities := (o.arrange m.ids).filterMap m.find
  { frame
    timestampMs
    battleState
    entities := entities.map snapshotFromEntity
    blueKills := (entities.map blueKillsOf).sum
    redKills := (entities.map redKillsOf).sum
    blueTowersAlive := UInt32.ofNat (entities.countP (towerAlive true))
    redTowersAlive := UInt32.ofNat (entities.countP (towerAlive false)) }

/-- `max_checkpoints_`. -/
def maxCheckpoints : ℕ := 10

/-- `SaveSnapshot`: the oldest make room. -/
def saveSnapshot (checkpoints : List (BattleCheckpoint F)) (cp : BattleCheckpoint F) :
    List (BattleCheckpoint F) :=
  let checkpoints := checkpoints ++ [cp]
  checkpoints.drop (checkpoints.length - maxCheckpoints)

end Checkpoints

/-! ## Inputs in order -/

/-- The elements in ascending order. -/
def inOrder (s : Finset UInt64) : List UInt64 :=
  Quot.lift (fun l : List UInt64 => l.insertionSort (· ≤ ·))
    (fun l l' h => (List.perm_insertionSort _ l).trans (h.trans (List.perm_insertionSort _ l').symm)
      |>.eq_of_pairwise (fun _ _ _ _ => UInt64.le_antisymm)
        (List.pairwise_insertionSort _ l) (List.pairwise_insertionSort _ l')) s.val

/-- The inputs of a frame, in the order of the map: they are all of players of the match. -/
def orderedInputs (players : Finset UInt64) (fi : FrameInputs) : ConfirmedInputs :=
  { frame := fi.frame
    playerInputs := (inOrder players).filterMap fun pid =>
      (fi.playerInputs pid).map fun input => (pid, input) }

/-! ## The room -/

/-- `RoomSnapshot`; a battle fills in no players. -/
structure RoomSnapshot where
  roomId : UInt32
  frameSeq : UInt32
  timestampMs : UInt64
  rawPayload : Bytes := []
deriving DecidableEq

/-- `BattleRoom`. `last_tick_ms_` is never set. Of what goes to the broadcast callback,
`sent` logs what `HandleReconnect` gives it, with the connections. -/
structure Battle (F : Type) where
  roomId : UInt32
  /-- whether there is a `broadcast_cb_` -/
  broadcasts : Bool
  roster : Roster
  arena : Arena F := {}
  checkpoints : List (BattleCheckpoint F) := []
  lastTickMs : UInt64 := 0
  sent : List (RoomSnapshot × List UInt64) := []

/-- What can happen to a battle. -/
inductive BattleEvent where
  | playerEnter (playerId connId : UInt64)
  | playerLeave (playerId : UInt64)
  | playerDisconnect (playerId : UInt64)
  | playerReconnect (playerId connId : UInt64)
  | battleReady (playerId : UInt64)
  | hero (msg : HeroMsg)
  /-- with the passes `TryAdvance` may take and the orders of the hash maps -/
  | tick (passes : ℕ) (orders : Orders)

namespace Battle

variable {F : Type} [FloatOps F]

open FloatOps

/-- `BattleRoom::BattleRoom`. -/
def new (cfg : BattleConfig F) (roomId : UInt32) (broadcasts : Bool) : Battle F :=
  { roomId, broadcasts, roster := .new cfg.toBattleRoomConfig }

/-- The state of the room. -/
def room (b : Battle F) : BattleRoom := b.roster.room

/-- Another state of the room. -/
def withRoom (b : Battle F) (room : BattleRoom) : Battle F :=
  { b with roster := { b.roster with room } }

/-! ## Serialisation -/

/-- `AppendF32`. -/
def f32 (v : F) : Bytes := Gmaker.Net.writeU32BE (bits v)

/-- One entity in a reconnect message. -/
def entityBytes (ent : EntitySnapshot F) : Bytes :=
  Gmaker.Net.writeU64BE ent.entityId ++ [UInt8.ofNat ent.type.toNat] ++
    [UInt8.ofNat ent.team.toNat] ++ f32 ent.pos.x ++ f32 ent.pos.z ++
    Gmaker.Net.writeU32BE (UInt32.ofInt ent.hp)

/-- The checkpoint in a reconnect message. -/
def snapshotBytes (cp : BattleCheckpoint F) : Bytes :=
  Gmaker.Net.writeU32BE cp.frame ++ Gmaker.Net.writeU32BE (UInt32.ofNat cp.entities.length) ++
    cp.entities.flatMap entityBytes

/-- One input in a reconnect message. -/
def inputBytes (F : Type) [FloatOps F] (p : UInt64 × PlayerInput) : Bytes :=
  Gmaker.Net.writeU64BE p.1 ++ f32 (ofFixed p.2.moveX : F) ++ f32 (ofFixed p.2.moveZ : F) ++
    [p.2.skillSlot] ++ f32 (ofFixed p.2.skillTargetX : F) ++ f32 (ofFixed p.2.skillTargetZ : F) ++
    Gmaker.Net.writeU64BE p.2.skillTargetEid

/-- One frame in a reconnect message. -/
def frameBytes (F : Type) [FloatOps F] (inputs : ConfirmedInputs) : Bytes :=
  Gmaker.Net.writeU32BE inputs.frame ++
    Gmaker.Net.writeU32BE (UInt32.ofNat inputs.playerInputs.length) ++
    inputs.playerInputs.flatMap (inputBytes F)

/-- The frames in a reconnect message. -/
def replayBytes (F : Type) [FloatOps F] (frames : List ConfirmedInputs) : Bytes :=
  Gmaker.Net.writeU32BE (UInt32.ofNat frames.length) ++ frames.flatMap (frameBytes F)

/-- The number of a `BattleState`. -/
def stateNumber : BattleState → UInt8
  | .waiting => 0
  | .loading => 1
  | .countdown => 2
  | .fighting => 3
  | .paused => 4
  | .finished => 5

/-- `SerializeReconnectAck`. -/
def serializeReconnectAck (b : Battle F) (cp : BattleCheckpoint F) (fromFrame toFrame : UInt32) :
    Bytes :=
  let replay := b.room.frameHistory.filter fun fi => fromFrame < fi.frame && fi.frame ≤ toFrame
  Gmaker.Net.writeU32BE b.roomId ++ Gmaker.Net.writeU32BE b.room.lockstep.currentFrame ++
    [stateNumber b.room.battleState] ++ snapshotBytes cp ++
    replayBytes F (replay.map (orderedInputs b.room.lockstep.allPlayers))

/-! ## Messages -/

/-- Where a player of a side starts. -/
def spawnPosOf (cfg : BattleConfig F) (room : BattleRoom) (team : TeamSide) : Vec3 F :=
  let points := if team = .blue then cfg.blueSpawnPts else cfg.redSpawnPts
  let others := if team = .blue then room.bluePlayers else room.redPlayers
  points.getD (others.length % points.length) (.ground 0 0)

/-- `OnPlayerEnter`. -/
def onPlayerEnter (cfg : BattleConfig F) (b : Battle F) (playerId connId : UInt64) : Battle F :=
  if b.room.full cfg.toBattleRoomConfig then b
  else
    let team := if b.room.bluePlayers.length ≤ b.room.redPlayers.length then .blue else .red
    let spawnPos := spawnPosOf cfg b.room team
    { b with
      roster := b.roster.onPlayerEnter cfg.toBattleRoomConfig playerId connId
      arena := { b.arena with members := b.arena.members.assign playerId { team, spawnPos } } }

/-- `RemovePlayer`. -/
def removePlayer (b : Battle F) (playerId : UInt64) : Battle F :=
  match b.room.findPlayer playerId with
  | none => b
  | some _ =>
    { b with
      roster := b.roster.removePlayer playerId
      arena := { b.arena with members := b.arena.members.erase playerId } }

/-- `OnPlayerLeave`. -/
def onPlayerLeave (b : Battle F) (playerId : UInt64) : Battle F :=
  if b.room.battleState = .fighting then b.withRoom (b.room.onPlayerLeave playerId)
  else b.removePlayer playerId

/-- The latest checkpoint. -/
def latest (b : Battle F) : Option (BattleCheckpoint F) := b.checkpoints.getLast?

/-- The answer to a reconnect: the source makes the message and does not use it, so that
the snapshot that is sent has no payload. -/
def sendAck (b : Battle F) (connId : UInt64) : Battle F :=
  match b.latest with
  | none => b
  | some cp =>
    let _data := b.serializeReconnectAck cp cp.frame b.room.lockstep.currentFrame
    if b.broadcasts then
      let snap : RoomSnapshot :=
        { roomId := b.roomId
          frameSeq := b.room.lockstep.currentFrame
          timestampMs := b.lastTickMs }
      { b with sent := b.sent ++ [(snap, [connId])] }
    else b

/-- `HandleReconnect`. -/
def handleReconnect (b : Battle F) (playerId connId : UInt64) : Battle F :=
  match b.room.findPlayer playerId with
  | none => b
  | some _ => { b with roster := b.roster.handleReconnect playerId connId }.sendAck connId

/-! ## Ticks -/

/-- `TickLoading`: the scene is set up when everybody is ready. -/
def tickLoading (cfg : BattleConfig F) (b : Battle F) (players : Order UInt64) : Battle F :=
  let b' := b.withRoom b.room.tickLoading
  if b'.room.battleState = .countdown then
    { b' with arena := b.arena.initBattleScene cfg players }
  else b'

/-- `SaveCheckpoint`. -/
def saveCheckpoint (b : Battle F) (o : Order UInt64) : Battle F :=
  let cp := makeSnapshot o b.room.lockstep.currentFrame b.lastTickMs b.room.battleState
    b.arena.entityMgr
  { b with checkpoints := saveSnapshot b.checkpoints cp }

/-- `CheckWinCondition`. -/
def checkWinCondition (b : Battle F) (o : Order UInt64) : Battle F :=
  let b' := { b with arena := b.arena.checkWinCondition o }
  if b.arena.entityMgr.winner o ≠ .none then b'.withRoom (b.room.changeState .finished) else b'

/-- The players that have been waited for long enough are removed. -/
def dropDisconnected (cfg : BattleConfig F) (b : Battle F) (frame : UInt32) : Battle F :=
  let waitOver := BattleRoom.waitOver cfg.toBattleRoomConfig frame
  let gone := b.room.disconnectedPlayers.filter waitOver
  let b := gone.foldl (fun b dc => b.removePlayer dc.playerId) b
  let waiting := b.room.disconnectedPlayers.filter fun dc => !waitOver dc
  b.withRoom { b.room with disconnectedPlayers := waiting }

/-- What `TryAdvance` returns is recorded. -/
def confirmFrames (b : Battle F) (lockstep : LockstepEngine) (confirmed : List FrameInputs) :
    Battle F :=
  b.withRoom { b.room with
    lockstep
    frameHistory := confirmed.foldl BattleRoom.pushHistory b.room.frameHistory
    returned := b.room.returned ++ confirmed }

/-- The rest of `TickFighting`, with the frames that are confirmed. -/
def playFrames (cfg : BattleConfig F) (b : Battle F) (frame : UInt32)
    (confirmed : List FrameInputs) (o : Orders) : Battle F :=
  let inputs := confirmed.map (orderedInputs b.room.lockstep.allPlayers)
  let b := { b with arena := b.arena.play cfg inputs o }
  let b := if frame % cfg.checkpointIntervalFrames = 0 then b.saveCheckpoint o.entities else b
  let b := b.checkWinCondition o.entities
  let b := b.dropDisconnected cfg frame
  { b with arena := b.arena.recordHash o.entities }

/-- `TickFighting`; `none` when `TryAdvance` does not end within `passes`. -/
def tickFighting (cfg : BattleConfig F) (b : Battle F) (frame : UInt32) (passes : ℕ)
    (o : Orders) : Option (Battle F) :=
  (LockstepEngine.tryAdvance passes (b.room.lockstep.setCurrentFrame frame)).map fun p =>
    (b.confirmFrames p.1 p.2).playFrames cfg frame p.2 o

/-- The `switch` of `Tick`. -/
def tickState (cfg : BattleConfig F) (b : Battle F) (frame : UInt32) (passes : ℕ) (o : Orders) :
    Option (Battle F) :=
  match b.room.battleState with
  | .waiting => some (b.withRoom (b.room.tickWaiting cfg.toBattleRoomConfig))
  | .loading => some (b.tickLoading cfg o.players)
  | .countdown => some (b.withRoom (b.room.tickCountdown frame))
  | .fighting => b.tickFighting cfg frame passes o
  | .paused => some b
  | .finished => some b

/-- `Tick`. -/
def tick (cfg : BattleConfig F) (b : Battle F) (passes : ℕ) (o : Orders) : Option (Battle F) :=
  let frame := b.room.battleFrame + 1
  let b := b.withRoom { b.room with
    battleFrame := frame
    lockstep := b.room.lockstep.tickFrameCounter }
  tickState cfg b frame passes o

/-- One message or one tick. -/
def next (cfg : BattleConfig F) (b : Battle F) : BattleEvent → Option (Battle F)
  | .playerEnter playerId connId => some (b.onPlayerEnter cfg playerId connId)
  | .playerLeave playerId => some (b.onPlayerLeave playerId)
  | .playerDisconnect playerId => some (b.withRoom (b.room.onPlayerDisconnect playerId))
  | .playerReconnect playerId connId => some (b.handleReconnect playerId connId)
  | .battleReady playerId => some (b.withRoom (b.room.onBattleReady playerId))
  | .hero msg => some (b.withRoom (b.room.onHero msg))
  | .tick passes o => b.tick cfg passes o

/-! ## The room and its roster -/

section Roster

variable {cfg : BattleConfig F} {b b' : Battle F} {playerId connId : UInt64}

theorem onPlayerEnter_roster :
    (b.onPlayerEnter cfg playerId connId).roster =
      b.roster.onPlayerEnter cfg.toBattleRoomConfig playerId connId := by
  unfold onPlayerEnter
  by_cases hfull : b.room.full cfg.toBattleRoomConfig = true
  · rw [if_pos hfull]
    exact (if_pos hfull).symm
  · rw [if_neg hfull]

omit [FloatOps F] in
theorem removePlayer_roster :
    (b.removePlayer playerId).roster = b.roster.removePlayer playerId := by
  unfold removePlayer
  cases hfind : b.room.findPlayer playerId with
  | none =>
    unfold Roster.removePlayer
    rw [show b.roster.room.findPlayer playerId = none from hfind]
  | some info => rfl

theorem sendAck_roster : (b.sendAck connId).roster = b.roster := by
  unfold sendAck
  cases b.latest with
  | none => rfl
  | some cp =>
    simp only []
    split_ifs <;> rfl

theorem handleReconnect_roster :
    (b.handleReconnect playerId connId).roster = b.roster.handleReconnect playerId connId := by
  unfold handleReconnect
  cases hfind : b.room.findPlayer playerId with
  | none =>
    unfold Roster.handleReconnect
    rw [show b.roster.room.findPlayer playerId = none from hfind]
  | some info => exact sendAck_roster

omit [FloatOps F] in
theorem foldl_removePlayer_roster (gone : List DisconnectInfo) (b : Battle F) :
    (gone.foldl (fun b dc => b.removePlayer dc.playerId) b).roster =
      gone.foldl (fun s dc => s.removePlayer dc.playerId) b.roster := by
  induction gone generalizing b with
  | nil => rfl
  | cons dc gone ih => rw [List.foldl_cons, List.foldl_cons, ih, removePlayer_roster]

omit [FloatOps F] in
theorem dropDisconnected_roster {frame : UInt32} :
    (b.dropDisconnected cfg frame).roster =
      b.roster.dropDisconnected cfg.toBattleRoomConfig frame := by
  unfold dropDisconnected Roster.dropDisconnected withRoom room
  simp only [foldl_removePlayer_roster]

/-- The roster's tick of the battle, with the verdict of the arena. -/
theorem tickFighting_roster {frame : UInt32} {passes : ℕ} {o : Orders}
    (h : b.tickFighting cfg frame passes o = some b') :
    ∃ won, b.roster.tickFighting cfg.toBattleRoomConfig frame passes won = some b'.roster := by
  obtain ⟨⟨lockstep, confirmed⟩, hadvance, rfl⟩ := Option.map_eq_some_iff.mp h
  let b₁ := b.confirmFrames lockstep confirmed
  let inputs := confirmed.map (orderedInputs lockstep.allPlayers)
  let b₂ : Battle F := { b₁ with arena := b₁.arena.play cfg inputs o }
  let b₃ := if frame % cfg.checkpointIntervalFrames = 0 then b₂.saveCheckpoint o.entities else b₂
  have hroster : b₃.roster = b₁.roster := by
    unfold b₃
    split_ifs <;> rfl
  refine ⟨decide (b₃.arena.entityMgr.winner o.entities ≠ .none), ?_⟩
  have hwin : (b₃.checkWinCondition o.entities).roster = { b₁.roster with
      room := if decide (b₃.arena.entityMgr.winner o.entities ≠ .none) then
        b₁.room.changeState .finished else b₁.room } := by
    unfold checkWinCondition
    simp only [decide_eq_true_eq]
    split_ifs
    · change { b₃.roster with room := b₃.room.changeState .finished } = _
      unfold room
      rw [hroster]
    · exact hroster
  have hdrop : ((b₃.checkWinCondition o.entities).dropDisconnected cfg frame).roster =
      (b₃.checkWinCondition o.entities).roster.dropDisconnected cfg.toBattleRoomConfig frame :=
    dropDisconnected_roster
  change _ = some ((b₃.checkWinCondition o.entities).dropDisconnected cfg frame).roster
  rw [hdrop, hwin]
  change (LockstepEngine.tryAdvance passes (b.room.lockstep.setCurrentFrame frame)).bind _ = _
  rw [hadvance]
  rfl

theorem tickState_roster {frame : UInt32} {passes : ℕ} {o : Orders}
    (h : b.tickState cfg frame passes o = some b') :
    ∃ won, b.roster.tickState cfg.toBattleRoomConfig frame passes won = some b'.roster := by
  unfold tickState at h
  unfold Roster.tickState BattleRoom.tickState
  cases hstate : b.roster.room.battleState with
  | fighting =>
    simp only [room, hstate] at h
    exact tickFighting_roster h
  | loading =>
    simp only [room, hstate, Option.some.injEq] at h
    subst h
    refine ⟨false, ?_⟩
    unfold tickLoading
    simp only []
    split_ifs <;> rfl
  | waiting | countdown | paused | finished =>
    simp only [room, hstate, Option.some.injEq] at h
    subst h
    exact ⟨false, rfl⟩

/-- The event, as the roster has it. -/
def forget (won : Bool) : BattleEvent → Event
  | .playerEnter playerId connId => .playerEnter playerId connId
  | .playerLeave playerId => .playerLeave playerId
  | .playerDisconnect playerId => .playerDisconnect playerId
  | .playerReconnect playerId connId => .playerReconnect playerId connId
  | .battleReady playerId => .battleReady playerId
  | .hero msg => .hero msg
  | .tick passes _ => .tick passes won

/-- A step of the room is a step of its roster. -/
theorem next_roster {e : BattleEvent} (h : next cfg b e = some b') :
    ∃ won, b.roster.next cfg.toBattleRoomConfig (forget won e) = some b'.roster := by
  cases e with
  | playerEnter playerId connId =>
    cases h
    exact ⟨false, congrArg some onPlayerEnter_roster.symm⟩
  | playerLeave playerId =>
    cases h
    refine ⟨false, congrArg some ?_⟩
    unfold Roster.onPlayerLeave onPlayerLeave
    by_cases hstate : b.room.battleState = .fighting
    · rw [if_pos hstate]
      exact if_pos hstate
    · rw [if_neg hstate, removePlayer_roster]
      exact if_neg hstate
  | playerDisconnect playerId =>
    cases h
    exact ⟨false, rfl⟩
  | playerReconnect playerId connId =>
    cases h
    exact ⟨false, congrArg some handleReconnect_roster.symm⟩
  | battleReady playerId =>
    cases h
    exact ⟨false, rfl⟩
  | hero msg =>
    cases h
    exact ⟨false, rfl⟩
  | tick passes o =>
    change tickState cfg _ _ passes o = some b' at h
    change ∃ won, Roster.tickState cfg.toBattleRoomConfig _ _ passes won = some b'.roster
    change ∃ won, (b.withRoom _).roster.tickState cfg.toBattleRoomConfig
      (b.room.battleFrame + 1) passes won = some b'.roster
    exact tickState_roster h

/-- A run of the room is a run of its roster. -/
theorem run_roster {es : List BattleEvent} (h : run (next cfg) b es = some b') :
    ∃ es', run (Roster.next cfg.toBattleRoomConfig) b.roster es' = some b'.roster := by
  induction es generalizing b with
  | nil =>
    cases h
    exact ⟨[], rfl⟩
  | cons e es ih =>
    obtain ⟨b₁, hstep, hrest⟩ := run_cons_eq_some.mp h
    obtain ⟨won, hroster⟩ := next_roster hstep
    obtain ⟨es', hrun⟩ := ih hrest
    exact ⟨forget won e :: es', run_cons_eq_some.mpr ⟨_, hroster, hrun⟩⟩

/-- Two players enter and one leaves. -/
theorem run_roster_left :
    ∃ (b : Battle ℚ) (es' : List Event),
      run (next { teamSize := 1 }) (new { teamSize := 1 } 7 true)
        [.playerEnter 1 11, .playerEnter 2 12, .playerLeave 1] = some b ∧
      run (Roster.next { teamSize := 1 }) (.new { teamSize := 1 }) es' = some b.roster := by
  have hrun : run (next { teamSize := 1 }) (new { teamSize := 1 } 7 true : Battle ℚ)
      [.playerEnter 1 11, .playerEnter 2 12, .playerLeave 1] = some _ := rfl
  obtain ⟨es', hroster⟩ := run_roster hrun
  exact ⟨_, es', hrun, hroster⟩

end Roster

end Battle

end Gmaker.Realtime
