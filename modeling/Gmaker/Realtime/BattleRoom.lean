import Gmaker.Lib.Machine
import Gmaker.Realtime.Lockstep

/-!
# Gmaker.Realtime.BattleRoom — the battle room around the engine

`BattleRoom` takes messages and ticks on one compute thread. Players enter, load
and are counted in; from then on (`Fighting`) every tick moves the frame number on,
sets it as the engine's current frame and confirms what `TryAdvance` returns, and
the messages in between submit inputs.

The room is a machine whose labels are the messages and the ticks. What the entities
of the battle do is left out: whether a crystal has fallen is part of a tick's
label. So is the number of passes the loop of `TryAdvance` may take.

`submitInput` writes into the frame of the tick before, and `tryAdvance` starts at
the frame of the tick after: no frame that a room ever returns holds an input of a
player (`returned_onlyEmpty`).
-/

namespace Gmaker.Realtime

open Gmaker.Lib

/-! ## The room -/

/-- `BattleState`. -/
inductive BattleState where
  | waiting | loading | countdown | fighting | paused | finished
deriving DecidableEq

/-- `TeamSide`. -/
inductive TeamSide where
  | none | blue | red
deriving DecidableEq

/-- `BattleRoomConfig`. -/
structure BattleRoomConfig where
  teamSize : UInt32 := 5
  maxReconnectWaitSec : UInt32 := 60
  lockstepTimeoutMs : UInt32 := 200

/-- `PlayerInfo`. -/
structure PlayerInfo where
  playerId : UInt64
  connId : UInt64 := 0
  team : TeamSide := .none
  isConnected : Bool := true
  isReady : Bool := false
deriving DecidableEq

/-- `DisconnectInfo`, with its key. -/
structure DisconnectInfo where
  playerId : UInt64
  disconnectFrame : UInt32 := 0
deriving DecidableEq

/-- `kReplayHistorySize`. -/
def replayHistorySize : ℕ := 600

/-- `BattleRoom`, with a log of every frame that `TryAdvance` has returned to it. -/
structure BattleRoom where
  battleState : BattleState := .waiting
  /-- `players_`, an entry a player -/
  players : List PlayerInfo := []
  bluePlayers : List UInt64 := []
  redPlayers : List UInt64 := []
  lockstep : LockstepEngine := {}
  battleStartFrame : UInt32 := 0
  countdownRemainingSec : UInt32 := 3
  battleFrame : UInt32 := 0
  disconnectedPlayers : List DisconnectInfo := []
  frameHistory : List FrameInputs := []
  /-- log -/
  returned : List FrameInputs := []

/-- `HeroMoveInputMsg`, its direction already a `Fixed`. -/
structure HeroMoveInputMsg where
  playerId : UInt64
  inputSeq : UInt32
  moveX : Fixed
  moveZ : Fixed
deriving DecidableEq

/-- `HeroCastSkillMsg`, its target already a `Fixed`. -/
structure HeroCastSkillMsg where
  playerId : UInt64
  inputSeq : UInt32
  skillSlot : UInt8
  targetX : Fixed
  targetZ : Fixed
  targetEntityId : UInt64
deriving DecidableEq

/-- The two messages that carry an input. -/
inductive HeroMsg where
  | move (msg : HeroMoveInputMsg)
  | cast (msg : HeroCastSkillMsg)
deriving DecidableEq

/-- The player of the message. -/
def HeroMsg.playerId : HeroMsg → UInt64
  | move msg => msg.playerId
  | cast msg => msg.playerId

/-- The input that `OnHeroMoveInput` and `OnHeroCastSkill` make of the message. -/
def HeroMsg.input : HeroMsg → PlayerInput
  | move msg =>
    { playerId := msg.playerId
      inputSeq := msg.inputSeq
      moveX := msg.moveX
      moveZ := msg.moveZ
      hasInput := true }
  | cast msg =>
    { playerId := msg.playerId
      inputSeq := msg.inputSeq
      skillSlot := msg.skillSlot
      skillTargetX := msg.targetX
      skillTargetZ := msg.targetZ
      skillTargetEid := msg.targetEntityId
      hasInput := true }

/-- What can happen to a room. -/
inductive Event where
  | playerEnter (playerId connId : UInt64)
  | playerLeave (playerId : UInt64)
  | playerDisconnect (playerId : UInt64)
  | playerReconnect (playerId connId : UInt64)
  | battleReady (playerId : UInt64)
  | hero (msg : HeroMsg)
  /-- with the passes `TryAdvance` may take and whether one side has won -/
  | tick (passes : ℕ) (won : Bool)
deriving DecidableEq

namespace BattleRoom

/-- `BattleRoom::BattleRoom`. -/
def new (cfg : BattleRoomConfig) : BattleRoom :=
  { lockstep := { timeoutFrames := cfg.lockstepTimeoutMs / 33 } }

/-- `ChangeState`. -/
def changeState (r : BattleRoom) (newState : BattleState) : BattleRoom :=
  { r with battleState := newState }

/-- `players_.find`. -/
def findPlayer (r : BattleRoom) (playerId : UInt64) : Option PlayerInfo :=
  r.players.find? fun info => info.playerId = playerId

/-- Change the entry of one player. -/
def modifyPlayer (r : BattleRoom) (playerId : UInt64) (f : PlayerInfo → PlayerInfo) : BattleRoom :=
  { r with players := r.players.map fun info => if info.playerId = playerId then f info else info }

/-- Whether the room is full: `team_size * 2` is a `uint32_t`. -/
def full (cfg : BattleRoomConfig) (r : BattleRoom) : Bool :=
  (cfg.teamSize * 2).toNat ≤ r.players.length

/-! ## Messages -/

/-- `AddPlayerToTeam`. -/
def addPlayerToTeam (r : BattleRoom) (playerId connId : UInt64) (team : TeamSide) : BattleRoom :=
  let others := r.players.filter fun info => info.playerId ≠ playerId
  let info : PlayerInfo := { playerId, connId, team }
  let r := { r with players := others ++ [info] }
  if team = .blue then { r with bluePlayers := r.bluePlayers ++ [playerId] }
  else { r with redPlayers := r.redPlayers ++ [playerId] }

/-- `RemovePlayer`. -/
def removePlayer (r : BattleRoom) (playerId : UInt64) : BattleRoom :=
  match r.findPlayer playerId with
  | none => r
  | some info =>
    let r := { r with players := r.players.filter fun info => info.playerId ≠ playerId }
    if info.team = .blue then { r with bluePlayers := r.bluePlayers.filter (· ≠ playerId) }
    else { r with redPlayers := r.redPlayers.filter (· ≠ playerId) }

/-- `OnPlayerEnter`: the blue side fills up first. -/
def onPlayerEnter (cfg : BattleRoomConfig) (r : BattleRoom) (playerId connId : UInt64) :
    BattleRoom :=
  if r.full cfg then r
  else
    let team := if r.bluePlayers.length ≤ r.redPlayers.length then .blue else .red
    r.addPlayerToTeam playerId connId team

/-- The player is waited for from the current frame number on. -/
def markDisconnected (r : BattleRoom) (playerId : UInt64) : BattleRoom :=
  match r.findPlayer playerId with
  | none => r
  | some _ =>
    let r := r.modifyPlayer playerId fun info => { info with isConnected := false }
    let others := r.disconnectedPlayers.filter fun dc => dc.playerId ≠ playerId
    let dc : DisconnectInfo := { playerId, disconnectFrame := r.battleFrame }
    { r with
      lockstep := r.lockstep.playerDisconnected playerId
      disconnectedPlayers := others ++ [dc] }

/-- `OnPlayerLeave`: leaving a battle is a disconnect. -/
def onPlayerLeave (r : BattleRoom) (playerId : UInt64) : BattleRoom :=
  if r.battleState = .fighting then r.markDisconnected playerId else r.removePlayer playerId

/-- `OnPlayerDisconnect`. -/
def onPlayerDisconnect (r : BattleRoom) (playerId : UInt64) : BattleRoom :=
  r.markDisconnected playerId

/-- `HandleReconnect`. -/
def handleReconnect (r : BattleRoom) (playerId connId : UInt64) : BattleRoom :=
  match r.findPlayer playerId with
  | none => r
  | some _ =>
    let r := r.modifyPlayer playerId fun info => { info with connId, isConnected := true }
    { r with
      lockstep := r.lockstep.playerReconnected playerId
      disconnectedPlayers := r.disconnectedPlayers.filter fun dc => dc.playerId ≠ playerId }

/-- `OnBattleReady`. -/
def onBattleReady (r : BattleRoom) (playerId : UInt64) : BattleRoom :=
  r.modifyPlayer playerId fun info => { info with isReady := true }

/-- `OnHeroMoveInput` and `OnHeroCastSkill`. -/
def onHero (r : BattleRoom) (msg : HeroMsg) : BattleRoom :=
  if r.battleState = .fighting then
    { r with lockstep := (r.lockstep.submitInput msg.playerId msg.input).2 }
  else r

/-! ## Ticks -/

/-- `TickWaiting`. -/
def tickWaiting (cfg : BattleRoomConfig) (r : BattleRoom) : BattleRoom :=
  if r.full cfg then r.changeState .loading else r

/-- `TickLoading`: only connected players are waited for. -/
def tickLoading (r : BattleRoom) : BattleRoom :=
  if r.players.all fun info => info.isReady || !info.isConnected then
    { r with countdownRemainingSec := 3 }.changeState .countdown
  else r

/-- `TickCountdown`. -/
def tickCountdown (r : BattleRoom) (frame : UInt32) : BattleRoom :=
  let r :=
    if 0 < r.countdownRemainingSec then
      { r with countdownRemainingSec := r.countdownRemainingSec - 1 }
    else r
  if r.countdownRemainingSec = 0 then
    let playerIds := (r.players.filter fun info => info.isConnected).map fun info => info.playerId
    { r with
      battleStartFrame := frame
      lockstep := r.lockstep.setPlayers playerIds }.changeState .fighting
  else r

/-- `frame_history_.push_back`, bounded. -/
def pushHistory (history : List FrameInputs) (fi : FrameInputs) : List FrameInputs :=
  let history := history ++ [fi]
  if replayHistorySize < history.length then history.tail else history

/-- Whether a disconnected player has been waited for long enough. -/
def waitOver (cfg : BattleRoomConfig) (frame : UInt32) (dc : DisconnectInfo) : Bool :=
  cfg.maxReconnectWaitSec * (1000 / 33) < frame - dc.disconnectFrame

/-- The players that have been waited for long enough are removed. -/
def dropDisconnected (cfg : BattleRoomConfig) (r : BattleRoom) (frame : UInt32) : BattleRoom :=
  let gone := r.disconnectedPlayers.filter (waitOver cfg frame)
  let r := gone.foldl (fun r dc => r.removePlayer dc.playerId) r
  { r with disconnectedPlayers := r.disconnectedPlayers.filter fun dc => !waitOver cfg frame dc }

/-- `TickFighting`; `none` when `TryAdvance` does not end within `passes`. -/
def tickFighting (cfg : BattleRoomConfig) (r : BattleRoom) (frame : UInt32) (passes : ℕ)
    (won : Bool) : Option BattleRoom := do
  let (lockstep, confirmed) ← LockstepEngine.tryAdvance passes (r.lockstep.setCurrentFrame frame)
  let r := { r with
    lockstep
    frameHistory := confirmed.foldl pushHistory r.frameHistory
    returned := r.returned ++ confirmed }
  let r := if won then r.changeState .finished else r
  some (r.dropDisconnected cfg frame)

/-- The `switch` of `Tick`. -/
def tickState (cfg : BattleRoomConfig) (r : BattleRoom) (frame : UInt32) (passes : ℕ)
    (won : Bool) : Option BattleRoom :=
  match r.battleState with
  | .waiting => some (r.tickWaiting cfg)
  | .loading => some r.tickLoading
  | .countdown => some (r.tickCountdown frame)
  | .fighting => r.tickFighting cfg frame passes won
  | .paused => some r
  | .finished => some r

/-- `Tick`. -/
def tick (cfg : BattleRoomConfig) (r : BattleRoom) (passes : ℕ) (won : Bool) :
    Option BattleRoom :=
  let frame := r.battleFrame + 1
  let r := { r with battleFrame := frame, lockstep := r.lockstep.tickFrameCounter }
  r.tickState cfg frame passes won

/-- One message or one tick. -/
def next (cfg : BattleRoomConfig) (r : BattleRoom) : Event → Option BattleRoom
  | .playerEnter playerId connId => some (r.onPlayerEnter cfg playerId connId)
  | .playerLeave playerId => some (r.onPlayerLeave playerId)
  | .playerDisconnect playerId => some (r.onPlayerDisconnect playerId)
  | .playerReconnect playerId connId => some (r.handleReconnect playerId connId)
  | .battleReady playerId => some (r.onBattleReady playerId)
  | .hero msg => some (r.onHero msg)
  | .tick passes won => r.tick cfg passes won

/-! ## What a message or a tick can do to the engine -/

section Frame

variable {cfg : BattleRoomConfig} {r r' : BattleRoom} {playerId : UInt64}

/-- The rooms have the same state, engine, frame number and returned frames. -/
structure SameEngine (r r' : BattleRoom) : Prop where
  battleState : r'.battleState = r.battleState
  lockstep : r'.lockstep = r.lockstep
  battleFrame : r'.battleFrame = r.battleFrame
  returned : r'.returned = r.returned

theorem SameEngine.trans {r'' : BattleRoom} (h : SameEngine r r') (h' : SameEngine r' r'') :
    SameEngine r r'' :=
  ⟨h'.battleState.trans h.battleState, h'.lockstep.trans h.lockstep,
    h'.battleFrame.trans h.battleFrame, h'.returned.trans h.returned⟩

theorem sameEngine_removePlayer : SameEngine r (r.removePlayer playerId) := by
  unfold removePlayer
  cases r.findPlayer playerId with
  | none => exact ⟨rfl, rfl, rfl, rfl⟩
  | some info =>
    by_cases hteam : info.team = .blue
    · simp only [hteam, if_true]
      exact ⟨rfl, rfl, rfl, rfl⟩
    · simp only [hteam, if_false]
      exact ⟨rfl, rfl, rfl, rfl⟩

theorem sameEngine_onPlayerEnter {connId : UInt64} :
    SameEngine r (r.onPlayerEnter cfg playerId connId) := by
  unfold onPlayerEnter addPlayerToTeam
  split_ifs <;> exact ⟨rfl, rfl, rfl, rfl⟩

theorem sameEngine_dropDisconnected {frame : UInt32} :
    SameEngine r (r.dropDisconnected cfg frame) := by
  have hfold : ∀ (gone : List DisconnectInfo) (r : BattleRoom),
      SameEngine r (gone.foldl (fun r dc => r.removePlayer dc.playerId) r) := by
    intro gone
    induction gone with
    | nil => exact fun r => ⟨rfl, rfl, rfl, rfl⟩
    | cons dc gone ih => exact fun r => sameEngine_removePlayer.trans (ih _)
  exact (hfold _ r).trans ⟨rfl, rfl, rfl, rfl⟩

end Frame

/-! ## No input comes back -/

/-- The engine's frame is the first one before the battle, and not ahead of the
room's during it. -/
def Behind (battleState : BattleState) (currentFrame battleFrame : UInt32) : Prop :=
  match battleState with
  | .fighting => currentFrame ≤ battleFrame
  | .paused | .finished => True
  | _ => currentFrame = 0

/-- The engine is settled and not ahead, and all that was returned is empty. -/
structure Inv (r : BattleRoom) : Prop where
  settled : r.lockstep.Settled
  behind : Behind r.battleState r.lockstep.currentFrame r.battleFrame
  onlyEmpty : ∀ fi ∈ r.returned, LockstepEngine.OnlyEmpty fi

/-- A tick of the battle has a frame number one larger than the last: `battle_frame_`
does not wrap. -/
def NextNumber (r : BattleRoom) : Event → Prop
  | .tick _ _ => r.battleState = .fighting → (r.battleFrame + 1).toNat = r.battleFrame.toNat + 1
  | _ => True

instance (r : BattleRoom) (e : Event) : Decidable (r.NextNumber e) := by
  unfold NextNumber
  cases e <;> infer_instance

section Inv

variable {cfg : BattleRoomConfig} {r r' : BattleRoom} {playerId : UInt64}

theorem inv_new (cfg : BattleRoomConfig) : Inv (new cfg) :=
  ⟨LockstepEngine.settled_new _, rfl, by simp [new]⟩

theorem Inv.sameEngine (h : Inv r) (hsame : SameEngine r r') : Inv r' := by
  refine ⟨hsame.lockstep ▸ h.settled, ?_, hsame.returned ▸ h.onlyEmpty⟩
  rw [hsame.battleState, hsame.lockstep, hsame.battleFrame]
  exact h.behind

/-- The engine moves on to a settled state of the same frame. -/
theorem Inv.engine (h : Inv r) {e : LockstepEngine} (hsettled : e.Settled)
    (hcur : e.currentFrame = r.lockstep.currentFrame) : Inv { r with lockstep := e } := by
  refine ⟨hsettled, ?_, h.onlyEmpty⟩
  change Behind r.battleState e.currentFrame r.battleFrame
  rw [hcur]
  exact h.behind

/-- The room goes from one state into another. -/
theorem Inv.changeState (h : Inv r) {newState : BattleState}
    (hbehind : Behind newState r.lockstep.currentFrame r.battleFrame) :
    Inv (r.changeState newState) :=
  ⟨h.settled, hbehind, h.onlyEmpty⟩

theorem Inv.markDisconnected (h : Inv r) : Inv (r.markDisconnected playerId) := by
  unfold BattleRoom.markDisconnected
  cases r.findPlayer playerId with
  | none => exact h
  | some info => exact (h.engine h.settled.playerDisconnected rfl).sameEngine ⟨rfl, rfl, rfl, rfl⟩

theorem Inv.handleReconnect (h : Inv r) {connId : UInt64} :
    Inv (r.handleReconnect playerId connId) := by
  have hcur : (r.lockstep.playerReconnected playerId).currentFrame = r.lockstep.currentFrame := by
    unfold LockstepEngine.playerReconnected
    split_ifs <;> rfl
  unfold BattleRoom.handleReconnect
  cases r.findPlayer playerId with
  | none => exact h
  | some info => exact (h.engine h.settled.playerReconnected hcur).sameEngine ⟨rfl, rfl, rfl, rfl⟩

theorem Inv.onHero (h : Inv r) (msg : HeroMsg) : Inv (r.onHero msg) := by
  unfold BattleRoom.onHero
  split_ifs
  · exact h.engine h.settled.submitInput LockstepEngine.submitInput_currentFrame
  · exact h

theorem Inv.tickWaiting (h : Inv r) (hstate : r.battleState = .waiting) :
    Inv (r.tickWaiting cfg) := by
  have hzero : r.lockstep.currentFrame = 0 := by simpa [Behind, hstate] using h.behind
  unfold BattleRoom.tickWaiting
  split_ifs
  · exact h.changeState hzero
  · exact h

theorem Inv.tickLoading (h : Inv r) (hstate : r.battleState = .loading) : Inv r.tickLoading := by
  have hzero : r.lockstep.currentFrame = 0 := by simpa [Behind, hstate] using h.behind
  unfold BattleRoom.tickLoading
  split_ifs
  · have hcount : Inv { r with countdownRemainingSec := 3 } :=
      h.sameEngine ⟨rfl, rfl, rfl, rfl⟩
    exact hcount.changeState hzero
  · exact h

/-- The countdown ends with the players of the match, still at the first frame. -/
theorem Inv.tickCountdown (h : Inv r) (hstate : r.battleState = .countdown) (frame : UInt32) :
    Inv (r.tickCountdown frame) := by
  have hcount : SameEngine r (if 0 < r.countdownRemainingSec then
      { r with countdownRemainingSec := r.countdownRemainingSec - 1 } else r) := by
    split_ifs <;> exact ⟨rfl, rfl, rfl, rfl⟩
  unfold BattleRoom.tickCountdown
  generalize (if 0 < r.countdownRemainingSec then
    { r with countdownRemainingSec := r.countdownRemainingSec - 1 } else r) = a at hcount ⊢
  have ha := h.sameEngine hcount
  have hzero : a.lockstep.currentFrame = 0 := by
    simpa [Behind, hcount.battleState, hstate] using ha.behind
  simp only
  split_ifs
  · have hplayers : Inv { a with
        battleStartFrame := frame
        lockstep := a.lockstep.setPlayers
          ((a.players.filter fun info => info.isConnected).map fun info => info.playerId) } :=
      (ha.engine (ha.settled.setPlayers _) rfl).sameEngine ⟨rfl, rfl, rfl, rfl⟩
    refine hplayers.changeState ?_
    change a.lockstep.currentFrame ≤ a.battleFrame
    rw [hzero]
    exact UInt32.zero_le
  · exact ha

/-- A tick of the battle: the frames it returns hold no input of a player. -/
theorem Inv.tickFighting (h : Inv r) {frame : UInt32} {passes : ℕ} {won : Bool}
    (hstate : r.battleState = .fighting) (hlt : r.lockstep.currentFrame < frame)
    (hframe : r.battleFrame = frame)
    (hstep : r.tickFighting cfg frame passes won = some r') : Inv r' := by
  unfold BattleRoom.tickFighting at hstep
  obtain ⟨⟨e, confirmed⟩, hadvance, heq⟩ := Option.bind_eq_some_iff.mp hstep
  obtain ⟨hsettled, hcur, hempty⟩ := h.settled.tryAdvance hlt hadvance
  have hinv : Inv { r with
      lockstep := e
      frameHistory := confirmed.foldl pushHistory r.frameHistory
      returned := r.returned ++ confirmed } := by
    refine ⟨hsettled, ?_, fun fi hmem => ?_⟩
    · change Behind r.battleState e.currentFrame r.battleFrame
      rw [hstate, hcur, hframe]
      exact UInt32.le_refl _
    · rcases List.mem_append.mp hmem with hold | hnew
      · exact h.onlyEmpty fi hold
      · exact hempty fi hnew
  cases heq
  refine Inv.sameEngine ?_ sameEngine_dropDisconnected
  cases won with
  | false => exact hinv
  | true => exact hinv.changeState trivial

theorem Inv.tickState (h : Inv r) {frame : UInt32} {passes : ℕ} {won : Bool}
    (hlt : r.battleState = .fighting → r.lockstep.currentFrame < frame)
    (hframe : r.battleFrame = frame)
    (hstep : r.tickState cfg frame passes won = some r') : Inv r' := by
  unfold BattleRoom.tickState at hstep
  cases hstate : r.battleState with
  | waiting =>
    rw [hstate] at hstep
    cases hstep
    exact h.tickWaiting hstate
  | loading =>
    rw [hstate] at hstep
    cases hstep
    exact h.tickLoading hstate
  | countdown =>
    rw [hstate] at hstep
    cases hstep
    exact h.tickCountdown hstate frame
  | fighting =>
    rw [hstate] at hstep
    exact h.tickFighting hstate (hlt hstate) hframe hstep
  | paused =>
    rw [hstate] at hstep
    cases hstep
    exact h
  | finished =>
    rw [hstate] at hstep
    cases hstep
    exact h

/-- The frame number of a tick of the battle is beyond the engine's frame. -/
theorem Inv.lt_next (h : Inv r) {passes : ℕ} {won : Bool}
    (hnext : NextNumber r (.tick passes won)) (hstate : r.battleState = .fighting) :
    r.lockstep.currentFrame < r.battleFrame + 1 := by
  have hbehind : r.lockstep.currentFrame ≤ r.battleFrame := by
    simpa [Behind, hstate] using h.behind
  have hle := UInt32.le_iff_toNat_le.mp hbehind
  have hnumber := hnext hstate
  rw [UInt32.lt_iff_toNat_lt]
  omega

theorem Inv.tick (h : Inv r) {passes : ℕ} {won : Bool} (hnext : NextNumber r (.tick passes won))
    (hstep : r.tick cfg passes won = some r') : Inv r' := by
  have hlt := h.lt_next hnext
  have hbehind : Behind r.battleState r.lockstep.currentFrame (r.battleFrame + 1) := by
    have hold := h.behind
    cases hstate : r.battleState with
    | fighting => exact UInt32.le_of_lt (hlt hstate)
    | paused => trivial
    | finished => trivial
    | _ => simpa [Behind, hstate] using hold
  have hinv : Inv { r with
      battleFrame := r.battleFrame + 1, lockstep := r.lockstep.tickFrameCounter } :=
    ⟨h.settled.tickFrameCounter, hbehind, h.onlyEmpty⟩
  exact hinv.tickState hlt rfl hstep

theorem Inv.next (h : Inv r) {e : Event} (hnext : NextNumber r e)
    (hstep : BattleRoom.next cfg r e = some r') : Inv r' := by
  cases e with
  | playerEnter playerId connId =>
    cases hstep
    exact h.sameEngine sameEngine_onPlayerEnter
  | playerLeave playerId =>
    cases hstep
    unfold onPlayerLeave
    split_ifs
    · exact h.markDisconnected
    · exact h.sameEngine sameEngine_removePlayer
  | playerDisconnect playerId =>
    cases hstep
    exact h.markDisconnected
  | playerReconnect playerId connId =>
    cases hstep
    exact h.handleReconnect
  | battleReady playerId =>
    cases hstep
    exact h.sameEngine ⟨rfl, rfl, rfl, rfl⟩
  | hero msg =>
    cases hstep
    exact h.onHero msg
  | tick passes won => exact h.tick hnext hstep

end Inv

/-- Whatever is submitted, no frame that `TryAdvance` returns to a room holds an
input of a player. -/
theorem returned_onlyEmpty {cfg : BattleRoomConfig} {ls : List Event} {r : BattleRoom}
    (hok : RunOk (next cfg) NextNumber (new cfg) ls) (hrun : run (next cfg) (new cfg) ls = some r) :
    ∀ fi ∈ r.returned, LockstepEngine.OnlyEmpty fi :=
  (run_invariant (fun _ _ _ hnext h hstep => Inv.next h hnext hstep) (inv_new cfg) hok hrun).onlyEmpty

/-- How many of the returned frames hold the input of the message. -/
def timesReturned (r : BattleRoom) (msg : HeroMsg) : ℕ :=
  r.returned.countP fun fi => fi.playerInputs msg.playerId = some msg.input

theorem hasInput_input (msg : HeroMsg) : msg.input.hasInput = true := by
  cases msg <;> rfl

/-! ## What a battle should do -/

/-- The event is a tick. -/
def isTick : Event → Bool
  | .tick _ _ => true
  | _ => false

/-- The event is an input of the player. -/
def isInputOf (playerId : UInt64) : Event → Bool
  | .hero msg => msg.playerId = playerId
  | _ => false

/-- The input is one that the engine takes in: a player of the match sends it during
the battle. -/
def Takes (r : BattleRoom) (msg : HeroMsg) : Prop :=
  r.battleState = .fighting ∧ msg.playerId ∈ r.lockstep.allPlayers

instance (r : BattleRoom) (msg : HeroMsg) : Decidable (r.Takes msg) := by
  unfold Takes
  infer_instance

/-- No input is lost: the last input of a player before a tick is in exactly one
returned frame once `timeout_frames_ + 1` ticks have followed. -/
def LosesNoInput (cfg : BattleRoomConfig) : Prop :=
  ∀ (ls between after : List Event) (msg : HeroMsg) (passes : ℕ) (won : Bool) (s r : BattleRoom),
    run (next cfg) (new cfg) ls = some s → s.Takes msg →
    (∀ e ∈ between, isTick e = false ∧ isInputOf msg.playerId e = false) →
    s.lockstep.timeoutFrames.toNat + 1 ≤ (.tick passes won :: after).countP isTick →
    RunOk (next cfg) NextNumber s (.hero msg :: (between ++ .tick passes won :: after)) →
    run (next cfg) s (.hero msg :: (between ++ .tick passes won :: after)) = some r →
    r.battleState = .fighting → r.timesReturned msg = 1

/-- The players of a side of one enter, get ready and are counted in; one tick of
the battle. -/
def intoBattle : List Event :=
  [.playerEnter 1 11, .playerEnter 2 12, .tick 34 false, .battleReady 1, .battleReady 2,
    .tick 34 false, .tick 34 false, .tick 34 false, .tick 34 false, .tick 34 false]

/-- The first player walks to the right. -/
def walkRight : HeroMsg := .move { playerId := 1, inputSeq := 7, moveX := 4294967296, moveZ := 0 }

/-- The second one casts a skill at the first one's hero. -/
def castSkill : HeroMsg :=
  .cast { playerId := 2, inputSeq := 9, skillSlot := 0, targetX := 0, targetZ := 0, targetEntityId := 1 }

/-- One a side and the room's own timeout: both players send an input in the same
interval, seven ticks follow, and the first input is not returned. -/
theorem duel_loses_inputs : ¬ LosesNoInput { teamSize := 1 } := by
  intro h
  have hone := h intoBattle [.hero castSkill] (List.replicate 6 (.tick 34 false)) walkRight 34 false
    _ _ rfl (by decide) (by decide) (by decide) (by decide) rfl (by decide)
  revert hone
  decide

/-- A message's input is in none of the frames that are ever returned. -/
theorem timesReturned_eq_zero {cfg : BattleRoomConfig} {ls : List Event} {r : BattleRoom}
    (hok : RunOk (next cfg) NextNumber (new cfg) ls) (hrun : run (next cfg) (new cfg) ls = some r)
    (msg : HeroMsg) : r.timesReturned msg = 0 := by
  refine List.countP_eq_zero.mpr fun fi hmem heq => ?_
  have hfalse := returned_onlyEmpty hok hrun fi hmem msg.playerId msg.input (by simpa using heq)
  rw [hasInput_input] at hfalse
  cases hfalse

/-- A room that never waits for anyone. -/
def hasty : BattleRoomConfig := { teamSize := 1, lockstepTimeoutMs := 0 }

/-- Both players send an input, and seven ticks follow. -/
def hastyRun : List Event :=
  intoBattle ++ .hero walkRight :: .hero castSkill :: List.replicate 7 (.tick 34 false)

/-- There every tick of the battle returns a frame, and none of them holds the
input. -/
theorem timesReturned_eq_zero_hasty :
    ∃ r, run (next hasty) (new hasty) hastyRun = some r ∧ r.returned.length = 8 ∧
      r.timesReturned walkRight = 0 := by
  have hok : RunOk (next hasty) NextNumber (new hasty) hastyRun := by decide
  exact ⟨_, rfl, rfl, timesReturned_eq_zero hok rfl walkRight⟩

end BattleRoom

end Gmaker.Realtime
