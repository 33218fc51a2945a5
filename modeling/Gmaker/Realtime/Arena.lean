import Gmaker.Lib.Machine
import Gmaker.Realtime.EntityManager

/-!
# Gmaker.Realtime.Arena — the simulation of a battle

The part of `BattleRoom` that plays: the scene is set up once (`InitBattleScene`), and
from then on every tick of the battle goes through the frames that the engine has
confirmed, lets the entities tick, the towers shoot and the projectiles hit, brings the
dead back, sends minions and looks for a winner (`fight`).

The arena is a machine. What the engine confirms is part of the label of a tick, so a
run may hold any inputs in any frames; so are the orders in which the hash maps of the
room are gone through. Of the room the arena has the players only, each with side,
spawn point and hero; players come and go between ticks.
-/

namespace Gmaker.Realtime

open Gmaker.Lib

/-! ## State -/

/-- `TowerDef`; the position of a tower is not used. -/
structure TowerDef where
  entityId : UInt64
  team : TeamSide
  grade : TowerGrade
deriving DecidableEq

/-- The fields of `BattleRoomConfig` that a battle reads. -/
structure BattleConfig (F : Type) extends BattleRoomConfig where
  minionSpawnIntervalSec : UInt32 := 30
  checkpointIntervalFrames : UInt32 := 60
  towerDefs : List TowerDef := []
  blueSpawnPts : List (Vec3 F) := []
  redSpawnPts : List (Vec3 F) := []

/-- The fields of `PlayerInfo` that a battle reads. -/
structure Member (F : Type) where
  team : TeamSide
  spawnPos : Vec3 F
  heroEntityId : UInt64 := 0

/-- `FrameInputs` as the room gets them: the inputs by player, in the order of the ids. -/
structure ConfirmedInputs where
  frame : UInt32
  playerInputs : Assoc UInt64 PlayerInput

/-- How far the battle is: before `InitBattleScene`, in `Fighting`, in `Finished`. -/
inductive Stage where
  | before | fighting | finished
deriving DecidableEq

/-- The part of `BattleRoom` that plays. -/
structure Arena (F : Type) where
  stage : Stage := .before
  members : Assoc UInt64 (Member F) := []
  entityMgr : EntityManager F := {}
  minionSpawnTimerMs : UInt32 := 0
  minionWaveCount : UInt32 := 0
  frameHashes : List UInt64 := []

/-- The orders of `entities_` and of `players_`. -/
structure Orders where
  entities : Order UInt64
  players : Order UInt64

/-- What can happen to an arena. -/
inductive ArenaEvent (F : Type) where
  | enter (playerId : UInt64) (team : TeamSide) (spawnPos : Vec3 F)
  | remove (playerId : UInt64)
  | initBattleScene (players : Order UInt64)
  | tick (confirmed : List ConfirmedInputs) (orders : Orders)

variable {F : Type} [FloatOps F]

open FloatOps

/-! ## Inputs -/

namespace EntityManager

/-- The movement of `ProcessHeroInput`: one step in the direction of the input, which is
not longer than one. -/
def moveHero (m : EntityManager F) (heroId : UInt64) (input : PlayerInput) : EntityManager F :=
  if input.moveX ≠ 0 ∨ input.moveZ ≠ 0 then
    let len := Fixed.sqrt (Fixed.mul input.moveX input.moveX + Fixed.mul input.moveZ input.moveZ)
    let one := Fixed.fromInt 1
    let mx := if one < len then Fixed.div input.moveX len else input.moveX
    let mz := if one < len then Fixed.div input.moveZ len else input.moveZ
    let step := Fixed.div (Fixed.fromInt 5) (Fixed.fromInt 30)
    m.modify heroId <| .onHero fun h =>
      let pos := h.pos.toFixed
      { h with pos := { h.pos with
          x := ofFixed (pos.x + Fixed.mul mx step), z := ofFixed (pos.z + Fixed.mul mz step) } }
  else m

/-- The blow of a skill that hits at once. -/
def instantHit (m : EntityManager F) (targetId : UInt64) (dmg : ℕ) : EntityManager F :=
  if targetId ≠ 0 ∧ m.test Entity.isAlive targetId then m.modify targetId (.takeDamage dmg) else m

/-- The skill of `ProcessHeroInput`. -/
def castHero (m : EntityManager F) (heroId : UInt64) (input : PlayerInput) : EntityManager F :=
  match m.find heroId with
  | some (.hero h) =>
    let slot := input.skillSlot.toNat
    let target : Vec3 F := ⟨ofFixed input.skillTargetX, int 0, ofFixed input.skillTargetZ⟩
    if (h.castSkill slot).1 then
      let m := m.modify heroId (.onHero fun h => (h.castSkill slot).2)
      match h.skills[slot]? with
      | none => m
      | some skill =>
        if lt (int 0) skill.projectileSpeed then
          m.create fun id => .projectile
            (.new id h.team heroId h.pos target skill.projectileSpeed skill.damage skill.radius)
        else m.instantHit input.skillTargetEid skill.damage
    else m
  | _ => m

/-! ## Combat -/

/-- One candidate of `check_target`: the nearest so far and its distance. -/
def nearer (m : EntityManager F) (tower : Tower F) (best : Option UInt64 × Fixed) (id : UInt64) :
    Option UInt64 × Fixed :=
  match m.find id with
  | none => best
  | some cand =>
    if !cand.isAlive || cand.team = tower.team then best
    else
      let dist := distanceXZFixed tower.pos.toFixed cand.base.pos.toFixed
      if dist < best.2 then (some id, dist) else best

/-- `best_target`: the minions are checked before the heroes. -/
def bestTarget (m : EntityManager F) (tower : Tower F) (minions heroes : List UInt64) :
    Option UInt64 :=
  let best := minions.foldl (m.nearer tower) (none, toFixed tower.attackRange)
  (heroes.foldl (m.nearer tower) best).1

/-- A tower shoots: the blow, the cooldown, and a hero that it kills has died. -/
def shoot (m : EntityManager F) (towerId targetId : UInt64) (dmg : ℕ) : EntityManager F :=
  let m := m.modify targetId (.takeDamage dmg)
  let m := m.modify towerId (.onTower .onAttack)
  if m.test Entity.isAlive targetId then m else m.modify targetId (.onHero .addDeath)

/-- The turn of one tower in `TickCombat`. -/
def towerTurn (minions heroes : List UInt64) (m : EntityManager F) (towerId : UInt64) :
    EntityManager F :=
  match m.find towerId with
  | some (.tower tower) =>
    if !tower.isAlive then m
    else if tower.grade = .crystal then m
    else
      let tower := tower.tickCooldown fixedStepMs
      let m := m.modify towerId (.onTower (.tickCooldown fixedStepMs))
      if !tower.canAttack then m
      else
        match m.bestTarget tower minions heroes with
        | none => m
        | some targetId => m.shoot towerId targetId tower.attackDamage
  | _ => m

/-- The side of the caster, `None` if there is no caster any more. -/
def casterTeam (m : EntityManager F) (proj : Projectile F) : TeamSide :=
  match m.find proj.casterId with
  | none => .none
  | some caster => caster.team

/-- Whether a candidate is near enough to the projectile. -/
def inReach (proj : Projectile F) (cand : Entity F) : Bool :=
  distanceXZFixed proj.pos.toFixed cand.base.pos.toFixed ≤ toFixed (add proj.radius (lit 5 1))

/-- One candidate of `check_hit`. -/
def checkHit (proj : Projectile F) (m : EntityManager F) (id : UInt64) : EntityManager F :=
  match m.find id with
  | none => m
  | some cand =>
    if !cand.isAlive || cand.team = m.casterTeam proj then m
    else if inReach proj cand then
      let m := m.modify id (.takeDamage proj.damage)
      if m.test Entity.isAlive id then m else m.modify proj.casterId (.onHero .addKill)
    else m

/-- The turn of one projectile in `TickCombat`. -/
def projectileTurn (heroes minions towers : List UInt64) (m : EntityManager F)
    (projectileId : UInt64) : EntityManager F :=
  match m.find projectileId with
  | some (.projectile proj) =>
    if proj.reached then
      let m := heroes.foldl (checkHit proj) m
      let m := minions.foldl (checkHit proj) m
      towers.foldl (checkHit proj) m
    else m
  | _ => m

/-- `TickCombat`. -/
def tickCombat (o : Order UInt64) (m : EntityManager F) : EntityManager F :=
  let towers := m.getByType o .tower
  let heroes := m.getByType o .hero
  let minions := m.getByType o .minion
  let m := towers.foldl (towerTurn minions heroes) m
  (m.getByType o .projectile).foldl (projectileTurn heroes minions towers) m

/-! ## Minions, projectiles, crystals -/

/-- One minion of a wave. -/
def spawnMinion (m : EntityManager F) (team : TeamSide) (minionType : MinionType) (spawn : Vec3 F)
    (waypoints : List (Vec3 F)) : EntityManager F :=
  m.create fun id => .minion { Minion.new id team minionType with pos := spawn, waypoints }

/-- The minions of one side: three melee ones and a ranged one. -/
def spawnWave (m : EntityManager F) (team : TeamSide) : EntityManager F :=
  let waypoints : List (Vec3 F) :=
    if team = .blue then [.ground 30 30, .ground 50 50, .ground 70 70, .ground 90 90]
    else [.ground 70 70, .ground 50 50, .ground 30 30, .ground 10 10]
  let melee : Vec3 F := if team = .blue then .ground 10 10 else .ground 90 90
  let ranged : Vec3 F := if team = .blue then .ground 12 8 else .ground 88 92
  let m := m.spawnMinion team .melee melee waypoints
  let m := m.spawnMinion team .melee melee waypoints
  let m := m.spawnMinion team .melee melee waypoints
  m.spawnMinion team .ranged ranged waypoints

/-- Whether a projectile is to be removed. -/
def spent : Entity F → Bool
  | .projectile p => p.reached || !p.isAlive
  | _ => false

/-- The projectiles that have hit are removed. -/
def removeSpent (o : Order UInt64) (m : EntityManager F) : EntityManager F :=
  let toRemove := (m.getByType o .projectile).filter (m.test spent)
  toRemove.foldl removeEntity m

/-- Whether the entity is a crystal of the blue side, or of the other one, that stands. -/
def standingCrystal (blue : Bool) : Entity F → Bool
  | .tower t => t.grade = .crystal && t.isAlive && decide (t.team = .blue) = blue
  | _ => false

/-- `CheckWinCondition`: the side it names. -/
def winner (o : Order UInt64) (m : EntityManager F) : TeamSide :=
  let towers := m.getByType o .tower
  let blueCrystalAlive := towers.any (m.test (standingCrystal true))
  let redCrystalAlive := towers.any (m.test (standingCrystal false))
  if !blueCrystalAlive && redCrystalAlive then .red
  else if blueCrystalAlive && !redCrystalAlive then .blue
  else .none

/-! ## The hash of a frame -/

/-- `FrameHasher::update_u64`: the bytes of the number, the lowest one first. -/
def updateU64 (hash v : UInt64) : UInt64 :=
  (List.range 8).foldl
    (fun hash i => (hash ^^^ ((v >>> (8 * UInt64.ofNat i)) &&& 0xFF)) * 0x100000001b3) hash

/-- What `ComputeFrameHash` reads of an entity. -/
def hashWords (e : Entity F) : List UInt64 :=
  let b := e.base
  [b.entityId, UInt64.ofNat e.type.toNat, UInt64.ofNat b.team.toNat,
    (toFixed b.pos.x).toUInt64, (toFixed b.pos.y).toUInt64, (toFixed b.pos.z).toUInt64,
    (toFixed b.yaw).toUInt64, (Int64.ofInt b.hp).toUInt64, (Int64.ofInt b.maxHp).toUInt64,
    UInt64.ofNat b.state.toNat]

/-- `ComputeFrameHash`: the entities in the order of their ids. -/
def computeFrameHash (o : Order UInt64) (m : EntityManager F) : UInt64 :=
  let sorted := (o.arrange m.ids).insertionSort (· ≤ ·)
  let words := sorted.flatMap fun id => (m.find id).elim [] hashWords
  words.foldl updateU64 0xcbf29ce484222325

end EntityManager

namespace Arena

/-! ## Players and heroes -/

/-- `GetPlayerHero`, by its id. -/
def heroOf (a : Arena F) (playerId : UInt64) : Option UInt64 :=
  match a.members.lookup playerId with
  | none => none
  | some mem => if a.entityMgr.test (fun e => e.type = .hero) mem.heroEntityId
    then some mem.heroEntityId else none

/-- `ProcessHeroInput`. -/
def processHeroInput (a : Arena F) (playerId : UInt64) (input : PlayerInput) : Arena F :=
  match a.heroOf playerId with
  | none => a
  | some heroId =>
    if a.entityMgr.test Entity.isAlive heroId && input.hasInput then
      let m := a.entityMgr.moveHero heroId input
      let m := if input.skillSlot ≠ 0xFF then m.castHero heroId input else m
      { a with entityMgr := m }
    else a

/-- `ProcessFrameInputs`. -/
def processFrameInputs (a : Arena F) (inputs : ConfirmedInputs) : Arena F :=
  inputs.playerInputs.foldl (fun a p => a.processHeroInput p.1 p.2) a

/-- A dead hero whose timer does not run yet has died, and waits ten seconds. -/
def buryHero (h : Hero F) : Hero F :=
  if !h.isAlive && !h.isRespawning then h.addDeath.triggerRespawn 10000 else h

/-- The hero of one player, dead or alive. -/
def buryOf (a : Arena F) (playerId : UInt64) : Arena F :=
  match a.heroOf playerId with
  | none => a
  | some heroId => { a with entityMgr := a.entityMgr.modify heroId (.onHero buryHero) }

/-- The skills that every hero has. -/
def defaultSkills : List (SkillDef F) :=
  [⟨int 0, 80, 0, int 15⟩, ⟨int 3, 120, 2000, int 12⟩, ⟨int 0, 200, 5000, int 20⟩,
    ⟨int 5, 300, 10000, int 0⟩]

/-- The hero of one player in a new scene. -/
def createHero (a : Arena F) (playerId : UInt64) : Arena F :=
  match a.members.lookup playerId with
  | none => a
  | some mem =>
    let fountain : Vec3 F := if mem.team = .blue then .ground 10 10 else .ground 90 90
    let heroId := a.entityMgr.nextEntityId
    { a with
      entityMgr := a.entityMgr.create fun id => .hero
        { Hero.new id mem.team playerId with
          pos := mem.spawnPos, skills := defaultSkills, fountainPos := fountain }
      members := a.members.modify playerId fun mem => { mem with heroEntityId := heroId } }

/-- The towers of a scene without a configuration. -/
def defaultTowers : List (TeamSide × TowerGrade) :=
  [(.blue, .outer), (.blue, .inner), (.blue, .base), (.blue, .crystal),
    (.red, .outer), (.red, .inner), (.red, .base), (.red, .crystal)]

/-- `InitBattleScene`. -/
def initBattleScene (cfg : BattleConfig F) (players : Order UInt64) (a : Arena F) : Arena F :=
  let a := (players.arrange a.members.keys).foldl createHero a
  let m := cfg.towerDefs.foldl
    (fun m d => m.put d.entityId (.tower (.new d.entityId d.team d.grade))) a.entityMgr
  let m := if cfg.towerDefs.isEmpty then
      defaultTowers.foldl (fun m d => m.create fun id => .tower (.new id d.1 d.2)) m
    else m
  { a with entityMgr := m, stage := .fighting }

/-! ## One tick -/

/-- The inputs of the confirmed frames. -/
def processConfirmed (a : Arena F) (confirmed : List ConfirmedInputs) : Arena F :=
  confirmed.foldl processFrameInputs a

/-- Everything moves. -/
def tickAll (o : Order UInt64) (a : Arena F) : Arena F :=
  { a with entityMgr := a.entityMgr.tickAll o fixedStepMs }

/-- `TickCombat`. -/
def tickCombat (o : Order UInt64) (a : Arena F) : Arena F :=
  { a with entityMgr := a.entityMgr.tickCombat o }

/-- The players whose heroes have died. -/
def buryHeroes (players : Order UInt64) (a : Arena F) : Arena F :=
  (players.arrange a.members.keys).foldl buryOf a

/-- `SpawnMinions`, when it is time. -/
def spawnMinions (cfg : BattleConfig F) (a : Arena F) : Arena F :=
  let timer := a.minionSpawnTimerMs + 33
  if cfg.minionSpawnIntervalSec * 1000 ≤ timer then
    { a with
      minionSpawnTimerMs := 0
      minionWaveCount := a.minionWaveCount + 1
      entityMgr := (a.entityMgr.spawnWave .blue).spawnWave .red }
  else { a with minionSpawnTimerMs := timer }

/-- The projectiles that have hit are gone. -/
def removeSpent (o : Order UInt64) (a : Arena F) : Arena F :=
  { a with entityMgr := a.entityMgr.removeSpent o }

/-- `CheckWinCondition`. -/
def checkWinCondition (o : Order UInt64) (a : Arena F) : Arena F :=
  if a.entityMgr.winner o ≠ .none then { a with stage := .finished } else a

/-- The hash of the frame is recorded. -/
def recordHash (o : Order UInt64) (a : Arena F) : Arena F :=
  { a with frameHashes := a.frameHashes ++ [a.entityMgr.computeFrameHash o] }

/-- What a tick of the battle does before it looks for a winner. -/
def play (cfg : BattleConfig F) (confirmed : List ConfirmedInputs) (o : Orders) (a : Arena F) :
    Arena F :=
  let a := a.processConfirmed confirmed
  let a := a.tickAll o.entities
  let a := a.tickCombat o.entities
  let a := a.buryHeroes o.players
  let a := a.spawnMinions cfg
  a.removeSpent o.entities

/-- `TickFighting`. -/
def fight (cfg : BattleConfig F) (confirmed : List ConfirmedInputs) (o : Orders) (a : Arena F) :
    Arena F :=
  ((a.play cfg confirmed o).checkWinCondition o.entities).recordHash o.entities

/-- One event. A full room takes nobody in, a scene is set up once, and a finished battle
does not go on. -/
def next (cfg : BattleConfig F) (a : Arena F) : ArenaEvent F → Option (Arena F)
  | .enter playerId team spawnPos =>
    if (cfg.teamSize * 2).toNat ≤ a.members.length then some a
    else some { a with members := a.members.assign playerId { team, spawnPos } }
  | .remove playerId => some { a with members := a.members.erase playerId }
  | .initBattleScene players =>
    if a.stage = .before then some (a.initBattleScene cfg players) else none
  | .tick confirmed o => if a.stage = .fighting then some (a.fight cfg confirmed o) else none

/-- A player enters or not; the battle does not notice. -/
theorem next_enter_eq_some {cfg : BattleConfig F} {a a' : Arena F} {playerId : UInt64}
    {team : TeamSide} {spawnPos : Vec3 F} (h : next cfg a (.enter playerId team spawnPos) = some a') :
    a' = a ∨ a.members.length < (cfg.teamSize * 2).toNat ∧
      a' = { a with members := a.members.assign playerId { team, spawnPos } } := by
  change (if (cfg.teamSize * 2).toNat ≤ a.members.length then some a
    else some { a with members := a.members.assign playerId { team, spawnPos } }) = some a' at h
  split_ifs at h with hfull
  · exact .inl (Option.some.inj h).symm
  · exact .inr ⟨Nat.lt_of_not_le hfull, (Option.some.inj h).symm⟩

theorem next_initBattleScene_eq_some {cfg : BattleConfig F} {a a' : Arena F} {players : Order UInt64} :
    next cfg a (.initBattleScene players) = some a' ↔
      a.stage = .before ∧ a.initBattleScene cfg players = a' := by
  change (if a.stage = .before then some (a.initBattleScene cfg players) else none) = some a' ↔ _
  split_ifs with hstage <;> simp [hstage]

theorem next_tick_eq_some {cfg : BattleConfig F} {a a' : Arena F}
    {confirmed : List ConfirmedInputs} {o : Orders} :
    next cfg a (.tick confirmed o) = some a' ↔
      a.stage = .fighting ∧ a.fight cfg confirmed o = a' := by
  change (if a.stage = .fighting then some (a.fight cfg confirmed o) else none) = some a' ↔ _
  split_ifs with hstage <;> simp [hstage]

/-- The look for a winner and the hash change no entity. -/
theorem entityMgr_fight (cfg : BattleConfig F) (confirmed : List ConfirmedInputs) (o : Orders)
    (a : Arena F) : (a.fight cfg confirmed o).entityMgr = (a.play cfg confirmed o).entityMgr := by
  unfold fight recordHash checkWinCondition
  split_ifs <;> rfl

/-- A scene is set up entity by entity: what the heroes and the towers keep that are added to the
manager holds of the scene. -/
theorem initBattleScene_invariant {I : EntityManager F → Prop} {cfg : BattleConfig F}
    {players : Order UInt64} {a : Arena F} (h : I a.entityMgr)
    (hhero : ∀ m make, (∀ id, (make id : Entity F).type = .hero) → I m → I (m.create make))
    (hdef : ∀ m, ∀ d ∈ cfg.towerDefs, I m →
      I (m.put d.entityId (.tower (.new d.entityId d.team d.grade))))
    (hdefault : ∀ m team grade, I m → I (m.create fun id => .tower (.new id team grade))) :
    I (a.initBattleScene cfg players).entityMgr := by
  have hheroes : I ((players.arrange a.members.keys).foldl createHero a).entityMgr := by
    refine foldl_invariant_all (I := fun b : Arena F => I b.entityMgr) (fun b pid _ hb => ?_) h
    unfold createHero
    rcases b.members.lookup pid with _ | mem
    · exact hb
    · dsimp only
      refine hhero _ _ ?_ hb
      exact fun _ => rfl
  have hdefs := foldl_invariant_all (I := I) (fun m d hd hm => hdef m d hd hm) hheroes
  unfold initBattleScene
  dsimp only
  split_ifs
  · exact foldl_invariant_all (I := I) (fun m d _ hm => hdefault m d.1 d.2 hm) hdefs
  · exact hdefs

end Arena

end Gmaker.Realtime
