import Gmaker.Realtime.BattleRoom
import Gmaker.Realtime.Geometry

/-!
# Gmaker.Realtime.Entity — the entities of a battle

Heroes, minions, towers and projectiles share the fields of `IEntity`; each kind has its
own `Tick`. What no part of the battle reads (velocities, the ranges and the damage of
minions, assists) is left out.

Hit points never fall below zero (`takeDamage`). A dead hero waits until its respawn
timer has run down (`Hero.tick`); a hero that gains a level has all its hit points again
(`Hero.addExp`), dead or alive.
-/

namespace Gmaker.Realtime

/-- `EntityType`. -/
inductive EntityType where
  | hero | minion | tower | projectile
deriving DecidableEq

/-- The number of an `EntityType`. -/
def EntityType.toNat : EntityType → ℕ
  | hero => 1
  | minion => 2
  | tower => 3
  | projectile => 4

/-- `EntityState`. -/
inductive EntityState where
  | idle | moving | attacking | casting | dead
deriving DecidableEq

/-- The number of an `EntityState`. -/
def EntityState.toNat : EntityState → ℕ
  | idle => 0
  | moving => 1
  | attacking => 2
  | casting => 3
  | dead => 4

/-- The number of a `TeamSide`. -/
def TeamSide.toNat : TeamSide → ℕ
  | none => 0
  | blue => 1
  | red => 2

/-- `TowerGrade`. -/
inductive TowerGrade where
  | outer | inner | base | crystal
deriving DecidableEq

/-- `MinionType`. -/
inductive MinionType where
  | melee | ranged | siege
deriving DecidableEq

/-- `FIXED_STEP_MS`. -/
def fixedStepMs : ℕ := 33

/-! ## What all entities have -/

/-- `IEntity`. -/
structure IEntity (F : Type) where
  entityId : UInt64
  team : TeamSide
  pos : Vec3 F
  yaw : F
  hp : ℤ
  maxHp : ℤ
  state : EntityState := .idle
deriving DecidableEq

namespace IEntity

variable {F : Type}

/-- `IsAlive`. -/
def isAlive (e : IEntity F) : Bool := 0 < e.hp

/-- `TakeDamage`. -/
def takeDamage (e : IEntity F) (dmg : ℕ) : IEntity F := { e with hp := max 0 (e.hp - dmg) }

end IEntity

section Kinds

variable {F : Type} [FloatOps F]

open FloatOps

/-- A new entity at the origin, with all its hit points. -/
def IEntity.fresh (entityId : UInt64) (team : TeamSide) (maxHp : ℤ) : IEntity F :=
  { entityId, team, pos := .ground 0 0, yaw := int 0, hp := maxHp, maxHp }

/-! ## Heroes -/

/-- `SkillDef`. -/
structure SkillDef (F : Type) where
  radius : F
  damage : ℕ
  cooldownMs : ℕ
  projectileSpeed : F
deriving DecidableEq

/-- `HeroEntity`, with a log of how often it has gone from alive to dead. -/
structure Hero (F : Type) extends IEntity F where
  ownerPlayerId : UInt64
  moveTarget : Vec3 F
  moveSpeed : F
  skills : List (SkillDef F) := []
  skillCooldowns : List ℕ := [0, 0, 0, 0]
  kills : ℕ := 0
  deaths : ℕ := 0
  gold : ℕ := 500
  level : ℕ := 1
  respawnTimer : ℕ := 0
  fountainPos : Vec3 F
  exp : ℕ := 0
  /-- log -/
  falls : ℕ := 0
deriving DecidableEq

namespace Hero

/-- `HeroEntity::HeroEntity`. -/
def new (entityId : UInt64) (team : TeamSide) (owner : UInt64) : Hero F :=
  { IEntity.fresh entityId team 1000 with
    ownerPlayerId := owner
    moveTarget := .ground 0 0
    moveSpeed := int 5
    fountainPos := .ground 0 0 }

/-- `exp_to_next`. -/
def expToNext (h : Hero F) : ℕ := h.level * 100

/-- The loop of `AddExp`: the last level is 15, which bounds its passes. -/
def levelUp : ℕ → Hero F → Hero F
  | 0, h => h
  | fuel + 1, h =>
    if h.expToNext ≤ h.exp ∧ h.level < 15 then
      levelUp fuel { h with
        exp := h.exp - h.expToNext
        level := h.level + 1
        maxHp := h.maxHp + 50
        hp := h.maxHp + 50 }
    else h

/-- `AddExp`. -/
def addExp (h : Hero F) (exp : ℕ) : Hero F := levelUp (15 - h.level) { h with exp := h.exp + exp }

/-- `AddKill`. -/
def addKill (h : Hero F) : Hero F :=
  { h with kills := h.kills + 1, gold := h.gold + 200 }.addExp 200

/-- `AddDeath`. -/
def addDeath (h : Hero F) : Hero F := { h with deaths := h.deaths + 1 }

/-- `TriggerRespawn`. -/
def triggerRespawn (h : Hero F) (respawnMs : ℕ) : Hero F := { h with respawnTimer := respawnMs }

/-- `IsRespawning`. -/
def isRespawning (h : Hero F) : Bool := 0 < h.respawnTimer

/-- `TakeDamage`; a blow that kills is logged. -/
def takeDamage (h : Hero F) (dmg : ℕ) : Hero F :=
  let hit := h.toIEntity.takeDamage dmg
  { h with
    toIEntity := hit
    falls := if h.isAlive && !hit.isAlive then h.falls + 1 else h.falls }

/-- Hit points back to full, at the fountain. -/
def respawn (h : Hero F) : Hero F :=
  { h with hp := h.maxHp, state := .idle, pos := h.fountainPos, respawnTimer := 0 }

/-- The movement of a hero that is on its way. -/
def walk (h : Hero F) (deltaMs : ℕ) : Hero F :=
  if h.state = .moving then
    match stepTowards h.pos h.moveTarget (stepLength h.moveSpeed deltaMs) with
    | (pos, none) => { h with pos, state := .idle }
    | (pos, some yaw) => { h with pos, yaw }
  else h

/-- `HeroEntity::Tick`. -/
def tick (deltaMs : ℕ) (h : Hero F) : Hero F :=
  if !h.isAlive then
    if 0 < h.respawnTimer then
      let timer := h.respawnTimer - min h.respawnTimer deltaMs
      if timer = 0 then h.respawn else { h with respawnTimer := timer }
    else h
  else walk { h with skillCooldowns := h.skillCooldowns.map fun c => c - min c deltaMs } deltaMs

/-- `CastSkill`: whether the skill is cast, and the hero. -/
def castSkill (h : Hero F) (slot : ℕ) : Bool × Hero F :=
  match h.skills[slot]? with
  | none => (false, h)
  | some skill =>
    if 0 < h.skillCooldowns.getD slot 0 then (false, h)
    else
      (true, { h with skillCooldowns := h.skillCooldowns.set slot skill.cooldownMs, state := .casting })

end Hero

/-! ## Minions -/

/-- `MinionEntity`. -/
structure Minion (F : Type) extends IEntity F where
  minionType : MinionType
  waypoints : List (Vec3 F) := []
  currentWp : ℕ := 0
  moveSpeed : F
  attackCooldown : ℕ := 0
deriving DecidableEq

namespace Minion

/-- `MinionEntity::MinionEntity`. -/
def new (entityId : UInt64) (team : TeamSide) (minionType : MinionType) : Minion F :=
  match minionType with
  | .melee => { IEntity.fresh entityId team 450 with minionType, moveSpeed := lit 35 1 }
  | .ranged => { IEntity.fresh entityId team 280 with minionType, moveSpeed := int 3 }
  | .siege => { IEntity.fresh entityId team 800 with minionType, moveSpeed := lit 25 1 }

/-- `MinionEntity::Tick`. -/
def tick (deltaMs : ℕ) (m : Minion F) : Minion F :=
  if !m.isAlive then m
  else
    let m := { m with attackCooldown := m.attackCooldown - min m.attackCooldown deltaMs }
    match m.waypoints[m.currentWp]? with
    | none => { m with state := .idle }
    | some wp =>
      match stepTowards m.pos wp (stepLength m.moveSpeed deltaMs) with
      | (pos, none) => { m with pos, currentWp := m.currentWp + 1, state := .moving }
      | (pos, some yaw) => { m with pos, yaw, state := .moving }

end Minion

/-! ## Towers -/

/-- `TowerEntity`. -/
structure Tower (F : Type) extends IEntity F where
  grade : TowerGrade
  attackRange : F
  attackDamage : ℕ
  attackCooldown : ℕ := 0
  attackInterval : ℕ := 1250
deriving DecidableEq

namespace Tower

/-- `TowerEntity::TowerEntity`. -/
def new (entityId : UInt64) (team : TeamSide) (grade : TowerGrade) : Tower F :=
  match grade with
  | .outer =>
    { IEntity.fresh entityId team 3000 with grade, attackDamage := 100, attackRange := int 8 }
  | .inner =>
    { IEntity.fresh entityId team 2500 with grade, attackDamage := 120, attackRange := int 8 }
  | .base =>
    { IEntity.fresh entityId team 2000 with grade, attackDamage := 140, attackRange := int 8 }
  | .crystal =>
    { IEntity.fresh entityId team 4000 with grade, attackDamage := 0, attackRange := int 0 }

/-- `TowerEntity::Tick`. -/
def tick (deltaMs : ℕ) (t : Tower F) : Tower F :=
  if !t.isAlive then t
  else { t with attackCooldown := t.attackCooldown - min t.attackCooldown deltaMs }

/-- `CanAttack`. -/
def canAttack (t : Tower F) : Bool := t.attackCooldown = 0

/-- `OnAttack`. -/
def onAttack (t : Tower F) : Tower F := { t with attackCooldown := t.attackInterval }

/-- `TickCooldown`. -/
def tickCooldown (deltaMs : ℕ) (t : Tower F) : Tower F :=
  if deltaMs < t.attackCooldown then { t with attackCooldown := t.attackCooldown - deltaMs }
  else { t with attackCooldown := 0 }

end Tower

/-! ## Projectiles -/

/-- `ProjectileEntity`. -/
structure Projectile (F : Type) extends IEntity F where
  casterId : UInt64
  targetPos : Vec3 F
  speed : F
  damage : ℕ
  radius : F
  reached : Bool := false
deriving DecidableEq

namespace Projectile

/-- `ProjectileEntity::ProjectileEntity`. -/
def new (entityId : UInt64) (team : TeamSide) (casterId : UInt64) (start targetPos : Vec3 F)
    (speed : F) (damage : ℕ) (radius : F) : Projectile F :=
  { IEntity.fresh entityId team 1 with pos := start, casterId, targetPos, speed, damage, radius }

/-- `ProjectileEntity::Tick`. -/
def tick (deltaMs : ℕ) (p : Projectile F) : Projectile F :=
  if p.reached || !p.isAlive then p
  else
    match stepTowards p.pos p.targetPos (stepLength p.speed deltaMs) with
    | (pos, none) => { p with pos, reached := true, hp := 0 }
    | (pos, some _) => { p with pos }

end Projectile

/-! ## Entities -/

/-- An entity of some kind. -/
inductive Entity (F : Type) where
  | hero (h : Hero F)
  | minion (m : Minion F)
  | tower (t : Tower F)
  | projectile (p : Projectile F)
deriving DecidableEq

namespace Entity

/-- The part of every kind. -/
def base : Entity F → IEntity F
  | hero h => h.toIEntity
  | minion m => m.toIEntity
  | tower t => t.toIEntity
  | projectile p => p.toIEntity

/-- `Type`. -/
def type : Entity F → EntityType
  | hero _ => .hero
  | minion _ => .minion
  | tower _ => .tower
  | projectile _ => .projectile

/-- `IsAlive`. -/
def isAlive (e : Entity F) : Bool := e.base.isAlive

/-- `Team`. -/
def team (e : Entity F) : TeamSide := e.base.team

/-- `Tick`. -/
def tick (deltaMs : ℕ) : Entity F → Entity F
  | hero h => .hero (h.tick deltaMs)
  | minion m => .minion (m.tick deltaMs)
  | tower t => .tower (t.tick deltaMs)
  | projectile p => .projectile (p.tick deltaMs)

/-- `TakeDamage`. -/
def takeDamage (dmg : ℕ) : Entity F → Entity F
  | hero h => .hero (h.takeDamage dmg)
  | minion m => .minion { m with toIEntity := m.toIEntity.takeDamage dmg }
  | tower t => .tower { t with toIEntity := t.toIEntity.takeDamage dmg }
  | projectile p => .projectile { p with toIEntity := p.toIEntity.takeDamage dmg }

/-- What a hero does, and no other kind. -/
def onHero (f : Hero F → Hero F) : Entity F → Entity F
  | hero h => .hero (f h)
  | e => e

/-- What a tower does, and no other kind. -/
def onTower (f : Tower F → Tower F) : Entity F → Entity F
  | tower t => .tower (f t)
  | e => e

end Entity

end Kinds

end Gmaker.Realtime
