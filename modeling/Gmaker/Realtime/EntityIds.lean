import Mathlib
import Gmaker.Realtime.Effects
import Gmaker.Realtime.LifeCycle

/-!
# Gmaker.Realtime.EntityIds — whose id is whose

Heroes, minions and projectiles get their ids from a counter, the towers of a configuration bring
theirs along, and `Create` replaces what has the id. The counter starts at one and is not told
which ids are taken: the ids are unique exactly as long as the towers bring ids that differ and
that the counter does not come to, and nobody joins a battle for whom there is no hero
(`uniqueIds_iff`).
-/

namespace Gmaker.Realtime

open Gmaker.Lib

variable {F : Type}

/-! ## What the scene keeps -/

/-- The player whose hero it is. -/
def Entity.owner : Entity F → UInt64
  | .hero h => h.ownerPlayerId
  | _ => 0

theorem Entity.eq_tower_of_type {e : Entity F} (htype : e.type = .tower) : ∃ t, e = .tower t := by
  rcases e with _ | _ | t | _
  case tower => exact ⟨t, rfl⟩
  all_goals cases htype

theorem Entity.eq_hero_of_type {e : Entity F} (htype : e.type = .hero) : ∃ h, e = .hero h := by
  rcases e with h | _ | _ | _
  case hero => exact ⟨h, rfl⟩
  all_goals cases htype

/-- A change that makes nothing else of an entity, and gives a hero to nobody else. -/
def Entity.KeepsKind (f : Entity F → Entity F) : Prop :=
  ∀ e, (f e).type = e.type ∧ (f e).owner = e.owner

theorem allows_keepsKind : EntityManager.Allows (F := F) Entity.KeepsKind := by
  constructor
  · intro g howner e
    rcases e with h | _ | _ | _
    case hero => exact ⟨rfl, howner h⟩
    all_goals exact ⟨rfl, rfl⟩
  · intro dmg e
    rcases e with _ | _ | _ | _
    all_goals exact ⟨rfl, rfl⟩

theorem keepsKind_onTower (g : Tower F → Tower F) : Entity.KeepsKind (.onTower g) := by
  intro e
  rcases e with _ | _ | _ | _
  all_goals exact ⟨rfl, rfl⟩

theorem Hero.tick_owner [FloatOps F] (deltaMs : ℕ) (h : Hero F) :
    (h.tick deltaMs).ownerPlayerId = h.ownerPlayerId := by
  unfold Hero.tick Hero.respawn Hero.walk
  dsimp only
  split_ifs <;> try rfl
  split <;> rfl

theorem keepsKind_tick [FloatOps F] (deltaMs : ℕ) : Entity.KeepsKind (F := F) (.tick deltaMs) := by
  intro e
  rcases e with h | _ | _ | _
  case hero => exact ⟨rfl, h.tick_owner deltaMs⟩
  all_goals exact ⟨rfl, rfl⟩

namespace EntityManager

section Ids

variable {m m' : EntityManager F} {id j : UInt64} {e : Entity F} {towers : List UInt64}

theorem mem_ids_put : j ∈ (m.put id e).ids ↔ j = id ∨ j ∈ m.ids := by
  rw [mem_ids_iff, mem_ids_iff, find_put]
  by_cases hj : j = id
  · simp [hj]
  · simp [hj]

theorem mem_ids_create {make : UInt64 → Entity F} :
    j ∈ (m.create make).ids ↔ j = m.nextEntityId ∨ j ∈ m.ids := mem_ids_put

theorem mem_ids_removeEntity : j ∈ (m.removeEntity id).ids ↔ j ≠ id ∧ j ∈ m.ids := by
  rw [mem_ids_iff, mem_ids_iff, find_removeEntity]
  by_cases hj : j = id
  · simp [hj]
  · simp [hj]

/-- The counter goes on, unless it is at its end. -/
theorem toNat_succ {n : UInt64} (h : n + 1 ≠ 0) : (n + 1).toNat = n.toNat + 1 := by
  rw [UInt64.toNat_add]
  have hlt := n.toNat_lt
  by_contra hwrap
  have hlast : n.toNat + 1 = 2 ^ 64 := by
    simp only [UInt64.toNat_one] at hwrap
    omega
  refine h (UInt64.toNat_inj.mp ?_)
  rw [UInt64.toNat_add, UInt64.toNat_one, hlast]
  rfl

theorem succ_ne_zero {n : UInt64} (h : n.toNat + 1 < 2 ^ 64) : n + 1 ≠ 0 := by
  intro hzero
  have htoNat := congrArg UInt64.toNat hzero
  rw [UInt64.toNat_add, UInt64.toNat_one, UInt64.toNat_zero, Nat.mod_eq_of_lt h] at htoNat
  omega

/-- As long as the counter has not gone round: all ids come from the counter or from the towers,
the towers stand, and no hero has the id of those who have none. -/
structure Settled (towers : List UInt64) (m : EntityManager F) : Prop where
  placed : m.nextEntityId ≠ 0 → ∀ j ∈ m.ids, j.toNat < m.nextEntityId.toNat ∨ j ∈ towers
  stands : ∀ j ∈ towers, ∃ t, m.find j = some (.tower t)
  zero : ∀ h, m.find 0 ≠ some (.hero h)

/-- The next id is free if and only if no tower has brought it along. -/
theorem Settled.free_iff (h : Settled towers m) (hround : m.nextEntityId ≠ 0) :
    m.nextEntityId ∉ m.ids ↔ m.nextEntityId ∉ towers := by
  constructor
  · intro hfree htower
    rcases h.stands _ htower with ⟨t, ht⟩
    exact hfree (mem_ids_iff.mpr ⟨_, ht⟩)
  · intro hnot hmem
    rcases h.placed hround _ hmem with hlt | htower
    · exact absurd hlt (lt_irrefl _)
    · exact hnot htower

/-- An effect leaves the scene settled if it takes a free id. -/
theorem Settled.effect (h : Settled towers m)
    (heffect : Effect Entity.KeepsKind (fun _ id => id ≠ 0 ∧ id ∉ towers) m m') :
    Settled towers m' := by
  rcases heffect with ⟨id, hf⟩ | ⟨hmake, hround, hfree⟩ | hid
  case change f =>
    have hfind : ∀ j, (m.modify id f).find j = (m.find j).map fun e => if j = id then f e else e := by
      intro j
      rw [find_modify]
      split_ifs
      · rfl
      · rw [Option.map_id']
    refine ⟨fun hround j hj => ?_, fun j hj => ?_, fun hero hfind' => ?_⟩
    · rw [ids_modify] at hj
      exact h.placed hround j hj
    · rcases h.stands j hj with ⟨t, ht⟩
      rw [hfind, ht, Option.map_some]
      split_ifs
      · rcases Entity.eq_tower_of_type (hf (.tower t)).1 with ⟨t', ht'⟩
        exact ⟨t', congrArg some ht'⟩
      · exact ⟨t, rfl⟩
    · rw [hfind] at hfind'
      rcases Option.map_eq_some_iff.mp hfind' with ⟨e, he, heq⟩
      split_ifs at heq
      · have htype := (hf e).1
        rw [heq] at htype
        rcases Entity.eq_hero_of_type htype.symm with ⟨hero', rfl⟩
        exact h.zero hero' he
      · exact h.zero hero (heq ▸ he)
  case create make =>
    refine ⟨fun hround' j hj => ?_, fun j hj => ?_, fun hero hfind => ?_⟩
    · have hnext : (m.create make).nextEntityId.toNat = m.nextEntityId.toNat + 1 :=
        toNat_succ hround'
      rw [hnext]
      rcases mem_ids_create.mp hj with rfl | hold
      · exact Or.inl (Nat.lt_succ_self _)
      · rcases h.placed hround j hold with hlt | htower
        · exact Or.inl (Nat.lt_succ_of_lt hlt)
        · exact Or.inr htower
    · have hne : j ≠ m.nextEntityId := fun heq => hfree (heq ▸ hj)
      rw [find_create, if_neg hne]
      exact h.stands j hj
    · rw [find_create, if_neg hround.symm] at hfind
      exact h.zero hero hfind
  case remove id =>
    refine ⟨fun hround j hj => ?_, fun j hj => ?_, fun hero hfind => ?_⟩
    · exact h.placed hround j (mem_ids_removeEntity.mp hj).2
    · rcases h.stands j hj with ⟨t, ht⟩
      have hne : j ≠ id := by
        rintro rfl
        cases hid _ ht
      rw [find_removeEntity, if_neg hne]
      exact ⟨t, ht⟩
    · rw [find_removeEntity] at hfind
      split_ifs at hfind
      exact h.zero hero hfind

/-- A hero stays where it is as long as only free ids are taken. -/
theorem Effects.owner {C : (Entity F → Entity F) → Prop} (hC : ∀ f, C f → Entity.KeepsKind f)
    (h : Effects C (fun ids id => id ∉ ids) m m') {player : UInt64}
    (hhero : ∃ hero, m.find id = some (.hero hero) ∧ hero.ownerPlayerId = player) :
    ∃ hero, m'.find id = some (.hero hero) ∧ hero.ownerPlayerId = player := by
  refine h.invariant (I := fun m => ∃ hero, m.find id = some (.hero hero) ∧
    hero.ownerPlayerId = player) ?_ hhero
  rintro m₁ m₂ ⟨hero, hfind, howner⟩ heffect
  rcases heffect with ⟨j, hf⟩ | ⟨_, hfree⟩ | hid
  case change f =>
    rw [find_modify, hfind]
    split_ifs
    · rcases hC f hf (.hero hero) with ⟨htype, hsame⟩
      rcases Entity.eq_hero_of_type htype with ⟨hero', hhero'⟩
      rw [hhero'] at hsame
      rw [Option.map_some, hhero']
      exact ⟨hero', rfl, hsame.trans howner⟩
    · exact ⟨hero, rfl, howner⟩
  case create make =>
    have hne : id ≠ m₁.nextEntityId := by
      rintro rfl
      exact hfree (mem_ids_iff.mpr ⟨_, hfind⟩)
    rw [find_create, if_neg hne]
    exact ⟨hero, hfind, howner⟩
  case remove j =>
    have hne : id ≠ j := by
      rintro rfl
      cases hid _ hfind
    rw [find_removeEntity, if_neg hne]
    exact ⟨hero, hfind, howner⟩

end Ids

end EntityManager

/-- The ids that the towers of a configuration bring along. -/
def BattleConfig.towerIds (cfg : BattleConfig F) : List UInt64 := cfg.towerDefs.map TowerDef.entityId

namespace Arena

open EntityManager

/-! ## The `Create` calls -/

section Calls

variable [FloatOps F]

/-- The tower of a definition. -/
def putTower (m : EntityManager F) (d : TowerDef) : EntityManager F :=
  m.put d.entityId (.tower (.new d.entityId d.team d.grade))

/-- A tower of a scene without a configuration. -/
def createTower (m : EntityManager F) (d : TeamSide × TowerGrade) : EntityManager F :=
  m.create fun id => .tower (.new id d.1 d.2)

/-- At every `Create` call of `InitBattleScene`, `ok` holds of the ids that are taken and of the
new one. -/
def InitCreates (ok : List UInt64 → UInt64 → Prop) (cfg : BattleConfig F) (players : Order UInt64)
    (a : Arena F) : Prop :=
  let pids := players.arrange a.members.keys
  let m := (pids.foldl createHero a).entityMgr
  FoldOk createHero (fun a pid => (a.members.lookup pid).isSome = true →
    ok a.entityMgr.ids a.entityMgr.nextEntityId) a pids ∧
  FoldOk putTower (fun m d => ok m.ids d.entityId) m cfg.towerDefs ∧
  (cfg.towerDefs.isEmpty = true →
    FoldOk createTower (fun m _ => ok m.ids m.nextEntityId) m defaultTowers)

/-- At every `Create` call of the inputs of a tick. -/
def InputCreates (ok : List UInt64 → UInt64 → Prop) (a : Arena F) (confirmed : List ConfirmedInputs) :
    Prop :=
  FoldOk (fun a p => a.processHeroInput p.1 p.2)
    (fun a p => a.fires p = true → ok a.entityMgr.ids a.entityMgr.nextEntityId) a
    (confirmed.flatMap ConfirmedInputs.playerInputs)

/-- A tick until it sends minions. -/
def beforeSpawn (a : Arena F) (confirmed : List ConfirmedInputs) (o : Orders) : Arena F :=
  (((a.processConfirmed confirmed).tickAll o.entities).tickCombat o.entities).buryHeroes o.players

/-- At every `Create` call of a tick. -/
def TickCreates (ok : List UInt64 → UInt64 → Prop) (cfg : BattleConfig F) (a : Arena F)
    (confirmed : List ConfirmedInputs) (o : Orders) : Prop :=
  InputCreates ok a confirmed ∧ SpawnsOk ok cfg (a.beforeSpawn confirmed o)

/-- At every `Create` call of an event. -/
def Creates (ok : List UInt64 → UInt64 → Prop) (cfg : BattleConfig F) (a : Arena F) :
    ArenaEvent F → Prop
  | .enter .. | .remove _ => True
  | .initBattleScene players => a.stage = .before → InitCreates ok cfg players a
  | .tick confirmed o => a.stage = .fighting → TickCreates ok cfg a confirmed o

section Decidable

variable (ok : List UInt64 → UInt64 → Prop) [∀ ids id, Decidable (ok ids id)] (cfg : BattleConfig F)
  (a : Arena F) (confirmed : List ConfirmedInputs) (o : Orders)

instance : Decidable (InputCreates ok a confirmed) := inferInstanceAs (Decidable (FoldOk ..))

instance : Decidable (SpawnsOk ok cfg a) := inferInstanceAs (Decidable (_ → _ ∧ _))

instance : Decidable (TickCreates ok cfg a confirmed o) := inferInstanceAs (Decidable (_ ∧ _))

end Decidable

variable {ok ok' R : List UInt64 → UInt64 → Prop} {I : EntityManager F → Prop} {a : Arena F}
  {cfg : BattleConfig F} {confirmed : List ConfirmedInputs} {o : Orders}

/-- A tick until it sends minions is a sequence of effects. -/
theorem effects_beforeSpawn (hnew : InputCreates ok a confirmed) :
    Effects Entity.KeepsKind ok a.entityMgr (a.beforeSpawn confirmed o).entityMgr := by
  have hinputs : Effects Entity.KeepsKind ok a.entityMgr
      (a.processConfirmed confirmed).entityMgr := effects_processConfirmed allows_keepsKind hnew
  have hticked := hinputs.trans (effects_tickAll (keepsKind_tick fixedStepMs) o.entities)
  have hfought := hticked.trans (effects_tickCombat allows_keepsKind keepsKind_onTower o.entities)
  have hburied : ∀ b : Arena F,
      Effects Entity.KeepsKind ok b.entityMgr (b.buryHeroes o.players).entityMgr :=
    fun b => effects_buryHeroes allows_keepsKind o.players
  exact hfought.trans (hburied (((a.processConfirmed confirmed).tickAll o.entities).tickCombat
    o.entities))

/-- And so is all of it. -/
theorem effects_fight (hnew : TickCreates ok cfg a confirmed o) :
    Effects Entity.KeepsKind ok a.entityMgr (a.fight cfg confirmed o).entityMgr := by
  rw [entityMgr_fight]
  exact ((effects_beforeSpawn hnew.1).trans (effects_spawnMinions hnew.2)).trans
    (effects_removeSpent o.entities)

/-! ### Two conditions on the calls of a tick

They say the same if they do so for what the effects of the tick keep, and for calls that also meet
a third one. -/

section Congr

variable
  (hiff : ∀ m : EntityManager F, I m → R m.ids m.nextEntityId →
    (ok m.ids m.nextEntityId ↔ ok' m.ids m.nextEntityId))
  (hkeep : ∀ m m', I m → Effect Entity.KeepsKind (fun ids id => R ids id ∧ ok ids id) m m' → I m')

include hiff hkeep

theorem inputCreates_congr (hI : I a.entityMgr) (hR : InputCreates R a confirmed) :
    InputCreates ok a confirmed ↔ InputCreates ok' a confirmed := by
  refine foldOk_congr (I := fun a : Arena F => I a.entityMgr) (fun b p _ hb hround => ?_)
    (fun b p _ hb hround hok => ?_) hI hR
  · exact forall_congr' fun hfires => hiff _ hb (hround hfires)
  · have heffects : Effects Entity.KeepsKind (fun ids id => R ids id ∧ ok ids id) b.entityMgr
        (b.processHeroInput p.1 p.2).entityMgr :=
      effects_processHeroInput allows_keepsKind fun hfires => ⟨hround hfires, hok hfires⟩
    exact heffects.invariant hkeep hb

theorem spawns_congr {m : EntityManager F} (hI : I m) {team : TeamSide}
    (hR : FoldOk (spawn team) (fun m _ => R m.ids m.nextEntityId) m (waveOf team)) :
    FoldOk (spawn team) (fun m _ => ok m.ids m.nextEntityId) m (waveOf team) ↔
      FoldOk (spawn team) (fun m _ => ok' m.ids m.nextEntityId) m (waveOf team) := by
  refine foldOk_congr (I := I) (fun m d _ hm hround => hiff m hm hround)
    (fun m d _ hm hround hok => ?_) hI hR
  have heffect : Effect Entity.KeepsKind (fun ids id => R ids id ∧ ok ids id) m (spawn team m d) := by
    unfold spawn spawnMinion
    exact .create (Or.inl rfl) ⟨hround, hok⟩
  exact hkeep m _ hm heffect

end Congr

/-- Both of two conditions. -/
theorem inputCreates_and (hR : InputCreates R a confirmed) (hok : InputCreates ok a confirmed) :
    InputCreates (fun ids id => R ids id ∧ ok ids id) a confirmed :=
  hR.imp₂ (fun _ _ hround hok hfires => ⟨hround hfires, hok hfires⟩) hok

theorem tickCreates_and (hR : TickCreates R cfg a confirmed o)
    (hok : TickCreates ok cfg a confirmed o) :
    TickCreates (fun ids id => R ids id ∧ ok ids id) cfg a confirmed o := by
  refine ⟨inputCreates_and hR.1 hok.1, fun hdue => ⟨?_, ?_⟩⟩
  · exact (hR.2 hdue).1.imp₂ (fun _ _ => And.intro) (hok.2 hdue).1
  · exact (hR.2 hdue).2.imp₂ (fun _ _ => And.intro) (hok.2 hdue).2

theorem tickCreates_congr
    (hiff : ∀ m : EntityManager F, I m → R m.ids m.nextEntityId →
      (ok m.ids m.nextEntityId ↔ ok' m.ids m.nextEntityId))
    (hkeep : ∀ m m', I m → Effect Entity.KeepsKind (fun ids id => R ids id ∧ ok ids id) m m' → I m')
    (hI : I a.entityMgr) (hR : TickCreates R cfg a confirmed o) :
    TickCreates ok cfg a confirmed o ↔ TickCreates ok' cfg a confirmed o := by
  have hspawns : InputCreates ok a confirmed → (SpawnsOk ok cfg (a.beforeSpawn confirmed o) ↔
      SpawnsOk ok' cfg (a.beforeSpawn confirmed o)) := by
    intro hok
    have hbefore : I (a.beforeSpawn confirmed o).entityMgr :=
      (effects_beforeSpawn (inputCreates_and hR.1 hok)).invariant hkeep hI
    refine forall_congr' fun hdue => ?_
    have hblue := spawns_congr hiff hkeep hbefore (hR.2 hdue).1
    have hred : FoldOk (spawn .blue) (fun m _ => ok m.ids m.nextEntityId)
        (a.beforeSpawn confirmed o).entityMgr (waveOf .blue) →
        I ((a.beforeSpawn confirmed o).entityMgr.spawnWave .blue) := by
      intro hok
      have hboth := (hR.2 hdue).1.imp₂ (fun _ _ => And.intro) hok
      exact (effects_spawnWave .blue hboth).invariant hkeep hbefore
    exact (and_congr_right fun h => spawns_congr hiff hkeep (hred h) (hR.2 hdue).2).trans
      (and_congr_left fun _ => hblue)
  exact (and_congr_right hspawns).trans
    (and_congr_left fun _ => inputCreates_congr hiff hkeep hI hR.1)

end Calls

/-! ## Whose hero it is -/

/-- The hero of a player is there, and it is the player's. -/
def ownsHero (a : Arena F) (playerId : UInt64) : Bool :=
  match a.members.lookup playerId with
  | none => true
  | some mem =>
    match a.entityMgr.find mem.heroEntityId with
    | some (.hero h) => h.ownerPlayerId = playerId
    | _ => false

/-- `hero_entity_id` of every player is the id of a hero that the player owns. -/
def HeroesOwned (a : Arena F) : Prop := ∀ playerId ∈ a.members.keys, a.ownsHero playerId = true

instance (a : Arena F) : Decidable a.HeroesOwned :=
  List.decidableBAll (fun playerId => a.ownsHero playerId = true) a.members.keys

section Owners

variable {a a' : Arena F} {playerId : UInt64} {mem : Member F}

theorem ownsHero_iff (hmem : a.members.lookup playerId = some mem) :
    a.ownsHero playerId = true ↔
      ∃ hero, a.entityMgr.find mem.heroEntityId = some (.hero hero) ∧
        hero.ownerPlayerId = playerId := by
  unfold ownsHero
  rw [hmem]
  dsimp only
  rcases a.entityMgr.find mem.heroEntityId with _ | (h | _ | _ | _)
  all_goals simp

/-- A player keeps the hero as long as it stays where it is. -/
theorem ownsHero_of_eq (hmembers : a'.members.lookup playerId = a.members.lookup playerId)
    (hkeep : ∀ id, (∃ hero, a.entityMgr.find id = some (.hero hero) ∧
        hero.ownerPlayerId = playerId) →
      ∃ hero, a'.entityMgr.find id = some (.hero hero) ∧ hero.ownerPlayerId = playerId)
    (h : a.ownsHero playerId = true) : a'.ownsHero playerId = true := by
  rcases hmem : a.members.lookup playerId with _ | mem
  · unfold ownsHero
    rw [hmembers, hmem]
  · rw [ownsHero_iff (hmembers.trans hmem)]
    exact hkeep _ ((ownsHero_iff hmem).mp h)

end Owners

/-! ## The scene -/

section Scene

variable [FloatOps F] {a : Arena F} {cfg : BattleConfig F} {k : ℕ} {m : EntityManager F}

/-- So many heroes have been created, and nothing else. -/
structure Peopled (k : ℕ) (a : Arena F) : Prop where
  next : a.entityMgr.nextEntityId.toNat = k + 1
  ids : ∀ j, j ∈ a.entityMgr.ids ↔ 0 < j.toNat ∧ j.toNat ≤ k

omit [FloatOps F] in
theorem Peopled.free (h : Peopled k a) : a.entityMgr.nextEntityId ∉ a.entityMgr.ids := by
  rw [h.ids, h.next]
  omega

/-- One hero more. -/
theorem Peopled.createHero (h : Peopled k a) (hroom : k + 2 < 2 ^ 64) {pid : UInt64}
    (hin : pid ∈ a.members.keys) :
    Peopled (k + 1) (a.createHero pid) ∧ (a.createHero pid).members.keys = a.members.keys ∧
      ∀ q, a.ownsHero q = true ∨ q = pid → (a.createHero pid).ownsHero q = true := by
  rcases Assoc.mem_keys_iff.mp hin with ⟨mem, hmem⟩
  have hfree := h.free
  have hnext := h.next
  unfold Arena.createHero
  rw [hmem]
  dsimp only
  refine ⟨⟨?_, fun j => ?_⟩, Assoc.keys_modify _ _ _, fun q hq => ?_⟩
  · have hround : a.entityMgr.nextEntityId + 1 ≠ 0 := succ_ne_zero (by omega)
    exact (toNat_succ hround).trans (congrArg (· + 1) hnext)
  · rw [mem_ids_create, h.ids, ← UInt64.toNat_inj, hnext]
    omega
  · by_cases hself : q = pid
    · subst hself
      have hlookup := Assoc.lookup_modify_self a.members q
        fun mem => { mem with heroEntityId := a.entityMgr.nextEntityId }
      rw [hmem, Option.map_some] at hlookup
      rw [ownsHero_iff hlookup]
      refine ⟨_, find_create.trans (if_pos rfl), rfl⟩
    · have hother := Assoc.lookup_modify_of_ne a.members hself
        fun mem => { mem with heroEntityId := a.entityMgr.nextEntityId }
      refine ownsHero_of_eq hother ?_ (hq.resolve_right hself)
      rintro id ⟨hero, hfind, howner⟩
      have hne : id ≠ a.entityMgr.nextEntityId := by
        rintro rfl
        exact hfree (mem_ids_iff.mpr ⟨_, hfind⟩)
      refine ⟨hero, ?_, howner⟩
      exact (find_create.trans (if_neg hne)).trans hfind

/-- All heroes. -/
theorem Peopled.foldl_createHero (h : Peopled k a) (l : List UInt64)
    (hin : ∀ pid ∈ l, pid ∈ a.members.keys) (hroom : k + l.length + 1 < 2 ^ 64) :
    FoldOk Arena.createHero (fun a pid => (a.members.lookup pid).isSome = true →
      a.entityMgr.nextEntityId ∉ a.entityMgr.ids) a l ∧
    Peopled (k + l.length) (l.foldl Arena.createHero a) ∧
    (l.foldl Arena.createHero a).members.keys = a.members.keys ∧
    ∀ q, a.ownsHero q = true ∨ q ∈ l → (l.foldl Arena.createHero a).ownsHero q = true := by
  induction l generalizing a k with
  | nil => exact ⟨trivial, h, rfl, fun q hq => hq.resolve_right List.not_mem_nil⟩
  | cons pid l ih =>
    rw [List.length_cons] at hroom
    rcases h.createHero (by omega) (hin pid List.mem_cons_self) with ⟨hone, hkeys, howns⟩
    rcases ih hone (fun q hq => hkeys ▸ hin q (List.mem_cons_of_mem _ hq)) (by omega) with
      ⟨hcalls, hall, hkeys', howns'⟩
    refine ⟨⟨fun _ => h.free, hcalls⟩, ?_, hkeys'.trans hkeys, fun q hq => howns' q ?_⟩
    · rw [List.length_cons, Nat.add_comm l.length, ← Nat.add_assoc]
      exact hall
    · rcases hq with hold | hmem
      · exact Or.inl (howns q (Or.inl hold))
      · rcases List.mem_cons.mp hmem with heq | hrest
        · exact Or.inl (howns q (Or.inr heq))
        · exact Or.inr hrest

/-- The towers of a configuration take free ids if these differ and are not taken. -/
theorem free_putTower_iff (defs : List TowerDef) (m : EntityManager F) :
    FoldOk putTower (fun m d => d.entityId ∉ m.ids) m defs ↔
      (defs.map TowerDef.entityId).Nodup ∧ ∀ id ∈ defs.map TowerDef.entityId, id ∉ m.ids := by
  induction defs generalizing m with
  | nil => simp [FoldOk]
  | cons d defs ih =>
    have hids : ∀ j, j ∈ (putTower m d).ids ↔ j = d.entityId ∨ j ∈ m.ids := fun j => mem_ids_put
    rw [FoldOk, ih, List.map_cons, List.nodup_cons]
    simp only [hids, not_or, List.forall_mem_cons]
    constructor
    · rintro ⟨hfree, hnodup, hrest⟩
      exact ⟨⟨fun hmem => (hrest _ hmem).1 rfl, hnodup⟩, hfree, fun id hid => (hrest id hid).2⟩
    · rintro ⟨⟨hnot, hnodup⟩, hfree, hrest⟩
      exact ⟨hfree, hnodup, fun id hid => ⟨fun heq => hnot (heq ▸ hid), hrest id hid⟩⟩

theorem find_foldl_putTower (defs : List TowerDef) (m : EntityManager F) (j : UInt64) :
    (j ∉ defs.map TowerDef.entityId ∧ (defs.foldl putTower m).find j = m.find j) ∨
    (j ∈ defs.map TowerDef.entityId ∧ ∃ t, (defs.foldl putTower m).find j = some (.tower t)) := by
  induction defs generalizing m with
  | nil => exact Or.inl ⟨List.not_mem_nil, rfl⟩
  | cons d defs ih =>
    rw [List.map_cons, List.mem_cons, List.foldl_cons]
    rcases ih (putTower m d) with ⟨hnot, hfind⟩ | ⟨hmem, htower⟩
    · rw [hfind]
      unfold putTower
      rw [find_put]
      by_cases hj : j = d.entityId
      · rw [if_pos hj]
        exact Or.inr ⟨Or.inl hj, _, rfl⟩
      · rw [if_neg hj]
        exact Or.inl ⟨not_or.mpr ⟨hj, hnot⟩, rfl⟩
    · exact Or.inr ⟨Or.inr hmem, htower⟩

theorem nextEntityId_foldl_putTower (defs : List TowerDef) (m : EntityManager F) :
    (defs.foldl putTower m).nextEntityId = m.nextEntityId :=
  foldl_invariant_all (I := fun m' : EntityManager F => m'.nextEntityId = m.nextEntityId)
    (fun _ _ _ h => h) rfl

/-- The towers of a scene without a configuration take ids that no one has. -/
theorem free_createTower (l : List (TeamSide × TowerGrade)) (m : EntityManager F)
    (hplaced : ∀ j ∈ m.ids, j.toNat < m.nextEntityId.toNat)
    (hroom : m.nextEntityId.toNat + l.length < 2 ^ 64) :
    FoldOk createTower (fun m _ => m.nextEntityId ∉ m.ids) m l ∧
    (∀ j ∈ (l.foldl createTower m).ids, j.toNat < (l.foldl createTower m).nextEntityId.toNat) ∧
    (∀ j e, m.find j = some e → (l.foldl createTower m).find j = some e) ∧
    ∀ j h, (l.foldl createTower m).find j = some (.hero h) → m.find j = some (.hero h) := by
  induction l generalizing m with
  | nil => exact ⟨trivial, hplaced, fun _ _ h => h, fun _ _ h => h⟩
  | cons d l ih =>
    rw [List.length_cons] at hroom
    have hfree : m.nextEntityId ∉ m.ids := fun hmem => absurd (hplaced _ hmem) (lt_irrefl _)
    have hnext : (createTower m d).nextEntityId.toNat = m.nextEntityId.toNat + 1 :=
      toNat_succ (succ_ne_zero (by omega))
    have hplaced' : ∀ j ∈ (createTower m d).ids,
        j.toNat < (createTower m d).nextEntityId.toNat := by
      intro j hj
      rw [hnext]
      rcases mem_ids_create.mp hj with rfl | hold
      · exact Nat.lt_succ_self _
      · exact Nat.lt_succ_of_lt (hplaced j hold)
    rcases ih (createTower m d) hplaced' (by omega) with ⟨hcalls, hall, hkeep, hback⟩
    refine ⟨⟨hfree, hcalls⟩, hall, fun j e he => hkeep j e ?_, fun j h hh => ?_⟩
    · have hne : j ≠ m.nextEntityId := by
        rintro rfl
        exact hfree (mem_ids_iff.mpr ⟨e, he⟩)
      exact (find_create.trans (if_neg hne)).trans he
    · have hfind := hback j h hh
      unfold createTower at hfind
      rw [find_create] at hfind
      split_ifs at hfind
      · cases hfind
      · exact hfind

/-- The heroes of a scene. -/
theorem peopled_scene (players : Order UInt64) (hempty : a.entityMgr = {})
    (hroom : a.members.length ≤ 2 ^ 32) :
    FoldOk Arena.createHero (fun a pid => (a.members.lookup pid).isSome = true →
      a.entityMgr.nextEntityId ∉ a.entityMgr.ids) a (players.arrange a.members.keys) ∧
    Peopled a.members.length ((players.arrange a.members.keys).foldl Arena.createHero a) ∧
    ((players.arrange a.members.keys).foldl Arena.createHero a).members.keys = a.members.keys ∧
    ∀ q ∈ a.members.keys,
      ((players.arrange a.members.keys).foldl Arena.createHero a).ownsHero q = true := by
  have hlen : (players.arrange a.members.keys).length = a.members.length :=
    (players.perm a.members.keys).length_eq.trans (List.length_map _)
  have hfirst : Peopled 0 a := by
    constructor
    · rw [hempty]
      rfl
    · intro j
      rw [hempty]
      refine ⟨fun hj => absurd hj List.not_mem_nil, fun hj => ?_⟩
      omega
  rcases hfirst.foldl_createHero (players.arrange a.members.keys)
    (fun pid hpid => players.mem_arrange.mp hpid) (by omega) with ⟨hcalls, hall, hkeys, howns⟩
  rw [hlen, Nat.zero_add] at hall
  exact ⟨hcalls, hall, hkeys, fun q hq => howns q (Or.inr (players.mem_arrange.mpr hq))⟩

/-- The towers bring ids that differ, and that no hero will have. -/
def TowersApart (cfg : BattleConfig F) (a : Arena F) : Prop :=
  cfg.towerIds.Nodup ∧ ∀ id ∈ cfg.towerIds, id.toNat = 0 ∨ a.members.length < id.toNat

/-- A new scene takes free ids exactly if the towers bring such. -/
theorem initCreates_free_iff {players : Order UInt64} (hempty : a.entityMgr = {})
    (hroom : a.members.length ≤ 2 ^ 32) :
    InitCreates (fun ids id => id ∉ ids) cfg players a ↔ TowersApart cfg a := by
  rcases peopled_scene players hempty hroom with ⟨hcalls, hall, _, _⟩
  have hdefault : FoldOk createTower (fun m _ => m.nextEntityId ∉ m.ids)
      ((players.arrange a.members.keys).foldl Arena.createHero a).entityMgr defaultTowers := by
    refine (free_createTower defaultTowers _ (fun j hj => ?_) ?_).1
    · rw [hall.next]
      exact Nat.lt_succ_of_le ((hall.ids j).mp hj).2
    · have height : defaultTowers.length = 8 := rfl
      rw [hall.next, height]
      omega
  unfold InitCreates TowersApart
  dsimp only
  rw [and_iff_right hcalls, and_iff_left fun _ => hdefault, free_putTower_iff]
  refine and_congr_right fun _ => forall₂_congr fun id _ => ?_
  rw [hall.ids]
  omega

/-- The towers of a scene. -/
def placeTowers (cfg : BattleConfig F) (m : EntityManager F) : EntityManager F :=
  if cfg.towerDefs.isEmpty = true then defaultTowers.foldl createTower (cfg.towerDefs.foldl putTower m)
  else cfg.towerDefs.foldl putTower m

theorem initBattleScene_eq (cfg : BattleConfig F) (players : Order UInt64) (a : Arena F) :
    a.initBattleScene cfg players =
      { (players.arrange a.members.keys).foldl Arena.createHero a with
        entityMgr := placeTowers cfg
          ((players.arrange a.members.keys).foldl Arena.createHero a).entityMgr
        stage := .fighting } := rfl

/-- Towers with free ids settle the scene, and the heroes stay. -/
theorem settled_placeTowers (h : Peopled k a) (hroom : k ≤ 2 ^ 32)
    (hfree : ∀ id ∈ cfg.towerIds, id ∉ a.entityMgr.ids) :
    Settled cfg.towerIds (placeTowers cfg a.entityMgr) ∧
      ∀ j e, a.entityMgr.find j = some e → (placeTowers cfg a.entityMgr).find j = some e := by
  have hbelow : ∀ j ∈ a.entityMgr.ids, j.toNat < a.entityMgr.nextEntityId.toNat := by
    intro j hj
    rw [h.next]
    exact Nat.lt_succ_of_le ((h.ids j).mp hj).2
  have hzero : ∀ e, a.entityMgr.find 0 ≠ some e := by
    intro e he
    exact absurd ((h.ids 0).mp (mem_ids_iff.mpr ⟨e, he⟩)).1 (lt_irrefl _)
  unfold placeTowers
  split_ifs with hnone
  · -- no tower is configured
    have hdefs : cfg.towerDefs = [] := List.isEmpty_iff.mp hnone
    have hids : cfg.towerIds = [] := congrArg (List.map TowerDef.entityId) hdefs
    have height : defaultTowers.length = 8 := rfl
    rcases free_createTower defaultTowers a.entityMgr hbelow
      (by rw [h.next, height]; omega) with ⟨_, hplaced, hkeep, hback⟩
    rw [hdefs, hids, List.foldl_nil]
    refine ⟨⟨fun _ j hj => Or.inl (hplaced j hj), nofun, fun hero hfind => ?_⟩, hkeep⟩
    exact hzero _ (hback 0 hero hfind)
  · have hfind := find_foldl_putTower cfg.towerDefs a.entityMgr
    refine ⟨⟨fun _ j hj => ?_, fun j hj => ?_, fun hero hhero => ?_⟩, fun j e he => ?_⟩
    · rcases mem_ids_iff.mp hj with ⟨e, he⟩
      rcases hfind j with ⟨_, hsame⟩ | ⟨htower, _⟩
      · rw [nextEntityId_foldl_putTower]
        exact Or.inl (hbelow j (mem_ids_iff.mpr ⟨e, hsame.symm.trans he⟩))
      · exact Or.inr htower
    · rcases hfind j with ⟨hnot, _⟩ | ⟨_, htower⟩
      · exact absurd hj hnot
      · exact htower
    · rcases hfind 0 with ⟨_, hsame⟩ | ⟨_, t, ht⟩
      · exact hzero _ (hsame.symm.trans hhero)
      · cases ht.symm.trans hhero
    · rcases hfind j with ⟨_, hsame⟩ | ⟨htower, _⟩
      · exact hsame.trans he
      · exact absurd (mem_ids_iff.mpr ⟨e, he⟩) (hfree j htower)

/-- A new scene is settled, and everybody has a hero. -/
theorem settled_initBattleScene (players : Order UInt64) (hempty : a.entityMgr = {})
    (hroom : a.members.length ≤ 2 ^ 32) (hapart : TowersApart cfg a) :
    Settled cfg.towerIds (a.initBattleScene cfg players).entityMgr ∧
      (a.initBattleScene cfg players).HeroesOwned := by
  rcases peopled_scene players hempty hroom with ⟨_, hall, hkeys, howns⟩
  rw [initBattleScene_eq]
  generalize (players.arrange a.members.keys).foldl Arena.createHero a = b at hall hkeys howns ⊢
  have hfree : ∀ id ∈ cfg.towerIds, id ∉ b.entityMgr.ids := by
    intro id hid
    have hout := hapart.2 id hid
    rw [hall.ids]
    omega
  rcases settled_placeTowers hall hroom hfree with ⟨hsettled, hkeep⟩
  refine ⟨hsettled, fun q hq => ownsHero_of_eq (a := b) rfl ?_ (howns q (hkeys ▸ hq))⟩
  rintro id ⟨hero, hfind, howner⟩
  exact ⟨hero, hkeep id _ hfind, howner⟩

end Scene

/-! ## Every run -/

section Runs

variable [FloatOps F] {cfg : BattleConfig F} {a a' : Arena F}

/-- No `Create` call of the run replaces an entity, and from the scene on every player has a
hero. -/
def UniqueIds (cfg : BattleConfig F) (es : List (ArenaEvent F)) : Prop :=
  RunOk (next cfg) (Creates (fun ids id => id ∉ ids) cfg) {} es ∧
    ∀ (ms : List (ArenaEvent F)) (a : Arena F), ms <+: es → run (next cfg) {} ms = some a →
      a.stage ≠ .before → a.HeroesOwned

/-- The towers bring ids that differ and that the counter does not give out, and nobody joins
after the scene is set up. -/
def Apart (cfg : BattleConfig F) (a : Arena F) : ArenaEvent F → Prop
  | .enter .. => a.stage = .before ∨ (cfg.teamSize * 2).toNat ≤ a.members.length
  | .remove _ => True
  | .initBattleScene _ => a.stage = .before → TowersApart cfg a
  | .tick confirmed o => a.stage = .fighting →
    TickCreates (fun _ id => id ∉ cfg.towerIds) cfg a confirmed o

/-- The counter has not gone round. -/
def BelowEnd (cfg : BattleConfig F) (a : Arena F) : ArenaEvent F → Prop
  | .tick confirmed o => a.stage = .fighting → TickCreates (fun _ id => id ≠ 0) cfg a confirmed o
  | _ => True

instance (cfg : BattleConfig F) (a : Arena F) : Decidable (TowersApart cfg a) :=
  have : Decidable (∀ id ∈ cfg.towerIds, id.toNat = 0 ∨ a.members.length < id.toNat) :=
    List.decidableBAll (fun id => id.toNat = 0 ∨ a.members.length < id.toNat) cfg.towerIds
  inferInstanceAs (Decidable (cfg.towerIds.Nodup ∧ _))

instance (cfg : BattleConfig F) (a : Arena F) (e : ArenaEvent F) : Decidable (Apart cfg a e) :=
  match e with
  | .enter .. => inferInstanceAs (Decidable (_ ∨ _))
  | .remove _ => .isTrue trivial
  | .initBattleScene _ => inferInstanceAs (Decidable (_ → TowersApart cfg a))
  | .tick confirmed o => inferInstanceAs (Decidable (_ → TickCreates _ cfg a confirmed o))

instance (cfg : BattleConfig F) (a : Arena F) (e : ArenaEvent F) : Decidable (BelowEnd cfg a e) :=
  match e with
  | .enter .. | .remove _ | .initBattleScene _ => .isTrue trivial
  | .tick confirmed o => inferInstanceAs (Decidable (_ → TickCreates _ cfg a confirmed o))

/-- What holds between the events. -/
structure Orderly (cfg : BattleConfig F) (a : Arena F) : Prop where
  before : a.stage = .before → a.entityMgr = {} ∧ a.members.length ≤ 2 ^ 32
  settled : a.stage ≠ .before → Settled cfg.towerIds a.entityMgr
  owned : a.stage ≠ .before → a.HeroesOwned

omit [FloatOps F] in
theorem orderly_init : Orderly cfg ({} : Arena F) :=
  ⟨fun _ => ⟨rfl, Nat.zero_le _⟩, fun h => absurd rfl h, fun h => absurd rfl h⟩

/-- In a settled scene, the calls of a tick take free ids exactly if the counter meets no tower. -/
theorem Orderly.tick_iff (h : Orderly cfg a) (hstage : a.stage = .fighting)
    {confirmed : List ConfirmedInputs} {o : Orders}
    (hround : TickCreates (fun _ id => id ≠ 0) cfg a confirmed o) :
    TickCreates (fun _ id => id ∉ cfg.towerIds) cfg a confirmed o ↔
      TickCreates (fun ids id => id ∉ ids) cfg a confirmed o := by
  have hsettled : Settled cfg.towerIds a.entityMgr := by
    refine h.settled ?_
    rw [hstage]
    exact Stage.noConfusion
  exact tickCreates_congr (fun m hm hround => (hm.free_iff hround).symm)
    (fun m m' hm heffect => hm.effect heffect) hsettled hround

/-- A step that meets the condition leaves the scene in order. -/
theorem Orderly.next (h : Orderly cfg a) {e : ArenaEvent F} (hround : BelowEnd cfg a e)
    (hapart : Apart cfg a e) (hstep : Arena.next cfg a e = some a') : Orderly cfg a' := by
  rcases e with ⟨playerId, team, spawnPos⟩ | playerId | players | ⟨confirmed, o⟩
  case enter =>
    rcases next_enter_eq_some hstep with rfl | ⟨hlt, rfl⟩
    · exact h
    · have hbefore : a.stage = .before := hapart.resolve_right (Nat.not_le_of_lt hlt)
      refine ⟨fun _ => ⟨(h.before hbefore).1, ?_⟩, fun hnot => absurd hbefore hnot,
        fun hnot => absurd hbefore hnot⟩
      have hlen := a.members.length_assign_le playerId ({ team, spawnPos } : Member F)
      have hsize : (cfg.teamSize * 2).toNat < 2 ^ 32 := UInt32.toNat_lt _
      dsimp only
      omega
  case remove =>
    cases hstep
    refine ⟨fun hbefore => ⟨(h.before hbefore).1, ?_⟩, h.settled, fun hnot q hq => ?_⟩
    · exact (List.length_filter_le _ _).trans (h.before hbefore).2
    · rw [Assoc.keys_erase] at hq
      rcases List.mem_filter.mp hq with ⟨hmem, hne⟩
      refine ownsHero_of_eq (a := a) ?_ (fun _ => id) (h.owned hnot q hmem)
      exact (Assoc.lookup_erase a.members playerId q).trans (if_neg (of_decide_eq_true hne))
  case initBattleScene =>
    rcases next_initBattleScene_eq_some.mp hstep with ⟨hstage, rfl⟩
    rcases h.before hstage with ⟨hempty, hroom⟩
    have hscene := settled_initBattleScene players hempty hroom (hapart hstage)
    exact ⟨nofun, fun _ => hscene.1, fun _ => hscene.2⟩
  case tick =>
    rcases next_tick_eq_some.mp hstep with ⟨hstage, rfl⟩
    have hnot : a.stage ≠ .before := by
      rw [hstage]
      exact Stage.noConfusion
    have hfree := (h.tick_iff hstage (hround hstage)).mp (hapart hstage)
    refine ⟨fun hbefore => absurd hbefore (fight_stage_ne_before hstage), fun _ => ?_,
      fun _ q hq => ?_⟩
    · exact (effects_fight (tickCreates_and (hround hstage) (hapart hstage))).invariant
        (fun m m' hm heffect => hm.effect heffect) (h.settled hnot)
    · rw [fight_members] at hq
      refine ownsHero_of_eq (a := a) ?_ (fun id hhero => ?_) (h.owned hnot q hq)
      · rw [fight_members]
      · exact (effects_fight hfree).owner (fun _ hf => hf) hhero

/-- A step whose calls take free ids, and that leaves everybody a hero, meets the condition. -/
theorem Orderly.apart (h : Orderly cfg a) {e : ArenaEvent F} (hround : BelowEnd cfg a e)
    (hfree : Creates (fun ids id => id ∉ ids) cfg a e) (hstep : Arena.next cfg a e = some a')
    (howned : a'.stage ≠ .before → a'.HeroesOwned) : Apart cfg a e := by
  rcases e with ⟨playerId, team, spawnPos⟩ | playerId | players | ⟨confirmed, o⟩
  case enter =>
    by_contra hlate
    rcases not_or.mp hlate with ⟨hnot, hroom⟩
    change (if (cfg.teamSize * 2).toNat ≤ a.members.length then some a
      else some { a with members := a.members.assign playerId { team, spawnPos } }) = some a' at hstep
    rw [if_neg hroom, Option.some.injEq] at hstep
    subst hstep
    -- who joins now has the id of no hero
    have hlookup : (a.members.assign playerId { team, spawnPos }).lookup playerId =
        some ({ team, spawnPos } : Member F) :=
      (Assoc.lookup_assign _ _ _ _).trans (if_pos rfl)
    have hhero := howned hnot playerId (Assoc.mem_keys_iff.mpr ⟨_, hlookup⟩)
    rcases (ownsHero_iff hlookup).mp hhero with ⟨hero, hfind, _⟩
    exact (h.settled hnot).zero hero hfind
  case remove => trivial
  case initBattleScene =>
    intro hstage
    rcases h.before hstage with ⟨hempty, hroom⟩
    exact (initCreates_free_iff hempty hroom).mp (hfree hstage)
  case tick => exact fun hstage => (h.tick_iff hstage (hround hstage)).mpr (hfree hstage)

/-- A step that meets the condition takes free ids only. -/
theorem Orderly.creates (h : Orderly cfg a) {e : ArenaEvent F} (hround : BelowEnd cfg a e)
    (hapart : Apart cfg a e) : Creates (fun ids id => id ∉ ids) cfg a e := by
  rcases e with ⟨playerId, team, spawnPos⟩ | playerId | players | ⟨confirmed, o⟩
  case enter => trivial
  case remove => trivial
  case initBattleScene =>
    intro hstage
    rcases h.before hstage with ⟨hempty, hroom⟩
    exact (initCreates_free_iff hempty hroom).mpr (hapart hstage)
  case tick => exact fun hstage => (h.tick_iff hstage (hround hstage)).mp (hapart hstage)

/-- The ids are unique and everybody has a hero exactly as long as the towers' ids are apart from
each other and from the counter's and nobody joins late, for as long as the counter has not gone
round. -/
theorem uniqueIds_iff (cfg : BattleConfig F) (es : List (ArenaEvent F))
    (hround : RunOk (next cfg) (BelowEnd cfg) {} es) :
    RunOk (next cfg) (Apart cfg) {} es ↔ UniqueIds cfg es := by
  refine runOk_iff_of_both (I := Orderly cfg) (fun a e hnone => ?_) (fun a h => h.owned)
    (fun a e h hround hapart => h.creates hround hapart)
    (fun a e a' h hround hapart hstep => h.next hround hapart hstep)
    (fun a e a' h hround hfree hstep howned => h.apart hround hfree hstep howned)
    orderly_init hround
  -- what does not happen asks for nothing
  rcases e with ⟨playerId, team, spawnPos⟩ | playerId | players | ⟨confirmed, o⟩
  case enter =>
    change (if (cfg.teamSize * 2).toNat ≤ a.members.length then some a
      else some { a with members := a.members.assign playerId { team, spawnPos } }) = none at hnone
    split_ifs at hnone
  case remove => trivial
  case initBattleScene =>
    intro hstage
    have hsome : next cfg a (.initBattleScene players) = some (a.initBattleScene cfg players) :=
      next_initBattleScene_eq_some.mpr ⟨hstage, rfl⟩
    rw [hnone] at hsome
    cases hsome
  case tick =>
    intro hstage
    have hsome : next cfg a (.tick confirmed o) = some (a.fight cfg confirmed o) :=
      next_tick_eq_some.mpr ⟨hstage, rfl⟩
    rw [hnone] at hsome
    cases hsome

/-- A tower that brings the id that the first hero has. -/
theorem firstId_not_uniqueIds :
    ¬ ∀ (cfg : BattleConfig ℚ) (es : List (ArenaEvent ℚ)), UniqueIds cfg es := by
  intro h
  have hrun : (run (next { teamSize := 1, towerDefs := [⟨1, .red, .outer⟩] }) {}
      [.enter 7 .blue (.ground 10 10), .initBattleScene .asIs]).map
        (fun a : Arena ℚ => decide (a.stage ≠ .before ∧ ¬ a.HeroesOwned)) = some true := by
    decide
  rcases Option.map_eq_some_iff.mp hrun with ⟨a, ha, htrue⟩
  rcases of_decide_eq_true htrue with ⟨hstage, hlost⟩
  exact hlost ((h _ _).2 _ a (List.prefix_refl _) ha hstage)

/-- A tower far off, and a hero that fires. -/
def farTower : BattleConfig ℚ := { teamSize := 1, towerDefs := [⟨1000, .red, .outer⟩] }

def firing : List (ArenaEvent ℚ) :=
  [.enter 7 .blue (.ground 10 10), .initBattleScene .asIs,
    .tick [{ frame := 1, playerInputs := [(7, { playerId := 7, skillSlot := 1, hasInput := true })] }]
      ⟨.asIs, .asIs⟩]

theorem uniqueIds_firing : UniqueIds farTower firing :=
  (uniqueIds_iff farTower firing (by decide +kernel)).mp (by decide +kernel)

end Runs

end Arena

end Gmaker.Realtime
