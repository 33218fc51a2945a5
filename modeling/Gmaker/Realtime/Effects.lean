import Mathlib
import Gmaker.Realtime.Combat

/-!
# Gmaker.Realtime.Effects — what a tick does to the entities

A tick changes entities one by one, creates minions and projectiles, and removes projectiles. So
it is a sequence of `Effect`s: the changes are of a class `C`, and `ok` holds of the ids that are
taken and of the new one at every `Create` call. What such effects keep, a tick keeps.
-/

namespace Gmaker.Realtime

open Gmaker.Lib

variable {F : Type}

namespace EntityManager

/-! ## Effects -/

/-- One effect. -/
inductive Effect (C : (Entity F → Entity F) → Prop) (ok : List UInt64 → UInt64 → Prop)
    (m : EntityManager F) : EntityManager F → Prop
  | change (id : UInt64) {f : Entity F → Entity F} (hf : C f) : Effect C ok m (m.modify id f)
  | create {make : UInt64 → Entity F}
      (hmake : (make m.nextEntityId).type = .minion ∨ (make m.nextEntityId).type = .projectile)
      (hok : ok m.ids m.nextEntityId) : Effect C ok m (m.create make)
  | remove {id : UInt64} (hid : ∀ e, m.find id = some e → e.type = .projectile) :
    Effect C ok m (m.removeEntity id)

/-- Effects, one after the other. -/
abbrev Effects (C : (Entity F → Entity F) → Prop) (ok : List UInt64 → UInt64 → Prop) :
    EntityManager F → EntityManager F → Prop :=
  Relation.ReflTransGen (Effect C ok)

/-- A class of changes that has those of what is a hero's, but for its owner, and all blows. -/
structure Allows (C : (Entity F → Entity F) → Prop) : Prop where
  hero : ∀ g : Hero F → Hero F, (∀ h, (g h).ownerPlayerId = h.ownerPlayerId) → C (.onHero g)
  blow : ∀ dmg, C (.takeDamage dmg)

section Effects

variable {C : (Entity F → Entity F) → Prop} {ok : List UInt64 → UInt64 → Prop}
  {m m' : EntityManager F} {id heroId towerId : UInt64}

theorem effects_modify {f : Entity F → Entity F} (hf : C f) (id : UInt64) :
    Effects C ok m (m.modify id f) :=
  .single (.change id hf)

/-- What no effect leaves. -/
theorem Effects.invariant {I : EntityManager F → Prop}
    (hstep : ∀ m m', I m → Effect C ok m m' → I m') (hm : I m) (h : Effects C ok m m') : I m' := by
  induction h with
  | refl => exact hm
  | tail _ heffect ih => exact hstep _ _ ih heffect

/-- Loops whose passes are effects. -/
theorem effects_foldl {σ α : Type} (mgr : σ → EntityManager F) {f : σ → α → σ} {P : σ → α → Prop}
    {l : List α} {s : σ} (hpass : ∀ s, ∀ a ∈ l, P s a → Effects C ok (mgr s) (mgr (f s a)))
    (hP : FoldOk f P s l) : Effects C ok (mgr s) (mgr (l.foldl f s)) :=
  foldl_invariant (I := fun s' => Effects C ok (mgr s) (mgr s'))
    (fun s' a ha hok h => h.trans (hpass s' a ha hok)) .refl hP

theorem effects_foldl_all {σ α : Type} (mgr : σ → EntityManager F) {f : σ → α → σ}
    (hpass : ∀ s a, Effects C ok (mgr s) (mgr (f s a))) (l : List α) (s : σ) :
    Effects C ok (mgr s) (mgr (l.foldl f s)) :=
  foldl_invariant_all (I := fun s' => Effects C ok (mgr s) (mgr s'))
    (fun s' a _ h => h.trans (hpass s' a)) .refl

/-! ### Projectiles that go -/

/-- Nothing but projectiles goes. -/
theorem effects_removeSpent (o : Order UInt64) : Effects C ok m (m.removeSpent o) := by
  have hloop : Effects C ok m (m.removeSpent o) ∧
      ∀ j e, (m.removeSpent o).find j = some e → m.find j = some e := by
    refine foldl_invariant_all (I := fun m' : EntityManager F => Effects C ok m m' ∧
      ∀ j e, m'.find j = some e → m.find j = some e) ?_ ⟨.refl, fun _ _ h => h⟩
    rintro m' id hid ⟨heffects, hold⟩
    constructor
    · refine heffects.tail (.remove fun e he => ?_)
      rcases mem_getByType.mp (List.mem_of_mem_filter hid) with ⟨e', he', htype⟩
      cases (hold id e he).symm.trans he'
      exact htype
    · intro j e he
      rw [find_removeEntity] at he
      split_ifs at he
      exact hold j e he
  exact hloop.1

/-! ### Inputs -/

variable [FloatOps F]

open FloatOps

/-- Whether the skill of an input sends a projectile off. -/
def fires (m : EntityManager F) (heroId : UInt64) (input : PlayerInput) : Bool :=
  match m.find heroId with
  | some (.hero h) =>
    (h.castSkill input.skillSlot.toNat).1 &&
      (h.skills[input.skillSlot.toNat]?).any fun skill => lt (int 0) skill.projectileSpeed
  | _ => false

theorem ids_moveHero (input : PlayerInput) : (m.moveHero heroId input).ids = m.ids := by
  unfold moveHero
  split_ifs
  · exact ids_modify
  · rfl

theorem nextEntityId_moveHero (input : PlayerInput) :
    (m.moveHero heroId input).nextEntityId = m.nextEntityId := by
  unfold moveHero
  split_ifs <;> rfl

theorem effects_moveHero (hC : Allows C) (input : PlayerInput) :
    Effects C ok m (m.moveHero heroId input) := by
  unfold moveHero
  split_ifs
  · dsimp only
    refine effects_modify ?_ heroId
    exact hC.hero _ fun _ => rfl
  · exact .refl

omit [FloatOps F] in
theorem effects_instantHit (hC : Allows C) (targetId : UInt64) (dmg : ℕ) :
    Effects C ok m (m.instantHit targetId dmg) := by
  unfold instantHit
  split_ifs
  · exact effects_modify (hC.blow dmg) targetId
  · exact .refl

omit [FloatOps F] in
theorem castSkill_owner (h : Hero F) (slot : ℕ) :
    (h.castSkill slot).2.ownerPlayerId = h.ownerPlayerId := by
  unfold Hero.castSkill
  rcases h.skills[slot]? with _ | skill
  · rfl
  · dsimp only
    split_ifs <;> rfl

/-- A skill creates a projectile if it fires one. -/
theorem effects_castHero (hC : Allows C) {input : PlayerInput}
    (hnew : m.fires heroId input = true → ok m.ids m.nextEntityId) :
    Effects C ok m (m.castHero heroId input) := by
  unfold castHero
  unfold fires at hnew
  rcases hm : m.find heroId with _ | (h | _ | _ | _)
  case some.hero =>
    rw [hm] at hnew
    have hcast : Effects C ok m (m.modify heroId
        (.onHero fun h => (h.castSkill input.skillSlot.toNat).2)) :=
      effects_modify (hC.hero _ fun h => castSkill_owner h _) heroId
    dsimp only at hnew ⊢
    split_ifs with hcan
    · rcases hskill : h.skills[input.skillSlot.toNat]? with _ | skill
      · exact hcast
      · dsimp only
        split_ifs with hspeed
        · refine hcast.tail (.create (Or.inr rfl) ?_)
          rw [ids_modify]
          refine hnew ?_
          rw [hcan, hskill, Option.any_some, hspeed]
          rfl
        · exact hcast.trans (effects_instantHit hC _ _)
    · exact .refl
  all_goals exact .refl

/-! ### Combat -/

theorem effects_towerTurn (hC : Allows C) (htower : ∀ g : Tower F → Tower F, C (.onTower g))
    (minions heroes : List UInt64) (towerId : UInt64) :
    Effects C ok m (towerTurn minions heroes m towerId) := by
  rw [towerTurn_eq]
  have hcool : Effects C ok m (m.cool towerId) := by
    unfold cool
    split_ifs
    · exact effects_modify (htower _) towerId
    · exact .refl
  rcases m.aim minions heroes towerId with _ | ⟨targetId, dmg⟩
  · exact hcool
  · dsimp only
    have hshot := (hcool.trans (effects_modify (hC.blow dmg) targetId)).trans
      (effects_modify (htower .onAttack) towerId)
    unfold shoot
    dsimp only
    split_ifs
    · exact hshot
    · exact hshot.trans (effects_modify (hC.hero .addDeath fun _ => rfl) targetId)

omit [FloatOps F] in
theorem addKill_owner (h : Hero F) : h.addKill.ownerPlayerId = h.ownerPlayerId := by
  have hlevel : ∀ (fuel : ℕ) (h : Hero F),
      (Hero.levelUp fuel h).ownerPlayerId = h.ownerPlayerId := by
    intro fuel
    induction fuel with
    | zero => exact fun _ => rfl
    | succ fuel ih =>
      intro h
      unfold Hero.levelUp
      split_ifs
      · rw [ih]
      · rfl
  exact hlevel _ _

theorem effects_checkHit (hC : Allows C) (proj : Projectile F) (id : UInt64) :
    Effects C ok m (checkHit proj m id) := by
  rw [checkHit_eq]
  rcases m.find id with _ | cand
  · exact .refl
  · have hblow : Effects C ok m (m.modify id (.takeDamage proj.damage)) :=
      effects_modify (hC.blow _) id
    dsimp only
    split_ifs
    · exact hblow
    · exact hblow.trans (effects_modify (hC.hero _ addKill_owner) _)
    · exact .refl

theorem effects_projectileTurn (hC : Allows C) (heroes minions towers : List UInt64)
    (projectileId : UInt64) : Effects C ok m (projectileTurn heroes minions towers m projectileId) := by
  rw [projectileTurn_eq]
  rcases m.find projectileId with _ | (_ | _ | _ | proj)
  case some.projectile =>
    dsimp only
    split_ifs
    · exact effects_foldl_all id (fun m' id' => effects_checkHit hC proj id') _ m
    · exact .refl
  all_goals exact .refl

theorem effects_tickCombat (hC : Allows C) (htower : ∀ g : Tower F → Tower F, C (.onTower g))
    (o : Order UInt64) : Effects C ok m (m.tickCombat o) := by
  unfold tickCombat
  exact (effects_foldl_all id (fun _ => effects_towerTurn hC htower _ _) _ m).trans
    (effects_foldl_all id (fun _ => effects_projectileTurn hC _ _ _) _ _)

theorem effects_tickAll {deltaMs : ℕ} (htick : C (Entity.tick deltaMs)) (o : Order UInt64) :
    Effects C ok m (m.tickAll o deltaMs) :=
  effects_foldl_all id (fun _ => effects_modify htick) _ m

/-! ### Minions -/

/-- The minions of a side: what they are, where they begin and where they go. -/
def waveOf (team : TeamSide) : List (MinionType × Vec3 F × List (Vec3 F)) :=
  let waypoints : List (Vec3 F) :=
    if team = .blue then [.ground 30 30, .ground 50 50, .ground 70 70, .ground 90 90]
    else [.ground 70 70, .ground 50 50, .ground 30 30, .ground 10 10]
  let melee : Vec3 F := if team = .blue then .ground 10 10 else .ground 90 90
  let ranged : Vec3 F := if team = .blue then .ground 12 8 else .ground 88 92
  [(.melee, melee, waypoints), (.melee, melee, waypoints), (.melee, melee, waypoints),
    (.ranged, ranged, waypoints)]

/-- One of them. -/
def spawn (team : TeamSide) (m : EntityManager F) (d : MinionType × Vec3 F × List (Vec3 F)) :
    EntityManager F :=
  m.spawnMinion team d.1 d.2.1 d.2.2

theorem spawnWave_eq (m : EntityManager F) (team : TeamSide) :
    m.spawnWave team = (waveOf team).foldl (spawn team) m := rfl

theorem effects_spawnWave (team : TeamSide)
    (hnew : FoldOk (spawn team) (fun m _ => ok m.ids m.nextEntityId) m (waveOf team)) :
    Effects C ok m (m.spawnWave team) := by
  rw [spawnWave_eq]
  have hone : ∀ m d, ok m.ids m.nextEntityId → Effects C ok m (spawn team m d) := by
    intro m d hok
    unfold spawn spawnMinion
    exact .single (.create (Or.inl rfl) hok)
  exact effects_foldl id (fun m d _ hok => hone m d hok) hnew

end Effects

end EntityManager

/-! ## The parts of a tick -/

namespace Arena

variable {C : (Entity F → Entity F) → Prop} {ok : List UInt64 → UInt64 → Prop} {a : Arena F}
  {cfg : BattleConfig F} {confirmed : List ConfirmedInputs} {o : Orders}

open EntityManager

theorem effects_buryHeroes (hC : Allows C) (players : Order UInt64) :
    Effects C ok a.entityMgr (a.buryHeroes players).entityMgr := by
  refine effects_foldl_all Arena.entityMgr (fun a pid => ?_) _ a
  unfold buryOf
  rcases a.heroOf pid with _ | heroId
  · exact .refl
  · refine effects_modify (hC.hero _ fun h => ?_) heroId
    unfold buryHero
    split_ifs <;> rfl

variable [FloatOps F]

/-- Whether an input sends a projectile off. -/
def fires (a : Arena F) (p : UInt64 × PlayerInput) : Bool :=
  (a.heroOf p.1).any fun heroId =>
    a.entityMgr.test Entity.isAlive heroId && p.2.hasInput && p.2.skillSlot ≠ 0xFF &&
      (a.entityMgr.moveHero heroId p.2).fires heroId p.2

theorem effects_processHeroInput (hC : Allows C) {p : UInt64 × PlayerInput}
    (hnew : a.fires p = true → ok a.entityMgr.ids a.entityMgr.nextEntityId) :
    Effects C ok a.entityMgr (a.processHeroInput p.1 p.2).entityMgr := by
  unfold processHeroInput
  unfold fires at hnew
  rcases hhero : a.heroOf p.1 with _ | heroId
  · exact .refl
  · rw [hhero, Option.any_some] at hnew
    dsimp only
    split_ifs with hcan hslot
    · refine (effects_moveHero hC p.2).trans (effects_castHero hC fun hfires => ?_)
      rw [ids_moveHero, nextEntityId_moveHero]
      refine hnew ?_
      rw [hcan, hfires, decide_eq_true hslot]
      rfl
    · exact effects_moveHero hC p.2
    · exact .refl

/-- The inputs of the confirmed frames. -/
theorem effects_processConfirmed (hC : Allows C)
    (hnew : FoldOk (fun a p => a.processHeroInput p.1 p.2)
      (fun a p => a.fires p = true → ok a.entityMgr.ids a.entityMgr.nextEntityId) a
      (confirmed.flatMap ConfirmedInputs.playerInputs)) :
    Effects C ok a.entityMgr (a.processConfirmed confirmed).entityMgr := by
  have hflat : a.processConfirmed confirmed =
      (confirmed.flatMap ConfirmedInputs.playerInputs).foldl
        (fun a p => a.processHeroInput p.1 p.2) a := List.foldl_flatMap.symm
  rw [hflat]
  exact effects_foldl Arena.entityMgr (fun _ _ _ h => effects_processHeroInput hC h) hnew

/-- Whether it is time for a wave. -/
def waveDue (cfg : BattleConfig F) (a : Arena F) : Prop :=
  cfg.minionSpawnIntervalSec * 1000 ≤ a.minionSpawnTimerMs + 33

instance (cfg : BattleConfig F) (a : Arena F) : Decidable (a.waveDue cfg) :=
  inferInstanceAs (Decidable (_ ≤ _))

/-- At every `Create` call of `SpawnMinions`. -/
def SpawnsOk (ok : List UInt64 → UInt64 → Prop) (cfg : BattleConfig F) (a : Arena F) : Prop :=
  a.waveDue cfg →
    FoldOk (spawn .blue) (fun m _ => ok m.ids m.nextEntityId) a.entityMgr (waveOf .blue) ∧
    FoldOk (spawn .red) (fun m _ => ok m.ids m.nextEntityId) (a.entityMgr.spawnWave .blue)
      (waveOf .red)

theorem effects_spawnMinions (hnew : SpawnsOk ok cfg a) :
    Effects C ok a.entityMgr (a.spawnMinions cfg).entityMgr := by
  unfold spawnMinions
  dsimp only
  split_ifs with hdue
  · exact (effects_spawnWave .blue (hnew hdue).1).trans (effects_spawnWave .red (hnew hdue).2)
  · exact .refl

end Arena

end Gmaker.Realtime
