import Gmaker.Realtime.Combat

/-!
# Gmaker.Realtime.HeroLife — what a battle does to the life of a hero

A hero falls when a blow takes its last hit point. A fall by a tower is counted at once,
any other one when the room looks for the dead of its players at the end of the tick; in
between the fall is `pending`.

`LifeStep` says what a blow or a kill may do to a hero if every fall is to be counted
once: a tower kills no hero that the room will look for, a skill kills only such heroes,
and a dead hero gains no level. The conditions `TowerSpares`, `HitCounted` and the like
say so of the single blows of a tick, and `Lives` carries the result through all of them.
-/

namespace Gmaker.Realtime

open Gmaker.Lib

variable {F : Type}

/-! ## One hero -/

namespace Hero

/-- The next kill lifts the hero a level. -/
def gains (h : Hero F) : Bool := h.expToNext ≤ h.exp + 200 && h.level < 15

/-- A fall that is not counted yet: the hero is one of a player in the room, and dead
without waiting for anything. -/
def pending (owned : Bool) (h : Hero F) : ℕ :=
  if owned && !h.isAlive && h.respawnTimer = 0 then 1 else 0

/-- A hero whose falls are counted, but for a pending one. -/
structure Ok (owned : Bool) (h : Hero F) : Prop where
  maxHp : 0 < h.maxHp
  timer : h.isAlive = true → h.respawnTimer = 0
  counted : h.deaths + h.pending owned = h.falls

/-- Nothing changes in the life of the hero. -/
structure SameLife (h h' : Hero F) : Prop where
  alive : h'.isAlive = h.isAlive
  timer : h'.respawnTimer = h.respawnTimer
  deaths : h'.deaths = h.deaths
  falls : h'.falls = h.falls
  maxHp : h.maxHp ≤ h'.maxHp

/-- What may happen to a hero: nothing, a fall that is pending, or one by a tower of a
hero that the room does not look for. -/
inductive LifeStep (owned : Bool) (h h' : Hero F) : Prop where
  | keeps (same : SameLife h h')
  | falls (alive : h.isAlive = true) (dead : h'.isAlive = false) (own : owned = true)
      (timer : h'.respawnTimer = h.respawnTimer) (deaths : h'.deaths = h.deaths)
      (falls : h'.falls = h.falls + 1) (maxHp : h.maxHp ≤ h'.maxHp)
  | shot (alive : h.isAlive = true) (dead : h'.isAlive = false) (own : owned = false)
      (timer : h'.respawnTimer = h.respawnTimer) (deaths : h'.deaths = h.deaths + 1)
      (falls : h'.falls = h.falls + 1) (maxHp : h.maxHp ≤ h'.maxHp)

section Hero

variable {h h' : Hero F} {owned : Bool}

theorem SameLife.refl (h : Hero F) : SameLife h h := ⟨rfl, rfl, rfl, rfl, le_rfl⟩

theorem SameLife.trans {h'' : Hero F} (h₁ : SameLife h h') (h₂ : SameLife h' h'') :
    SameLife h h'' :=
  ⟨h₂.alive.trans h₁.alive, h₂.timer.trans h₁.timer, h₂.deaths.trans h₁.deaths,
    h₂.falls.trans h₁.falls, h₁.maxHp.trans h₂.maxHp⟩

theorem LifeStep.timer_eq (hstep : LifeStep owned h h') : h'.respawnTimer = h.respawnTimer := by
  cases hstep with
  | keeps same => exact same.timer
  | falls _ _ _ timer => exact timer
  | shot _ _ _ timer => exact timer

/-- Nobody rises. -/
theorem LifeStep.alive_of_alive (hstep : LifeStep owned h h') (halive : h'.isAlive = true) :
    h.isAlive = true := by
  cases hstep with
  | keeps same => exact same.alive.symm.trans halive
  | falls alive => exact alive
  | shot alive => exact alive

theorem pending_of_alive (halive : h.isAlive = true) : h.pending owned = 0 := by
  simp [pending, halive]

theorem Ok.step (hok : Ok owned h) (hstep : LifeStep owned h h') : Ok owned h' := by
  have hcounted := hok.counted
  cases hstep with
  | keeps same =>
    refine ⟨hok.maxHp.trans_le same.maxHp, fun halive => ?_, ?_⟩
    · rw [same.timer]
      exact hok.timer (same.alive.symm.trans halive)
    · have hpending : h'.pending owned = h.pending owned := by
        unfold pending
        rw [same.alive, same.timer]
      rw [same.deaths, same.falls, hpending, hcounted]
  | falls alive dead own timer deaths falls maxHp =>
    have hzero := hok.timer alive
    refine ⟨hok.maxHp.trans_le maxHp, fun halive => ?_, ?_⟩
    · rw [dead] at halive
      cases halive
    · -- the new fall is the pending one
      rw [pending_of_alive alive] at hcounted
      have hpending : h'.pending owned = 1 := by simp [pending, dead, own, timer, hzero]
      omega
  | shot alive dead own timer deaths falls maxHp =>
    refine ⟨hok.maxHp.trans_le maxHp, fun halive => ?_, ?_⟩
    · rw [dead] at halive
      cases halive
    · rw [pending_of_alive alive] at hcounted
      have hpending : h'.pending owned = 0 := by simp [pending, own]
      omega

/-! ### Blows -/

theorem takeDamage_isAlive (h : Hero F) (dmg : ℕ) :
    (h.takeDamage dmg).isAlive = (decide ((dmg : ℤ) < h.hp) && h.isAlive) := by
  have hhp : (h.takeDamage dmg).hp = max 0 (h.hp - dmg) := rfl
  unfold IEntity.isAlive
  rw [hhp, Bool.eq_iff_iff, Bool.and_eq_true, decide_eq_true_iff, decide_eq_true_iff,
    decide_eq_true_iff]
  omega

/-- A blow that does not kill. -/
theorem sameLife_takeDamage {dmg : ℕ} (hlife : ¬ (h.isAlive = true ∧ h.hp ≤ dmg)) :
    SameLife h (h.takeDamage dmg) := by
  have halive : (h.takeDamage dmg).isAlive = h.isAlive := by
    rw [takeDamage_isAlive]
    cases hdead : h.isAlive with
    | false => exact Bool.and_false _
    | true =>
      have hlt : (dmg : ℤ) < h.hp := by
        by_contra hle
        exact hlife ⟨hdead, by omega⟩
      simp [hlt]
  refine ⟨halive, rfl, rfl, ?_, le_rfl⟩
  have hfalls : (h.takeDamage dmg).falls =
      if h.isAlive && !(h.takeDamage dmg).isAlive then h.falls + 1 else h.falls := rfl
  rw [hfalls, halive]
  simp

/-- A blow that kills. -/
theorem takeDamage_of_kill {dmg : ℕ} (halive : h.isAlive = true) (hkill : h.hp ≤ dmg) :
    (h.takeDamage dmg).isAlive = false ∧ (h.takeDamage dmg).falls = h.falls + 1 := by
  have hdead : (h.takeDamage dmg).isAlive = false := by
    rw [takeDamage_isAlive]
    simp [hkill]
  refine ⟨hdead, ?_⟩
  have hfalls : (h.takeDamage dmg).falls =
      if h.isAlive && !(h.takeDamage dmg).isAlive then h.falls + 1 else h.falls := rfl
  rw [hfalls, hdead, halive]
  rfl

/-- A blow of a skill: if it kills, the room will look for the hero. -/
theorem lifeStep_takeDamage {dmg : ℕ} (hown : h.isAlive = true ∧ h.hp ≤ dmg → owned = true) :
    LifeStep owned h (h.takeDamage dmg) := by
  by_cases hkill : h.isAlive = true ∧ h.hp ≤ dmg
  · obtain ⟨hdead, hfalls⟩ := takeDamage_of_kill hkill.1 hkill.2
    exact .falls hkill.1 hdead (hown hkill) rfl rfl hfalls le_rfl
  · exact .keeps (sameLife_takeDamage hkill)

/-! ### Kills -/

theorem levelUp_spec (fuel : ℕ) (hmax : 0 < h.maxHp) :
    ((levelUp fuel h).isAlive = true ∨ (levelUp fuel h).isAlive = h.isAlive) ∧
      (levelUp fuel h).respawnTimer = h.respawnTimer ∧ (levelUp fuel h).deaths = h.deaths ∧
      (levelUp fuel h).falls = h.falls ∧ h.maxHp ≤ (levelUp fuel h).maxHp := by
  induction fuel generalizing h with
  | zero => exact ⟨.inr rfl, rfl, rfl, rfl, le_rfl⟩
  | succ fuel ih =>
    unfold levelUp
    split_ifs
    · obtain ⟨halive, htimer, hdeaths, hfalls, hle⟩ := ih (h := { h with
        exp := h.exp - h.expToNext
        level := h.level + 1
        maxHp := h.maxHp + 50
        hp := h.maxHp + 50 }) (by simp only; omega)
      refine ⟨.inl ?_, htimer, hdeaths, hfalls, ?_⟩
      · rcases halive with halive | halive
        · exact halive
        · rw [halive]
          simp only [IEntity.isAlive, decide_eq_true_eq]
          omega
      · simp only at hle
        omega
    · exact ⟨.inr rfl, rfl, rfl, rfl, le_rfl⟩

/-- A kill without a new level changes neither hit points nor level. -/
theorem addKill_of_not_gains (hgains : h.gains = false) :
    h.addKill = { h with kills := h.kills + 1, gold := h.gold + 200, exp := h.exp + 200 } := by
  have hnot : ¬ (h.expToNext ≤ h.exp + 200 ∧ h.level < 15) := by
    intro hboth
    simp [gains, hboth] at hgains
  unfold addKill addExp
  cases 15 - h.level with
  | zero => rfl
  | succ fuel =>
    unfold levelUp
    exact if_neg hnot

/-- A kill of a hero that lives, or that gains no level by it. -/
theorem sameLife_addKill (hmax : 0 < h.maxHp) (hlife : h.isAlive = true ∨ h.gains = false) :
    SameLife h h.addKill := by
  rcases hlife with halive | hgains
  · have hspec := levelUp_spec (15 - h.level)
      (h := { h with kills := h.kills + 1, gold := h.gold + 200, exp := h.exp + 200 }) hmax
    obtain ⟨hrises, htimer, hdeaths, hfalls, hle⟩ := hspec
    refine ⟨?_, htimer, hdeaths, hfalls, hle⟩
    rcases hrises with hrises | hrises
    · exact hrises.trans halive.symm
    · exact hrises
  · rw [addKill_of_not_gains hgains]
    exact ⟨rfl, rfl, rfl, rfl, le_rfl⟩

end Hero

end Hero

/-! ## All heroes -/

namespace EntityManager

/-- Every hero is well, and none has risen since `m₀`. -/
structure Lives (owned : UInt64 → Bool) (m₀ m : EntityManager F) : Prop where
  ok : ∀ id h, m.find id = some (.hero h) → h.Ok (owned id)
  since : ∀ id h, m.find id = some (.hero h) → ∃ h₀, m₀.find id = some (.hero h₀) ∧
    (h.isAlive = true → h₀.isAlive = true) ∧ h.respawnTimer = h₀.respawnTimer

section Lives

variable {owned : UInt64 → Bool} {m₀ m : EntityManager F} {id : UInt64}

theorem Lives.refl (h : ∀ id h, m.find id = some (.hero h) → h.Ok (owned id)) :
    Lives owned m m :=
  ⟨h, fun _ h hfind => ⟨h, hfind, fun halive => halive, rfl⟩⟩

/-- A change of one entity that does to a hero what may happen to it, and makes none. -/
theorem Lives.modify (h : Lives owned m₀ m) {f : Entity F → Entity F}
    (hf : ∀ e h', m.find id = some e → f e = .hero h' →
      ∃ h, e = .hero h ∧ (h.Ok (owned id) → h.LifeStep (owned id) h')) :
    Lives owned m₀ (m.modify id f) := by
  constructor
  · intro j h' hfind
    obtain ⟨e, he, ⟨rfl, heq⟩ | ⟨-, rfl⟩⟩ := find_of_modify hfind
    · obtain ⟨h₁, rfl, hstep⟩ := hf e h' he heq.symm
      exact (h.ok j h₁ he).step (hstep (h.ok j h₁ he))
    · exact h.ok j h' he
  · intro j h' hfind
    obtain ⟨e, he, ⟨rfl, heq⟩ | ⟨-, rfl⟩⟩ := find_of_modify hfind
    · obtain ⟨h₁, rfl, hstep⟩ := hf e h' he heq.symm
      have hlife := hstep (h.ok j h₁ he)
      obtain ⟨h₀, hfind₀, halive₀, htimer₀⟩ := h.since j h₁ he
      refine ⟨h₀, hfind₀, fun halive => halive₀ (hlife.alive_of_alive halive), ?_⟩
      exact hlife.timer_eq.trans htimer₀
    · exact h.since j h' he

/-- A change of a hero that leaves its life alone. -/
theorem Lives.modify_sameLife (h : Lives owned m₀ m) {f : Hero F → Hero F}
    (hf : ∀ h, m.find id = some (.hero h) → h.Ok (owned id) → h.SameLife (f h)) :
    Lives owned m₀ (m.modify id (.onHero f)) := by
  refine h.modify fun e h' he heq => ?_
  cases e with
  | hero h₁ =>
    cases heq
    exact ⟨h₁, rfl, fun hok => .keeps (hf h₁ he hok)⟩
  | _ => cases heq

theorem Lives.modify_onTower (h : Lives owned m₀ m) {f : Tower F → Tower F} :
    Lives owned m₀ (m.modify id (.onTower f)) := by
  refine h.modify fun e h' _ heq => ?_
  cases e with
  | hero h₁ =>
    cases heq
    exact ⟨_, rfl, fun _ => .keeps (.refl _)⟩
  | _ => cases heq

/-- The heroes of `m'` are heroes of `m`, as they were. -/
def SameHeroes (m m' : EntityManager F) : Prop :=
  ∀ id h, m'.find id = some (.hero h) → m.find id = some (.hero h)

theorem SameHeroes.refl (m : EntityManager F) : SameHeroes m m := fun _ _ hfind => hfind

theorem SameHeroes.trans {m' m'' : EntityManager F} (h : SameHeroes m m') (h' : SameHeroes m' m'') :
    SameHeroes m m'' :=
  fun id hero hfind => h id hero (h' id hero hfind)

/-- A new entity that is not a hero. -/
theorem sameHeroes_create {make : UInt64 → Entity F} (hmake : ∀ h', make m.nextEntityId ≠ .hero h') :
    SameHeroes m (m.create make) := by
  intro j h' hfind
  rw [find_create] at hfind
  split_ifs at hfind
  · exact absurd (Option.some.inj hfind) (hmake h')
  · exact hfind

theorem sameHeroes_put {e : Entity F} (he : ∀ h', e ≠ .hero h') : SameHeroes m (m.put id e) := by
  intro j h' hfind
  rw [find_put] at hfind
  split_ifs at hfind
  · exact absurd (Option.some.inj hfind) (he h')
  · exact hfind

theorem sameHeroes_removeEntity : SameHeroes m (m.removeEntity id) := by
  intro j h' hfind
  rw [find_removeEntity] at hfind
  split_ifs at hfind
  exact hfind

theorem Lives.of_sameHeroes {m' : EntityManager F} (h : Lives owned m₀ m) (hsame : SameHeroes m m') :
    Lives owned m₀ m' :=
  ⟨fun id hero hfind => h.ok id hero (hsame id hero hfind),
    fun id hero hfind => h.since id hero (hsame id hero hfind)⟩

end Lives

/-! ## Conditions on single blows -/

/-- The blow kills a hero. -/
def killsHero (m : EntityManager F) (id : UInt64) (dmg : ℕ) : Bool :=
  m.test (fun | .hero h => h.isAlive && h.hp ≤ dmg | _ => false) id

/-- The entity is a dead hero that the next kill lifts a level. -/
def risesByKill (m : EntityManager F) (id : UInt64) : Bool :=
  m.test (fun | .hero h => !h.isAlive && h.gains | _ => false) id

section Conditions

variable [FloatOps F]

open FloatOps

/-- If the skill of an input hits at once and kills a hero, it is one of a player in the
room. -/
def CastCounted (owned : UInt64 → Bool) (m : EntityManager F) (heroId : UInt64)
    (input : PlayerInput) : Prop :=
  match m.find heroId with
  | some (.hero h) =>
    match h.skills[input.skillSlot.toNat]? with
    | none => True
    | some skill =>
      (h.castSkill input.skillSlot.toNat).1 = true → lt (int 0) skill.projectileSpeed = false →
        (m.modify heroId (.onHero fun h => (h.castSkill input.skillSlot.toNat).2)).killsHero
          input.skillTargetEid skill.damage = true → owned input.skillTargetEid = true
  | _ => True

/-- If the tower kills a hero, it is not one of a player in the room. -/
def TowerSpares (owned : UInt64 → Bool) (minions heroes : List UInt64) (m : EntityManager F)
    (towerId : UInt64) : Prop :=
  match m.aim minions heroes towerId with
  | none => True
  | some (targetId, dmg) => m.killsHero targetId dmg = true → owned targetId = false

/-- If the hit kills a hero, it is one of a player in the room; if it kills at all, the
caster does not rise by it. -/
def HitCounted (owned : UInt64 → Bool) (proj : Projectile F) (m : EntityManager F) (id : UInt64) :
    Prop :=
  match m.find id with
  | none => True
  | some cand =>
    m.hits proj cand = true →
      (m.killsHero id proj.damage = true → owned id = true) ∧
        ((cand.takeDamage proj.damage).isAlive = false → m.risesByKill proj.casterId = false)

/-- The condition on all hits of a projectile. -/
def ProjectileCounted (owned : UInt64 → Bool) (heroes minions towers : List UInt64)
    (m : EntityManager F) (projectileId : UInt64) : Prop :=
  match m.find projectileId with
  | some (.projectile proj) =>
    proj.reached = true →
      FoldOk (checkHit proj) (HitCounted owned proj) m (heroes ++ minions ++ towers)
  | _ => True

/-- The condition on the combat of a tick. -/
def CombatCounted (owned : UInt64 → Bool) (o : Order UInt64) (m : EntityManager F) : Prop :=
  let towers := m.getByType o .tower
  let heroes := m.getByType o .hero
  let minions := m.getByType o .minion
  FoldOk (towerTurn minions heroes) (TowerSpares owned minions heroes) m towers ∧
    let m := towers.foldl (towerTurn minions heroes) m
    FoldOk (projectileTurn heroes minions towers) (ProjectileCounted owned heroes minions towers)
      m (m.getByType o .projectile)

instance (owned : UInt64 → Bool) (m : EntityManager F) (heroId : UInt64) (input : PlayerInput) :
    Decidable (CastCounted owned m heroId input) := by
  unfold CastCounted
  split
  · split <;> infer_instance
  · infer_instance

instance (owned : UInt64 → Bool) (minions heroes : List UInt64) (m : EntityManager F)
    (towerId : UInt64) : Decidable (TowerSpares owned minions heroes m towerId) := by
  unfold TowerSpares
  split <;> infer_instance

instance (owned : UInt64 → Bool) (proj : Projectile F) (m : EntityManager F) (id : UInt64) :
    Decidable (HitCounted owned proj m id) := by
  unfold HitCounted
  split <;> infer_instance

instance (owned : UInt64 → Bool) (heroes minions towers : List UInt64) (m : EntityManager F)
    (projectileId : UInt64) :
    Decidable (ProjectileCounted owned heroes minions towers m projectileId) := by
  unfold ProjectileCounted
  split <;> infer_instance

instance (owned : UInt64 → Bool) (o : Order UInt64) (m : EntityManager F) :
    Decidable (CombatCounted owned o m) := by
  unfold CombatCounted
  infer_instance

end Conditions

/-! ## The operations of a tick -/

section Operations

variable [FloatOps F] {owned : UInt64 → Bool} {m₀ m : EntityManager F}

omit [FloatOps F] in
theorem killsHero_eq_true {id : UInt64} {dmg : ℕ} {h : Hero F} (hfind : m.find id = some (.hero h)) :
    m.killsHero id dmg = true ↔ h.isAlive = true ∧ h.hp ≤ dmg := by
  unfold killsHero test
  rw [hfind]
  simp

theorem Lives.moveHero (h : Lives owned m₀ m) (heroId : UInt64) (input : PlayerInput) :
    Lives owned m₀ (m.moveHero heroId input) := by
  unfold EntityManager.moveHero
  split_ifs
  · exact h.modify_sameLife fun h _ _ => ⟨rfl, rfl, rfl, rfl, le_rfl⟩
  · exact h

omit [FloatOps F] in
/-- A blow of a skill on anything. -/
theorem Lives.modify_takeDamage (h : Lives owned m₀ m) {id : UInt64} {dmg : ℕ}
    (hown : m.killsHero id dmg = true → owned id = true) :
    Lives owned m₀ (m.modify id (.takeDamage dmg)) := by
  refine h.modify fun e h' he heq => ?_
  cases e with
  | hero h₁ =>
    cases heq
    refine ⟨h₁, rfl, fun _ => Hero.lifeStep_takeDamage fun hkill => hown ?_⟩
    exact (killsHero_eq_true he).mpr hkill
  | _ => cases heq

omit [FloatOps F] in
theorem Lives.instantHit (h : Lives owned m₀ m) {targetId : UInt64} {dmg : ℕ}
    (hown : m.killsHero targetId dmg = true → owned targetId = true) :
    Lives owned m₀ (m.instantHit targetId dmg) := by
  unfold EntityManager.instantHit
  split_ifs
  · exact h.modify_takeDamage hown
  · exact h

omit [FloatOps F] in
theorem sameLife_castSkill (h : Hero F) (slot : ℕ) : h.SameLife (h.castSkill slot).2 := by
  unfold Hero.castSkill
  cases h.skills[slot]? with
  | none => exact .refl h
  | some skill =>
    simp only
    split_ifs
    · exact .refl h
    · exact ⟨rfl, rfl, rfl, rfl, le_rfl⟩

theorem Lives.castHero (h : Lives owned m₀ m) {heroId : UInt64} {input : PlayerInput}
    (hcounted : CastCounted owned m heroId input) : Lives owned m₀ (m.castHero heroId input) := by
  unfold EntityManager.castHero
  unfold CastCounted at hcounted
  cases hfind : m.find heroId with
  | none => exact h
  | some e =>
    rw [hfind] at hcounted
    cases e with
    | hero hero =>
      simp only at hcounted ⊢
      have hcast : Lives owned m₀
          (m.modify heroId (.onHero fun h => (h.castSkill input.skillSlot.toNat).2)) :=
        h.modify_sameLife fun h _ _ => sameLife_castSkill h _
      by_cases hcan : (hero.castSkill input.skillSlot.toNat).1 = true
      · rw [if_pos hcan]
        cases hskill : hero.skills[input.skillSlot.toNat]? with
        | none => exact hcast
        | some skill =>
          rw [hskill] at hcounted
          simp only at hcounted ⊢
          by_cases hspeed : FloatOps.lt (int 0) skill.projectileSpeed = true
          · rw [if_pos hspeed]
            exact hcast.of_sameHeroes (sameHeroes_create fun h' heq => by cases heq)
          · rw [if_neg hspeed]
            exact hcast.instantHit (hcounted hcan (by simpa using hspeed))
      · rw [if_neg hcan]
        exact h
    | _ => exact h

omit [FloatOps F] in
theorem Lives.cool (h : Lives owned m₀ m) (towerId : UInt64) : Lives owned m₀ (m.cool towerId) := by
  unfold EntityManager.cool
  split_ifs
  · exact h.modify_onTower
  · exact h

omit [FloatOps F] in
/-- A shot at a living hero: if it kills, the room will not look for the hero. -/
theorem lifeStep_shot {own : Bool} {dmg : ℕ} {hero h' : Hero F}
    (hown : hero.isAlive = true ∧ hero.hp ≤ dmg → own = false) (halive : hero.isAlive = true)
    (heq : shot dmg (.hero hero) = .hero h') : hero.LifeStep own h' := by
  unfold shot at heq
  by_cases hkill : hero.hp ≤ dmg
  · obtain ⟨hdead, hfalls⟩ := Hero.takeDamage_of_kill halive hkill
    have hnot : ¬ ((Entity.hero hero).takeDamage dmg).isAlive = true := by
      change ¬ (hero.takeDamage dmg).isAlive = true
      simp [hdead]
    simp only [hnot] at heq
    cases heq
    exact .shot halive hdead (hown ⟨halive, hkill⟩) rfl rfl hfalls le_rfl
  · have hsame : hero.SameLife (hero.takeDamage dmg) :=
      Hero.sameLife_takeDamage fun h => hkill h.2
    have hlives : ((Entity.hero hero).takeDamage dmg).isAlive = true :=
      hsame.alive.trans halive
    simp only [hlives, if_true] at heq
    cases heq
    exact .keeps hsame

omit [FloatOps F] in
theorem shot_eq_hero {dmg : ℕ} {e : Entity F} {h' : Hero F} (heq : shot dmg e = .hero h') :
    ∃ hero, e = .hero hero := by
  unfold shot at heq
  cases e with
  | hero hero => exact ⟨hero, rfl⟩
  | _ =>
    simp only at heq
    split_ifs at heq <;> cases heq

theorem Lives.towerTurn (h : Lives owned m₀ m) {minions heroes : List UInt64} {towerId : UInt64}
    (hspares : TowerSpares owned minions heroes m towerId) :
    Lives owned m₀ (towerTurn minions heroes m towerId) := by
  rw [towerTurn_eq]
  unfold TowerSpares at hspares
  cases haim : m.aim minions heroes towerId with
  | none => exact h.cool towerId
  | some p =>
    obtain ⟨targetId, dmg⟩ := p
    rw [haim] at hspares
    simp only at hspares ⊢
    obtain ⟨t, ht, cand, hcand, halive, hteam⟩ := aim_spec haim
    have hne : targetId ≠ towerId := ne_of_aim haim
    rw [shoot_eq hne]
    refine ((h.cool towerId).modify_onTower).modify fun e h' he heq => ?_
    -- neither the cooldown nor the attack of the tower changes the target
    rw [find_modify_of_ne hne, find_cool_of_ne hne, hcand] at he
    cases he
    obtain ⟨hero, rfl⟩ := shot_eq_hero heq
    refine ⟨hero, rfl, fun _ => lifeStep_shot (fun hkill => hspares ?_) halive heq⟩
    exact (killsHero_eq_true hcand).mpr hkill

theorem Lives.checkHit (h : Lives owned m₀ m) {proj : Projectile F} {id : UInt64}
    (hcounted : HitCounted owned proj m id) : Lives owned m₀ (checkHit proj m id) := by
  rw [checkHit_eq]
  unfold HitCounted at hcounted
  cases hfind : m.find id with
  | none => exact h
  | some cand =>
    rw [hfind] at hcounted
    simp only at hcounted ⊢
    by_cases hhits : m.hits proj cand = true
    · obtain ⟨hown, hrise⟩ := hcounted hhits
      have hdamage : Lives owned m₀ (m.modify id (.takeDamage proj.damage)) :=
        h.modify_takeDamage hown
      rw [if_pos hhits]
      by_cases halive : (cand.takeDamage proj.damage).isAlive = true
      · rw [if_pos halive]
        exact hdamage
      · rw [if_neg halive]
        have hnot := hrise (by simpa using halive)
        refine hdamage.modify_sameLife fun hero hhero hok => ?_
        refine Hero.sameLife_addKill hok.maxHp ?_
        -- the caster is another one than the candidate
        rw [find_modify_of_ne (casterId_ne_of_hits hfind hhits)] at hhero
        unfold risesByKill test at hnot
        rw [hhero] at hnot
        cases hlife : hero.isAlive with
        | true => exact .inl rfl
        | false => exact .inr (by simpa [hlife] using hnot)
    · rw [if_neg hhits]
      exact h

theorem Lives.projectileTurn (h : Lives owned m₀ m) {heroes minions towers : List UInt64}
    {projectileId : UInt64}
    (hcounted : ProjectileCounted owned heroes minions towers m projectileId) :
    Lives owned m₀ (projectileTurn heroes minions towers m projectileId) := by
  rw [projectileTurn_eq]
  unfold ProjectileCounted at hcounted
  cases hfind : m.find projectileId with
  | none => exact h
  | some e =>
    rw [hfind] at hcounted
    cases e with
    | projectile proj =>
      simp only at hcounted ⊢
      split_ifs with hreached
      · exact foldl_invariant (fun m id _ hok hm => hm.checkHit hok) h (hcounted hreached)
      · exact h
    | _ => exact h

theorem Lives.tickCombat (h : Lives owned m₀ m) {o : Order UInt64}
    (hcounted : CombatCounted owned o m) : Lives owned m₀ (m.tickCombat o) := by
  obtain ⟨htowers, hprojectiles⟩ := hcounted
  have hshot := foldl_invariant (I := Lives owned m₀)
    (fun m towerId _ (hok : TowerSpares owned _ _ m towerId) hm => hm.towerTurn hok) h htowers
  exact foldl_invariant (I := Lives owned m₀)
    (fun m projectileId _ (hok : ProjectileCounted owned _ _ _ m projectileId) hm =>
      hm.projectileTurn hok) hshot hprojectiles

theorem sameHeroes_spawnWave (m : EntityManager F) (team : TeamSide) :
    SameHeroes m (m.spawnWave team) := by
  have hminion : ∀ (m : EntityManager F) (type : MinionType) (spawn : Vec3 F)
      (waypoints : List (Vec3 F)), SameHeroes m (m.spawnMinion team type spawn waypoints) :=
    fun m _ _ _ => sameHeroes_create fun h' heq => by cases heq
  unfold spawnWave
  exact (((hminion _ _ _ _).trans (hminion _ _ _ _)).trans (hminion _ _ _ _)).trans
    (hminion _ _ _ _)

omit [FloatOps F] in
theorem sameHeroes_removeSpent (m : EntityManager F) (o : Order UInt64) :
    SameHeroes m (m.removeSpent o) :=
  foldl_invariant_all (I := SameHeroes m) (fun _ _ _ hm => hm.trans sameHeroes_removeEntity)
    (.refl m)

end Operations

end EntityManager

end Gmaker.Realtime
