import Gmaker.Realtime.LifeCycle

/-!
# Gmaker.Realtime.FriendlyFire — who is struck by whom

Towers and projectiles look at the side of what they strike. A skill that hits at once strikes
whatever living entity the client names.

All that a tick does to the entities is a sequence of `Change`s: blows, changes that cost no hit
points, new minions and projectiles, and projectiles that go. `BlowsOk P` says of every blow of a
tick that it meets `P`; what the changes keep then tells what follows from it. In every run whose
inputs strike the other side only, all blows do, and hit points are lost through such blows only
(`Arena.friendlyFree_exact`).
-/

namespace Gmaker.Realtime

open Gmaker.Lib

variable {F : Type}

/-! ## One entity -/

namespace Entity

/-- The caster of a projectile. -/
def casterId : Entity F → UInt64
  | projectile p => p.casterId
  | _ => 0

/-- A hero has no more hit points than it can have. -/
def Hale : Entity F → Prop
  | hero h => 0 ≤ h.maxHp ∧ h.hp ≤ h.maxHp
  | _ => True

theorem hale_of_type {e : Entity F} (htype : e.type ≠ .hero) : e.Hale := by
  cases e with
  | hero h => exact absurd rfl htype
  | _ => trivial

/-- The entity is the same as before, and hale if it was. -/
structure Stays (e e' : Entity F) : Prop where
  type : e'.type = e.type
  team : e'.team = e.team
  casterId : e'.casterId = e.casterId
  hale : e.Hale → e'.Hale

/-- It has also lost no hit points, if it is not a projectile. -/
structure Grows (e e' : Entity F) : Prop extends Stays e e' where
  hp : e.type ≠ .projectile → e.Hale → e.base.hp ≤ e'.base.hp

section Grows

variable {e : Entity F}

theorem Grows.refl (e : Entity F) : e.Grows e := ⟨⟨rfl, rfl, rfl, id⟩, fun _ _ => le_rfl⟩

/-- A change of a hero that costs it nothing. -/
theorem grows_onHero {f : Hero F → Hero F} (hteam : ∀ h, (f h).team = h.team)
    (hf : ∀ h, 0 ≤ h.maxHp → h.hp ≤ h.maxHp →
      0 ≤ (f h).maxHp ∧ (f h).hp ≤ (f h).maxHp ∧ h.hp ≤ (f h).hp) : e.Grows (e.onHero f) := by
  cases e with
  | hero h =>
    refine ⟨⟨rfl, hteam h, rfl, fun hhale => ?_⟩, fun _ hhale => ?_⟩
    · obtain ⟨hmax, hle, -⟩ := hf h hhale.1 hhale.2
      exact ⟨hmax, hle⟩
    · exact (hf h hhale.1 hhale.2).2.2
  | _ => exact .refl _

/-- A change of what only a tower has. -/
theorem grows_onTower {f : Tower F → Tower F} (hf : ∀ t, (f t).toIEntity = t.toIEntity) :
    e.Grows (e.onTower f) := by
  cases e with
  | tower t =>
    refine ⟨⟨rfl, congrArg IEntity.team (hf t), rfl, id⟩, fun _ _ => ?_⟩
    exact (congrArg IEntity.hp (hf t)).ge
  | _ => exact .refl _

/-- A blow costs hit points at most. -/
theorem stays_takeDamage (e : Entity F) (dmg : ℕ) : e.Stays (e.takeDamage dmg) := by
  cases e with
  | hero h =>
    refine ⟨rfl, rfl, rfl, fun hhale => ⟨hhale.1, ?_⟩⟩
    have hmax := hhale.1
    have hle := hhale.2
    show max 0 (h.hp - dmg) ≤ h.maxHp
    omega
  | _ => exact ⟨rfl, rfl, rfl, id⟩

end Grows

end Entity

namespace Hero

variable {h : Hero F}

/-- A level gained costs nothing. -/
theorem levelUp_hale (fuel : ℕ) (hmax : 0 ≤ h.maxHp) (hle : h.hp ≤ h.maxHp) :
    0 ≤ (levelUp fuel h).maxHp ∧ (levelUp fuel h).hp ≤ (levelUp fuel h).maxHp ∧
      h.hp ≤ (levelUp fuel h).hp := by
  induction fuel generalizing h with
  | zero => exact ⟨hmax, hle, le_rfl⟩
  | succ fuel ih =>
    unfold levelUp
    split_ifs
    · obtain ⟨hmax', hle', hhp⟩ := ih (h := { h with
        exp := h.exp - h.expToNext
        level := h.level + 1
        maxHp := h.maxHp + 50
        hp := h.maxHp + 50 }) (by simp only; omega) le_rfl
      refine ⟨hmax', hle', ?_⟩
      simp only at hhp
      omega
    · exact ⟨hmax, hle, le_rfl⟩

theorem levelUp_team (fuel : ℕ) (h : Hero F) : (levelUp fuel h).team = h.team := by
  induction fuel generalizing h with
  | zero => rfl
  | succ fuel ih =>
    unfold levelUp
    split_ifs
    · exact ih _
    · rfl

theorem castSkill_base (h : Hero F) (slot : ℕ) :
    (h.castSkill slot).2.team = h.team ∧ (h.castSkill slot).2.maxHp = h.maxHp ∧
      (h.castSkill slot).2.hp = h.hp ∧ (h.castSkill slot).2.skills = h.skills := by
  unfold castSkill
  cases h.skills[slot]? with
  | none => exact ⟨rfl, rfl, rfl, rfl⟩
  | some skill =>
    simp only
    split_ifs <;> exact ⟨rfl, rfl, rfl, rfl⟩

variable [FloatOps F]

/-- Who waits comes back with all hit points. -/
theorem tick_hale (deltaMs : ℕ) (hmax : 0 ≤ h.maxHp) (hle : h.hp ≤ h.maxHp) :
    0 ≤ (h.tick deltaMs).maxHp ∧ (h.tick deltaMs).hp ≤ (h.tick deltaMs).maxHp ∧
      h.hp ≤ (h.tick deltaMs).hp := by
  have hwalk : ∀ h : Hero F, (h.walk deltaMs).maxHp = h.maxHp ∧ (h.walk deltaMs).hp = h.hp := by
    intro h
    unfold walk
    split_ifs
    · split <;> exact ⟨rfl, rfl⟩
    · exact ⟨rfl, rfl⟩
  unfold tick
  split_ifs
  · simp only
    split_ifs
    · exact ⟨hmax, le_rfl, hle⟩
    · exact ⟨hmax, hle, le_rfl⟩
  · exact ⟨hmax, hle, le_rfl⟩
  · rw [(hwalk _).1, (hwalk _).2]
    exact ⟨hmax, hle, le_rfl⟩

theorem tick_team (deltaMs : ℕ) (h : Hero F) : (h.tick deltaMs).team = h.team := by
  have hwalk : ∀ h : Hero F, (h.walk deltaMs).team = h.team := by
    intro h
    unfold walk
    split_ifs
    · split <;> rfl
    · rfl
  unfold tick
  split_ifs
  · simp only
    split_ifs <;> rfl
  · rfl
  · exact hwalk _

end Hero

/-- A tick costs nobody hit points but a projectile that has reached its target. -/
theorem Entity.grows_tick [FloatOps F] (deltaMs : ℕ) (e : Entity F) :
    e.Grows (e.tick deltaMs) := by
  cases e with
  | hero h =>
    refine ⟨⟨rfl, h.tick_team deltaMs, rfl, fun hhale => ?_⟩, fun _ hhale => ?_⟩
    · obtain ⟨hmax, hle, -⟩ := Hero.tick_hale deltaMs hhale.1 hhale.2
      exact ⟨hmax, hle⟩
    · exact (Hero.tick_hale deltaMs hhale.1 hhale.2).2.2
  | minion m =>
    have hbase : (m.tick deltaMs).team = m.team ∧ (m.tick deltaMs).hp = m.hp := by
      unfold Minion.tick
      split_ifs
      · exact ⟨rfl, rfl⟩
      · simp only
        split
        · exact ⟨rfl, rfl⟩
        · split <;> exact ⟨rfl, rfl⟩
    exact ⟨⟨rfl, hbase.1, rfl, id⟩, fun _ _ => hbase.2.ge⟩
  | tower t =>
    have hbase : (t.tick deltaMs).toIEntity = t.toIEntity := by
      unfold Tower.tick
      split_ifs <;> rfl
    exact ⟨⟨rfl, congrArg IEntity.team hbase, rfl, id⟩, fun _ _ => (congrArg IEntity.hp hbase).ge⟩
  | projectile p =>
    have hbase : (p.tick deltaMs).team = p.team ∧ (p.tick deltaMs).casterId = p.casterId := by
      unfold Projectile.tick
      split_ifs
      · exact ⟨rfl, rfl⟩
      · split <;> exact ⟨rfl, rfl⟩
    exact ⟨⟨rfl, hbase.1, hbase.2, id⟩, fun hno => absurd rfl hno⟩

/-! ## All entities -/

namespace EntityManager

/-- A projectile is given out with a caster, a hero of its side. -/
def HasCaster (m : EntityManager F) (e : Entity F) : Prop :=
  e.type = .projectile →
    ∃ caster, m.find e.casterId = some caster ∧ caster.type = .hero ∧ caster.team = e.team

/-- What holds of the entities all the time. -/
structure Sound (m : EntityManager F) : Prop where
  /-- Only the ids of towers do not come from `NextEntityId`. -/
  issued : ∀ id e, m.find id = some e → e.type ≠ .tower → id.toNat < m.nextEntityId.toNat
  caster : ∀ id e, m.find id = some e → m.HasCaster e
  hale : ∀ id e, m.find id = some e → e.Hale

/-- What can happen to the entities at once; `P` holds of the blows, which have a side that deals
them and an entity that is struck. -/
inductive Change (P : TeamSide → UInt64 → Entity F → Prop) (m : EntityManager F) :
    EntityManager F → Prop where
  | grows {id : UInt64} {f : Entity F → Entity F} (hf : ∀ e, m.find id = some e → e.Grows (f e)) :
      Change P m (m.modify id f)
  | blow {side : TeamSide} {id : UInt64} {target : Entity F} {dmg : ℕ}
      (hfind : m.find id = some target) (hblow : P side id target) :
      Change P m (m.modify id (.takeDamage dmg))
  | create {make : UInt64 → Entity F}
      (htype : (make m.nextEntityId).type = .minion ∨ (make m.nextEntityId).type = .projectile)
      (hcaster : m.HasCaster (make m.nextEntityId))
      (hroom : m.nextEntityId.toNat + 1 < 2 ^ 64) : Change P m (m.create make)
  | remove {id : UInt64} (hprojectile : ∀ e, m.find id = some e → e.type = .projectile) :
      Change P m (m.removeEntity id)

/-- One change after the other. -/
abbrev Changes (P : TeamSide → UInt64 → Entity F → Prop) :
    EntityManager F → EntityManager F → Prop :=
  Relation.ReflTransGen (Change P)

section Change

variable {P : TeamSide → UInt64 → Entity F → Prop} {m m' : EntityManager F} {id : UInt64}

theorem toNat_nextEntityId {make : UInt64 → Entity F} (hroom : m.nextEntityId.toNat + 1 < 2 ^ 64) :
    (m.create make).nextEntityId.toNat = m.nextEntityId.toNat + 1 := by
  show (m.nextEntityId + 1).toNat = _
  rw [UInt64.toNat_add]
  exact Nat.mod_eq_of_lt hroom

/-- Who has a caster keeps it when entities stay what they are. -/
theorem HasCaster.modify {e : Entity F} (h : m.HasCaster e) {f : Entity F → Entity F}
    (hf : ∀ e, m.find id = some e → e.Stays (f e)) : (m.modify id f).HasCaster e := by
  intro htype
  obtain ⟨caster, hcaster, hhero, hteam⟩ := h htype
  rw [find_modify]
  split_ifs with hid
  · subst hid
    rw [hcaster]
    have hstays := hf caster hcaster
    exact ⟨f caster, rfl, hstays.type.trans hhero, hstays.team.trans hteam⟩
  · exact ⟨caster, hcaster, hhero, hteam⟩

/-- What an entity asks for its caster is asked of type, side and id only. -/
theorem HasCaster.of_stays {e e' : Entity F} (h : m.HasCaster e) (hstays : e.Stays e') :
    m.HasCaster e' := by
  intro htype
  rw [hstays.casterId, hstays.team]
  exact h (hstays.type.symm.trans htype)

theorem Sound.modify (h : Sound m) {f : Entity F → Entity F}
    (hf : ∀ e, m.find id = some e → e.Stays (f e)) : Sound (m.modify id f) := by
  constructor
  · intro j e hfind htype
    obtain ⟨e₀, he₀, ⟨rfl, rfl⟩ | ⟨-, rfl⟩⟩ := find_of_modify hfind
    · exact h.issued j e₀ he₀ ((hf e₀ he₀).type ▸ htype)
    · exact h.issued j e he₀ htype
  · intro j e hfind
    obtain ⟨e₀, he₀, ⟨rfl, rfl⟩ | ⟨-, rfl⟩⟩ := find_of_modify hfind
    · exact ((h.caster j e₀ he₀).modify hf).of_stays (hf e₀ he₀)
    · exact (h.caster j e he₀).modify hf
  · intro j e hfind
    obtain ⟨e₀, he₀, ⟨rfl, rfl⟩ | ⟨-, rfl⟩⟩ := find_of_modify hfind
    · exact (hf e₀ he₀).hale (h.hale j e₀ he₀)
    · exact h.hale j e he₀

/-- A new entity takes the place of a tower at most, which casts nothing. -/
theorem Sound.create (h : Sound m) {make : UInt64 → Entity F}
    (hcaster : m.HasCaster (make m.nextEntityId)) (hhale : (make m.nextEntityId).Hale)
    (hroom : m.nextEntityId.toNat + 1 < 2 ^ 64) : Sound (m.create make) := by
  have hkeep : ∀ e, m.HasCaster e → (m.create make).HasCaster e := by
    intro e he htype
    obtain ⟨caster, hfind, hhero, hteam⟩ := he htype
    have hlt : e.casterId.toNat < m.nextEntityId.toNat := by
      refine h.issued _ caster hfind ?_
      rw [hhero]
      decide
    have hne : e.casterId ≠ m.nextEntityId := fun heq => by
      rw [heq] at hlt
      exact Nat.lt_irrefl _ hlt
    exact ⟨caster, by rw [find_create, if_neg hne]; exact hfind, hhero, hteam⟩
  constructor
  · intro j e hfind htype
    rw [toNat_nextEntityId hroom]
    rw [find_create] at hfind
    split_ifs at hfind with hj
    · rw [hj]
      exact Nat.lt_succ_self _
    · exact Nat.lt_succ_of_lt (h.issued j e hfind htype)
  · intro j e hfind
    rw [find_create] at hfind
    split_ifs at hfind
    · cases hfind
      exact hkeep _ hcaster
    · exact hkeep e (h.caster j e hfind)
  · intro j e hfind
    rw [find_create] at hfind
    split_ifs at hfind
    · cases hfind
      exact hhale
    · exact h.hale j e hfind

theorem Sound.removeEntity (h : Sound m)
    (hprojectile : ∀ e, m.find id = some e → e.type = .projectile) : Sound (m.removeEntity id) := by
  have hold : ∀ {j e}, (m.removeEntity id).find j = some e → m.find j = some e := by
    intro j e hfind
    rw [find_removeEntity] at hfind
    split_ifs at hfind
    exact hfind
  refine ⟨fun j e hfind => h.issued j e (hold hfind), fun j e hfind htype => ?_,
    fun j e hfind => h.hale j e (hold hfind)⟩
  obtain ⟨caster, hcaster, hhero, hteam⟩ := h.caster j e (hold hfind) htype
  have hne : e.casterId ≠ id := by
    rintro rfl
    rw [hprojectile caster hcaster] at hhero
    cases hhero
  exact ⟨caster, by rw [find_removeEntity, if_neg hne]; exact hcaster, hhero, hteam⟩

theorem Sound.change (h : Sound m) (hchange : Change P m m') : Sound m' := by
  cases hchange with
  | grows hf => exact h.modify fun e he => (hf e he).toStays
  | blow => exact h.modify fun e _ => e.stays_takeDamage _
  | create htype hcaster hroom =>
    refine h.create hcaster (Entity.hale_of_type ?_) hroom
    rcases htype with htype | htype
    · rw [htype]
      decide
    · rw [htype]
      decide
  | remove hprojectile => exact h.removeEntity hprojectile

theorem Sound.changes (h : Sound m) (hchanges : Changes P m m') : Sound m' := by
  induction hchanges with
  | refl => exact h
  | tail _ hchange ih => exact ih.change hchange

/-- An entity that no blow strikes has all its hit points, as long as it is there. -/
structure Unhurt (id : UInt64) (e : Entity F) (m : EntityManager F) : Prop where
  sound : Sound m
  issued : e.type ≠ .tower → id.toNat < m.nextEntityId.toNat
  kept : ∀ e', m.find id = some e' → e'.type = e.type → e.base.hp ≤ e'.base.hp

variable {e : Entity F}

/-- A change of entities of which the one with the id grows. -/
theorem Unhurt.modify (h : Unhurt id e m) (hno : e.type ≠ .projectile) {j : UInt64}
    {f : Entity F → Entity F} (hstays : ∀ e, m.find j = some e → e.Stays (f e))
    (hgrows : j = id → ∀ e, m.find j = some e → e.Grows (f e)) : Unhurt id e (m.modify j f) := by
  refine ⟨h.sound.modify hstays, h.issued, fun e' hfind htype => ?_⟩
  obtain ⟨e₀, he₀, ⟨rfl, rfl⟩ | ⟨-, rfl⟩⟩ := find_of_modify hfind
  · have hgrow := hgrows rfl e₀ he₀
    have htype₀ : e₀.type = e.type := hgrow.type.symm.trans htype
    refine (h.kept e₀ he₀ htype₀).trans (hgrow.hp ?_ (h.sound.hale _ e₀ he₀))
    rw [htype₀]
    exact hno
  · exact h.kept e' he₀ htype

theorem Unhurt.change (h : Unhurt id e m) (hno : e.type ≠ .projectile)
    (hchange : Change (fun _ j _ => j ≠ id) m m') : Unhurt id e m' := by
  cases hchange with
  | grows hf => exact h.modify hno (fun e he => (hf e he).toStays) fun _ => hf
  | blow hfind hne =>
    exact h.modify hno (fun e _ => e.stays_takeDamage _) fun heq => absurd heq hne
  | @create make htype hcaster hroom =>
    refine ⟨h.sound.change (.create (P := fun _ j _ => j ≠ id) htype hcaster hroom), fun htower => ?_,
      fun e' hfind hsame => ?_⟩
    · rw [toNat_nextEntityId hroom]
      exact Nat.lt_succ_of_lt (h.issued htower)
    · rw [find_create] at hfind
      split_ifs at hfind with hid
      · -- the id is new, so that the entity was a tower
        cases hfind
        exfalso
        have htower : e.type = .tower := by
          by_contra hnot
          have hlt := h.issued hnot
          rw [hid] at hlt
          exact Nat.lt_irrefl _ hlt
        rw [hsame, htower] at htype
        rcases htype with htype | htype <;> cases htype
      · exact h.kept e' hfind hsame
  | remove hprojectile =>
    refine ⟨h.sound.removeEntity hprojectile, h.issued, fun e' hfind hsame => ?_⟩
    rw [find_removeEntity] at hfind
    split_ifs at hfind
    exact h.kept e' hfind hsame

/-- Without a blow on it an entity loses no hit points. -/
theorem Sound.unhurt (h : Sound m) (hchanges : Changes (fun _ j _ => j ≠ id) m m')
    (hfind : m.find id = some e) (hno : e.type ≠ .projectile) : Unhurt id e m' := by
  have hstart : Unhurt id e m := by
    refine ⟨h, h.issued id e hfind, fun e' hfind' _ => ?_⟩
    cases hfind.symm.trans hfind'
    exact le_rfl
  induction hchanges with
  | refl => exact hstart
  | tail _ hchange ih => exact ih.change hno hchange

end Change

/-! ## The blows of a tick -/

section Conditions

variable [FloatOps F] (P : TeamSide → UInt64 → Entity F → Prop)

open FloatOps

/-- What is asked of the entity with the id, if there is one. -/
def OnEntity (m : EntityManager F) (id : UInt64) (Q : Entity F → Prop) : Prop :=
  match m.find id with
  | none => True
  | some e => Q e

/-- The blow of a skill that hits at once, on the living entity that the input names. -/
def CastOk (m : EntityManager F) (heroId : UInt64) (input : PlayerInput) : Prop :=
  match m.find heroId with
  | some (.hero h) =>
    match h.skills[input.skillSlot.toNat]? with
    | none => True
    | some skill =>
      (h.castSkill input.skillSlot.toNat).1 = true → lt (int 0) skill.projectileSpeed = false →
        input.skillTargetEid ≠ 0 →
          OnEntity (m.modify heroId (.onHero fun h => (h.castSkill input.skillSlot.toNat).2))
            input.skillTargetEid fun target =>
              target.isAlive = true → P h.team input.skillTargetEid target
  | _ => True

/-- The shot of a tower. -/
def TowerOk (minions heroes : List UInt64) (m : EntityManager F) (towerId : UInt64) : Prop :=
  match m.find towerId with
  | some (.tower t) =>
    match m.aim minions heroes towerId with
    | none => True
    | some (targetId, _) => OnEntity m targetId (P t.team targetId)
  | _ => True

/-- The hit of a projectile, which has the side of its caster. -/
def HitOk (proj : Projectile F) (m : EntityManager F) (id : UInt64) : Prop :=
  OnEntity m id fun cand => m.hits proj cand = true → P proj.team id cand

/-- All hits of a projectile. -/
def ProjectileOk (heroes minions towers : List UInt64) (m : EntityManager F)
    (projectileId : UInt64) : Prop :=
  match m.find projectileId with
  | some (.projectile proj) =>
    proj.reached = true → FoldOk (checkHit proj) (HitOk P proj) m (heroes ++ minions ++ towers)
  | _ => True

/-- All blows of the combat of a tick. -/
def CombatOk (o : Order UInt64) (m : EntityManager F) : Prop :=
  let towers := m.getByType o .tower
  let heroes := m.getByType o .hero
  let minions := m.getByType o .minion
  FoldOk (towerTurn minions heroes) (TowerOk P minions heroes) m towers ∧
    let m := towers.foldl (towerTurn minions heroes) m
    FoldOk (projectileTurn heroes minions towers) (ProjectileOk P heroes minions towers) m
      (m.getByType o .projectile)

instance (m : EntityManager F) (id : UInt64) (Q : Entity F → Prop) [∀ e, Decidable (Q e)] :
    Decidable (OnEntity m id Q) := by
  unfold OnEntity
  exact match m.find id with
    | none => inferInstanceAs (Decidable True)
    | some e => inferInstanceAs (Decidable (Q e))

instance [∀ side id e, Decidable (P side id e)] (m : EntityManager F) (heroId : UInt64)
    (input : PlayerInput) : Decidable (CastOk P m heroId input) := by
  unfold CastOk
  exact match m.find heroId with
    | some (.hero h) => by
      dsimp only
      generalize h.skills[input.skillSlot.toNat]? = skill
      exact match skill with
        | none => inferInstanceAs (Decidable True)
        | some _ => by
          dsimp only
          infer_instance
    | none | some (.minion _) | some (.tower _) | some (.projectile _) =>
      inferInstanceAs (Decidable True)

end Conditions

/-! ## A tick is a sequence of changes -/

/-- Changes lead from the one to the other, with so many new ids at most, if so many are left. -/
def Leads (P : TeamSide → UInt64 → Entity F → Prop) (k : ℕ) (m m' : EntityManager F) : Prop :=
  m.nextEntityId.toNat + k < 2 ^ 64 →
    Changes P m m' ∧ m'.nextEntityId.toNat ≤ m.nextEntityId.toNat + k

section Leads

variable {P : TeamSide → UInt64 → Entity F → Prop} {m m' m'' : EntityManager F} {k k' : ℕ}
  {id heroId towerId projectileId : UInt64}

theorem Leads.refl (m : EntityManager F) : Leads P 0 m m := fun _ => ⟨.refl, le_rfl⟩

theorem Leads.trans (h : Leads P k m m') (h' : Leads P k' m' m'') : Leads P (k + k') m m'' := by
  intro hroom
  obtain ⟨hchanges, hle⟩ := h (by omega)
  obtain ⟨hchanges', hle'⟩ := h' (by omega)
  exact ⟨hchanges.trans hchanges', by omega⟩

theorem Leads.mono (h : Leads P k m m') (hle : k ≤ k') : Leads P k' m m' := by
  intro hroom
  obtain ⟨hchanges, hnext⟩ := h (by omega)
  exact ⟨hchanges, by omega⟩

theorem leads_grows {f : Entity F → Entity F} (hf : ∀ e : Entity F, e.Grows (f e)) :
    Leads P 0 m (m.modify id f) :=
  fun _ => ⟨.single (.grows fun e _ => hf e), le_rfl⟩

theorem leads_blow {side : TeamSide} {target : Entity F} {d : ℕ}
    (hfind : m.find id = some target) (hblow : P side id target) :
    Leads P 0 m (m.modify id (.takeDamage d)) :=
  fun _ => ⟨.single (.blow hfind hblow), le_rfl⟩

theorem leads_create {make : UInt64 → Entity F}
    (htype : (make m.nextEntityId).type = .minion ∨ (make m.nextEntityId).type = .projectile)
    (hcaster : m.HasCaster (make m.nextEntityId)) : Leads P 1 m (m.create make) :=
  fun hroom => ⟨.single (.create htype hcaster hroom), (toNat_nextEntityId hroom).le⟩

/-- A loop over things that need so many ids each. -/
theorem leads_foldl {σ α : Type} {f : σ → α → σ} {ok : σ → α → Prop} (mgr : σ → EntityManager F)
    {s : σ} {l : List α} (hpass : ∀ s, ∀ a ∈ l, ok s a → Leads P k (mgr s) (mgr (f s a)))
    (hok : FoldOk f ok s l) : Leads P (k * l.length) (mgr s) (mgr (l.foldl f s)) := by
  induction l generalizing s with
  | nil => exact .refl _
  | cons a l ih =>
    have hfirst := hpass s a List.mem_cons_self hok.1
    have hrest := ih (fun t b hb => hpass t b (List.mem_cons_of_mem a hb)) hok.2
    refine (hfirst.trans hrest).mono (le_of_eq ?_)
    rw [List.length_cons]
    ring

variable [FloatOps F]

open FloatOps

omit [FloatOps F] in
theorem onEntity_iff {Q : Entity F → Prop} :
    OnEntity m id Q ↔ ∀ e, m.find id = some e → Q e := by
  unfold OnEntity
  cases m.find id with
  | none => exact ⟨fun _ e he => (nomatch he), fun _ => trivial⟩
  | some e =>
    refine ⟨fun h e' he' => ?_, fun h => h e rfl⟩
    cases he'
    exact h

theorem leads_moveHero (input : PlayerInput) : Leads P 0 m (m.moveHero heroId input) := by
  unfold moveHero
  split_ifs
  · exact leads_grows fun e => Entity.grows_onHero (fun _ => rfl) fun _ hmax hle => ⟨hmax, hle, le_rfl⟩
  · exact .refl _

/-- A skill is cast: the hero stays what it is, and there is a projectile or a blow. -/
theorem leads_castHero {input : PlayerInput} (hok : CastOk P m heroId input) :
    Leads P 1 m (m.castHero heroId input) := by
  unfold castHero
  unfold CastOk at hok
  cases hfind : m.find heroId with
  | none => exact (Leads.refl m).mono zero_le_one
  | some e =>
    rw [hfind] at hok
    cases e with
    | hero hero =>
      simp only at hok ⊢
      have hcast : Leads P 0 m
          (m.modify heroId (.onHero fun h => (h.castSkill input.skillSlot.toNat).2)) := by
        refine leads_grows fun e => Entity.grows_onHero (fun h => (h.castSkill_base _).1) ?_
        intro h hmax hle
        obtain ⟨-, hmax', hhp, -⟩ := h.castSkill_base input.skillSlot.toNat
        rw [hmax', hhp]
        exact ⟨hmax, hle, le_rfl⟩
      by_cases hcan : (hero.castSkill input.skillSlot.toNat).1 = true
      · rw [if_pos hcan]
        cases hskill : hero.skills[input.skillSlot.toNat]? with
        | none => exact hcast.mono zero_le_one
        | some skill =>
          rw [hskill] at hok
          simp only at hok ⊢
          by_cases hspeed : lt (int 0) skill.projectileSpeed = true
          · -- the projectile has the side of the hero
            rw [if_pos hspeed]
            refine hcast.trans (leads_create (.inr rfl) fun _ => ?_)
            refine ⟨.hero (hero.castSkill input.skillSlot.toNat).2, ?_, rfl, ?_⟩
            · show (m.modify heroId _).find heroId = _
              rw [find_modify_self, hfind]
              rfl
            · exact (hero.castSkill_base _).1
          · rw [if_neg hspeed]
            unfold instantHit
            split_ifs with htarget
            · obtain ⟨hne, halive⟩ := htarget
              obtain ⟨target, hfind', halive'⟩ := (Option.any_eq_true _ _).mp halive
              have hblow := onEntity_iff.mp (hok hcan (by simpa using hspeed) hne) target hfind' halive'
              exact (hcast.trans (leads_blow hfind' hblow)).mono zero_le_one
            · exact hcast.mono zero_le_one
      · rw [if_neg hcan]
        exact (Leads.refl m).mono zero_le_one
    | _ => exact (Leads.refl m).mono zero_le_one

omit [FloatOps F] in
theorem leads_cool (m : EntityManager F) (towerId : UInt64) : Leads P 0 m (m.cool towerId) := by
  unfold cool
  split_ifs
  · exact leads_grows fun e => Entity.grows_onTower fun t => tickCooldown_base t fixedStepMs
  · exact .refl _

/-- A shot is a blow on the target. -/
theorem leads_towerTurn {minions heroes : List UInt64} (hok : TowerOk P minions heroes m towerId) :
    Leads P 0 m (towerTurn minions heroes m towerId) := by
  rw [towerTurn_eq]
  unfold TowerOk at hok
  cases haim : m.aim minions heroes towerId with
  | none => exact leads_cool m towerId
  | some p =>
    obtain ⟨targetId, dmg⟩ := p
    obtain ⟨t, ht, target, htarget, -, -⟩ := aim_spec haim
    rw [ht, haim] at hok
    have hblow : P t.team targetId target := onEntity_iff.mp hok target htarget
    have hfind : (m.cool towerId).find targetId = some target := by
      rw [find_cool_of_ne (ne_of_aim haim)]
      exact htarget
    have hattack : ∀ m : EntityManager F, Leads P 0 m (m.modify towerId (.onTower .onAttack)) :=
      fun m => leads_grows fun e => Entity.grows_onTower fun _ => rfl
    have hshot := ((leads_cool m towerId).trans (leads_blow (d := dmg) hfind hblow)).trans (hattack _)
    show Leads P 0 m ((m.cool towerId).shoot towerId targetId dmg)
    unfold shoot
    simp only
    split_ifs
    · exact hshot
    · refine hshot.trans (leads_grows (f := .onHero .addDeath) fun e => ?_)
      exact Entity.grows_onHero (fun _ => rfl) fun _ hmax hle => ⟨hmax, hle, le_rfl⟩

/-- A hit is a blow, and the caster gains by it. -/
theorem leads_checkHit {proj : Projectile F} (hok : HitOk P proj m id) :
    Leads P 0 m (checkHit proj m id) := by
  rw [checkHit_eq]
  cases hfind : m.find id with
  | none => exact .refl m
  | some cand =>
    simp only
    by_cases hhits : m.hits proj cand = true
    · rw [if_pos hhits]
      have hblow := leads_blow (d := proj.damage) hfind (onEntity_iff.mp hok cand hfind hhits)
      by_cases halive : (cand.takeDamage proj.damage).isAlive = true
      · rw [if_pos halive]
        exact hblow
      · rw [if_neg halive]
        refine hblow.trans (leads_grows fun e => Entity.grows_onHero (fun h => ?_) fun h hmax hle => ?_)
        · exact Hero.levelUp_team _ _
        · exact Hero.levelUp_hale _ hmax hle
    · rw [if_neg hhits]
      exact .refl m

theorem leads_projectileTurn {heroes minions towers : List UInt64}
    (hok : ProjectileOk P heroes minions towers m projectileId) :
    Leads P 0 m (projectileTurn heroes minions towers m projectileId) := by
  rw [projectileTurn_eq]
  unfold ProjectileOk at hok
  cases hfind : m.find projectileId with
  | none => exact .refl m
  | some e =>
    rw [hfind] at hok
    cases e with
    | projectile proj =>
      simp only at hok ⊢
      split_ifs with hreached
      · have hloop := leads_foldl (k := 0) (fun m : EntityManager F => m)
          (fun m id _ (hhit : HitOk P proj m id) => leads_checkHit hhit) (hok hreached)
        rw [Nat.zero_mul] at hloop
        exact hloop
      · exact .refl m
    | _ => exact .refl m

theorem leads_tickCombat {o : Order UInt64} (hok : CombatOk P o m) :
    Leads P 0 m (m.tickCombat o) := by
  obtain ⟨htowers, hprojectiles⟩ := hok
  have hshots := leads_foldl (k := 0) (fun m : EntityManager F => m)
    (fun m id _ (hturn : TowerOk P _ _ m id) => leads_towerTurn hturn) htowers
  have hhits := leads_foldl (k := 0) (fun m : EntityManager F => m)
    (fun m id _ (hturn : ProjectileOk P _ _ _ m id) => leads_projectileTurn hturn) hprojectiles
  rw [Nat.zero_mul] at hshots hhits
  exact hshots.trans hhits

theorem leads_tickAll (o : Order UInt64) (deltaMs : ℕ) : Leads P 0 m (m.tickAll o deltaMs) := by
  have hloop : ∀ (l : List UInt64) (m : EntityManager F), Leads P 0 m
      (l.foldl (fun m id => m.modify id (Entity.tick deltaMs)) m) := by
    intro l
    induction l with
    | nil => exact fun m => .refl m
    | cons id l ih => exact fun m => (leads_grows (Entity.grows_tick deltaMs)).trans (ih _)
  exact hloop _ m

/-- The four minions of a side. -/
theorem leads_spawnWave (team : TeamSide) : Leads P 4 m (m.spawnWave team) := by
  have hminion : ∀ (m : EntityManager F) (type : MinionType) (spawn : Vec3 F)
      (waypoints : List (Vec3 F)), Leads P 1 m (m.spawnMinion team type spawn waypoints) :=
    fun m _ _ _ => leads_create (.inl rfl) fun h => nomatch h
  unfold spawnWave
  exact (((hminion _ _ _ _).trans (hminion _ _ _ _)).trans (hminion _ _ _ _)).trans (hminion _ _ _ _)

omit [FloatOps F] in
/-- Nothing but projectiles goes. -/
theorem leads_removeSpent (o : Order UInt64) : Leads P 0 m (m.removeSpent o) := by
  have hmem : ∀ id ∈ (m.getByType o .projectile).filter (m.test spent), ∀ e, m.find id = some e →
      e.type = .projectile := by
    intro id hid e he
    obtain ⟨e', he', htype⟩ := mem_getByType.mp (List.mem_of_mem_filter hid)
    cases he.symm.trans he'
    exact htype
  have hloop : Changes P m (m.removeSpent o) ∧
      (m.removeSpent o).nextEntityId.toNat ≤ m.nextEntityId.toNat + 0 ∧
        ∀ j e, (m.removeSpent o).find j = some e → m.find j = some e := by
    refine foldl_invariant_all (I := fun m' : EntityManager F => Changes P m m' ∧
      m'.nextEntityId.toNat ≤ m.nextEntityId.toNat + 0 ∧
        ∀ j e, m'.find j = some e → m.find j = some e) ?_ ⟨.refl, le_rfl, fun _ _ h => h⟩
    rintro m' id hid ⟨hchanges, hle, hold⟩
    refine ⟨hchanges.tail (.remove fun e he => hmem id hid e (hold id e he)), hle, fun j e he => ?_⟩
    rw [find_removeEntity] at he
    split_ifs at he
    exact hold j e he
  exact fun _ => ⟨hloop.1, hloop.2.1⟩

end Leads

end EntityManager

namespace Arena

section Tick

variable [FloatOps F] (P : TeamSide → UInt64 → Entity F → Prop)

/-- The blow of an input. -/
def InputOk (a : Arena F) (p : UInt64 × PlayerInput) : Prop :=
  match a.heroOf p.1 with
  | none => True
  | some heroId =>
    a.entityMgr.test Entity.isAlive heroId = true → p.2.hasInput = true → p.2.skillSlot ≠ 0xFF →
      EntityManager.CastOk P (a.entityMgr.moveHero heroId p.2) heroId p.2

/-- The blows of the inputs of the confirmed frames. -/
def InputsOk (a : Arena F) (confirmed : List ConfirmedInputs) : Prop :=
  FoldOk (fun a p => a.processHeroInput p.1 p.2) (InputOk P) a
    (confirmed.flatMap ConfirmedInputs.playerInputs)

instance [∀ side id e, Decidable (P side id e)] (a : Arena F) (p : UInt64 × PlayerInput) :
    Decidable (InputOk P a p) := by
  unfold InputOk
  exact match a.heroOf p.1 with
    | none => inferInstanceAs (Decidable True)
    | some _ => by
      dsimp only
      infer_instance

instance [∀ side id e, Decidable (P side id e)] (a : Arena F) (confirmed : List ConfirmedInputs) :
    Decidable (InputsOk P a confirmed) := by
  unfold InputsOk
  infer_instance

/-- Every blow of a tick meets `P`. -/
def BlowsOk (a : Arena F) (confirmed : List ConfirmedInputs) (o : Orders) : Prop :=
  InputsOk P a confirmed ∧
    EntityManager.CombatOk P o.entities
      ((a.processConfirmed confirmed).tickAll o.entities).entityMgr

variable {P} {cfg : BattleConfig F} {a : Arena F} {confirmed : List ConfirmedInputs} {o : Orders}

/-- So many inputs are in the frames. -/
def inputCount (confirmed : List ConfirmedInputs) : ℕ :=
  (confirmed.flatMap ConfirmedInputs.playerInputs).length

theorem leads_processHeroInput {p : UInt64 × PlayerInput} (hok : InputOk P a p) :
    EntityManager.Leads P 1 a.entityMgr (a.processHeroInput p.1 p.2).entityMgr := by
  unfold processHeroInput
  unfold InputOk at hok
  cases hhero : a.heroOf p.1 with
  | none => exact (EntityManager.Leads.refl _).mono zero_le_one
  | some heroId =>
    rw [hhero] at hok
    simp only at hok ⊢
    split_ifs with hcan hslot
    · rw [Bool.and_eq_true] at hcan
      exact ((EntityManager.leads_moveHero p.2).trans
        (EntityManager.leads_castHero (hok hcan.1 hcan.2 hslot))).mono le_rfl
    · exact (EntityManager.leads_moveHero p.2).mono zero_le_one
    · exact (EntityManager.Leads.refl _).mono zero_le_one

theorem processConfirmed_eq (a : Arena F) (confirmed : List ConfirmedInputs) :
    a.processConfirmed confirmed =
      (confirmed.flatMap ConfirmedInputs.playerInputs).foldl
        (fun a p => a.processHeroInput p.1 p.2) a :=
  List.foldl_flatMap.symm

/-- A skill for every input. -/
theorem leads_processConfirmed (hok : InputsOk P a confirmed) :
    EntityManager.Leads P (inputCount confirmed) a.entityMgr
      (a.processConfirmed confirmed).entityMgr := by
  rw [processConfirmed_eq]
  have hloop := EntityManager.leads_foldl (k := 1) (fun a : Arena F => a.entityMgr)
    (fun a p _ (hinput : InputOk P a p) => leads_processHeroInput hinput) hok
  rw [Nat.one_mul] at hloop
  exact hloop

omit [FloatOps F] in
theorem leads_buryHeroes (players : Order UInt64) (a : Arena F) :
    EntityManager.Leads P 0 a.entityMgr (a.buryHeroes players).entityMgr := by
  have hone : ∀ (a : Arena F) (pid : UInt64),
      EntityManager.Leads P 0 a.entityMgr (a.buryOf pid).entityMgr := by
    intro a pid
    unfold buryOf
    cases a.heroOf pid with
    | none => exact .refl _
    | some heroId =>
      refine EntityManager.leads_grows fun e => Entity.grows_onHero (fun h => ?_) fun h hmax hle => ?_
      · unfold buryHero
        split_ifs <;> rfl
      · unfold buryHero
        split_ifs
        · exact ⟨hmax, hle, le_rfl⟩
        · exact ⟨hmax, hle, le_rfl⟩
  have hloop : ∀ (l : List UInt64) (a : Arena F),
      EntityManager.Leads P 0 a.entityMgr (l.foldl buryOf a).entityMgr := by
    intro l
    induction l with
    | nil => exact fun a => .refl _
    | cons pid l ih => exact fun a => (hone a pid).trans (ih _)
  exact hloop _ a

theorem leads_spawnMinions (cfg : BattleConfig F) (a : Arena F) :
    EntityManager.Leads P 8 a.entityMgr (a.spawnMinions cfg).entityMgr := by
  unfold spawnMinions
  simp only
  split_ifs
  · exact (EntityManager.leads_spawnWave .blue).trans (EntityManager.leads_spawnWave .red)
  · exact (EntityManager.Leads.refl _).mono (Nat.zero_le 8)

/-- The combat of a tick, and what comes before it. -/
theorem leads_tickAll (hok : InputsOk P a confirmed) :
    EntityManager.Leads P (inputCount confirmed) a.entityMgr
      ((a.processConfirmed confirmed).tickAll o.entities).entityMgr :=
  (leads_processConfirmed hok).trans (EntityManager.leads_tickAll o.entities fixedStepMs)

/-- A tick is a sequence of changes. -/
theorem leads_fight (hok : BlowsOk P a confirmed o) :
    EntityManager.Leads P (inputCount confirmed + 8) a.entityMgr
      (a.fight cfg confirmed o).entityMgr := by
  have hcombat := (leads_tickAll hok.1).trans (EntityManager.leads_tickCombat hok.2)
  have hburied := hcombat.trans (leads_buryHeroes o.players
    (((a.processConfirmed confirmed).tickAll o.entities).tickCombat o.entities))
  have hspawned := hburied.trans (leads_spawnMinions cfg _)
  have hall := hspawned.trans (EntityManager.leads_removeSpent o.entities)
  rw [entityMgr_fight]
  exact hall.mono (by omega)

end Tick

end Arena

/-! ## Blows between the sides -/

/-- A blow on somebody of another side. -/
def OtherSide (side : TeamSide) (_ : UInt64) (target : Entity F) : Prop := target.team ≠ side

instance (side : TeamSide) (id : UInt64) (target : Entity F) :
    Decidable (OtherSide side id target) := inferInstanceAs (Decidable (_ ≠ _))

/-- A blow on another entity than the one with the id. -/
def Misses (id : UInt64) (_ : TeamSide) (j : UInt64) (_ : Entity F) : Prop := j ≠ id

namespace EntityManager

section OtherSide

variable {m : EntityManager F} {proj : Projectile F} {id towerId projectileId : UInt64}

theorem casterTeam_modify {f : Entity F → Entity F} (hf : ∀ e, (f e).team = e.team) :
    (m.modify id f).casterTeam proj = m.casterTeam proj := by
  unfold casterTeam
  rw [find_modify]
  cases m.find proj.casterId with
  | none => split_ifs <;> rfl
  | some caster =>
    split_ifs
    · exact hf caster
    · rfl

variable [FloatOps F]

/-- A tower aims at other sides only. -/
theorem towerOk_otherSide {minions heroes : List UInt64} :
    TowerOk OtherSide minions heroes m towerId := by
  unfold TowerOk
  cases hfind : m.find towerId with
  | none => trivial
  | some e =>
    cases e with
    | tower t =>
      cases haim : m.aim minions heroes towerId with
      | none => trivial
      | some p =>
        obtain ⟨targetId, dmg⟩ := p
        obtain ⟨t', ht', target, htarget, -, hteam⟩ := aim_spec haim
        cases hfind.symm.trans ht'
        refine onEntity_iff.mpr fun e he => ?_
        cases htarget.symm.trans he
        exact hteam
    | _ => trivial

theorem casterTeam_checkHit (proj proj' : Projectile F) :
    (checkHit proj' m id).casterTeam proj = m.casterTeam proj := by
  have hblow : ∀ e : Entity F, (e.takeDamage proj'.damage).team = e.team :=
    fun e => (e.stays_takeDamage _).team
  have hkill : ∀ e : Entity F, (e.onHero .addKill).team = e.team := by
    intro e
    cases e with
    | hero h => exact Hero.levelUp_team _ _
    | _ => rfl
  rw [checkHit_eq]
  cases m.find id with
  | none => rfl
  | some cand =>
    simp only
    split_ifs
    · exact casterTeam_modify hblow
    · exact (casterTeam_modify hkill).trans (casterTeam_modify hblow)
    · rfl

/-- A projectile looks at the side of its caster, which is its own. -/
theorem projectileOk_otherSide (h : Sound m) {heroes minions towers : List UInt64} :
    ProjectileOk OtherSide heroes minions towers m projectileId := by
  unfold ProjectileOk
  cases hfind : m.find projectileId with
  | none => trivial
  | some e =>
    cases e with
    | projectile proj =>
      intro _
      obtain ⟨caster, hcaster, -, hteam⟩ := h.caster projectileId _ hfind rfl
      have hside : m.casterTeam proj = proj.team := by
        unfold casterTeam
        rw [show m.find proj.casterId = some caster from hcaster]
        exact hteam
      refine foldOk_of_invariant (I := fun m : EntityManager F => m.casterTeam proj = proj.team)
        ?_ ?_ hside
      · intro m id _ hside
        refine onEntity_iff.mpr fun cand _ hhits => ?_
        unfold hits at hhits
        rw [hside] at hhits
        simp only [Bool.and_eq_true, decide_eq_true_eq] at hhits
        exact hhits.1.2
      · intro m id _ _ hside
        exact (casterTeam_checkHit proj proj).trans hside
    | _ => trivial

/-- In combat every blow is one on another side. -/
theorem combatOk_otherSide (h : Sound m) (o : Order UInt64) : CombatOk OtherSide o m := by
  have hkeep : ∀ {m m' : EntityManager F}, Sound m → Leads OtherSide 0 m m' → Sound m' := by
    intro m m' hm hleads
    exact hm.changes (hleads (UInt64.toNat_lt _)).1
  have htowers : FoldOk (towerTurn (m.getByType o .minion) (m.getByType o .hero))
      (TowerOk OtherSide (m.getByType o .minion) (m.getByType o .hero)) m (m.getByType o .tower) :=
    foldOk_of_invariant (I := fun _ => True) (fun _ _ _ _ => towerOk_otherSide)
      (fun _ _ _ _ _ => trivial) trivial
  have hsound := foldl_invariant (I := Sound)
    (fun m id _ (hturn : TowerOk OtherSide _ _ m id) hm => hkeep hm (leads_towerTurn hturn)) h htowers
  refine ⟨htowers, ?_⟩
  refine foldOk_of_invariant (I := Sound) (fun m id _ hm => projectileOk_otherSide hm) ?_ hsound
  exact fun m id _ hturn hm => hkeep hm (leads_projectileTurn hturn)

end OtherSide

/-! ## A scene -/

/-- A scene has heroes and towers, and so many ids are given out. -/
structure Scene (n : ℕ) (m : EntityManager F) : Prop where
  sound : Sound m
  quiet : ∀ id e, m.find id = some e → e.type ≠ .projectile
  next : m.nextEntityId.toNat ≤ n

section Scene

variable {m : EntityManager F} {n : ℕ}

theorem Scene.create (h : Scene n m) (hroom : n + 1 < 2 ^ 64) {make : UInt64 → Entity F}
    (htype : (make m.nextEntityId).type ≠ .projectile) (hhale : (make m.nextEntityId).Hale) :
    Scene (n + 1) (m.create make) := by
  have hnext := h.next
  have hleft : m.nextEntityId.toNat + 1 < 2 ^ 64 := by omega
  refine ⟨h.sound.create (fun hp => absurd hp htype) hhale hleft, fun id e hfind => ?_, ?_⟩
  · rw [find_create] at hfind
    split_ifs at hfind
    · cases hfind
      exact htype
    · exact h.quiet id e hfind
  · rw [toNat_nextEntityId hleft]
    omega

/-- A tower with an id of its own. -/
theorem Scene.put (h : Scene n m) (id : UInt64) (t : Tower F) : Scene n (m.put id (.tower t)) := by
  have hcases : ∀ j e, (m.put id (.tower t)).find j = some e → e = .tower t ∨ m.find j = some e := by
    intro j e hfind
    rw [find_put] at hfind
    split_ifs at hfind
    · exact .inl (Option.some.inj hfind).symm
    · exact .inr hfind
  have hquiet : ∀ j e, (m.put id (.tower t)).find j = some e → e.type ≠ .projectile := by
    intro j e hfind
    rcases hcases j e hfind with rfl | hold
    · exact EntityType.noConfusion
    · exact h.quiet j e hold
  refine ⟨⟨fun j e hfind htype => ?_, fun j e hfind hp => absurd hp (hquiet j e hfind),
    fun j e hfind => ?_⟩, hquiet, h.next⟩
  · rcases hcases j e hfind with rfl | hold
    · exact absurd rfl htype
    · exact h.sound.issued j e hold htype
  · rcases hcases j e hfind with rfl | hold
    · trivial
    · exact h.sound.hale j e hold

end Scene

end EntityManager

namespace Arena

section Runs

variable [FloatOps F] {cfg : BattleConfig F} {a a' : Arena F}

theorem scene_initBattleScene {players : Order UInt64} (hempty : a.entityMgr = {})
    (hroom : a.members.length ≤ 2 ^ 32) :
    EntityManager.Sound (a.initBattleScene cfg players).entityMgr := by
  have hheroes : ∀ (l : List UInt64) (a : Arena F) (n : ℕ), EntityManager.Scene n a.entityMgr →
      n + l.length < 2 ^ 64 → EntityManager.Scene (n + l.length) (l.foldl createHero a).entityMgr := by
    intro l
    induction l with
    | nil => exact fun a n h _ => h
    | cons pid l ih =>
      intro a n h hleft
      rw [List.length_cons] at hleft ⊢
      have hone : EntityManager.Scene (n + 1) (a.createHero pid).entityMgr := by
        unfold createHero
        cases a.members.lookup pid with
        | none => exact ⟨h.sound, h.quiet, h.next.trans (Nat.le_succ n)⟩
        | some mem =>
          dsimp only
          refine h.create (by omega) ?_ ?_
          · exact EntityType.noConfusion
          · exact ⟨(by decide : (0 : ℤ) ≤ 1000), le_rfl⟩
      have hrest := ih (a.createHero pid) (n + 1) hone (by omega)
      rw [show n + (l.length + 1) = n + 1 + l.length by omega]
      exact hrest
  have hdefs : ∀ (defs : List TowerDef) (m : EntityManager F) (n : ℕ), EntityManager.Scene n m →
      EntityManager.Scene n (defs.foldl
        (fun m d => m.put d.entityId (.tower (.new d.entityId d.team d.grade))) m) :=
    fun defs m n h => foldl_invariant_all (I := EntityManager.Scene n) (fun _ _ _ hm => hm.put _ _) h
  have hdefault : ∀ (l : List (TeamSide × TowerGrade)) (m : EntityManager F) (n : ℕ),
      EntityManager.Scene n m → n + l.length < 2 ^ 64 → EntityManager.Scene (n + l.length)
        (l.foldl (fun m d => m.create fun id => .tower (.new id d.1 d.2)) m) := by
    intro l
    induction l with
    | nil => exact fun m n h _ => h
    | cons d l ih =>
      intro m n h hleft
      rw [List.length_cons] at hleft ⊢
      have hone : EntityManager.Scene (n + 1) (m.create fun id => .tower (.new id d.1 d.2)) := by
        refine h.create (by omega) ?_ ?_
        · exact EntityType.noConfusion
        · trivial
      have hrest := ih _ (n + 1) hone (by omega)
      rw [show n + (l.length + 1) = n + 1 + l.length by omega]
      exact hrest
  have hlen : (players.arrange a.members.keys).length ≤ 2 ^ 32 := by
    rw [(players.perm a.members.keys).length_eq]
    exact (List.length_map _).trans_le hroom
  have hstart : EntityManager.Scene 1 a.entityMgr := by
    rw [hempty]
    exact ⟨⟨fun _ _ h => (nomatch h), fun _ _ h => (nomatch h), fun _ _ h => (nomatch h)⟩,
      fun _ _ h => (nomatch h), le_rfl⟩
  have hscene := hdefs cfg.towerDefs _ _
    (hheroes (players.arrange a.members.keys) a 1 hstart (by omega))
  unfold initBattleScene
  simp only
  split_ifs
  · exact (hdefault defaultTowers _ _ hscene (by
      have hsize : (defaultTowers).length = 8 := rfl
      omega)).sound
  · exact hscene.sound

/-! ## Every run -/

/-- In a tick every blow is one on another side, and who is no projectile and is struck by none
loses no hit points. -/
def Fair (cfg : BattleConfig F) (a : Arena F) : ArenaEvent F → Prop
  | .tick confirmed o =>
    a.stage = .fighting → BlowsOk OtherSide a confirmed o ∧
      ∀ id e e', a.entityMgr.find id = some e →
        (a.fight cfg confirmed o).entityMgr.find id = some e' → e'.type = e.type →
          e.type ≠ .projectile → e'.base.hp < e.base.hp → ¬ BlowsOk (Misses id) a confirmed o
  | _ => True

/-- No friendly fire in the whole run. -/
def FriendlyFree (cfg : BattleConfig F) (es : List (ArenaEvent F)) : Prop :=
  RunOk (next cfg) (Fair cfg) {} es

/-- The condition on inputs: a skill that hits at once is not cast at somebody of the own side. -/
def SparesOwnSide (a : Arena F) : ArenaEvent F → Prop
  | .tick confirmed _ => a.stage = .fighting → InputsOk OtherSide a confirmed
  | _ => True

/-- `NextEntityId` does not come round. -/
def HasIds (a : Arena F) : ArenaEvent F → Prop
  | .tick confirmed _ =>
    a.stage = .fighting → a.entityMgr.nextEntityId.toNat + (inputCount confirmed + 8) < 2 ^ 64
  | _ => True

instance (a : Arena F) (e : ArenaEvent F) : Decidable (SparesOwnSide a e) := by
  unfold SparesOwnSide
  exact match e with
    | .tick .. => by
      dsimp only
      infer_instance
    | .enter .. | .remove .. | .initBattleScene .. => inferInstanceAs (Decidable True)

instance (a : Arena F) (e : ArenaEvent F) : Decidable (HasIds a e) := by
  unfold HasIds
  exact match e with
    | .tick .. => by
      dsimp only
      infer_instance
    | .enter .. | .remove .. | .initBattleScene .. => inferInstanceAs (Decidable True)

/-- What holds between the events. -/
structure Steady (a : Arena F) : Prop where
  sound : EntityManager.Sound a.entityMgr
  empty : a.stage = .before → a.entityMgr = {} ∧ a.members.length ≤ 2 ^ 32

theorem Steady.blowsOk (h : Steady a) {confirmed : List ConfirmedInputs} (o : Orders)
    (hinputs : InputsOk OtherSide a confirmed)
    (hids : a.entityMgr.nextEntityId.toNat + (inputCount confirmed + 8) < 2 ^ 64) :
    BlowsOk OtherSide a confirmed o := by
  refine ⟨hinputs, EntityManager.combatOk_otherSide ?_ o.entities⟩
  exact h.sound.changes (leads_tickAll hinputs (by omega)).1

theorem Steady.next (h : Steady a) {e : ArenaEvent F} (hspares : SparesOwnSide a e)
    (hids : HasIds a e) (hstep : Arena.next cfg a e = some a') : Steady a' := by
  cases e with
  | enter playerId team spawnPos =>
    rcases next_enter_eq_some hstep with rfl | ⟨hlt, rfl⟩
    · exact h
    · refine ⟨h.sound, fun hbefore => ⟨(h.empty hbefore).1, ?_⟩⟩
      have hlen := a.members.length_assign_le playerId ({ team, spawnPos } : Member F)
      have hsize : (cfg.teamSize * 2).toNat < 2 ^ 32 := UInt32.toNat_lt _
      show (a.members.assign playerId _).length ≤ _
      omega
  | remove playerId =>
    cases hstep
    refine ⟨h.sound, fun hbefore => ⟨(h.empty hbefore).1, ?_⟩⟩
    exact (List.length_filter_le _ _).trans (h.empty hbefore).2
  | initBattleScene players =>
    obtain ⟨hstage, rfl⟩ := next_initBattleScene_eq_some.mp hstep
    refine ⟨scene_initBattleScene (h.empty hstage).1 (h.empty hstage).2, nofun⟩
  | tick confirmed o =>
    obtain ⟨hstage, rfl⟩ := next_tick_eq_some.mp hstep
    refine ⟨?_, fun hbefore => absurd hbefore (fight_stage_ne_before hstage)⟩
    have hblows := h.blowsOk o (hspares hstage) (hids hstage)
    exact h.sound.changes (leads_fight hblows (hids hstage)).1

/-- An event that meets the condition is fair. -/
theorem Steady.fair (h : Steady a) {e : ArenaEvent F} (hspares : SparesOwnSide a e)
    (hids : HasIds a e) : Fair cfg a e := by
  cases e with
  | tick confirmed o =>
    intro hstage
    refine ⟨h.blowsOk o (hspares hstage) (hids hstage), ?_⟩
    intro id e e' hfind hfind' htype hno hlost hmisses
    have hleads : EntityManager.Leads (Misses id) (inputCount confirmed + 8) a.entityMgr
        (a.fight cfg confirmed o).entityMgr := leads_fight hmisses
    have hunhurt := h.sound.unhurt (hleads (hids hstage)).1 hfind hno
    exact absurd (hunhurt.kept e' hfind' htype) (not_le.mpr hlost)
  | _ => trivial

theorem Fair.sparesOwnSide {e : ArenaEvent F} (h : Fair cfg a e) : SparesOwnSide a e := by
  cases e with
  | tick confirmed o => exact fun hstage => (h hstage).1.1
  | _ => trivial

theorem FriendlyFree.sparesOwnSide {es : List (ArenaEvent F)} (h : FriendlyFree cfg es) :
    RunOk (Arena.next cfg) SparesOwnSide {} es :=
  runOk_of_invariant (I := fun _ => True) (fun _ _ _ _ _ _ => trivial)
    (fun _ _ _ hfair => hfair.sparesOwnSide) trivial h

/-- The blue player casts the skill that hits at once at the crystal of its own side. -/
def ownCrystal : List (ArenaEvent ℚ) :=
  duel ++ [.tick [⟨1, [(1, { playerId := 1, skillSlot := 3, skillTargetEid := 6, hasInput := true })]⟩]
    ⟨.asIs, .asIs⟩]

/-- The crystal is struck. -/
theorem ownCrystal_not_friendlyFree :
    ¬ ∀ (cfg : BattleConfig ℚ) (es : List (ArenaEvent ℚ)), FriendlyFree cfg es := by
  intro h
  have hspares := (h { teamSize := 1 } ownCrystal).sparesOwnSide
  have hnot : ¬ RunOk (Arena.next { teamSize := 1 }) SparesOwnSide ({} : Arena ℚ) ownCrystal := by
    decide +kernel
  exact hnot hspares

/-- A run without a skill that hits at once and is cast at the own side is free of friendly fire,
and any run that is free of it is one. -/
theorem friendlyFree_exact (cfg : BattleConfig F) (es : List (ArenaEvent F)) :
    (RunOk (Arena.next cfg) (fun a e => SparesOwnSide a e ∧ HasIds a e) {} es →
        FriendlyFree cfg es) ∧
      (FriendlyFree cfg es → RunOk (Arena.next cfg) SparesOwnSide {} es) := by
  constructor
  · refine runOk_of_invariant (I := Steady) ?_ ?_ ?_
    · exact fun a e a' h hok hstep => h.next hok.1 hok.2 hstep
    · exact fun a e h hok => h.fair hok.1 hok.2
    · exact ⟨⟨fun _ _ h => (nomatch h), fun _ _ h => (nomatch h), fun _ _ h => (nomatch h)⟩,
        fun _ => ⟨rfl, Nat.zero_le _⟩⟩
  · exact FriendlyFree.sparesOwnSide

/-- The blue player casts it at the red hero. -/
theorem friendlyFree_skirmish : FriendlyFree { teamSize := 1 } skirmish :=
  (friendlyFree_exact { teamSize := 1 } skirmish).1 (by decide +kernel)

end Runs

end Arena

end Gmaker.Realtime
