import Gmaker.Realtime.Arena

/-!
# Gmaker.Realtime.Combat — what towers and projectiles do

The turn of a tower in `TickCombat` is to cool down and, if it can, to shoot at the
target it aims at (`towerTurn_eq`); the turn of a projectile is a loop over candidates
(`projectileTurn_eq`). Both are stated here as changes of single entities.
-/

namespace Gmaker.Realtime

open Gmaker.Lib

variable {F : Type} [FloatOps F]

open FloatOps

namespace EntityManager

/-! ## Towers -/

/-- Whether a tower takes part in the fight. -/
def fights : Entity F → Bool
  | .tower t => t.isAlive && t.grade ≠ .crystal
  | _ => false

/-- A tower that takes part in the fight cools down. -/
def cool (m : EntityManager F) (towerId : UInt64) : EntityManager F :=
  if m.test fights towerId then m.modify towerId (.onTower (.tickCooldown fixedStepMs)) else m

/-- The target of a tower that can shoot now, and the damage. -/
def aim (minions heroes : List UInt64) (m : EntityManager F) (towerId : UInt64) :
    Option (UInt64 × ℕ) :=
  match m.find towerId with
  | some (.tower t) =>
    if t.isAlive && t.grade ≠ .crystal && (t.tickCooldown fixedStepMs).canAttack then
      (m.bestTarget t minions heroes).map fun targetId => (targetId, t.attackDamage)
    else none
  | _ => none

/-- What a shot does to its target. -/
def shot (dmg : ℕ) (e : Entity F) : Entity F :=
  let hit := e.takeDamage dmg
  if hit.isAlive then hit else hit.onHero .addDeath

section Towers

variable {m m' : EntityManager F} {minions heroes : List UInt64} {towerId id : UInt64}
  {tower : Tower F} {best : Option UInt64 × Fixed}

omit [FloatOps F] in
@[simp] theorem tickCooldown_base (t : Tower F) (deltaMs : ℕ) :
    (t.tickCooldown deltaMs).toIEntity = t.toIEntity := by
  unfold Tower.tickCooldown
  split_ifs <;> rfl

omit [FloatOps F] in
@[simp] theorem tickCooldown_attackDamage (t : Tower F) (deltaMs : ℕ) :
    (t.tickCooldown deltaMs).attackDamage = t.attackDamage := by
  unfold Tower.tickCooldown
  split_ifs <;> rfl

omit [FloatOps F] in
@[simp] theorem tickCooldown_attackRange (t : Tower F) (deltaMs : ℕ) :
    (t.tickCooldown deltaMs).attackRange = t.attackRange := by
  unfold Tower.tickCooldown
  split_ifs <;> rfl

/-- A check reads the side, the position and the life of the candidate. -/
theorem nearer_congr (h : (m.find id).map Entity.base = (m'.find id).map Entity.base) :
    m.nearer tower best id = m'.nearer tower best id := by
  unfold nearer
  cases hm : m.find id with
  | none =>
    rw [hm] at h
    rw [Option.map_eq_none_iff.mp h.symm]
  | some e =>
    rw [hm] at h
    obtain ⟨e', he', hbase⟩ := Option.map_eq_some_iff.mp h.symm
    have halive : e'.isAlive = e.isAlive := congrArg IEntity.isAlive hbase
    have hteam : e'.team = e.team := congrArg IEntity.team hbase
    rw [he']
    simp only [halive, hteam, hbase]

/-- What has a check as its result: the candidate itself, if it is an enemy that lives. -/
theorem nearer_eq (m : EntityManager F) (tower : Tower F) (best : Option UInt64 × Fixed)
    (id : UInt64) :
    m.nearer tower best id = best ∨
      (∃ cand, m.find id = some cand ∧ cand.isAlive = true ∧ cand.team ≠ tower.team) ∧
        (m.nearer tower best id).1 = some id := by
  unfold nearer
  cases hm : m.find id with
  | none => exact .inl rfl
  | some cand =>
    simp only
    split_ifs with hskip hdist
    · exact .inl rfl
    · rw [Bool.or_eq_true, not_or] at hskip
      refine .inr ⟨⟨cand, rfl, by simpa using hskip.1, by simpa using hskip.2⟩, rfl⟩
    · exact .inl rfl

/-- A loop of checks gives back what it was given or an enemy that lives. -/
theorem foldl_nearer {ids : List UInt64} {targetId : UInt64}
    (h : (ids.foldl (m.nearer tower) best).1 = some targetId) :
    best.1 = some targetId ∨ targetId ∈ ids ∧
      ∃ cand, m.find targetId = some cand ∧ cand.isAlive = true ∧ cand.team ≠ tower.team := by
  induction ids generalizing best with
  | nil => exact .inl h
  | cons id ids ih =>
    rcases ih h with hbest | ⟨hmem, hcand⟩
    · rcases nearer_eq m tower best id with heq | ⟨hcand, heq⟩
      · exact .inl (heq ▸ hbest)
      · rw [heq] at hbest
        cases hbest
        exact .inr ⟨List.mem_cons_self, hcand⟩
    · exact .inr ⟨List.mem_cons_of_mem id hmem, hcand⟩

/-- The target of a tower is a minion or a hero of another side that lives. -/
theorem bestTarget_spec {targetId : UInt64}
    (h : m.bestTarget tower minions heroes = some targetId) :
    targetId ∈ minions ++ heroes ∧
      ∃ cand, m.find targetId = some cand ∧ cand.isAlive = true ∧ cand.team ≠ tower.team := by
  unfold bestTarget at h
  rcases foldl_nearer h with hminion | ⟨hmem, hcand⟩
  · rcases foldl_nearer hminion with hnone | ⟨hmem, hcand⟩
    · cases hnone
    · exact ⟨List.mem_append_left _ hmem, hcand⟩
  · exact ⟨List.mem_append_right _ hmem, hcand⟩

theorem foldl_nearer_congr {ids : List UInt64}
    (h : ∀ id ∈ ids, (m.find id).map Entity.base = (m'.find id).map Entity.base) :
    ids.foldl (m.nearer tower) best = ids.foldl (m'.nearer tower) best := by
  induction ids generalizing best with
  | nil => rfl
  | cons id ids ih =>
    rw [List.foldl_cons, List.foldl_cons, nearer_congr (h id List.mem_cons_self)]
    exact ih fun id' hmem => h id' (List.mem_cons_of_mem id hmem)

theorem bestTarget_congr
    (h : ∀ id ∈ minions ++ heroes, (m.find id).map Entity.base = (m'.find id).map Entity.base) :
    m.bestTarget tower minions heroes = m'.bestTarget tower minions heroes := by
  unfold bestTarget
  rw [foldl_nearer_congr fun id hmem => h id (List.mem_append_left _ hmem)]
  exact congrArg Prod.fst (foldl_nearer_congr fun id hmem => h id (List.mem_append_right _ hmem))

omit [FloatOps F] in
/-- Changing what only a tower has leaves everyone's base alone. -/
theorem find_onTower_base {f : Tower F → Tower F} (hf : ∀ t, (f t).toIEntity = t.toIEntity)
    (id : UInt64) :
    ((m.modify towerId (.onTower f)).find id).map Entity.base = (m.find id).map Entity.base := by
  rw [find_modify]
  split_ifs with hid
  · cases m.find id with
    | none => rfl
    | some e =>
      cases e with
      | tower t => exact congrArg some (hf t)
      | _ => rfl
  · rfl

/-- The turn of a tower: it cools down, and shoots if it has a target. -/
theorem towerTurn_eq (minions heroes : List UInt64) (m : EntityManager F) (towerId : UInt64) :
    towerTurn minions heroes m towerId =
      match m.aim minions heroes towerId with
      | none => m.cool towerId
      | some (targetId, dmg) => (m.cool towerId).shoot towerId targetId dmg := by
  unfold towerTurn aim cool test
  cases hfind : m.find towerId with
  | none => rfl
  | some e =>
    cases e with
    | tower t =>
      simp only [Option.any_some, fights]
      by_cases halive : t.isAlive = true
      · by_cases hgrade : t.grade = .crystal
        · simp [halive, hgrade]
        · have hbase : ∀ id ∈ minions ++ heroes,
              ((m.modify towerId (.onTower (.tickCooldown fixedStepMs))).find id).map Entity.base =
                (m.find id).map Entity.base :=
            fun id _ => find_onTower_base (fun t => tickCooldown_base t fixedStepMs) id
          have htarget : (m.modify towerId (.onTower (.tickCooldown fixedStepMs))).bestTarget
              (t.tickCooldown fixedStepMs) minions heroes = m.bestTarget t minions heroes := by
            rw [bestTarget_congr hbase]
            unfold bestTarget
            rw [tickCooldown_attackRange]
            have hnearer : m.nearer (t.tickCooldown fixedStepMs) = m.nearer t := by
              funext best id
              unfold nearer
              rw [tickCooldown_base]
            rw [hnearer]
          by_cases hcan : (t.tickCooldown fixedStepMs).canAttack = true
          · rw [htarget]
            cases m.bestTarget t minions heroes <;> simp [halive, hgrade, hcan]
          · simp [halive, hgrade, hcan]
      · simp [halive]
    | _ => rfl

omit [FloatOps F] in
/-- A shot is one change of the target and one of the tower. -/
theorem shoot_eq {targetId : UInt64} (h : targetId ≠ towerId) (dmg : ℕ) :
    m.shoot towerId targetId dmg =
      (m.modify towerId (.onTower .onAttack)).modify targetId (shot dmg) := by
  have hsame : ((m.modify targetId (.takeDamage dmg)).modify towerId (.onTower .onAttack)) =
      (m.modify towerId (.onTower .onAttack)).modify targetId (.takeDamage dmg) := modify_comm h
  have hfind : ∀ f : Entity F → Entity F,
      ((m.modify towerId (.onTower .onAttack)).modify targetId f).find targetId =
        (m.find targetId).map f := by
    intro f
    rw [find_modify_self, find_modify_of_ne h]
  unfold shoot
  simp only [hsame]
  unfold test
  rw [hfind]
  cases htarget : m.find targetId with
  | none =>
    have hnone : (m.modify towerId (.onTower .onAttack)).find targetId = none := by
      rw [find_modify_of_ne h, htarget]
    have hself : ∀ f : Entity F → Entity F,
        (m.modify towerId (.onTower .onAttack)).modify targetId f =
          m.modify towerId (.onTower .onAttack) := by
      intro f
      refine modify_eq_self fun e he => ?_
      rw [hnone] at he
      cases he
    simp only [hself, ite_self]
  | some e =>
    have hcongr : ∀ f : Entity F → Entity F, f e = shot dmg e →
        (m.modify towerId (.onTower .onAttack)).modify targetId f =
          (m.modify towerId (.onTower .onAttack)).modify targetId (shot dmg) := by
      intro f hf
      refine modify_congr fun e' he' => ?_
      rw [find_modify_of_ne h, htarget] at he'
      cases he'
      exact hf
    simp only [Option.map_some, Option.any_some]
    split_ifs with halive
    · refine hcongr _ ?_
      unfold shot
      simp only [halive, if_true]
    · rw [modify_modify]
      refine hcongr _ ?_
      unfold shot
      simp only [halive]
      rfl

omit [FloatOps F] in
theorem find_cool_of_ne (h : id ≠ towerId) : (m.cool towerId).find id = m.find id := by
  unfold cool
  split_ifs
  · exact find_modify_of_ne h
  · rfl

/-- A tower that aims has a target of another side that lives. -/
theorem aim_spec {targetId : UInt64} {dmg : ℕ}
    (h : m.aim minions heroes towerId = some (targetId, dmg)) :
    ∃ t, m.find towerId = some (.tower t) ∧
      ∃ cand, m.find targetId = some cand ∧ cand.isAlive = true ∧ cand.team ≠ t.team := by
  unfold aim at h
  cases hfind : m.find towerId with
  | none =>
    rw [hfind] at h
    cases h
  | some e =>
    rw [hfind] at h
    cases e with
    | tower t =>
      simp only at h
      split_ifs at h
      obtain ⟨id, hbest, heq⟩ := Option.map_eq_some_iff.mp h
      cases heq
      exact ⟨t, rfl, (bestTarget_spec hbest).2⟩
    | _ => cases h

theorem mem_of_aim {targetId : UInt64} {dmg : ℕ}
    (h : m.aim minions heroes towerId = some (targetId, dmg)) : targetId ∈ minions ++ heroes := by
  unfold aim at h
  rcases hfind : m.find towerId with _ | (_ | _ | t | _)
  case some.tower =>
    rw [hfind] at h
    dsimp only at h
    split_ifs at h
    rcases Option.map_eq_some_iff.mp h with ⟨id, hbest, heq⟩
    cases heq
    exact (bestTarget_spec hbest).1
  all_goals
    rw [hfind] at h
    cases h

/-- No tower aims at itself. -/
theorem ne_of_aim {targetId : UInt64} {dmg : ℕ}
    (h : m.aim minions heroes towerId = some (targetId, dmg)) : targetId ≠ towerId := by
  obtain ⟨t, ht, cand, hcand, -, hteam⟩ := aim_spec h
  rintro rfl
  rw [ht] at hcand
  cases hcand
  exact hteam rfl

end Towers

/-! ## Projectiles -/

/-- Whether a candidate is hit: an enemy of the caster that lives, near enough. -/
def hits (m : EntityManager F) (proj : Projectile F) (cand : Entity F) : Bool :=
  cand.isAlive && cand.team ≠ m.casterTeam proj && inReach proj cand

section Projectiles

variable {m : EntityManager F} {proj : Projectile F} {id : UInt64}

/-- A candidate that is hit takes the damage, and the caster the kill. -/
theorem checkHit_eq (proj : Projectile F) (m : EntityManager F) (id : UInt64) :
    checkHit proj m id =
      match m.find id with
      | none => m
      | some cand =>
        if m.hits proj cand then
          if (cand.takeDamage proj.damage).isAlive then m.modify id (.takeDamage proj.damage)
          else (m.modify id (.takeDamage proj.damage)).modify proj.casterId (.onHero .addKill)
        else m := by
  unfold checkHit hits
  cases hfind : m.find id with
  | none => rfl
  | some cand =>
    have htest : (m.modify id (.takeDamage proj.damage)).test Entity.isAlive id =
        (cand.takeDamage proj.damage).isAlive := by
      unfold test
      rw [find_modify_self, hfind]
      rfl
    simp only [htest]
    by_cases halive : cand.isAlive = true
    · by_cases hteam : cand.team = m.casterTeam proj
      · simp [halive, hteam]
      · by_cases hreach : inReach proj cand = true <;> simp [halive, hteam, hreach]
    · simp [halive]

/-- The turn of a projectile is one loop over all candidates. -/
theorem projectileTurn_eq (heroes minions towers : List UInt64) (m : EntityManager F)
    (projectileId : UInt64) :
    projectileTurn heroes minions towers m projectileId =
      match m.find projectileId with
      | some (.projectile proj) =>
        if proj.reached then (heroes ++ minions ++ towers).foldl (checkHit proj) m else m
      | _ => m := by
  unfold projectileTurn
  cases m.find projectileId with
  | none => rfl
  | some e =>
    cases e with
    | projectile proj => simp only [List.foldl_append]
    | _ => rfl

/-- Nobody is hit by a projectile of its own. -/
theorem casterId_ne_of_hits {cand : Entity F} (hfind : m.find id = some cand)
    (h : m.hits proj cand = true) : proj.casterId ≠ id := by
  rintro rfl
  unfold hits casterTeam at h
  rw [hfind] at h
  simp at h

end Projectiles

end EntityManager

end Gmaker.Realtime
