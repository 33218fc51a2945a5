import Mathlib
import Gmaker.Realtime.EntityIds
import Gmaker.Realtime.FriendlyFire

/-!
# Gmaker.Realtime.Projectiles — what becomes of a projectile

A cast creates a projectile, `TickAll` moves it on, `TickCombat` looks whom it strikes once it
has reached its target, and in the end of that tick it is removed. Nobody else touches a
projectile, but for a skill that hits at once: it strikes whatever living entity the client
names, and a projectile has one hit point. It is then removed without having struck anybody.

The arena is watched: the log has the casts, with the projectiles as they were created, and the
impacts, with the candidates that took damage. As long as no skill that hits at once is aimed at a
projectile, and every projectile can get to its target, each has its impact in one tick, strikes
nobody twice, and is gone after that tick (`projectilesHitOnce_of_run`).
-/

namespace Gmaker.Realtime

open Gmaker.Lib

variable {F : Type}

/-! ## Flights -/

section Flight

variable [FloatOps F]

open FloatOps

/-- Where something is after so many steps towards its target. -/
def approach (target : Vec3 F) (step : F) (pos : Vec3 F) : ℕ → Vec3 F
  | 0 => pos
  | n + 1 => (stepTowards (approach target step pos n) target step).1

/-- One step more than so many takes it to the target. -/
def landsAt (target : Vec3 F) (step : F) (pos : Vec3 F) (n : ℕ) : Bool :=
  le (distanceXZ (approach target step pos n) target) step

namespace Projectile

/-- The projectile in flight, after so many ticks. -/
def after (p : Projectile F) (n : ℕ) : Projectile F :=
  { p with pos := approach p.targetPos (stepLength p.speed fixedStepMs) p.pos n }

/-- The next tick after so many takes it to the target. -/
def lands (p : Projectile F) (n : ℕ) : Bool :=
  landsAt p.targetPos (stepLength p.speed fixedStepMs) p.pos n

/-- A projectile that has just been created. -/
structure Launched (p : Projectile F) : Prop where
  reached : p.reached = false
  alive : p.isAlive = true

/-- The projectile at its target. -/
def landed (p : Projectile F) : Projectile F :=
  { p with pos := p.targetPos, reached := true, hp := 0 }

variable {p : Projectile F}

theorem Launched.tick_after (h : p.Launched) (n : ℕ) :
    (p.after n).tick fixedStepMs = if p.lands n then p.landed else p.after (n + 1) := by
  have hgoes : ((p.after n).reached || !(p.after n).isAlive) = false := by
    have halive : (p.after n).isAlive = true := h.alive
    have hreached : (p.after n).reached = false := h.reached
    rw [halive, hreached]
    rfl
  unfold tick lands landsAt landed
  rw [if_neg (by rw [hgoes]; exact Bool.false_ne_true)]
  by_cases hlands : le (distanceXZ (approach p.targetPos (stepLength p.speed fixedStepMs) p.pos n)
      p.targetPos) (stepLength p.speed fixedStepMs) = true
  · rw [if_pos hlands]
    have hstep : stepTowards (p.after n).pos (p.after n).targetPos
        (stepLength (p.after n).speed fixedStepMs) = (p.targetPos, none) := if_pos hlands
    rw [hstep]
    rfl
  · rw [if_neg hlands]
    have hstep : stepTowards (p.after n).pos (p.after n).targetPos
        (stepLength (p.after n).speed fixedStepMs) =
        (approach p.targetPos (stepLength p.speed fixedStepMs) p.pos (n + 1),
          (stepTowards (p.after n).pos (p.after n).targetPos
            (stepLength (p.after n).speed fixedStepMs)).2) := rfl
    have hsome : ∃ yaw, (stepTowards (p.after n).pos (p.after n).targetPos
        (stepLength (p.after n).speed fixedStepMs)).2 = some yaw := by
      unfold stepTowards
      exact ⟨_, congrArg Prod.snd (if_neg hlands)⟩
    rcases hsome with ⟨yaw, hyaw⟩
    rw [hstep, hyaw]
    rfl

end Projectile

end Flight

/-! ## What leaves projectiles alone -/

/-- A change that makes no other projectile of an entity. -/
def Entity.SparesProjectiles (f : Entity F → Entity F) : Prop :=
  ∀ e p, f e = .projectile p ↔ e = .projectile p

theorem Entity.sparesProjectiles_onHero (g : Hero F → Hero F) :
    Entity.SparesProjectiles (.onHero g) := by
  intro e p
  rcases e with _ | _ | _ | _
  all_goals simp [Entity.onHero]

theorem Entity.sparesProjectiles_onTower (g : Tower F → Tower F) :
    Entity.SparesProjectiles (.onTower g) := by
  intro e p
  rcases e with _ | _ | _ | _
  all_goals simp [Entity.onTower]

namespace EntityManager

/-- The projectiles are as they were, each of them. -/
def KeepsProjectiles (m m' : EntityManager F) : Prop :=
  ∀ id p, m'.find id = some (.projectile p) ↔ m.find id = some (.projectile p)

/-- The entity with the id is not a projectile. -/
def NoProjectile (m : EntityManager F) (id : UInt64) : Prop :=
  ∀ p, m.find id ≠ some (.projectile p)

section Keeps

variable {m m' m'' : EntityManager F} {id : UInt64}

theorem KeepsProjectiles.refl (m : EntityManager F) : KeepsProjectiles m m := fun _ _ => Iff.rfl

theorem KeepsProjectiles.trans (h : KeepsProjectiles m m') (h' : KeepsProjectiles m' m'') :
    KeepsProjectiles m m'' :=
  fun id p => (h' id p).trans (h id p)

theorem KeepsProjectiles.noProjectile (h : KeepsProjectiles m m') (hid : m.NoProjectile id) :
    m'.NoProjectile id :=
  fun p hp => hid p ((h id p).mp hp)

theorem noProjectile_of_mem_getByType {o : Order UInt64} {type : EntityType}
    (hid : id ∈ m.getByType o type) (htype : type ≠ .projectile) : m.NoProjectile id := by
  intro p hp
  rcases mem_getByType.mp hid with ⟨e, he, rfl⟩
  rw [hp] at he
  cases he
  exact htype rfl

/-- A test that only projectiles pass. -/
theorem test_eq_true_iff {P : Entity F → Bool} (hP : ∀ e, P e = true → ∃ p, e = .projectile p) :
    m.test P id = true ↔ ∃ p, m.find id = some (.projectile p) ∧ P (.projectile p) = true := by
  unfold test
  rw [Option.any_eq_true]
  constructor
  · rintro ⟨e, he, htrue⟩
    rcases hP e htrue with ⟨p, rfl⟩
    exact ⟨p, he, htrue⟩
  · rintro ⟨p, hp, htrue⟩
    exact ⟨_, hp, htrue⟩

theorem KeepsProjectiles.test_eq (h : KeepsProjectiles m m') {P : Entity F → Bool}
    (hP : ∀ e, P e = true → ∃ p, e = .projectile p) : m'.test P = m.test P := by
  funext id
  rw [Bool.eq_iff_iff, test_eq_true_iff hP, test_eq_true_iff hP]
  exact exists_congr fun p => and_congr_left fun _ => h id p

theorem keepsProjectiles_modify {f : Entity F → Entity F} (hf : Entity.SparesProjectiles f)
    (id : UInt64) : KeepsProjectiles m (m.modify id f) := by
  intro j p
  rw [find_modify]
  split_ifs
  · rcases m.find j with _ | e
    · simp
    · simp [hf e p]
  · exact Iff.rfl

theorem keepsProjectiles_onHero (g : Hero F → Hero F) (id : UInt64) :
    KeepsProjectiles m (m.modify id (.onHero g)) :=
  keepsProjectiles_modify (Entity.sparesProjectiles_onHero g) id

theorem keepsProjectiles_onTower (g : Tower F → Tower F) (id : UInt64) :
    KeepsProjectiles m (m.modify id (.onTower g)) :=
  keepsProjectiles_modify (Entity.sparesProjectiles_onTower g) id

/-- A blow on another entity. -/
theorem keepsProjectiles_takeDamage (hid : m.NoProjectile id) (dmg : ℕ) :
    KeepsProjectiles m (m.modify id (.takeDamage dmg)) := by
  intro j p
  rw [find_modify]
  split_ifs with hj
  · subst hj
    rcases hm : m.find j with _ | (_ | _ | _ | q)
    case some.projectile => exact absurd hm (hid q)
    all_goals simp [Entity.takeDamage]
  · exact Iff.rfl

/-- Something else with an id that no projectile has. -/
theorem keepsProjectiles_create {make : UInt64 → Entity F}
    (hmake : ∀ p, make m.nextEntityId ≠ .projectile p) (hid : m.NoProjectile m.nextEntityId) :
    KeepsProjectiles m (m.create make) := by
  intro j p
  rw [find_create]
  split_ifs with hj
  · subst hj
    exact iff_of_false (fun h => hmake p (Option.some.inj h)) (hid p)
  · exact Iff.rfl

theorem keepsProjectiles_foldl {σ α : Type} (mgr : σ → EntityManager F) {f : σ → α → σ} {l : List α}
    {s : σ} (hpass : ∀ s', ∀ a ∈ l, KeepsProjectiles (mgr s) (mgr s') →
      KeepsProjectiles (mgr s') (mgr (f s' a))) :
    KeepsProjectiles (mgr s) (mgr (l.foldl f s)) :=
  foldl_invariant_all (I := fun s' => KeepsProjectiles (mgr s) (mgr s'))
    (fun s' a ha h => h.trans (hpass s' a ha h)) (.refl _)

end Keeps

/-! ### Combat -/

section Combat

variable [FloatOps F] {m : EntityManager F} {minions heroes towers : List UInt64}
  {towerId id : UInt64}

/-- A tower shoots at minions and heroes. -/
theorem keepsProjectiles_towerTurn (htargets : ∀ id ∈ minions ++ heroes, m.NoProjectile id) :
    KeepsProjectiles m (towerTurn minions heroes m towerId) := by
  rw [towerTurn_eq]
  have hcool : KeepsProjectiles m (m.cool towerId) := by
    unfold cool
    split_ifs
    · exact keepsProjectiles_onTower _ towerId
    · exact .refl m
  rcases haim : m.aim minions heroes towerId with _ | ⟨targetId, dmg⟩
  · exact hcool
  · have htarget := hcool.noProjectile (htargets targetId (mem_of_aim haim))
    have hshot := (hcool.trans (keepsProjectiles_takeDamage htarget dmg)).trans
      (keepsProjectiles_onTower .onAttack towerId)
    unfold shoot
    dsimp only
    split_ifs
    · exact hshot
    · exact hshot.trans (keepsProjectiles_onHero .addDeath targetId)

theorem keepsProjectiles_checkHit (hid : m.NoProjectile id) (proj : Projectile F) :
    KeepsProjectiles m (checkHit proj m id) := by
  rw [checkHit_eq]
  rcases m.find id with _ | cand
  · exact .refl m
  · have hblow := keepsProjectiles_takeDamage hid proj.damage
    dsimp only
    split_ifs
    · exact hblow
    · exact hblow.trans (keepsProjectiles_onHero .addKill _)
    · exact .refl m

/-- And so does a projectile. -/
theorem keepsProjectiles_projectileTurn
    (htargets : ∀ id ∈ heroes ++ minions ++ towers, m.NoProjectile id) (projectileId : UInt64) :
    KeepsProjectiles m (projectileTurn heroes minions towers m projectileId) := by
  rw [projectileTurn_eq]
  rcases m.find projectileId with _ | (_ | _ | _ | proj)
  case some.projectile =>
    dsimp only
    split_ifs
    · exact keepsProjectiles_foldl id fun m' j hj hkeep =>
        keepsProjectiles_checkHit (hkeep.noProjectile (htargets j hj)) proj
    · exact .refl m
  all_goals exact .refl m

end Combat

/-! ### The rest of a tick -/

/-- `m'` is `m` with its projectiles one tick further. -/
theorem find_tickAll_projectile [FloatOps F] {m : EntityManager F} {o : Order UInt64} {deltaMs : ℕ}
    {id : UInt64} {p : Projectile F} :
    (m.tickAll o deltaMs).find id = some (.projectile p) ↔
      ∃ q, m.find id = some (.projectile q) ∧ p = q.tick deltaMs := by
  rw [find_tickAll]
  rcases m.find id with _ | (_ | _ | _ | q)
  case some.projectile => simp [Entity.tick, eq_comm]
  all_goals simp [Entity.tick]

theorem find_removeSpent {m : EntityManager F} {o : Order UInt64} {id : UInt64} :
    (m.removeSpent o).find id = if m.test spent id then none else m.find id := by
  have hloop : ∀ (l : List UInt64) (m : EntityManager F),
      (l.foldl removeEntity m).find id = if id ∈ l then none else m.find id := by
    intro l
    induction l with
    | nil => simp
    | cons j l ih =>
      intro m
      rw [List.foldl_cons, ih, find_removeEntity]
      by_cases hj : id = j
      · simp [hj]
      · simp [hj]
  have hmem : id ∈ (m.getByType o .projectile).filter (m.test spent) ↔ m.test spent id = true := by
    rw [List.mem_filter, and_iff_right_iff_imp]
    intro hspent
    rcases (Option.any_eq_true _ _).mp hspent with ⟨e, he, hp⟩
    refine mem_getByType.mpr ⟨e, he, ?_⟩
    rcases e with _ | _ | _ | _
    case projectile => rfl
    all_goals cases hp
  unfold removeSpent
  dsimp only
  rw [hloop]
  simp only [hmem]

/-- What is left is what was there and is not spent. -/
theorem find_removeSpent_eq_some {m : EntityManager F} {o : Order UInt64} {id : UInt64}
    {e : Entity F} :
    (m.removeSpent o).find id = some e ↔ m.find id = some e ∧ spent e = false := by
  rw [find_removeSpent]
  unfold test
  constructor
  · intro h
    split_ifs at h with hspent
    rw [h, Option.any_some] at hspent
    exact ⟨h, Bool.eq_false_iff.mpr hspent⟩
  · rintro ⟨hfind, hspent⟩
    rw [hfind, Option.any_some, hspent]
    exact if_neg Bool.false_ne_true

end EntityManager

/-! ## The impacts of a tick -/

/-- A projectile that has been through the impact check of a tick, and the candidates that took its
damage. -/
structure Impact where
  id : UInt64
  tick : ℕ
  struck : List UInt64
deriving DecidableEq

namespace EntityManager

section Impacts

variable [FloatOps F] {m : EntityManager F} {proj : Projectile F} {minions heroes towers : List UInt64}
  {now : ℕ} {projectileId : UInt64}

/-- One candidate of `check_hit`, noted if it takes damage. -/
def noteHit (proj : Projectile F) (s : EntityManager F × List UInt64) (id : UInt64) :
    EntityManager F × List UInt64 :=
  (checkHit proj s.1 id, if s.1.test (s.1.hits proj) id then s.2 ++ [id] else s.2)

/-- The turn of a projectile in `TickCombat`, noted if it has reached its target. -/
def noteImpact (now : ℕ) (heroes minions towers : List UInt64)
    (s : EntityManager F × List Impact) (projectileId : UInt64) : EntityManager F × List Impact :=
  (projectileTurn heroes minions towers s.1 projectileId,
    match s.1.find projectileId with
    | some (.projectile proj) =>
      if proj.reached then
        s.2 ++ [⟨projectileId, now, ((heroes ++ minions ++ towers).foldl (noteHit proj) (s.1, [])).2⟩]
      else s.2
    | _ => s.2)

/-- `TickCombat`, with its impacts. -/
def noteCombat (now : ℕ) (o : Order UInt64) (m : EntityManager F) (impacts : List Impact) :
    EntityManager F × List Impact :=
  let towers := m.getByType o .tower
  let heroes := m.getByType o .hero
  let minions := m.getByType o .minion
  let m := towers.foldl (towerTurn minions heroes) m
  (m.getByType o .projectile).foldl (noteImpact now heroes minions towers) (m, impacts)

/-- Nobody is struck who is not checked, nor more often. -/
theorem struck_sublist (ids : List UInt64) (m : EntityManager F) :
    (ids.foldl (noteHit proj) (m, [])).2.Sublist ids := by
  have hloop : ∀ (ids : List UInt64) (s : EntityManager F × List UInt64),
      ∃ l, (ids.foldl (noteHit proj) s).2 = s.2 ++ l ∧ l.Sublist ids := by
    intro ids
    induction ids with
    | nil => exact fun s => ⟨[], (List.append_nil _).symm, .slnil⟩
    | cons id ids ih =>
      intro s
      rcases ih (noteHit proj s id) with ⟨l, hl, hsub⟩
      rw [List.foldl_cons, hl]
      unfold noteHit
      dsimp only
      split_ifs
      · refine ⟨id :: l, ?_, hsub.cons_cons id⟩
        rw [List.append_assoc, List.singleton_append]
      · exact ⟨l, rfl, hsub.cons id⟩
  rcases hloop ids (m, []) with ⟨l, hl, hsub⟩
  rw [hl, List.nil_append]
  exact hsub

/-- The log does not disturb the loop of `TickCombat`. -/
theorem fst_foldl_noteImpact (ids : List UInt64) (s : EntityManager F × List Impact) :
    (ids.foldl (noteImpact now heroes minions towers) s).1 =
      ids.foldl (projectileTurn heroes minions towers) s.1 := by
  induction ids generalizing s with
  | nil => rfl
  | cons id ids ih => exact ih _

theorem fst_noteCombat (o : Order UInt64) (m : EntityManager F) (impacts : List Impact) :
    (noteCombat now o m impacts).1 = m.tickCombat o :=
  fst_foldl_noteImpact _ _

/-- Whether the entity is a projectile at its target. -/
def arrived : Entity F → Bool
  | .projectile p => p.reached
  | _ => false

omit [FloatOps F] in
theorem arrived_projectile (e : Entity F) (h : arrived e = true) : ∃ p, e = .projectile p := by
  rcases e with _ | _ | _ | p
  case projectile => exact ⟨p, rfl⟩
  all_goals cases h

/-- The impacts of a loop are those of the projectiles that have arrived, in their order. -/
theorem foldl_noteImpact_spec (now : ℕ)
    (htargets : ∀ id ∈ heroes ++ minions ++ towers, m.NoProjectile id)
    (hnodup : (heroes ++ minions ++ towers).Nodup) (impacts : List Impact) (ids : List UInt64) :
    ∃ new : List Impact,
      (ids.foldl (noteImpact now heroes minions towers) (m, impacts)).2 = impacts ++ new ∧
      new.map Impact.id = ids.filter (m.test arrived) ∧
      ∀ i ∈ new, i.tick = now ∧ i.struck.Nodup := by
  induction ids generalizing m impacts with
  | nil => exact ⟨[], (List.append_nil _).symm, rfl, nofun⟩
  | cons id ids ih =>
    have hkeep := keepsProjectiles_projectileTurn htargets id
    have htargets' : ∀ j ∈ heroes ++ minions ++ towers,
        (projectileTurn heroes minions towers m id).NoProjectile j :=
      fun j hj => hkeep.noProjectile (htargets j hj)
    rw [List.foldl_cons, List.filter_cons]
    by_cases harrived : m.test arrived id = true
    · -- the projectile has its impact
      rcases (test_eq_true_iff arrived_projectile).mp harrived with ⟨proj, hproj, hreached⟩
      have hturn : noteImpact now heroes minions towers (m, impacts) id =
          (projectileTurn heroes minions towers m id, impacts ++ [⟨id, now,
            ((heroes ++ minions ++ towers).foldl (noteHit proj) (m, [])).2⟩]) := by
        unfold noteImpact
        dsimp only
        rw [hproj]
        exact congrArg (Prod.mk _) (if_pos hreached)
      rcases ih htargets' (impacts ++ [⟨id, now,
        ((heroes ++ minions ++ towers).foldl (noteHit proj) (m, [])).2⟩]) with
        ⟨new, hnew, hids, hall⟩
      rw [hturn, hnew, List.append_assoc, List.singleton_append, if_pos harrived]
      refine ⟨_, rfl, ?_, ?_⟩
      · rw [List.map_cons, hids, hkeep.test_eq arrived_projectile]
      · intro i hi
        rcases List.mem_cons.mp hi with rfl | hi
        · exact ⟨rfl, hnodup.sublist (struck_sublist _ m)⟩
        · exact hall i hi
    · -- nothing is noted for anybody else
      have hturn : noteImpact now heroes minions towers (m, impacts) id =
          (projectileTurn heroes minions towers m id, impacts) := by
        rw [test_eq_true_iff arrived_projectile] at harrived
        unfold noteImpact
        dsimp only
        rcases hm : m.find id with _ | (_ | _ | _ | proj)
        case some.projectile =>
          refine congrArg (Prod.mk _) (if_neg fun hreached => harrived ⟨proj, hm, hreached⟩)
        all_goals rfl
      rcases ih htargets' impacts with ⟨new, hnew, hids, hall⟩
      rw [hturn, hnew, if_neg harrived]
      refine ⟨new, rfl, ?_, hall⟩
      rw [hids, hkeep.test_eq arrived_projectile]

omit [FloatOps F] in
theorem nodup_candidates (o : Order UInt64) (m : EntityManager F) :
    (m.getByType o .hero ++ m.getByType o .minion ++ m.getByType o .tower).Nodup := by
  have hdisjoint : ∀ {type type' : EntityType}, type ≠ type' →
      (m.getByType o type).Disjoint (m.getByType o type') := by
    intro type type' hne id hid hid'
    rcases mem_getByType.mp hid with ⟨e, he, rfl⟩
    rcases mem_getByType.mp hid' with ⟨e', he', rfl⟩
    cases he.symm.trans he'
    exact hne rfl
  refine ((nodup_getByType.append nodup_getByType (hdisjoint ?_)).append nodup_getByType ?_)
  · exact EntityType.noConfusion
  · rw [List.disjoint_append_left]
    exact ⟨hdisjoint EntityType.noConfusion, hdisjoint EntityType.noConfusion⟩

/-- The towers shoot, and leave the projectiles alone. -/
theorem keepsProjectiles_towers (o : Order UInt64) (m : EntityManager F) :
    KeepsProjectiles m ((m.getByType o .tower).foldl
      (towerTurn (m.getByType o .minion) (m.getByType o .hero)) m) := by
  refine keepsProjectiles_foldl id fun m' towerId _ hkeep => ?_
  refine keepsProjectiles_towerTurn fun j hj => hkeep.noProjectile ?_
  rcases List.mem_append.mp hj with hminion | hhero
  · exact noProjectile_of_mem_getByType hminion EntityType.noConfusion
  · exact noProjectile_of_mem_getByType hhero EntityType.noConfusion

omit [FloatOps F] in
theorem noProjectile_candidates (o : Order UInt64) (m : EntityManager F) :
    ∀ id ∈ m.getByType o .hero ++ m.getByType o .minion ++ m.getByType o .tower,
      m.NoProjectile id := by
  intro id hid
  rcases List.mem_append.mp hid with hid | htower
  · rcases List.mem_append.mp hid with hhero | hminion
    · exact noProjectile_of_mem_getByType hhero EntityType.noConfusion
    · exact noProjectile_of_mem_getByType hminion EntityType.noConfusion
  · exact noProjectile_of_mem_getByType htower EntityType.noConfusion

/-- Combat leaves the projectiles as they are. -/
theorem keepsProjectiles_tickCombat (o : Order UInt64) (m : EntityManager F) :
    KeepsProjectiles m (m.tickCombat o) := by
  refine (keepsProjectiles_towers o m).trans (keepsProjectiles_foldl id fun m' id _ hkeep => ?_)
  exact keepsProjectiles_projectileTurn
    (fun j hj => ((keepsProjectiles_towers o m).trans hkeep).noProjectile
      (noProjectile_candidates o m j hj)) id

/-- The impacts of a tick: one for every projectile that has arrived. -/
theorem noteCombat_spec (now : ℕ) (o : Order UInt64) (m : EntityManager F) (impacts : List Impact) :
    ∃ new : List Impact, (noteCombat now o m impacts).2 = impacts ++ new ∧
      (new.map Impact.id).Nodup ∧ (∀ i ∈ new, i.tick = now ∧ i.struck.Nodup) ∧
      ∀ id, id ∈ new.map Impact.id ↔
        ∃ p, m.find id = some (.projectile p) ∧ p.reached = true := by
  have hkeep := keepsProjectiles_towers o m
  -- the towers have shot by then, but changed no projectile
  rcases foldl_noteImpact_spec now
    (fun id hid => hkeep.noProjectile (noProjectile_candidates o m id hid)) (nodup_candidates o m)
    impacts (((m.getByType o .tower).foldl
      (towerTurn (m.getByType o .minion) (m.getByType o .hero)) m).getByType o .projectile) with
    ⟨new, hnew, hids, hall⟩
  refine ⟨new, hnew, ?_, hall, fun id => ?_⟩
  · rw [hids]
    exact nodup_getByType.filter _
  · rw [hids, hkeep.test_eq arrived_projectile, List.mem_filter, test_eq_true_iff arrived_projectile]
    refine and_iff_right_iff_imp.mpr ?_
    rintro ⟨p, hp, _⟩
    exact mem_getByType.mpr ⟨_, (hkeep id p).mpr hp, rfl⟩

end Impacts

end EntityManager

/-! ## The casts of a tick -/

/-- Nobody strikes a projectile. -/
def SparesProjectile (_ : TeamSide) (_ : UInt64) (target : Entity F) : Prop :=
  target.type ≠ .projectile

instance (side : TeamSide) (id : UInt64) (target : Entity F) :
    Decidable (SparesProjectile side id target) := inferInstanceAs (Decidable (_ ≠ _))

namespace EntityManager

section Casts

variable [FloatOps F] {m : EntityManager F} {heroId : UInt64} {input : PlayerInput} {bound : ℕ}

open FloatOps

/-- From where the hero is, so many steps of the projectile take it to the target of the input. -/
def CastLands (bound : ℕ) (m : EntityManager F) (heroId : UInt64) (input : PlayerInput) : Prop :=
  match m.find heroId with
  | some (.hero h) =>
    match h.skills[input.skillSlot.toNat]? with
    | none => True
    | some skill =>
      (h.castSkill input.skillSlot.toNat).1 = true → lt (int 0) skill.projectileSpeed = true →
        ∃ n < bound, landsAt ⟨ofFixed input.skillTargetX, int 0, ofFixed input.skillTargetZ⟩
          (stepLength skill.projectileSpeed fixedStepMs) h.pos n = true
  | _ => True

instance (bound : ℕ) (m : EntityManager F) (heroId : UInt64) (input : PlayerInput) :
    Decidable (CastLands bound m heroId input) := by
  unfold CastLands
  exact match m.find heroId with
    | some (.hero h) => by
      dsimp only
      generalize h.skills[input.skillSlot.toNat]? = skill
      exact match skill with
        | none => inferInstanceAs (Decidable True)
        | some _ => by
          dsimp only
          infer_instance
    | none | some (.minion _) | some (.tower _) | some (.projectile _) =>
      inferInstanceAs (Decidable True)

/-- A projectile is created with the next id, and can get to its target. -/
structure Launch (bound : ℕ) (m m' : EntityManager F) (q : Projectile F) : Prop where
  created : ∃ m₁, KeepsProjectiles m m₁ ∧ m₁.nextEntityId = m.nextEntityId ∧
    m' = m₁.create fun _ => .projectile q
  launched : q.Launched
  lands : ∃ n < bound, q.lands n = true

/-- No projectile is created or touched. -/
structure Still (m m' : EntityManager F) : Prop where
  keeps : KeepsProjectiles m m'
  next : m'.nextEntityId = m.nextEntityId

theorem still_moveHero (m : EntityManager F) (heroId : UInt64) (input : PlayerInput) :
    Still m (m.moveHero heroId input) := by
  refine ⟨?_, nextEntityId_moveHero input⟩
  unfold moveHero
  split_ifs
  · exact keepsProjectiles_onHero _ heroId
  · exact .refl m

/-- A skill sends a projectile off, or leaves the projectiles alone. -/
theorem castHero_cases (hspares : CastOk SparesProjectile m heroId input)
    (hlands : CastLands bound m heroId input) :
    (m.fires heroId input = false ∧ Still m (m.castHero heroId input)) ∨
      m.fires heroId input = true ∧ ∃ q, Launch bound m (m.castHero heroId input) q := by
  unfold castHero fires
  unfold CastOk at hspares
  unfold CastLands at hlands
  rcases hfind : m.find heroId with _ | (h | _ | _ | _)
  case some.hero =>
    rw [hfind] at hspares hlands
    have hcast : KeepsProjectiles m
        (m.modify heroId (.onHero fun h => (h.castSkill input.skillSlot.toNat).2)) :=
      keepsProjectiles_onHero _ heroId
    dsimp only at hspares hlands ⊢
    by_cases hcan : (h.castSkill input.skillSlot.toNat).1 = true
    · rcases hskill : h.skills[input.skillSlot.toNat]? with _ | skill
      · rw [if_pos hcan, hcan]
        exact Or.inl ⟨rfl, hcast, rfl⟩
      · rw [hskill] at hspares hlands
        dsimp only at hspares hlands ⊢
        rw [if_pos hcan, hcan, Option.any_some, Bool.true_and]
        -- a skill with a speed sends a projectile off, any other one strikes its target at once
        by_cases hspeed : lt (int 0) skill.projectileSpeed = true
        · rw [if_pos hspeed]
          refine Or.inr ⟨hspeed, _, ⟨_, hcast, rfl, rfl⟩, ⟨rfl, rfl⟩, ?_⟩
          exact hlands hcan hspeed
        · rw [if_neg hspeed]
          refine Or.inl ⟨by simpa using hspeed, ?_⟩
          unfold instantHit
          split_ifs with htarget
          · -- the target that is struck is no projectile
            rcases htarget with ⟨hne, halive⟩
            refine ⟨hcast.trans (keepsProjectiles_takeDamage (fun p hp => ?_) _), rfl⟩
            rcases (Option.any_eq_true _ _).mp halive with ⟨target, hfind', halive'⟩
            have hblow := onEntity_iff.mp (hspares hcan (by simpa using hspeed) hne) target hfind'
              halive'
            cases hp.symm.trans hfind'
            exact hblow rfl
          · exact ⟨hcast, rfl⟩
    · rw [if_neg hcan]
      refine Or.inl ⟨?_, .refl m, rfl⟩
      rw [Bool.not_eq_true] at hcan
      rw [hcan, Bool.false_and]
  all_goals exact Or.inl ⟨rfl, .refl m, rfl⟩

end Casts

/-! ### Whose id it is -/

section Own

variable {m m' : EntityManager F} {id : UInt64}

/-- The id has been given out, and if anybody has it, it is a projectile. -/
structure OwnId (m : EntityManager F) (id : UInt64) : Prop where
  issued : m.nextEntityId ≠ 0 → id.toNat < m.nextEntityId.toNat
  own : ∀ e, m.find id = some e → e.type = .projectile

/-- Nobody gets an id that has been given out, as long as the counter has not gone round. -/
theorem OwnId.effects (h : OwnId m id)
    (heffects : Effects Entity.KeepsKind (fun _ id => id ≠ 0) m m') : OwnId m' id := by
  refine heffects.invariant (I := fun m => OwnId m id) ?_ h
  intro m₁ m₂ hm heffect
  rcases heffect with ⟨j, hf⟩ | ⟨hmake, hround⟩ | _
  case change f =>
    refine ⟨hm.issued, fun e he => ?_⟩
    rcases find_of_modify he with ⟨e₀, he₀, ⟨_, rfl⟩ | ⟨_, rfl⟩⟩
    · exact (hf e₀).1.trans (hm.own e₀ he₀)
    · exact hm.own e he₀
  case create make =>
    have hlt := hm.issued hround
    refine ⟨fun hround' => ?_, fun e he => ?_⟩
    · have hnext : (m₁.create make).nextEntityId.toNat = m₁.nextEntityId.toNat + 1 :=
        toNat_succ hround'
      omega
    · have hne : id ≠ m₁.nextEntityId := by
        rintro rfl
        exact lt_irrefl _ hlt
      rw [find_create, if_neg hne] at he
      exact hm.own e he
  case remove j =>
    refine ⟨hm.issued, fun e he => ?_⟩
    rw [find_removeEntity] at he
    split_ifs at he
    exact hm.own e he

end Own

/-! ### Minions -/

section Waves

variable [FloatOps F] {m : EntityManager F}

/-- The projectiles have ids that have been given out. -/
def ProjectilesIssued (m : EntityManager F) : Prop :=
  ∀ id p, m.find id = some (.projectile p) → m.nextEntityId ≠ 0 →
    id.toNat < m.nextEntityId.toNat

/-- A wave takes the id of no projectile. -/
theorem keepsProjectiles_spawnWave (hissued : ProjectilesIssued m) {team : TeamSide}
    (hround : FoldOk (spawn team) (fun m _ => m.nextEntityId ≠ 0) m (waveOf team)) :
    KeepsProjectiles m (m.spawnWave team) ∧ ProjectilesIssued (m.spawnWave team) := by
  rw [spawnWave_eq]
  refine foldl_invariant (I := fun m' : EntityManager F => KeepsProjectiles m m' ∧
    ProjectilesIssued m') ?_ ⟨.refl m, hissued⟩ hround
  rintro m' d _ hnext ⟨hkeep, hissued'⟩
  have hfree : m'.NoProjectile m'.nextEntityId :=
    fun p hp => absurd (hissued' _ p hp hnext) (lt_irrefl _)
  have hone : KeepsProjectiles m' (spawn team m' d) :=
    keepsProjectiles_create nofun hfree
  refine ⟨hkeep.trans hone, fun id p hp hnext' => ?_⟩
  have hlt := hissued' id p ((hone id p).mp hp) hnext
  have hsucc : (spawn team m' d).nextEntityId.toNat = m'.nextEntityId.toNat + 1 := toNat_succ hnext'
  omega

end Waves

end EntityManager

/-! ## The log -/

/-- A projectile that a cast has created, as it was then, and the tick of the cast. -/
structure Cast (F : Type) where
  id : UInt64
  start : Projectile F
  tick : ℕ

/-- The casts are all projectiles there are, each with an id of its own, and can get to their
targets. -/
structure Listed [FloatOps F] (m : EntityManager F) (casts : List (Cast F)) : Prop where
  launched : ∀ c ∈ casts, c.start.Launched ∧ ∃ n, c.start.lands n = true
  distinct : (casts.map Cast.id).Nodup
  own : ∀ c ∈ casts, EntityManager.OwnId m c.id
  known : ∀ id p, m.find id = some (.projectile p) → ∃ c ∈ casts, c.id = id

/-- A projectile that is there is on its way since its cast; the others have had their impact. -/
structure Tracked [FloatOps F] (now : ℕ) (m : EntityManager F) (casts : List (Cast F))
    (impacts : List Impact) : Prop extends Listed m casts where
  flying : ∀ c ∈ casts, ∀ p, m.find c.id = some (.projectile p) →
    ∃ k, now = c.tick + k ∧ p = c.start.after k ∧ ∀ j < k, c.start.lands j = false
  served : ∀ c ∈ casts, m.NoProjectile c.id →
    ∃ i ∈ impacts, i.id = c.id ∧ ∃ n, i.tick = c.tick + n ∧ c.start.lands n = true
  once : (impacts.map Impact.id).Nodup
  struck : ∀ i ∈ impacts, i.struck.Nodup
  gone : ∀ i ∈ impacts, m.NoProjectile i.id
  cast : ∀ i ∈ impacts, ∃ c ∈ casts, c.id = i.id

section Log

variable [FloatOps F] {now bound : ℕ} {m m' : EntityManager F} {casts : List (Cast F)}
  {impacts : List Impact} {q : Projectile F}

open EntityManager

/-- Projectiles left alone are still on their way. -/
theorem Tracked.keep (h : Tracked now m casts impacts) (hkeep : KeepsProjectiles m m')
    (heffects : Effects Entity.KeepsKind (fun _ id => id ≠ 0) m m') :
    Tracked now m' casts impacts := by
  constructor
  · constructor
    · exact h.launched
    · exact h.distinct
    · exact fun c hc => (h.own c hc).effects heffects
    · exact fun id p hp => h.known id p ((hkeep id p).mp hp)
  · exact fun c hc p hp => h.flying c hc p ((hkeep c.id p).mp hp)
  · exact fun c hc hno => h.served c hc fun p hp => hno p ((hkeep c.id p).mpr hp)
  · exact h.once
  · exact h.struck
  · exact fun i hi => hkeep.noProjectile (h.gone i hi)
  · exact h.cast

/-- A new projectile is at its start. -/
theorem Tracked.launch (h : Tracked now m casts impacts) (hround : m.nextEntityId ≠ 0)
    (hlaunch : Launch bound m m' q)
    (heffects : Effects Entity.KeepsKind (fun _ id => id ≠ 0) m m') :
    Tracked now m' (casts ++ [⟨m.nextEntityId, q, now⟩]) impacts := by
  rcases hlaunch.created with ⟨m₁, hkeep, hnext, hcreated⟩
  have hfind : ∀ id, m'.find id =
      if id = m.nextEntityId then some (.projectile q) else m₁.find id := by
    intro id
    rw [hcreated, find_create, hnext]
  -- who has been cast before has been given a smaller id
  have hold : ∀ c ∈ casts, c.id ≠ m.nextEntityId := by
    intro c hc heq
    have hlt := (h.own c hc).issued hround
    rw [heq] at hlt
    exact lt_irrefl _ hlt
  have hsame : ∀ c ∈ casts, ∀ p, m'.find c.id = some (.projectile p) ↔
      m.find c.id = some (.projectile p) := by
    intro c hc p
    rw [hfind, if_neg (hold c hc)]
    exact hkeep c.id p
  have hnew : m'.find m.nextEntityId = some (.projectile q) := by
    rw [hfind, if_pos rfl]
  constructor
  · constructor
    · rw [List.forall_mem_append, List.forall_mem_singleton]
      rcases hlaunch.lands with ⟨n, _, hn⟩
      exact ⟨h.launched, hlaunch.launched, n, hn⟩
    · rw [List.map_append, List.nodup_append]
      refine ⟨h.distinct, List.nodup_singleton _, ?_⟩
      intro id hid id' hid' heq
      rcases List.mem_map.mp hid with ⟨c, hc, rfl⟩
      rw [List.map_singleton, List.mem_singleton] at hid'
      exact hold c hc (heq.trans hid')
    · rw [List.forall_mem_append, List.forall_mem_singleton]
      refine ⟨fun c hc => (h.own c hc).effects heffects, fun hround' => ?_, fun e he => ?_⟩
      · have hsucc : m'.nextEntityId = m.nextEntityId + 1 := by
          rw [hcreated, ← hnext]
          rfl
        rw [hsucc] at hround' ⊢
        rw [toNat_succ hround']
        exact Nat.lt_succ_self _
      · cases hnew.symm.trans he
        rfl
    · intro id p hp
      rw [hfind] at hp
      split_ifs at hp with hid
      · exact ⟨_, List.mem_append_right _ (List.mem_singleton_self _), hid.symm⟩
      · rcases h.known id p ((hkeep id p).mp hp) with ⟨c, hc, hcid⟩
        exact ⟨c, List.mem_append_left _ hc, hcid⟩
  · rw [List.forall_mem_append, List.forall_mem_singleton]
    refine ⟨fun c hc p hp => h.flying c hc p ((hsame c hc p).mp hp), fun p hp => ?_⟩
    cases hnew.symm.trans hp
    exact ⟨0, rfl, rfl, nofun⟩
  · rw [List.forall_mem_append, List.forall_mem_singleton]
    refine ⟨fun c hc hno => h.served c hc fun p hp => hno p ((hsame c hc p).mpr hp), fun hno => ?_⟩
    exact absurd hnew (hno q)
  · exact h.once
  · exact h.struck
  · intro i hi p hp
    rcases h.cast i hi with ⟨c, hc, hcid⟩
    rw [← hcid] at hp
    exact h.gone i hi p (hcid ▸ (hsame c hc p).mp hp)
  · intro i hi
    rcases h.cast i hi with ⟨c, hc, hcid⟩
    exact ⟨c, List.mem_append_left _ hc, hcid⟩

/-- A tick moves a projectile on, or takes it to its target. -/
theorem Tracked.tick_cases (h : Tracked now m casts impacts) {c : Cast F} (hc : c ∈ casts)
    {q : Projectile F} (hq : m.find c.id = some (.projectile q)) :
    ∃ k, now = c.tick + k ∧ (∀ j < k, c.start.lands j = false) ∧
      ((c.start.lands k = true ∧ q.tick fixedStepMs = c.start.landed) ∨
        c.start.lands k = false ∧ q.tick fixedStepMs = c.start.after (k + 1)) := by
  rcases h.flying c hc q hq with ⟨k, hnow, rfl, hbefore⟩
  refine ⟨k, hnow, hbefore, ?_⟩
  rw [(h.launched c hc).1.tick_after k]
  by_cases hlands : c.start.lands k = true
  · exact Or.inl ⟨hlands, if_pos hlands⟩
  · exact Or.inr ⟨Bool.eq_false_iff.mpr hlands, if_neg hlands⟩

omit [FloatOps F] in
theorem spent_landed (p : Projectile F) : spent (.projectile p.landed) = true := rfl

theorem Projectile.Launched.not_spent_after {p : Projectile F} (h : p.Launched) (n : ℕ) :
    spent (.projectile (p.after n)) = false := by
  have halive : (p.after n).isAlive = true := h.alive
  have hreached : (p.after n).reached = false := h.reached
  change ((p.after n).reached || !(p.after n).isAlive) = false
  rw [halive, hreached]
  rfl

/-- What a tick does once the inputs are through: everything moves, the projectiles that have
arrived have their impacts, and are removed. -/
theorem Tracked.tick (h : Tracked now m casts impacts) {m₂ m₆ : EntityManager F} {o : Order UInt64}
    (hkeep : KeepsProjectiles (m.tickAll o fixedStepMs) m₂) (hspent : m₆ = m₂.removeSpent o)
    (heffects : Effects Entity.KeepsKind (fun _ id => id ≠ 0) m m₆) :
    Tracked (now + 1) m₆ casts (noteCombat now o (m.tickAll o fixedStepMs) impacts).2 := by
  rcases noteCombat_spec now o (m.tickAll o fixedStepMs) impacts with ⟨new, hnew, hnodup, hall, hids⟩
  rw [hnew]
  -- the projectiles that are left
  have hleft : ∀ id p, m₆.find id = some (.projectile p) ↔
      (∃ q, m.find id = some (.projectile q) ∧ p = q.tick fixedStepMs) ∧
        spent (.projectile p) = false := by
    intro id p
    rw [hspent, find_removeSpent_eq_some, hkeep id p, find_tickAll_projectile]
  -- the projectiles that have arrived
  have harrived : ∀ i ∈ new, ∃ q, m.find i.id = some (.projectile q) ∧
      (q.tick fixedStepMs).reached = true := by
    intro i hi
    rcases (hids i.id).mp (List.mem_map_of_mem hi) with ⟨p, hp, hreached⟩
    rcases find_tickAll_projectile.mp hp with ⟨q, hq, rfl⟩
    exact ⟨q, hq, hreached⟩
  constructor
  · constructor
    · exact h.launched
    · exact h.distinct
    · exact fun c hc => (h.own c hc).effects heffects
    · intro id p hp
      rcases ((hleft id p).mp hp).1 with ⟨q, hq, _⟩
      exact h.known id q hq
  · -- who is still there has gone one step on
    intro c hc p hp
    rcases (hleft c.id p).mp hp with ⟨⟨q, hq, rfl⟩, halive⟩
    rcases h.tick_cases hc hq with ⟨k, hnow, hbefore, ⟨_, htick⟩ | ⟨hlands, htick⟩⟩
    · rw [htick, spent_landed] at halive
      cases halive
    · refine ⟨k + 1, congrArg (· + 1) hnow, htick, fun j hj => ?_⟩
      rcases Nat.lt_succ_iff_lt_or_eq.mp hj with hlt | rfl
      · exact hbefore j hlt
      · exact hlands
  · -- who is gone has had its impact, now or before
    intro c hc hno
    by_cases hbefore : m.NoProjectile c.id
    · rcases h.served c hc hbefore with ⟨i, hi, hserved⟩
      exact ⟨i, List.mem_append_left _ hi, hserved⟩
    · rcases not_forall_not.mp hbefore with ⟨q, hq⟩
      rcases h.tick_cases hc hq with ⟨k, hnow, _, ⟨hlands, htick⟩ | ⟨_, htick⟩⟩
      · have hreached : (q.tick fixedStepMs).reached = true := by
          rw [htick]
          rfl
        rcases List.mem_map.mp ((hids c.id).mpr
          ⟨_, find_tickAll_projectile.mpr ⟨q, hq, rfl⟩, hreached⟩) with ⟨i, hi, hid⟩
        exact ⟨i, List.mem_append_right _ hi, hid, k, (hall i hi).1.trans hnow, hlands⟩
      · refine absurd ((hleft c.id _).mpr ⟨⟨q, hq, rfl⟩, ?_⟩) (hno _)
        rw [htick]
        exact (h.launched c hc).1.not_spent_after (k + 1)
  · rw [List.map_append, List.nodup_append]
    refine ⟨h.once, hnodup, ?_⟩
    intro id hid id' hid' heq
    subst heq
    rcases List.mem_map.mp hid with ⟨i, hi, rfl⟩
    rcases List.mem_map.mp hid' with ⟨i', hi', heq⟩
    rcases harrived i' hi' with ⟨q, hq, _⟩
    rw [heq] at hq
    exact h.gone i hi q hq
  · rw [List.forall_mem_append]
    exact ⟨h.struck, fun i hi => (hall i hi).2⟩
  · rw [List.forall_mem_append]
    constructor
    · intro i hi p hp
      rcases ((hleft i.id p).mp hp).1 with ⟨q, hq, _⟩
      exact h.gone i hi q hq
    · intro i hi p hp
      rcases harrived i hi with ⟨q, hq, hreached⟩
      rcases (hleft i.id p).mp hp with ⟨⟨q', hq', rfl⟩, halive⟩
      cases hq.symm.trans hq'
      unfold spent at halive
      dsimp only at halive
      rw [hreached] at halive
      cases halive
  · rw [List.forall_mem_append]
    refine ⟨h.cast, fun i hi => ?_⟩
    rcases harrived i hi with ⟨q, hq, _⟩
    exact h.known i.id q hq

end Log

/-! ## The inputs of a tick -/

namespace Arena

section Inputs

variable [FloatOps F] {bound now : ℕ} {a : Arena F} {casts : List (Cast F)} {impacts : List Impact}
  {cfg : BattleConfig F} {confirmed : List ConfirmedInputs} {o : Orders} {p : UInt64 × PlayerInput}

open EntityManager

/-- The cast of an input, if it sends a projectile off, can get to its target. -/
def InputLands (bound : ℕ) (a : Arena F) (p : UInt64 × PlayerInput) : Prop :=
  match a.heroOf p.1 with
  | none => True
  | some heroId =>
    a.entityMgr.test Entity.isAlive heroId = true → p.2.hasInput = true → p.2.skillSlot ≠ 0xFF →
      CastLands bound (a.entityMgr.moveHero heroId p.2) heroId p.2

instance (bound : ℕ) (a : Arena F) (p : UInt64 × PlayerInput) : Decidable (InputLands bound a p) := by
  unfold InputLands
  exact match a.heroOf p.1 with
    | none => inferInstanceAs (Decidable True)
    | some _ => by
      dsimp only
      infer_instance

/-- An input, noted if it sends a projectile off. -/
def noteCast (now : ℕ) (s : Arena F × List (Cast F)) (p : UInt64 × PlayerInput) :
    Arena F × List (Cast F) :=
  let a := s.1.processHeroInput p.1 p.2
  (a,
    if s.1.fires p then
      match a.entityMgr.find s.1.entityMgr.nextEntityId with
      | some (.projectile q) => s.2 ++ [⟨s.1.entityMgr.nextEntityId, q, now⟩]
      | _ => s.2
    else s.2)

/-- An input sends a projectile off, or leaves the projectiles alone. -/
theorem processHeroInput_cases (hspares : InputOk SparesProjectile a p)
    (hlands : InputLands bound a p) :
    (a.fires p = false ∧ KeepsProjectiles a.entityMgr (a.processHeroInput p.1 p.2).entityMgr) ∨
      a.fires p = true ∧
        ∃ q, Launch bound a.entityMgr (a.processHeroInput p.1 p.2).entityMgr q := by
  unfold processHeroInput fires
  unfold InputOk at hspares
  unfold InputLands at hlands
  rcases hhero : a.heroOf p.1 with _ | heroId
  · exact Or.inl ⟨rfl, .refl _⟩
  · rw [hhero] at hspares hlands
    dsimp only at hspares hlands ⊢
    rw [Option.any_some]
    have hmove := still_moveHero a.entityMgr heroId p.2
    split_ifs with hcan hslot
    · rw [hcan, Bool.true_and, decide_eq_true hslot, Bool.true_and]
      rw [Bool.and_eq_true] at hcan
      rcases castHero_cases (hspares hcan.1 hcan.2 hslot) (hlands hcan.1 hcan.2 hslot) with
        ⟨hfires, hstill⟩ | ⟨hfires, q, hlaunch⟩
      · exact Or.inl ⟨hfires, hmove.keeps.trans hstill.keeps⟩
      · rcases hlaunch.created with ⟨m₁, hkeep, hnext, hcreated⟩
        refine Or.inr ⟨hfires, q, ⟨m₁, hmove.keeps.trans hkeep, hnext.trans hmove.next, hcreated⟩,
          hlaunch.launched, hlaunch.lands⟩
    · refine Or.inl ⟨?_, hmove.keeps⟩
      rw [decide_eq_false hslot, Bool.and_false, Bool.false_and]
    · refine Or.inl ⟨?_, .refl _⟩
      rw [Bool.not_eq_true] at hcan
      rw [hcan, Bool.false_and, Bool.false_and]

/-- One input more. -/
theorem tracked_noteCast {s : Arena F × List (Cast F)}
    (h : Tracked now s.1.entityMgr s.2 impacts)
    (hround : s.1.fires p = true → s.1.entityMgr.nextEntityId ≠ 0)
    (hspares : InputOk SparesProjectile s.1 p) (hlands : InputLands bound s.1 p) :
    Tracked now (noteCast now s p).1.entityMgr (noteCast now s p).2 impacts := by
  have heffects : Effects Entity.KeepsKind (fun _ id => id ≠ 0) s.1.entityMgr
      (s.1.processHeroInput p.1 p.2).entityMgr :=
    effects_processHeroInput allows_keepsKind hround
  unfold noteCast
  dsimp only
  rcases processHeroInput_cases hspares hlands with ⟨hfires, hkeep⟩ | ⟨hfires, q, hlaunch⟩
  · rw [if_neg (by rw [hfires]; exact Bool.false_ne_true)]
    exact h.keep hkeep heffects
  · rw [if_pos hfires]
    have hnew : (s.1.processHeroInput p.1 p.2).entityMgr.find s.1.entityMgr.nextEntityId =
        some (.projectile q) := by
      rcases hlaunch.created with ⟨m₁, _, hnext, hcreated⟩
      rw [hcreated, find_create, if_pos hnext.symm]
    rw [hnew]
    exact h.launch (hround hfires) hlaunch heffects

/-- The inputs of the confirmed frames, with their casts. -/
def noteInputs (now : ℕ) (a : Arena F) (casts : List (Cast F)) (confirmed : List ConfirmedInputs) :
    Arena F × List (Cast F) :=
  (confirmed.flatMap ConfirmedInputs.playerInputs).foldl (noteCast now) (a, casts)

theorem fst_noteInputs (now : ℕ) (a : Arena F) (casts : List (Cast F))
    (confirmed : List ConfirmedInputs) :
    (noteInputs now a casts confirmed).1 = a.processConfirmed confirmed := by
  rw [processConfirmed_eq]
  unfold noteInputs
  generalize confirmed.flatMap ConfirmedInputs.playerInputs = l
  induction l generalizing a casts with
  | nil => rfl
  | cons p l ih => exact ih _ _

/-- No input strikes a projectile, and every projectile that is sent off can get to its target, in
so many steps. -/
def InputsClear (bound : ℕ) (a : Arena F) (confirmed : List ConfirmedInputs) : Prop :=
  FoldOk (fun a p => a.processHeroInput p.1 p.2)
    (fun a p => InputOk SparesProjectile a p ∧ InputLands bound a p) a
    (confirmed.flatMap ConfirmedInputs.playerInputs)

instance (bound : ℕ) (a : Arena F) (confirmed : List ConfirmedInputs) :
    Decidable (InputsClear bound a confirmed) := inferInstanceAs (Decidable (FoldOk ..))

theorem tracked_noteInputs (h : Tracked now a.entityMgr casts impacts)
    (hround : InputCreates (fun _ id => id ≠ 0) a confirmed)
    (hclear : InputsClear bound a confirmed) :
    Tracked now (a.processConfirmed confirmed).entityMgr (noteInputs now a casts confirmed).2
      impacts := by
  rw [← fst_noteInputs now a casts confirmed]
  unfold InputCreates at hround
  unfold InputsClear at hclear
  unfold noteInputs
  generalize confirmed.flatMap ConfirmedInputs.playerInputs = l at hround hclear ⊢
  induction l generalizing a casts with
  | nil => exact h
  | cons p l ih =>
    exact ih (tracked_noteCast (s := (a, casts)) h hround.1 hclear.1.1 hclear.1.2) hround.2 hclear.2

/-! ### The rest of a tick -/

omit [FloatOps F] in
theorem keepsProjectiles_buryHeroes (players : Order UInt64) (a : Arena F) :
    KeepsProjectiles a.entityMgr (a.buryHeroes players).entityMgr := by
  refine keepsProjectiles_foldl Arena.entityMgr fun b pid _ _ => ?_
  unfold buryOf
  rcases b.heroOf pid with _ | heroId
  · exact .refl _
  · exact keepsProjectiles_onHero _ heroId

theorem keepsProjectiles_spawnMinions (hissued : ProjectilesIssued a.entityMgr)
    (hround : SpawnsOk (fun _ id => id ≠ 0) cfg a) :
    KeepsProjectiles a.entityMgr (a.spawnMinions cfg).entityMgr := by
  unfold spawnMinions
  dsimp only
  split_ifs with hdue
  · rcases keepsProjectiles_spawnWave hissued (hround hdue).1 with ⟨hblue, hissued'⟩
    exact hblue.trans (keepsProjectiles_spawnWave hissued' (hround hdue).2).1
  · exact .refl _

/-- A tick leaves every projectile tracked. -/
theorem tracked_fight (h : Tracked now a.entityMgr casts impacts)
    (hround : TickCreates (fun _ id => id ≠ 0) cfg a confirmed o)
    (hclear : InputsClear bound a confirmed) :
    Tracked (now + 1) (a.fight cfg confirmed o).entityMgr (noteInputs now a casts confirmed).2
      (noteCombat now o.entities ((a.processConfirmed confirmed).tickAll o.entities).entityMgr
        impacts).2 := by
  have hinputs := tracked_noteInputs h hround.1 hclear
  have hspawns := hround.2
  rw [entityMgr_fight]
  unfold beforeSpawn at hspawns
  unfold play
  dsimp only
  generalize a.processConfirmed confirmed = b at hinputs hspawns ⊢
  -- nobody is created until the minions are
  have hbefore : Effects Entity.KeepsKind (fun _ id => id ≠ 0) b.entityMgr
      (((b.tickAll o.entities).tickCombat o.entities).buryHeroes o.players).entityMgr :=
    ((effects_tickAll (keepsKind_tick fixedStepMs) o.entities).trans
      (effects_tickCombat allows_keepsKind keepsKind_onTower o.entities)).trans
      (effects_buryHeroes (a := (b.tickAll o.entities).tickCombat o.entities) allows_keepsKind
        o.players)
  have hkeep : KeepsProjectiles (b.entityMgr.tickAll o.entities fixedStepMs)
      (((b.tickAll o.entities).tickCombat o.entities).buryHeroes o.players).entityMgr :=
    (keepsProjectiles_tickCombat o.entities _).trans (keepsProjectiles_buryHeroes o.players _)
  have hissued : ProjectilesIssued
      (((b.tickAll o.entities).tickCombat o.entities).buryHeroes o.players).entityMgr := by
    intro id p hp
    rcases find_tickAll_projectile.mp ((hkeep id p).mp hp) with ⟨q, hq, _⟩
    rcases hinputs.known id q hq with ⟨c, hc, rfl⟩
    exact ((hinputs.own c hc).effects hbefore).issued
  refine hinputs.tick (hkeep.trans (keepsProjectiles_spawnMinions hissued hspawns)) rfl ?_
  exact (hbefore.trans (effects_spawnMinions hspawns)).trans (effects_removeSpent o.entities)

end Inputs

end Arena

/-! ## The umpire -/

/-- An arena, the ticks of its battle, and the casts and impacts of its projectiles. -/
structure Umpire (F : Type) where
  arena : Arena F := {}
  ticks : ℕ := 0
  casts : List (Cast F) := []
  impacts : List Impact := []

namespace Umpire

variable [FloatOps F] {cfg : BattleConfig F} {u u' : Umpire F} {bound : ℕ}

open EntityManager

/-- One event: the casts and the impacts of a tick are noted. -/
def next (cfg : BattleConfig F) (u : Umpire F) (e : ArenaEvent F) : Option (Umpire F) :=
  (Arena.next cfg u.arena e).map fun arena =>
    match e with
    | .tick confirmed o =>
      { arena
        ticks := u.ticks + 1
        casts := (Arena.noteInputs u.ticks u.arena u.casts confirmed).2
        impacts := (noteCombat u.ticks o.entities
          ((u.arena.processConfirmed confirmed).tickAll o.entities).entityMgr u.impacts).2 }
    | _ => { u with arena }

/-- The inputs of a tick strike no projectile and send none off that cannot get to its target, and
the counter of the ids has not gone round. -/
def Clear (cfg : BattleConfig F) (bound : ℕ) (u : Umpire F) (e : ArenaEvent F) : Prop :=
  Arena.BelowEnd cfg u.arena e ∧
    match e with
    | .tick confirmed _ => u.arena.stage = .fighting → Arena.InputsClear bound u.arena confirmed
    | _ => True

instance (cfg : BattleConfig F) (bound : ℕ) (u : Umpire F) (e : ArenaEvent F) :
    Decidable (Clear cfg bound u e) :=
  match e with
  | .enter .. | .remove _ | .initBattleScene _ => inferInstanceAs (Decidable (_ ∧ True))
  | .tick confirmed _ =>
    inferInstanceAs (Decidable (_ ∧ (_ → Arena.InputsClear bound u.arena confirmed)))

/-- Every projectile has its impact in one tick, in which nobody is struck twice; it is gone then,
and not before. Who is still there gets to its target within a time that is known from its cast. -/
structure HitOnce (u : Umpire F) : Prop where
  distinct : (u.casts.map Cast.id).Nodup
  once : (u.impacts.map Impact.id).Nodup
  struck : ∀ i ∈ u.impacts, i.struck.Nodup
  gone : ∀ i ∈ u.impacts, i.id ∉ u.arena.entityMgr.ids
  served : ∀ c ∈ u.casts, c.id ∉ u.arena.entityMgr.ids →
    ∃ i ∈ u.impacts, i.id = c.id ∧ ∃ n, i.tick = c.tick + n ∧ c.start.lands n = true
  coming : ∀ c ∈ u.casts, c.id ∈ u.arena.entityMgr.ids →
    ∃ n, u.ticks ≤ c.tick + n ∧ c.start.lands n = true

/-! ### What holds in every run -/

/-- The projectiles are tracked; before the scene is set up there are none. -/
structure Inv (u : Umpire F) : Prop where
  tracked : Tracked u.ticks u.arena.entityMgr u.casts u.impacts
  before : u.arena.stage = .before → u.arena.entityMgr = {} ∧ u.casts = [] ∧ u.impacts = []

/-- Nothing is cast as long as there are no projectiles. -/
theorem tracked_none {m : EntityManager F} (hno : ∀ id, m.NoProjectile id) (now : ℕ) :
    Tracked now m [] [] :=
  ⟨⟨nofun, List.nodup_nil, nofun, fun id p hp => absurd hp (hno id p)⟩, nofun, nofun, List.nodup_nil,
    nofun, nofun, nofun⟩

theorem inv_init : Inv ({} : Umpire F) where
  tracked := tracked_none (fun _ _ h => by cases h) 0
  before := fun _ => ⟨rfl, rfl, rfl⟩

/-- A new scene has no projectiles. -/
theorem noProjectile_initBattleScene {a : Arena F} (hempty : a.entityMgr = {})
    (players : Order UInt64) (id : UInt64) :
    (a.initBattleScene cfg players).entityMgr.NoProjectile id := by
  have hput : ∀ (m : EntityManager F) (j : UInt64) (e : Entity F), e.type ≠ .projectile →
      (∀ id, m.NoProjectile id) → ∀ id, (m.put j e).NoProjectile id := by
    intro m j e he hm id p hp
    rw [find_put] at hp
    split_ifs at hp
    · rw [Option.some.inj hp] at he
      exact he rfl
    · exact hm id p hp
  refine Arena.initBattleScene_invariant (I := fun m : EntityManager F => ∀ id, m.NoProjectile id)
    ?_ ?_ ?_ ?_ id
  · rw [hempty]
    exact nofun
  · intro m make hmake hm
    refine hput m m.nextEntityId (make m.nextEntityId) ?_ hm
    rw [hmake]
    exact EntityType.noConfusion
  · intro m d _ hm
    exact hput m d.entityId _ EntityType.noConfusion hm
  · intro m team grade hm
    exact hput m m.nextEntityId _ EntityType.noConfusion hm

theorem Inv.next (h : Inv u) {e : ArenaEvent F} (hclear : Clear cfg bound u e)
    (hstep : u.next cfg e = some u') : Inv u' := by
  rcases Option.map_eq_some_iff.mp hstep with ⟨arena, harena, rfl⟩
  rcases e with ⟨playerId, team, spawnPos⟩ | playerId | players | ⟨confirmed, o⟩
  case enter =>
    rcases Arena.next_enter_eq_some harena with rfl | ⟨_, rfl⟩
    · exact h
    · exact ⟨h.tracked, h.before⟩
  case remove =>
    cases harena
    exact ⟨h.tracked, h.before⟩
  case initBattleScene =>
    rcases Arena.next_initBattleScene_eq_some.mp harena with ⟨hstage, rfl⟩
    rcases h.before hstage with ⟨hempty, hcasts, himpacts⟩
    refine ⟨?_, nofun⟩
    dsimp only
    rw [hcasts, himpacts]
    exact tracked_none (noProjectile_initBattleScene hempty players) u.ticks
  case tick =>
    rcases Arena.next_tick_eq_some.mp harena with ⟨hstage, rfl⟩
    refine ⟨Arena.tracked_fight h.tracked (hclear.1 hstage) (hclear.2 hstage), fun hbefore => ?_⟩
    dsimp only at hbefore
    exact absurd hbefore (Arena.fight_stage_ne_before hstage)

/-- Who is tracked hits once. -/
theorem Inv.hitOnce (h : Inv u) : HitOnce u := by
  -- nobody else ever gets the id of a cast
  have hids : ∀ c ∈ u.casts, c.id ∈ u.arena.entityMgr.ids ↔
      ∃ p, u.arena.entityMgr.find c.id = some (.projectile p) := by
    intro c hc
    rw [mem_ids_iff]
    constructor
    · rintro ⟨e, he⟩
      have htype := (h.tracked.own c hc).own e he
      rcases e with _ | _ | _ | p
      case projectile => exact ⟨p, he⟩
      all_goals cases htype
    · rintro ⟨p, hp⟩
      exact ⟨_, hp⟩
  constructor
  · exact h.tracked.distinct
  · exact h.tracked.once
  · exact h.tracked.struck
  · intro i hi hmem
    rcases h.tracked.cast i hi with ⟨c, hc, hcid⟩
    rw [← hcid, hids c hc, hcid] at hmem
    rcases hmem with ⟨p, hp⟩
    exact h.tracked.gone i hi p hp
  · intro c hc hnot
    refine h.tracked.served c hc fun p hp => hnot ?_
    exact (hids c hc).mpr ⟨p, hp⟩
  · intro c hc hmem
    rcases (hids c hc).mp hmem with ⟨p, hp⟩
    rcases h.tracked.flying c hc p hp with ⟨k, hnow, _, hbefore⟩
    rcases (h.tracked.launched c hc).2 with ⟨n, hn⟩
    -- it cannot have been there already
    refine ⟨n, ?_, hn⟩
    by_contra hlate
    have hlt : n < k := by omega
    rw [hbefore n hlt] at hn
    cases hn

/-! ### Every run -/

/-- In every state of the run, projectiles hit once. -/
def ProjectilesHitOnce (cfg : BattleConfig F) (es : List (ArenaEvent F)) : Prop :=
  ∀ (ms : List (ArenaEvent F)) (u : Umpire F), ms <+: es → run (next cfg) {} ms = some u → HitOnce u

/-- A blue hero far from the towers, and a red one beside it. -/
def apart : List (ArenaEvent ℚ) :=
  [.enter 1 .blue (.ground 20 50), .enter 2 .red (.ground 21 50), .initBattleScene .asIs]

/-- The blue player fires along the line from the blue hero to the red one. -/
def fireAt (x : ℤ) : PlayerInput where
  playerId := 1
  skillSlot := 1
  skillTargetX := Fixed.fromInt x
  skillTargetZ := Fixed.fromInt 50
  hasInput := true

def fired : ArenaEvent ℚ := .tick [⟨1, [(1, fireAt 30)]⟩] ⟨.asIs, .asIs⟩

/-- The red player casts the skill that hits at once at the projectile. -/
def shotDown : ArenaEvent ℚ :=
  .tick [⟨2, [(2, { playerId := 2, skillSlot := 3, skillTargetEid := 11, hasInput := true })]⟩]
    ⟨.asIs, .asIs⟩

/-- The projectile is removed without an impact. -/
theorem shotDown_not_hitOnce :
    ¬ ∀ (cfg : BattleConfig ℚ) (es : List (ArenaEvent ℚ)), ProjectilesHitOnce cfg es := by
  intro h
  have hrun : (run (next { teamSize := 1 }) {} (apart ++ [fired, shotDown])).map
      (fun u => (u.casts.map Cast.id, u.impacts, decide (11 ∈ u.arena.entityMgr.ids))) =
        some ([11], [], false) := by
    decide +kernel
  rcases Option.map_eq_some_iff.mp hrun with ⟨u, hu, hlog⟩
  rcases Prod.mk.inj hlog with ⟨hcasts, hrest⟩
  rcases Prod.mk.inj hrest with ⟨himpacts, hgone⟩
  have hit := h { teamSize := 1 } _ _ u (List.prefix_refl _) hu
  have hmem : (11 : UInt64) ∈ u.casts.map Cast.id := by
    rw [hcasts]
    exact List.mem_singleton_self _
  rcases List.mem_map.mp hmem with ⟨c, hc, hid⟩
  have hout : c.id ∉ u.arena.entityMgr.ids := by
    rw [hid]
    exact of_decide_eq_false hgone
  rcases hit.served c hc hout with ⟨i, hi, _⟩
  rw [himpacts] at hi
  cases hi

/-- Projectiles hit once in every run in which no skill that hits at once is aimed at one, and each
can get to its target. -/
theorem projectilesHitOnce_of_run (bound : ℕ) {es : List (ArenaEvent F)}
    (hok : RunOk (next cfg) (Clear cfg bound) {} es) : ProjectilesHitOnce cfg es := by
  rintro ms u ⟨rest, rfl⟩ hrun
  have hinv : Inv u := run_invariant (fun _ _ _ hclear h hstep => h.next hclear hstep) inv_init
    (runOk_append.mp hok).1 hrun
  exact hinv.hitOnce

/-- The blue hero fires at the red one, and the projectile gets there in the third tick. -/
def volley : List (ArenaEvent ℚ) :=
  apart ++ [.tick [⟨1, [(1, fireAt 21)]⟩] ⟨.asIs, .backwards⟩, .tick [] ⟨.backwards, .asIs⟩,
    .tick [] ⟨.asIs, .asIs⟩]

theorem projectilesHitOnce_volley : ProjectilesHitOnce { teamSize := 1 } volley :=
  projectilesHitOnce_of_run 3 (by decide +kernel)

example : (run (next { teamSize := 1 }) {} volley).map Umpire.impacts =
    some [{ id := 11, tick := 2, struck := [2] }] := by decide +kernel

end Umpire

end Gmaker.Realtime
