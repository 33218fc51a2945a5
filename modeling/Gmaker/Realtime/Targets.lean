import Gmaker.Realtime.Combat

/-!
# Gmaker.Realtime.Targets — the towers in any order

The loop over the towers, and the loops over what they may shoot at, go through a hash map. A
tower takes the nearest enemy that it meets first, and a tower that comes after another may find
its target dead.

Neither matters as long as no tower that is ready to shoot has two targets that it prefers
alike, and whoever is aimed at outlives the shots of all the towers but any one (`ClearShots`).
Then the towers do the same in every order (`foldl_towerTurn_perm`).
-/

namespace Gmaker.Realtime

open Gmaker.Lib

variable {F : Type} [FloatOps F]

open FloatOps

/-! ## What a tower prefers -/

namespace Tower

/-- The distance that `check_target` computes. -/
def distanceTo (tower : Tower F) (e : Entity F) : Fixed :=
  distanceXZFixed tower.pos.toFixed e.base.pos.toFixed

/-- A living enemy in range. -/
def Sees (tower : Tower F) (e : Entity F) : Prop :=
  (e.type = .minion ∨ e.type = .hero) ∧ (e.isAlive = true ∧ e.team ≠ tower.team) ∧
    tower.distanceTo e < toFixed tower.attackRange

instance (tower : Tower F) (e : Entity F) : Decidable (tower.Sees e) :=
  inferInstanceAs (Decidable ((_ ∨ _) ∧ (_ ∧ _) ∧ _))

/-- The nearer of two; of two that are as near, a minion before a hero. -/
def Prefers (tower : Tower F) (e e' : Entity F) : Prop :=
  tower.distanceTo e < tower.distanceTo e' ∨
    tower.distanceTo e = tower.distanceTo e' ∧ e.type = .minion ∧ e'.type = .hero

instance (tower : Tower F) (e e' : Entity F) : Decidable (tower.Prefers e e') :=
  inferInstanceAs (Decidable (_ ∨ _ ∧ _ ∧ _))

/-- What is preferred to one is preferred to another that is no worse. -/
theorem Prefers.of_not_prefers {tower : Tower F} {e e₁ e₂ : Entity F} (hsees : tower.Sees e₂)
    (h : tower.Prefers e e₁) (hnot : ¬ tower.Prefers e₂ e₁) : tower.Prefers e e₂ := by
  unfold Prefers at h hnot ⊢
  rw [not_or] at hnot
  rcases h with hnear | ⟨hnear, htype, htype₁⟩
  · exact .inl (by grind)
  · by_cases hequal : tower.distanceTo e = tower.distanceTo e₂
    · refine .inr ⟨hequal, htype, ?_⟩
      rcases hsees.1 with hminion | hhero
      · exact absurd ⟨hequal.symm.trans hnear, hminion, htype₁⟩ hnot.2
      · exact hhero
    · exact .inl (by grind)

end Tower

/-! ## Blows -/

omit [FloatOps F] in
/-- A hero falls when a blow takes the last of its hit points. -/
theorem Hero.takeDamage_eq (h : Hero F) (dmg : ℕ) :
    h.takeDamage dmg = { h with
      toIEntity := h.toIEntity.takeDamage dmg
      falls := h.falls + if 0 < h.hp ∧ h.hp ≤ dmg then 1 else 0 } := by
  have hdead : (h.isAlive && !(h.toIEntity.takeDamage dmg).isAlive) =
      decide (0 < h.hp ∧ h.hp ≤ dmg) := by
    have hhp : (h.toIEntity.takeDamage dmg).hp = max 0 (h.hp - dmg) := rfl
    unfold IEntity.isAlive
    rw [hhp, Bool.eq_iff_iff]
    simp
  unfold Hero.takeDamage
  dsimp only
  rw [hdead]
  by_cases hfalls : 0 < h.hp ∧ h.hp ≤ dmg
  · rw [if_pos hfalls, decide_eq_true hfalls]
    rfl
  · rw [if_neg hfalls, decide_eq_false hfalls]
    rfl

namespace Entity

variable {e : Entity F} {dmg dmg' : ℕ}

omit [FloatOps F] in
theorem isAlive_iff : e.isAlive = true ↔ 0 < e.base.hp := decide_eq_true_iff

omit [FloatOps F] in
theorem base_takeDamage (e : Entity F) (dmg : ℕ) :
    (e.takeDamage dmg).base = e.base.takeDamage dmg := by
  cases e with
  | hero _ => rfl
  | minion _ => rfl
  | tower _ => rfl
  | projectile _ => rfl

omit [FloatOps F] in
theorem hp_takeDamage (e : Entity F) (dmg : ℕ) :
    (e.takeDamage dmg).base.hp = max 0 (e.base.hp - dmg) := by
  rw [base_takeDamage]
  rfl

omit [FloatOps F] in
theorem isAlive_takeDamage_iff : (e.takeDamage dmg).isAlive = true ↔ dmg < e.base.hp := by
  rw [isAlive_iff, hp_takeDamage]
  omega

omit [FloatOps F] in
/-- Two blows are one, and whoever dies of them dies once. -/
theorem takeDamage_takeDamage (e : Entity F) (dmg dmg' : ℕ) :
    (e.takeDamage dmg).takeDamage dmg' = e.takeDamage (dmg + dmg') := by
  have hbase : ∀ b : IEntity F, (b.takeDamage dmg).takeDamage dmg' = b.takeDamage (dmg + dmg') := by
    intro b
    unfold IEntity.takeDamage
    have hhp : max 0 (max 0 (b.hp - dmg) - dmg') = max 0 (b.hp - (dmg + dmg' : ℕ)) := by omega
    rw [← hhp]
  cases e with
  | hero h =>
    have hhp : (h.takeDamage dmg).hp = max 0 (h.hp - dmg) := rfl
    have hfalls : h.falls + (if 0 < h.hp ∧ h.hp ≤ dmg then 1 else 0) +
        (if 0 < max 0 (h.hp - dmg) ∧ max 0 (h.hp - dmg) ≤ dmg' then 1 else 0) =
          h.falls + if 0 < h.hp ∧ h.hp ≤ (dmg + dmg' : ℕ) then 1 else 0 := by
      split_ifs <;> omega
    change Entity.hero ((h.takeDamage dmg).takeDamage dmg') = .hero (h.takeDamage (dmg + dmg'))
    rw [Hero.takeDamage_eq _ dmg', hhp, Hero.takeDamage_eq h dmg, Hero.takeDamage_eq h (dmg + dmg'),
      ← hfalls, ← hbase]
  | minion m => exact congrArg (fun b => Entity.minion { m with toIEntity := b }) (hbase _)
  | tower t => exact congrArg (fun b => Entity.tower { t with toIEntity := b }) (hbase _)
  | projectile p => exact congrArg (fun b => Entity.projectile { p with toIEntity := b }) (hbase _)

omit [FloatOps F] in
/-- Of two blows that kill it does not matter which it is. -/
theorem takeDamage_of_le (hle : e.base.hp ≤ dmg) (hle' : e.base.hp ≤ dmg') :
    e.takeDamage dmg = e.takeDamage dmg' := by
  have hbase : e.base.takeDamage dmg = e.base.takeDamage dmg' := by
    unfold IEntity.takeDamage
    have hhp : max 0 (e.base.hp - dmg) = max 0 (e.base.hp - dmg') := by omega
    rw [hhp]
  cases e with
  | hero h =>
    have hfalls : (if 0 < h.hp ∧ h.hp ≤ dmg then 1 else 0) =
        if 0 < h.hp ∧ h.hp ≤ dmg' then 1 else 0 := by
      change h.hp ≤ dmg at hle
      change h.hp ≤ dmg' at hle'
      simp [hle, hle']
    change h.toIEntity.takeDamage dmg = h.toIEntity.takeDamage dmg' at hbase
    change Entity.hero (h.takeDamage dmg) = .hero (h.takeDamage dmg')
    rw [Hero.takeDamage_eq, Hero.takeDamage_eq, hfalls, hbase]
  | minion m => exact congrArg (fun b => Entity.minion { m with toIEntity := b }) hbase
  | tower t => exact congrArg (fun b => Entity.tower { t with toIEntity := b }) hbase
  | projectile p => exact congrArg (fun b => Entity.projectile { p with toIEntity := b }) hbase

end Entity

namespace EntityManager

/-- The tower sees it, and prefers nothing else that it sees. -/
def IsTarget (m : EntityManager F) (tower : Tower F) (id : UInt64) : Prop :=
  ∃ e ∈ m.find id, tower.Sees e ∧
    ∀ j ∈ m.ids, ∀ e' ∈ m.find j, tower.Sees e' → ¬ tower.Prefers e' e

instance (m : EntityManager F) (tower : Tower F) (id : UInt64) : Decidable (m.IsTarget tower id) :=
  have : ∀ e, Decidable (∀ j ∈ m.ids, ∀ e' ∈ m.find j, tower.Sees e' → ¬ tower.Prefers e' e) :=
    fun _ => List.decidableBAll _ _
  inferInstanceAs (Decidable (∃ e ∈ m.find id, tower.Sees e ∧ ∀ j ∈ m.ids, _))

/-- There are no two targets. -/
def Untied (m : EntityManager F) (tower : Tower F) : Prop :=
  ∀ i ∈ m.ids, ∀ j ∈ m.ids, m.IsTarget tower i → m.IsTarget tower j → i = j

instance (m : EntityManager F) (tower : Tower F) : Decidable (m.Untied tower) :=
  have : ∀ i, Decidable (∀ j ∈ m.ids, m.IsTarget tower i → m.IsTarget tower j → i = j) :=
    fun _ => List.decidableBAll _ _
  List.decidableBAll _ _

/-- Which entities are minions and which are heroes. -/
structure Kinds (m : EntityManager F) (minions heroes : List UInt64) : Prop where
  minion : ∀ {id}, id ∈ minions ↔ ∃ e, m.find id = some e ∧ e.type = .minion
  hero : ∀ {id}, id ∈ heroes ↔ ∃ e, m.find id = some e ∧ e.type = .hero

section Targets

variable {m m' : EntityManager F} {minions heroes minions' heroes' : List UInt64}
  {tower : Tower F} {best : Option UInt64 × Fixed} {id targetId : UInt64}

omit [FloatOps F] in
theorem kinds_getByType (o : Order UInt64) (m : EntityManager F) :
    m.Kinds (m.getByType o .minion) (m.getByType o .hero) :=
  ⟨mem_getByType, mem_getByType⟩

theorem IsTarget.mem_ids (h : m.IsTarget tower id) : id ∈ m.ids := by
  rcases h with ⟨e, he, -⟩
  exact mem_ids_iff.mpr ⟨e, he⟩

theorem Untied.eq (hu : m.Untied tower) {j : UInt64} (hid : m.IsTarget tower id)
    (hj : m.IsTarget tower j) : id = j :=
  hu id hid.mem_ids j hj.mem_ids hid hj

/-- One check keeps the nearer. -/
theorem nearer_cases (m : EntityManager F) (tower : Tower F) (best : Option UInt64 × Fixed)
    (id : UInt64) :
    (m.nearer tower best id = best ∧ ∀ e, m.find id = some e → e.isAlive = true →
        e.team ≠ tower.team → ¬ tower.distanceTo e < best.2) ∨
      ∃ e, m.find id = some e ∧ (e.isAlive = true ∧ e.team ≠ tower.team) ∧
        tower.distanceTo e < best.2 ∧ m.nearer tower best id = (some id, tower.distanceTo e) := by
  unfold nearer
  rcases hfind : m.find id with _ | cand
  · exact .inl ⟨rfl, fun e he => by cases he⟩
  · dsimp only
    split_ifs with hskip hdist
    · refine .inl ⟨rfl, fun e he halive hteam => ?_⟩
      cases he
      rw [halive] at hskip
      exact absurd hskip (by simpa using hteam)
    · rw [Bool.or_eq_true, not_or] at hskip
      exact .inr ⟨cand, rfl, ⟨by simpa using hskip.1, by simpa using hskip.2⟩, hdist, rfl⟩
    · refine .inl ⟨rfl, fun e he _ _ => ?_⟩
      cases he
      exact hdist

/-- A loop of checks keeps the nearest. -/
theorem foldl_nearer_least {ids : List UInt64} {r : Option UInt64 × Fixed}
    (hr : ids.foldl (m.nearer tower) best = r) :
    (r = best ∨ ∃ id ∈ ids, ∃ e, m.find id = some e ∧ (e.isAlive = true ∧ e.team ≠ tower.team) ∧
        tower.distanceTo e < best.2 ∧ r = (some id, tower.distanceTo e)) ∧
      ∀ id ∈ ids, ∀ e, m.find id = some e → e.isAlive = true → e.team ≠ tower.team →
        ¬ tower.distanceTo e < r.2 := by
  induction ids generalizing best with
  | nil => exact ⟨.inl hr.symm, fun id hid => absurd hid List.not_mem_nil⟩
  | cons id ids ih =>
    rcases ih hr with ⟨hfrom, hleast⟩
    have hless : ¬ (m.nearer tower best id).2 < r.2 := by
      rcases hfrom with heq | ⟨_, _, _, _, _, hdist, heq⟩
      · rw [heq]
        grind
      · rw [heq]
        grind
    rcases nearer_cases m tower best id with ⟨heq, hfar⟩ | ⟨e, he, hcand, hdist, heq⟩
    · rw [heq] at hfrom hless
      constructor
      · rcases hfrom with hbest | ⟨id', hmem, hfound⟩
        · exact .inl hbest
        · exact .inr ⟨id', List.mem_cons_of_mem id hmem, hfound⟩
      · intro id' hmem e' he' halive hteam
        rcases List.mem_cons.mp hmem with rfl | hrest
        · have := hfar e' he' halive hteam
          grind
        · exact hleast id' hrest e' he' halive hteam
    · rw [heq] at hfrom hless
      constructor
      · right
        rcases hfrom with hbest | ⟨id', hmem, e', he', hcand', hdist', hr'⟩
        · exact ⟨id, List.mem_cons_self, e, he, hcand, hdist, hbest⟩
        · refine ⟨id', List.mem_cons_of_mem id hmem, e', he', hcand', ?_, hr'⟩
          dsimp only at hdist'
          grind
      · intro id' hmem e' he' halive hteam
        rcases List.mem_cons.mp hmem with rfl | hrest
        · cases he.symm.trans he'
          exact hless
        · exact hleast id' hrest e' he' halive hteam

/-- What a tower takes is a target. -/
theorem isTarget_of_bestTarget (hk : m.Kinds minions heroes)
    (h : m.bestTarget tower minions heroes = some targetId) : m.IsTarget tower targetId := by
  unfold bestTarget at h
  dsimp only at h
  generalize hfirst : minions.foldl (m.nearer tower) (none, toFixed tower.attackRange) = r₁ at h
  generalize hsecond : heroes.foldl (m.nearer tower) r₁ = r₂ at h
  rcases foldl_nearer_least hfirst with ⟨hfrom₁, hleast₁⟩
  rcases foldl_nearer_least hsecond with ⟨hfrom₂, hleast₂⟩
  have hminions : ∀ j e', m.find j = some e' → tower.Sees e' → e'.type = .minion →
      ¬ tower.distanceTo e' < r₁.2 := by
    intro j e' he' hsees htype
    exact hleast₁ j (hk.minion.mpr ⟨e', he', htype⟩) e' he' hsees.2.1.1 hsees.2.1.2
  have hheroes : ∀ j e', m.find j = some e' → tower.Sees e' → e'.type = .hero →
      ¬ tower.distanceTo e' < r₂.2 := by
    intro j e' he' hsees htype
    exact hleast₂ j (hk.hero.mpr ⟨e', he', htype⟩) e' he' hsees.2.1.1 hsees.2.1.2
  rcases hfrom₂ with rfl | ⟨id, hid, e, he, hcand, hdist, rfl⟩
  · rcases hfrom₁ with rfl | ⟨id, hid, e, he, hcand, hdist, rfl⟩
    · cases h
    · -- a minion: no hero is nearer
      cases h
      rcases hk.minion.mp hid with ⟨e₀, he₀, htype⟩
      cases he.symm.trans he₀
      refine ⟨e, he, ⟨.inl htype, hcand, hdist⟩, fun j _ e' he' hsees hprefers => ?_⟩
      rcases hsees.1 with htype' | htype'
      · have := hminions j e' he' hsees htype'
        rcases hprefers with hnear | ⟨-, -, hhero⟩
        · exact this hnear
        · rw [htype] at hhero
          cases hhero
      · have := hheroes j e' he' hsees htype'
        rcases hprefers with hnear | ⟨-, -, hhero⟩
        · exact this hnear
        · rw [htype] at hhero
          cases hhero
  · -- a hero: every minion is farther away
    cases h
    rcases hk.hero.mp hid with ⟨e₀, he₀, htype⟩
    cases he.symm.trans he₀
    have hrange : ¬ toFixed tower.attackRange < r₁.2 := by
      rcases hfrom₁ with rfl | ⟨_, _, _, _, _, hdist₁, rfl⟩
      · dsimp only
        grind
      · dsimp only at hdist₁ ⊢
        grind
    refine ⟨e, he, ⟨.inr htype, hcand, by grind⟩, fun j _ e' he' hsees hprefers => ?_⟩
    rcases hsees.1 with htype' | htype'
    · have := hminions j e' he' hsees htype'
      rcases hprefers with hnear | ⟨hnear, -⟩
      · grind
      · grind
    · have := hheroes j e' he' hsees htype'
      rcases hprefers with hnear | ⟨-, hminion, -⟩
      · exact this hnear
      · rw [htype'] at hminion
        cases hminion

/-- A tower that takes nothing sees nothing. -/
theorem not_sees_of_bestTarget (hk : m.Kinds minions heroes)
    (h : m.bestTarget tower minions heroes = none) {e : Entity F} (he : m.find id = some e) :
    ¬ tower.Sees e := by
  intro hsees
  unfold bestTarget at h
  dsimp only at h
  generalize hfirst : minions.foldl (m.nearer tower) (none, toFixed tower.attackRange) = r₁ at h
  generalize hsecond : heroes.foldl (m.nearer tower) r₁ = r₂ at h
  rcases foldl_nearer_least hfirst with ⟨hfrom₁, hleast₁⟩
  rcases foldl_nearer_least hsecond with ⟨hfrom₂, hleast₂⟩
  rcases hfrom₂ with rfl | ⟨_, _, _, _, _, _, rfl⟩
  · rcases hfrom₁ with rfl | ⟨_, _, _, _, _, _, rfl⟩
    · rcases hsees.1 with htype | htype
      · exact hleast₁ id (hk.minion.mpr ⟨e, he, htype⟩) e he hsees.2.1.1 hsees.2.1.2 hsees.2.2
      · exact hleast₂ id (hk.hero.mpr ⟨e, he, htype⟩) e he hsees.2.1.1 hsees.2.1.2 hsees.2.2
    · cases h
  · cases h

/-- Without a tie the tower takes the one target, whichever order the candidates come in. -/
theorem bestTarget_eq_some_iff (hk : m.Kinds minions heroes) (hu : m.Untied tower) :
    m.bestTarget tower minions heroes = some targetId ↔ m.IsTarget tower targetId := by
  constructor
  · exact isTarget_of_bestTarget hk
  · intro htarget
    rcases hbest : m.bestTarget tower minions heroes with _ | id
    · rcases htarget with ⟨e, he, hsees, -⟩
      exact absurd hsees (not_sees_of_bestTarget hk hbest he)
    · rw [hu.eq htarget (isTarget_of_bestTarget hk hbest)]

/-! ## Enemies that fall -/

/-- What a tower reads of an entity, but for its life. -/
def mark (e : Entity F) : EntityType × TeamSide × Vec3 F := (e.type, e.team, e.base.pos)

/-- Everything is where it was, and what lives has lived before. -/
structure Fades (m m' : EntityManager F) : Prop where
  marks : ∀ id, (m'.find id).map mark = (m.find id).map mark
  alive : ∀ {id}, m'.test Entity.isAlive id = true → m.test Entity.isAlive id = true

omit [FloatOps F] in
theorem Fades.refl (m : EntityManager F) : m.Fades m := ⟨fun _ => rfl, fun h => h⟩

omit [FloatOps F] in
theorem Fades.trans {m'' : EntityManager F} (h : m.Fades m') (h' : m'.Fades m'') : m.Fades m'' :=
  ⟨fun id => (h'.marks id).trans (h.marks id), fun halive => h.alive (h'.alive halive)⟩

omit [FloatOps F] in
/-- One entity is changed, and comes not to life. -/
theorem fades_modify {f : Entity F → Entity F} (hmark : ∀ e, mark (f e) = mark e)
    (halive : ∀ e, (f e).isAlive = true → e.isAlive = true) : m.Fades (m.modify id f) := by
  constructor
  · intro j
    rw [find_modify]
    split_ifs
    · rw [Option.map_map]
      exact Option.map_congr fun e _ => hmark e
    · rfl
  · intro j h
    unfold test at h ⊢
    rw [find_modify] at h
    split_ifs at h
    · rcases hfind : m.find j with _ | e
      · rw [hfind] at h
        exact h
      · rw [hfind] at h
        exact halive e h
    · exact h

omit [FloatOps F] in
theorem Fades.kinds (h : m.Fades m') (hk : m.Kinds minions heroes) : m'.Kinds minions heroes := by
  have hiff : ∀ id type, (∃ e, m.find id = some e ∧ e.type = type) ↔
      ∃ e, m'.find id = some e ∧ e.type = type := by
    intro id type
    have hmark := h.marks id
    constructor
    · rintro ⟨e, he, htype⟩
      rw [he] at hmark
      rcases Option.map_eq_some_iff.mp hmark with ⟨e', he', heq⟩
      exact ⟨e', he', (congrArg Prod.fst heq).trans htype⟩
    · rintro ⟨e, he, htype⟩
      rw [he] at hmark
      rcases Option.map_eq_some_iff.mp hmark.symm with ⟨e', he', heq⟩
      exact ⟨e', he', (congrArg Prod.fst heq).trans htype⟩
  exact ⟨hk.minion.trans (hiff _ _), hk.hero.trans (hiff _ _)⟩

theorem sees_congr {e e' : Entity F} (hmark : mark e = mark e') (halive : e.isAlive = true)
    (halive' : e'.isAlive = true) : tower.Sees e ↔ tower.Sees e' := by
  have htype : e.type = e'.type := congrArg Prod.fst hmark
  have hteam : e.team = e'.team := congrArg (fun k => k.2.1) hmark
  have hpos : e.base.pos = e'.base.pos := congrArg (fun k => k.2.2) hmark
  unfold Tower.Sees Tower.distanceTo
  rw [htype, hteam, hpos, halive, halive']

/-- What a tower sees afterwards it has seen before, at the same distance. -/
theorem Fades.sees (h : m.Fades m') {e' : Entity F} (he' : m'.find id = some e')
    (hsees : tower.Sees e') : ∃ e, m.find id = some e ∧ mark e = mark e' ∧ tower.Sees e := by
  have hmark := h.marks id
  rw [he'] at hmark
  rcases Option.map_eq_some_iff.mp hmark.symm with ⟨e, he, heq⟩
  have halive : m.test Entity.isAlive id = true := by
    apply h.alive
    unfold test
    rw [he']
    exact hsees.2.1.1
  unfold test at halive
  rw [he] at halive
  exact ⟨e, he, heq, (sees_congr heq halive hsees.2.1.1).mpr hsees⟩

theorem prefers_congr {e₁ e₂ e₁' e₂' : Entity F} (h₁ : mark e₁ = mark e₁') (h₂ : mark e₂ = mark e₂') :
    tower.Prefers e₁ e₂ ↔ tower.Prefers e₁' e₂' := by
  have htype₁ : e₁.type = e₁'.type := congrArg Prod.fst h₁
  have htype₂ : e₂.type = e₂'.type := congrArg Prod.fst h₂
  have hpos₁ : e₁.base.pos = e₁'.base.pos := congrArg (fun k => k.2.2) h₁
  have hpos₂ : e₂.base.pos = e₂'.base.pos := congrArg (fun k => k.2.2) h₂
  unfold Tower.Prefers Tower.distanceTo
  rw [htype₁, htype₂, hpos₁, hpos₂]

/-- A target that lives on is one still. -/
theorem IsTarget.of_fades (h : m.Fades m') (htarget : m.IsTarget tower id)
    (halive : m'.test Entity.isAlive id = true) : m'.IsTarget tower id := by
  rcases htarget with ⟨e, he, hsees, hbest⟩
  have hmark := h.marks id
  rw [he] at hmark
  rcases Option.map_eq_some_iff.mp hmark with ⟨e', he', heq⟩
  refine ⟨e', he', ?_, fun j _ e₁' he₁' hsees₁' hprefers => ?_⟩
  · unfold test at halive
    rw [he'] at halive
    exact (sees_congr heq halive hsees.2.1.1).mpr hsees
  · rcases h.sees he₁' hsees₁' with ⟨e₁, he₁, hmark₁, hsees₁⟩
    refine hbest j (mem_ids_iff.mpr ⟨e₁, he₁⟩) e₁ he₁ hsees₁ ?_
    exact (prefers_congr hmark₁ heq.symm).mpr hprefers

/-- As long as a target lives, the others that are targets have been so before. -/
theorem IsTarget.fades_back (h : m.Fades m') (htarget : m.IsTarget tower targetId)
    (halive : m'.test Entity.isAlive targetId = true) (htarget' : m'.IsTarget tower id) :
    m.IsTarget tower id := by
  rcases htarget.of_fades h halive with ⟨t', ht', hseest', -⟩
  rcases htarget with ⟨t, ht, hseest, hbest⟩
  rcases htarget' with ⟨e', he', hsees', hbest'⟩
  rcases h.sees he' hsees' with ⟨e, he, hmark, hsees⟩
  have hmarkt : mark t = mark t' := by
    have hmarks := h.marks targetId
    rw [ht, ht'] at hmarks
    exact (Option.some.inj hmarks).symm
  refine ⟨e, he, hsees, fun j hj e₁ he₁ hsees₁ hprefers => ?_⟩
  -- the target is no worse, so that what is preferred to `e` is preferred to the target
  have hnot : ¬ tower.Prefers t e := by
    intro hworse
    refine hbest' targetId (mem_ids_iff.mpr ⟨t', ht'⟩) t' ht' hseest' ?_
    exact (prefers_congr hmarkt hmark).mp hworse
  exact hbest j hj e₁ he₁ hsees₁ (hprefers.of_not_prefers hseest hnot)

/-- What a tower takes is what it would have taken before, as long as that lives; and there is
still no tie. -/
theorem bestTarget_of_fades (h : m.Fades m') (hk : m.Kinds minions heroes)
    (hk' : m'.Kinds minions' heroes') (hu : m.Untied tower)
    (halive : ∀ id, m.bestTarget tower minions heroes = some id →
      m'.test Entity.isAlive id = true) :
    m'.Untied tower ∧ m'.bestTarget tower minions' heroes' = m.bestTarget tower minions heroes := by
  rcases hbest : m.bestTarget tower minions heroes with _ | targetId
  · have hnone : ∀ id, ¬ m'.IsTarget tower id := by
      rintro id ⟨e', he', hsees', -⟩
      rcases h.sees he' hsees' with ⟨e, he, -, hsees⟩
      exact not_sees_of_bestTarget hk hbest he hsees
    refine ⟨fun i _ j _ hi _ => absurd hi (hnone i), ?_⟩
    rcases hbest' : m'.bestTarget tower minions' heroes' with _ | id
    · rfl
    · exact absurd (isTarget_of_bestTarget hk' hbest') (hnone id)
  · have htarget : m.IsTarget tower targetId := isTarget_of_bestTarget hk hbest
    have hlives := halive targetId hbest
    have hu' : m'.Untied tower := by
      intro i _ j _ hi hj
      exact hu.eq (htarget.fades_back h hlives hi) (htarget.fades_back h hlives hj)
    exact ⟨hu', (bestTarget_eq_some_iff hk' hu').mpr (htarget.of_fades h hlives)⟩

end Targets

/-! ## The loop over the towers -/

/-- Whether a tower shoots if it has a target. -/
def ready (t : Tower F) : Bool :=
  t.isAlive && t.grade ≠ .crystal && (t.tickCooldown fixedStepMs).canAttack

/-- A tower that fights cools down. -/
def coolDown (e : Entity F) : Entity F :=
  if fights e then e.onTower (.tickCooldown fixedStepMs) else e

/-- What a turn does to the tower: after a shot it has to wait. -/
def turned (s : Option (UInt64 × ℕ)) (e : Entity F) : Entity F :=
  if s.isSome then (coolDown e).onTower .onAttack else coolDown e

/-- What it does to the target. -/
def struck (m : EntityManager F) : Option (UInt64 × ℕ) → EntityManager F
  | none => m
  | some (targetId, dmg) => m.modify targetId (shot dmg)

/-- The turn of a tower that has made up its mind. -/
def act (m : EntityManager F) (towerId : UInt64) (s : Option (UInt64 × ℕ)) : EntityManager F :=
  (m.modify towerId (turned s)).struck s

/-- The hit points, of nothing none. -/
def hpOf (m : EntityManager F) (id : UInt64) : ℤ := (m.find id).elim 0 fun e => e.base.hp

/-- What the shots of some towers at an entity come to. -/
def aimedAt (minions heroes : List UInt64) (m : EntityManager F) (towers : List UInt64)
    (id : UInt64) : ℕ :=
  (towers.map fun t => (m.aim minions heroes t).elim 0 fun s => if s.1 = id then s.2 else 0).sum

/-- The tower, if it is one that is ready, has no two targets. -/
def UntiedIfReady (m : EntityManager F) : Entity F → Prop
  | .tower t => ready t = true → m.Untied t
  | _ => True

instance (m : EntityManager F) (e : Entity F) : Decidable (m.UntiedIfReady e) :=
  match e with
  | .tower t => inferInstanceAs (Decidable (ready t = true → m.Untied t))
  | .hero _ | .minion _ | .projectile _ => inferInstanceAs (Decidable True)

/-- No tower that is ready has two targets, and whoever is aimed at outlives the shots of all the
towers but any one. -/
structure ClearShots (minions heroes : List UInt64) (m : EntityManager F) (towers : List UInt64) :
    Prop where
  untied : ∀ id ∈ towers, ∀ e ∈ m.find id, m.UntiedIfReady e
  outlives : ∀ id ∈ towers, ∀ s ∈ m.aim minions heroes id,
    (aimedAt minions heroes m towers s.1 : ℤ) < m.hpOf s.1 + s.2

instance (minions heroes : List UInt64) (m : EntityManager F) (towers : List UInt64) :
    Decidable (ClearShots minions heroes m towers) :=
  have : Decidable (∀ id ∈ towers, ∀ e ∈ m.find id, m.UntiedIfReady e) := List.decidableBAll _ _
  have : Decidable (∀ id ∈ towers, ∀ s ∈ m.aim minions heroes id,
      (aimedAt minions heroes m towers s.1 : ℤ) < m.hpOf s.1 + s.2) := List.decidableBAll _ _
  decidable_of_iff ((∀ id ∈ towers, ∀ e ∈ m.find id, m.UntiedIfReady e) ∧
      ∀ id ∈ towers, ∀ s ∈ m.aim minions heroes id,
        (aimedAt minions heroes m towers s.1 : ℤ) < m.hpOf s.1 + s.2)
    ⟨fun h => ⟨h.1, h.2⟩, fun h => ⟨h.untied, h.outlives⟩⟩

/-! ### What a turn changes -/

section Turn

variable {m : EntityManager F} {towerId id j targetId : UInt64} {e : Entity F} {dmg dmg' : ℕ}
  {f : Entity F → Entity F}

omit [FloatOps F] in
theorem base_coolDown (e : Entity F) : (coolDown e).base = e.base := by
  unfold coolDown
  split_ifs
  · cases e with
    | tower t => exact tickCooldown_base t fixedStepMs
    | _ => rfl
  · rfl

omit [FloatOps F] in
theorem type_coolDown (e : Entity F) : (coolDown e).type = e.type := by
  unfold coolDown
  split_ifs
  · cases e with
    | tower t => rfl
    | _ => rfl
  · rfl

omit [FloatOps F] in
theorem base_onAttack (e : Entity F) : (e.onTower .onAttack).base = e.base := by
  cases e with
  | tower t => rfl
  | _ => rfl

omit [FloatOps F] in
theorem type_onAttack (e : Entity F) : (e.onTower .onAttack).type = e.type := by
  cases e with
  | tower t => rfl
  | _ => rfl

omit [FloatOps F] in
theorem base_shot (dmg : ℕ) (e : Entity F) : (shot dmg e).base = e.base.takeDamage dmg := by
  unfold shot
  dsimp only
  split_ifs
  · exact Entity.base_takeDamage e dmg
  · cases e with
    | hero h => rfl
    | _ => rfl

omit [FloatOps F] in
theorem type_shot (dmg : ℕ) (e : Entity F) : (shot dmg e).type = e.type := by
  unfold shot
  dsimp only
  split_ifs
  · cases e with
    | hero h => rfl
    | _ => rfl
  · cases e with
    | hero h => rfl
    | _ => rfl

omit [FloatOps F] in
theorem mark_eq {e' : Entity F} (htype : e.type = e'.type) (hteam : e.base.team = e'.base.team)
    (hpos : e.base.pos = e'.base.pos) : mark e = mark e' := by
  unfold mark Entity.team
  rw [htype, hteam, hpos]

omit [FloatOps F] in
/-- A shot that does not kill is a blow. -/
theorem shot_of_lt (hlt : dmg < e.base.hp) : shot dmg e = e.takeDamage dmg :=
  if_pos (Entity.isAlive_takeDamage_iff.mpr hlt)

omit [FloatOps F] in
theorem shot_shot (hlt : dmg < e.base.hp) : shot dmg' (shot dmg e) = shot (dmg + dmg') e := by
  rw [shot_of_lt hlt]
  unfold shot
  rw [Entity.takeDamage_takeDamage]

omit [FloatOps F] in
theorem hpOf_modify_of_ne (hj : j ≠ id) : (m.modify id f).hpOf j = m.hpOf j := by
  unfold hpOf
  rw [find_modify_of_ne hj]

omit [FloatOps F] in
theorem hpOf_modify_of_base (hf : ∀ e, (f e).base = e.base) : (m.modify id f).hpOf j = m.hpOf j := by
  unfold hpOf
  rw [find_modify]
  split_ifs
  · cases m.find j with
    | none => rfl
    | some e => exact congrArg IEntity.hp (hf e)
  · rfl

omit [FloatOps F] in
/-- The hit points of an entity that takes a blow, and something else perhaps. -/
theorem hpOf_modify_of_blow (hf : ∀ e, (f e).base = e.base.takeDamage dmg) :
    (m.modify id f).hpOf id = max 0 (m.hpOf id - dmg) := by
  unfold hpOf
  rw [find_modify_self]
  cases m.find id with
  | none => simp
  | some e => exact congrArg IEntity.hp (hf e)

omit [FloatOps F] in
theorem test_isAlive_iff : m.test Entity.isAlive id = true ↔ 0 < m.hpOf id := by
  unfold test hpOf
  cases m.find id with
  | none => simp
  | some e => exact Entity.isAlive_iff

omit [FloatOps F] in
theorem base_turned (s : Option (UInt64 × ℕ)) (e : Entity F) : (turned s e).base = e.base := by
  unfold turned
  split_ifs
  · exact (base_onAttack _).trans (base_coolDown e)
  · exact base_coolDown e

omit [FloatOps F] in
theorem type_turned (s : Option (UInt64 × ℕ)) (e : Entity F) : (turned s e).type = e.type := by
  unfold turned
  split_ifs
  · exact (type_onAttack _).trans (type_coolDown e)
  · exact type_coolDown e

omit [FloatOps F] in
/-- The hit points after a turn. -/
theorem hpOf_act (s : Option (UInt64 × ℕ)) :
    (m.act towerId s).hpOf j =
      s.elim (m.hpOf j) fun x => if j = x.1 then max 0 (m.hpOf j - x.2) else m.hpOf j := by
  have hturned : (m.modify towerId (turned s)).hpOf j = m.hpOf j :=
    hpOf_modify_of_base (base_turned s)
  unfold act struck
  cases s with
  | none => exact hturned
  | some x =>
    dsimp only [Option.elim_some]
    split_ifs with hj
    · rw [← hj, hpOf_modify_of_blow (base_shot x.2), hturned]
    · rw [hpOf_modify_of_ne hj, hturned]

omit [FloatOps F] in
/-- A turn moves nobody, and brings nobody to life. -/
theorem fades_act (m : EntityManager F) (towerId : UInt64) (s : Option (UInt64 × ℕ)) :
    m.Fades (m.act towerId s) := by
  have hturned : m.Fades (m.modify towerId (turned s)) := by
    apply fades_modify
    · intro e
      exact mark_eq (type_turned s e) (by rw [base_turned]) (by rw [base_turned])
    · intro e halive
      rw [Entity.isAlive_iff, base_turned] at halive
      exact Entity.isAlive_iff.mpr halive
  cases s with
  | none => exact hturned
  | some x =>
    apply hturned.trans
    apply fades_modify
    · intro e
      exact mark_eq (type_shot _ e) (by rw [base_shot]; rfl) (by rw [base_shot]; rfl)
    · intro e halive
      rw [Entity.isAlive_iff, base_shot] at halive
      change 0 < max 0 (e.base.hp - x.2) at halive
      exact Entity.isAlive_iff.mpr (by omega)

omit [FloatOps F] in
theorem find_act_of_ne {s : Option (UInt64 × ℕ)} (hj : j ≠ towerId)
    (htarget : ∀ x ∈ s, j ≠ x.1) : (m.act towerId s).find j = m.find j := by
  unfold act struck
  cases s with
  | none => exact find_modify_of_ne hj
  | some x =>
    dsimp only
    rw [find_modify_of_ne (htarget x rfl), find_modify_of_ne hj]

omit [FloatOps F] in
theorem struck_modify {s : Option (UInt64 × ℕ)} (hs : ∀ x ∈ s, x.1 ≠ id) :
    (m.modify id f).struck s = (m.struck s).modify id f := by
  cases s with
  | none => rfl
  | some x => exact modify_comm (hs x rfl).symm

omit [FloatOps F] in
/-- Two shots at one target, neither of which kills by itself. -/
theorem struck_struck {s s' : Option (UInt64 × ℕ)}
    (hlives : ∀ x ∈ s, ∀ x' ∈ s', x.1 = x'.1 → (x.2 : ℤ) < m.hpOf x.1 ∧ (x'.2 : ℤ) < m.hpOf x.1) :
    (m.struck s).struck s' = (m.struck s').struck s := by
  cases s with
  | none => rfl
  | some x =>
    cases s' with
    | none => rfl
    | some x' =>
      unfold struck
      dsimp only
      by_cases heq : x.1 = x'.1
      · have hlt := hlives x rfl x' rfl heq
        rw [← heq, modify_modify, modify_modify]
        apply modify_congr
        intro e he
        unfold hpOf at hlt
        rw [he] at hlt
        rw [shot_shot hlt.1, shot_shot hlt.2, Nat.add_comm]
      · exact modify_comm heq

omit [FloatOps F] in
/-- Two towers act in any order, if neither's target is one of them, and a common target outlives
the shot of either. -/
theorem act_comm {a b : UInt64} {s s' : Option (UInt64 × ℕ)} (hab : a ≠ b)
    (hs : ∀ x ∈ s, x.1 ≠ b) (hs' : ∀ x ∈ s', x.1 ≠ a)
    (hlives : ∀ x ∈ s, ∀ x' ∈ s', x.1 = x'.1 → (x.2 : ℤ) < m.hpOf x.1 ∧ (x'.2 : ℤ) < m.hpOf x.1) :
    (m.act a s).act b s' = (m.act b s').act a s := by
  have hhp : ∀ id, ((m.modify a (turned s)).modify b (turned s')).hpOf id = m.hpOf id := by
    intro id
    rw [hpOf_modify_of_base (base_turned s'), hpOf_modify_of_base (base_turned s)]
  unfold act
  rw [← struck_modify hs, ← struck_modify hs', struck_struck, modify_comm hab]
  intro x hx x' hx' heq
  rw [hhp]
  exact hlives x hx x' hx' heq

end Turn

section Loop

variable {m m' : EntityManager F} {minions heroes minions' heroes' towers : List UInt64}
  {a b id : UInt64} {e : Entity F} {dmg : ℕ}

omit [FloatOps F] in
theorem cool_eq (m : EntityManager F) (towerId : UInt64) :
    m.cool towerId = m.modify towerId coolDown := by
  unfold cool
  split_ifs with hfights
  · apply modify_congr
    intro e he
    unfold test at hfights
    rw [he] at hfights
    exact (if_pos hfights).symm
  · symm
    apply modify_eq_self
    intro e he
    unfold test at hfights
    rw [he] at hfights
    exact if_neg hfights

theorem towerTurn_eq_act (minions heroes : List UInt64) (m : EntityManager F) (towerId : UInt64) :
    towerTurn minions heroes m towerId = m.act towerId (m.aim minions heroes towerId) := by
  rw [towerTurn_eq]
  rcases haim : m.aim minions heroes towerId with _ | ⟨targetId, dmg⟩
  · exact cool_eq m towerId
  · dsimp only
    rw [shoot_eq (ne_of_aim haim), cool_eq, modify_modify]
    rfl

/-- A tower's aim is what it is ready for and sees. -/
theorem aim_tower {t : Tower F} (ht : m.find id = some (.tower t)) :
    m.aim minions heroes id =
      if ready t then (m.bestTarget t minions heroes).map fun targetId => (targetId, t.attackDamage)
      else none := by
  unfold aim
  rw [ht]
  rfl

/-- Towers that are still to take their turns, each with a clear shot. -/
structure Battery (minions heroes : List UInt64) (m : EntityManager F) (towers : List UInt64) :
    Prop where
  nodup : towers.Nodup
  kinds : m.Kinds minions heroes
  tower : ∀ id ∈ towers, ∃ t, m.find id = some (.tower t)
  clear : ClearShots minions heroes m towers

/-- The share of one tower. -/
theorem aimedAt_cons (minions heroes : List UInt64) (m : EntityManager F) (a : UInt64)
    (towers : List UInt64) (x : UInt64) :
    aimedAt minions heroes m (a :: towers) x =
      ((m.aim minions heroes a).elim 0 fun s => if s.1 = x then s.2 else 0) +
        aimedAt minions heroes m towers x := by
  unfold aimedAt
  rw [List.map_cons, List.sum_cons]

theorem le_aimedAt {s : UInt64 × ℕ} (hid : id ∈ towers) (hs : m.aim minions heroes id = some s) :
    s.2 ≤ aimedAt minions heroes m towers s.1 := by
  apply List.le_sum_of_mem
  refine List.mem_map.mpr ⟨id, hid, ?_⟩
  rw [hs]
  exact if_pos rfl

theorem aimedAt_perm {towers' : List UInt64} (h : towers.Perm towers') (x : UInt64) :
    aimedAt minions heroes m towers x = aimedAt minions heroes m towers' x :=
  (h.map _).sum_eq

theorem Battery.perm {towers' : List UInt64} (h : Battery minions heroes m towers)
    (hperm : towers.Perm towers') : Battery minions heroes m towers' where
  nodup := hperm.nodup_iff.mp h.nodup
  kinds := h.kinds
  tower id hid := h.tower id (hperm.mem_iff.mpr hid)
  clear := {
    untied := fun id hid => h.clear.untied id (hperm.mem_iff.mpr hid)
    outlives := fun id hid s hs => by
      rw [← aimedAt_perm hperm]
      exact h.clear.outlives id (hperm.mem_iff.mpr hid) s hs }

/-- What a tower aims at is no tower. -/
theorem Battery.ne_of_aim (h : Battery minions heroes m towers) (hid : id ∈ towers)
    {s : UInt64 × ℕ} (hs : m.aim minions heroes b = some s) : id ≠ s.1 := by
  rintro rfl
  rcases h.tower _ hid with ⟨t, ht⟩
  have hmem : s.1 ∈ minions ++ heroes := mem_of_aim hs
  rcases List.mem_append.mp hmem with hminion | hhero
  · rcases h.kinds.minion.mp hminion with ⟨e, he, htype⟩
    cases ht.symm.trans he
    cases htype
  · rcases h.kinds.hero.mp hhero with ⟨e, he, htype⟩
    cases ht.symm.trans he
    cases htype

/-- A target outlives the shot of another tower. -/
theorem Battery.lt_hpOf (h : Battery minions heroes m (a :: towers)) (hid : id ∈ towers)
    {s s' : UInt64 × ℕ} (hs : m.aim minions heroes a = some s)
    (hs' : m.aim minions heroes id = some s') (heq : s'.1 = s.1) : (s.2 : ℤ) < m.hpOf s.1 := by
  have hlt := h.clear.outlives id (List.mem_cons_of_mem a hid) s' hs'
  have hle : s'.2 ≤ aimedAt minions heroes m towers s'.1 := le_aimedAt hid hs'
  rw [aimedAt_cons, hs, Option.elim_some, if_pos heq.symm, heq] at hlt
  rw [heq] at hle
  push_cast at hlt
  omega

/-- The tower's own target lives after the turn of another. -/
theorem Battery.alive_target (h : Battery minions heroes m (a :: towers)) (hid : id ∈ towers)
    {s : UInt64 × ℕ} (hs : m.aim minions heroes id = some s) :
    (towerTurn minions heroes m a).test Entity.isAlive s.1 = true := by
  rcases aim_spec hs with ⟨_, _, cand, hcand, halive, _⟩
  have hpos : 0 < m.hpOf s.1 := by
    rw [← test_isAlive_iff]
    unfold test
    rw [hcand]
    exact halive
  rw [test_isAlive_iff, towerTurn_eq_act, hpOf_act]
  rcases haim : m.aim minions heroes a with _ | x
  · exact hpos
  · rw [Option.elim_some]
    split_ifs with heq
    · have hlt := h.lt_hpOf hid haim hs heq
      rw [← heq] at hlt
      omega
    · exact hpos

theorem Battery.find_turn (h : Battery minions heroes m (a :: towers)) (hid : id ∈ towers) :
    (towerTurn minions heroes m a).find id = m.find id := by
  rw [towerTurn_eq_act]
  apply find_act_of_ne
  · rintro rfl
    exact (List.nodup_cons.mp h.nodup).1 hid
  · intro x hx
    exact h.ne_of_aim (List.mem_cons_of_mem a hid) hx

/-- After a turn, the towers to come have the targets they had. -/
theorem Battery.turn_spec (h : Battery minions heroes m (a :: towers)) (hid : id ∈ towers)
    {t : Tower F} (ht : m.find id = some (.tower t)) (hready : ready t = true) :
    (towerTurn minions heroes m a).Untied t ∧
      (towerTurn minions heroes m a).bestTarget t minions heroes =
        m.bestTarget t minions heroes := by
  have hfades : m.Fades (towerTurn minions heroes m a) := by
    rw [towerTurn_eq_act]
    exact fades_act m a _
  apply bestTarget_of_fades hfades h.kinds (hfades.kinds h.kinds)
  · exact h.clear.untied id (List.mem_cons_of_mem a hid) (.tower t) ht hready
  · intro x hx
    have hs : m.aim minions heroes id = some (x, t.attackDamage) := by
      rw [aim_tower ht, if_pos hready, hx]
      rfl
    exact h.alive_target hid hs

theorem Battery.aim_turn (h : Battery minions heroes m (a :: towers)) (hid : id ∈ towers) :
    (towerTurn minions heroes m a).aim minions heroes id = m.aim minions heroes id := by
  rcases h.tower id (List.mem_cons_of_mem a hid) with ⟨t, ht⟩
  rw [aim_tower ht, aim_tower ((h.find_turn hid).trans ht)]
  split_ifs with hready
  · rw [(h.turn_spec hid ht hready).2]
  · rfl

/-- A turn leaves the others with clear shots. -/
theorem Battery.turn (h : Battery minions heroes m (a :: towers)) :
    Battery minions heroes (towerTurn minions heroes m a) towers where
  nodup := (List.nodup_cons.mp h.nodup).2
  kinds := by
    rw [towerTurn_eq_act]
    exact (fades_act m a _).kinds h.kinds
  tower id hid := by
    rw [h.find_turn hid]
    exact h.tower id (List.mem_cons_of_mem a hid)
  clear := {
    untied := fun id hid e he => by
      rw [h.find_turn hid] at he
      rcases e with _ | _ | t | _
      case tower =>
        intro hready
        exact (h.turn_spec hid he hready).1
      all_goals trivial
    outlives := fun id hid s hs => by
      have haims : aimedAt minions heroes (towerTurn minions heroes m a) towers s.1 =
          aimedAt minions heroes m towers s.1 := by
        unfold aimedAt
        rw [List.map_congr_left fun id' hid' => by rw [h.aim_turn hid']]
      rw [h.aim_turn hid] at hs
      have hlt := h.clear.outlives id (List.mem_cons_of_mem a hid) s hs
      rw [aimedAt_cons] at hlt
      rw [haims, towerTurn_eq_act, hpOf_act]
      rcases haim : m.aim minions heroes a with _ | x
      · rw [haim, Option.elim_none, Nat.zero_add] at hlt
        exact hlt
      · rw [haim, Option.elim_some] at hlt
        rw [Option.elim_some]
        split_ifs at hlt ⊢ with hx hx' hx'
        · push_cast at hlt
          omega
        · exact absurd hx.symm hx'
        · exact absurd hx'.symm hx
        · rw [Nat.zero_add] at hlt
          exact hlt }

/-- The hit points that all the shots leave. -/
theorem Battery.hpOf_foldl (h : Battery minions heroes m towers) (j : UInt64) :
    max 0 ((towers.foldl (towerTurn minions heroes) m).hpOf j) =
      max 0 (m.hpOf j - aimedAt minions heroes m towers j) := by
  induction towers generalizing m with
  | nil => simp [aimedAt]
  | cons a towers ih =>
    have haims : aimedAt minions heroes (towerTurn minions heroes m a) towers j =
        aimedAt minions heroes m towers j := by
      unfold aimedAt
      rw [List.map_congr_left fun id' hid' => by rw [h.aim_turn hid']]
    rw [List.foldl_cons, ih h.turn, haims, aimedAt_cons, towerTurn_eq_act, hpOf_act]
    rcases m.aim minions heroes a with _ | x
    · simp
    · rw [Option.elim_some, Option.elim_some]
      by_cases hj : j = x.1
      · rw [if_pos hj, if_pos hj.symm]
        push_cast
        omega
      · rw [if_neg hj, if_neg fun heq => hj heq.symm, Nat.zero_add]

theorem Battery.turn_comm (h : Battery minions heroes m (a :: b :: towers)) :
    towerTurn minions heroes (towerTurn minions heroes m a) b =
      towerTurn minions heroes (towerTurn minions heroes m b) a := by
  have h' : Battery minions heroes m (b :: a :: towers) := h.perm (.swap b a towers)
  have hb : b ∈ b :: towers := List.mem_cons_self
  have ha : a ∈ a :: towers := List.mem_cons_self
  have hab : a ≠ b := by
    rintro rfl
    exact (List.nodup_cons.mp h.nodup).1 hb
  rw [towerTurn_eq_act _ _ _ b, h.aim_turn hb, towerTurn_eq_act _ _ m a,
    towerTurn_eq_act _ _ _ a, h'.aim_turn ha, towerTurn_eq_act _ _ m b]
  apply act_comm hab
  · intro x hx
    exact (h.ne_of_aim (List.mem_cons_of_mem a hb) hx).symm
  · intro x hx
    exact (h.ne_of_aim List.mem_cons_self hx).symm
  · intro x hx x' hx' heq
    constructor
    · exact h.lt_hpOf hb hx hx' heq.symm
    · rw [heq]
      exact h'.lt_hpOf ha hx' hx heq

/-- The candidates may come in another order. -/
theorem Battery.turn_congr (h : Battery minions heroes m (a :: towers))
    (hk : m.Kinds minions' heroes') :
    towerTurn minions heroes m a = towerTurn minions' heroes' m a := by
  rcases h.tower a List.mem_cons_self with ⟨t, ht⟩
  rw [towerTurn_eq_act, towerTurn_eq_act, aim_tower ht, aim_tower ht]
  split_ifs with hready
  · have hu := h.clear.untied a List.mem_cons_self (.tower t) ht hready
    have hbest : m.bestTarget t minions heroes = m.bestTarget t minions' heroes' := by
      apply Option.ext
      intro x
      rw [bestTarget_eq_some_iff h.kinds hu, bestTarget_eq_some_iff hk hu]
    rw [hbest]
  · rfl

/-- Towers with clear shots do the same in every order. -/
theorem foldl_towerTurn_perm {towers' : List UInt64} (h : Battery minions heroes m towers)
    (hk : m.Kinds minions' heroes') (hperm : towers.Perm towers') :
    towers.foldl (towerTurn minions heroes) m = towers'.foldl (towerTurn minions' heroes') m := by
  have hturn : ∀ (m : EntityManager F) a l, Battery minions heroes m (a :: l) →
      Battery minions heroes (towerTurn minions heroes m a) l := fun _ _ _ h => h.turn
  calc towers.foldl (towerTurn minions heroes) m
      = towers'.foldl (towerTurn minions heroes) m :=
        foldl_eq_of_perm (fun _ _ _ hperm h => h.perm hperm) hturn
          (fun _ _ _ _ h => h.turn_comm) hperm h
    _ = towers'.foldl (towerTurn minions' heroes') m := by
        apply foldl_congr_of (J := fun m l => Battery minions heroes m l ∧ m.Kinds minions' heroes')
        · rintro s a l ⟨h, hk⟩
          refine ⟨h.turn, ?_⟩
          rw [towerTurn_eq_act]
          exact (fades_act s a _).kinds hk
        · rintro s a l ⟨h, hk⟩
          exact h.turn_congr hk
        · exact ⟨h.perm hperm, hk⟩

end Loop

end EntityManager

end Gmaker.Realtime
