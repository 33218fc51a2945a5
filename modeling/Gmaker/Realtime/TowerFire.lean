import Mathlib
import Gmaker.Lib.Windows
import Gmaker.Realtime.Effects
import Gmaker.Realtime.Verdict

/-!
# Gmaker.Realtime.TowerFire — how often a tower shoots

A shot starts a cooldown of `attack_interval_`, which runs down in two places: a tower that lives
loses the time of a tick in `TickAll`, and once more in its turn of `TickCombat`. So it can shoot
again after half the interval, and does if it has an enemy in range.

The arena is watched: the time goes on with every tick of the battle, and the log has the shots
of the towers. The cooldown of a living tower is told by its last shot (`Guns`), and the shots
keep the interval as long as no tower meets an enemy in the second half of it.
-/

namespace Gmaker.Realtime

open Gmaker.Lib

variable {F : Type}

/-! ## The gun of a tower -/

/-- `attack_interval_`. -/
def attackIntervalMs : ℕ := 1250

/-- The gun of a tower is as before, and it has not come to life. -/
structure Tower.SameGun (t t' : Tower F) : Prop where
  cooldown : t'.attackCooldown = t.attackCooldown
  interval : t'.attackInterval = t.attackInterval
  grade : t'.grade = t.grade
  alive : t'.isAlive = true → t.isAlive = true

namespace Tower.SameGun

theorem refl (t : Tower F) : t.SameGun t := ⟨rfl, rfl, rfl, id⟩

theorem trans {t t' t'' : Tower F} (h : t.SameGun t') (h' : t'.SameGun t'') : t.SameGun t'' :=
  ⟨h'.cooldown.trans h.cooldown, h'.interval.trans h.interval, h'.grade.trans h.grade,
    fun halive => h.alive (h'.alive halive)⟩

end Tower.SameGun

/-- A change of an entity that makes no tower of it and leaves the gun of a tower alone. -/
def Entity.KeepsGun (f : Entity F → Entity F) : Prop :=
  ∀ e t', f e = .tower t' → ∃ t, e = .tower t ∧ t.SameGun t'

theorem Entity.keepsGun_onHero (f : Hero F → Hero F) : Entity.KeepsGun (Entity.onHero f) := by
  intro e t' heq
  rcases e with _ | _ | t | _
  case tower =>
    cases heq
    exact ⟨t', rfl, .refl t'⟩
  all_goals cases heq

theorem Entity.keepsGun_takeDamage (dmg : ℕ) : Entity.KeepsGun (F := F) (.takeDamage dmg) := by
  intro e t' heq
  rcases e with _ | _ | t | _
  case tower =>
    cases heq
    refine ⟨t, rfl, rfl, rfl, rfl, fun halive => ?_⟩
    have hpos : 0 < max 0 (t.hp - dmg) := of_decide_eq_true halive
    exact decide_eq_true (by omega)
  all_goals cases heq

namespace EntityManager

/-- The towers are those that were there, with their guns as they were. -/
def KeepsGuns (m m' : EntityManager F) : Prop :=
  ∀ id t', m'.find id = some (.tower t') → ∃ t, m.find id = some (.tower t) ∧ t.SameGun t'

section KeepsGuns

variable {m m' m'' : EntityManager F}

theorem KeepsGuns.refl (m : EntityManager F) : KeepsGuns m m :=
  fun _ t' h => ⟨t', h, .refl t'⟩

theorem KeepsGuns.trans (h : KeepsGuns m m') (h' : KeepsGuns m' m'') : KeepsGuns m m'' := by
  intro id t'' hfind
  rcases h' id t'' hfind with ⟨t', ht', hsame'⟩
  rcases h id t' ht' with ⟨t, ht, hsame⟩
  exact ⟨t, ht, hsame.trans hsame'⟩

theorem keepsGuns_modify {f : Entity F → Entity F} (hf : Entity.KeepsGun f) (id : UInt64) :
    KeepsGuns m (m.modify id f) := by
  intro j t' hfind
  rcases find_of_modify hfind with ⟨e, he, ⟨_, heq⟩ | ⟨_, heq⟩⟩
  · rcases hf e t' heq.symm with ⟨t, htower, hsame⟩
    exact ⟨t, htower ▸ he, hsame⟩
  · exact ⟨t', heq ▸ he, .refl t'⟩

theorem keepsGuns_create {make : UInt64 → Entity F} (hmake : (make m.nextEntityId).type ≠ .tower) :
    KeepsGuns m (m.create make) := by
  intro j t' hfind
  rw [find_create] at hfind
  split_ifs at hfind
  · rw [Option.some.inj hfind] at hmake
    exact absurd rfl hmake
  · exact ⟨t', hfind, .refl t'⟩

theorem keepsGuns_removeEntity (id : UInt64) : KeepsGuns m (m.removeEntity id) := by
  intro j t' hfind
  rw [find_removeEntity] at hfind
  split_ifs at hfind
  exact ⟨t', hfind, .refl t'⟩

theorem keepsGuns_of_effects {ok : List UInt64 → UInt64 → Prop}
    (h : Effects Entity.KeepsGun ok m m') : KeepsGuns m m' := by
  refine h.invariant (I := KeepsGuns m) (fun m₁ m₂ hm heffect => hm.trans ?_) (.refl m)
  rcases heffect with ⟨id, hf⟩ | ⟨hmake, _⟩ | _
  case change => exact keepsGuns_modify hf id
  case create =>
    refine keepsGuns_create ?_
    rcases hmake with htype | htype
    all_goals
      rw [htype]
      exact EntityType.noConfusion
  case remove => exact keepsGuns_removeEntity _

end KeepsGuns

end EntityManager

/-- What heroes do and blows leave the guns alone. -/
theorem allows_keepsGun : EntityManager.Allows (F := F) Entity.KeepsGun :=
  ⟨fun g _ => Entity.keepsGun_onHero g, Entity.keepsGun_takeDamage⟩

/-! ## The turn of a tower -/

namespace EntityManager

variable [FloatOps F] {m : EntityManager F} {minions heroes : List UInt64} {towerId id : UInt64}
  {tower : Tower F}

open FloatOps

/-- A candidate is an enemy of the tower that lives, in its range. -/
def InTowerRange (m : EntityManager F) (tower : Tower F) (id : UInt64) : Prop :=
  ∃ cand, m.find id = some cand ∧ cand.isAlive = true ∧ cand.team ≠ tower.team ∧
    distanceXZFixed tower.pos.toFixed cand.base.pos.toFixed < toFixed tower.attackRange

/-- The first check that finds somebody is that of a candidate in range. -/
theorem nearer_none (m : EntityManager F) (tower : Tower F) (id : UInt64) :
    (m.InTowerRange tower id ∧
      (m.nearer tower (none, toFixed tower.attackRange) id).1 = some id) ∨
    (¬ m.InTowerRange tower id ∧
      m.nearer tower (none, toFixed tower.attackRange) id = (none, toFixed tower.attackRange)) := by
  unfold nearer InTowerRange
  rcases m.find id with _ | cand
  · exact Or.inr ⟨by simp, rfl⟩
  · dsimp only
    split_ifs with hskip hdist
    · rw [Bool.or_eq_true] at hskip
      refine Or.inr ⟨?_, rfl⟩
      rintro ⟨cand', heq, halive, hteam, _⟩
      cases heq
      rcases hskip with hdead | hown
      · rw [halive] at hdead
        cases hdead
      · exact hteam (of_decide_eq_true hown)
    · rw [Bool.or_eq_true, not_or] at hskip
      exact Or.inl ⟨⟨cand, rfl, by simpa using hskip.1, by simpa using hskip.2, hdist⟩, rfl⟩
    · refine Or.inr ⟨?_, rfl⟩
      rintro ⟨cand', heq, _, _, hnear⟩
      cases heq
      exact hdist hnear

theorem isSome_foldl_nearer {ids : List UInt64} {best : Option UInt64 × Fixed}
    (h : best.1.isSome = true) : (ids.foldl (m.nearer tower) best).1.isSome = true := by
  refine foldl_invariant_all (I := fun best : Option UInt64 × Fixed => best.1.isSome = true) ?_ h
  intro best id _ hbest
  rcases nearer_eq m tower best id with heq | ⟨_, heq⟩
  · rw [heq]
    exact hbest
  · rw [heq]
    rfl

/-- A tower finds a target if and only if somebody is in range. -/
theorem bestTarget_isSome_iff : (m.bestTarget tower minions heroes).isSome = true ↔
    ∃ id ∈ minions ++ heroes, m.InTowerRange tower id := by
  have hloop : ∀ ids : List UInt64,
      (ids.foldl (m.nearer tower) (none, toFixed tower.attackRange)).1.isSome = true ↔
        ∃ id ∈ ids, m.InTowerRange tower id := by
    intro ids
    induction ids with
    | nil => simp
    | cons id ids ih =>
      rw [List.foldl_cons, List.exists_mem_cons_iff]
      rcases nearer_none m tower id with ⟨hin, hfirst⟩ | ⟨hout, hsame⟩
      · refine iff_of_true (isSome_foldl_nearer ?_) (Or.inl hin)
        rw [hfirst]
        rfl
      · rw [hsame, ih, or_iff_right hout]
  have happend : m.bestTarget tower minions heroes =
      ((minions ++ heroes).foldl (m.nearer tower) (none, toFixed tower.attackRange)).1 := by
    unfold bestTarget
    rw [List.foldl_append]
  rw [happend]
  exact hloop _

omit [FloatOps F] in
theorem tickCooldown_attackCooldown (t : Tower F) (deltaMs : ℕ) :
    (t.tickCooldown deltaMs).attackCooldown = t.attackCooldown - deltaMs := by
  unfold Tower.tickCooldown
  split_ifs with h
  · rfl
  · exact (Nat.sub_eq_zero_of_le (not_lt.mp h)).symm

/-- A tower shoots if it lives, is no crystal, has cooled down and has somebody in range. -/
theorem aim_isSome_iff : (m.aim minions heroes towerId).isSome = true ↔
    ∃ t, m.find towerId = some (.tower t) ∧ t.isAlive = true ∧ t.grade ≠ .crystal ∧
      t.attackCooldown - fixedStepMs = 0 ∧ ∃ id ∈ minions ++ heroes, m.InTowerRange t id := by
  unfold aim
  rcases m.find towerId with _ | (_ | _ | t | _)
  case some.tower =>
    have hcan : (t.tickCooldown fixedStepMs).canAttack = true ↔
        t.attackCooldown - fixedStepMs = 0 := by
      unfold Tower.canAttack
      rw [tickCooldown_attackCooldown, decide_eq_true_iff]
    simp only [Option.some.injEq, Entity.tower.injEq, exists_eq_left', ← bestTarget_isSome_iff,
      ← hcan]
    by_cases halive : t.isAlive = true <;> by_cases hgrade : t.grade = .crystal <;>
      by_cases hready : (t.tickCooldown fixedStepMs).canAttack = true <;>
      simp [halive, hgrade, hready]
  all_goals simp

omit [FloatOps F] in
theorem keepsGun_shot (dmg : ℕ) : Entity.KeepsGun (F := F) (shot dmg) := by
  intro e t' heq
  unfold shot at heq
  dsimp only at heq
  split_ifs at heq
  · exact Entity.keepsGun_takeDamage dmg e t' heq
  · rcases Entity.keepsGun_onHero _ _ t' heq with ⟨t₁, ht₁, hsame₁⟩
    rcases Entity.keepsGun_takeDamage dmg e t₁ ht₁ with ⟨t, ht, hsame⟩
    exact ⟨t, ht, hsame.trans hsame₁⟩

/-- The turn of a tower leaves the guns of the others alone. -/
theorem gun_towerTurn_of_ne (hne : id ≠ towerId) {t' : Tower F}
    (hfind : (towerTurn minions heroes m towerId).find id = some (.tower t')) :
    ∃ t, m.find id = some (.tower t) ∧ t.SameGun t' := by
  rw [towerTurn_eq] at hfind
  rcases haim : m.aim minions heroes towerId with _ | ⟨targetId, dmg⟩
  · rw [haim] at hfind
    dsimp only at hfind
    rw [find_cool_of_ne hne] at hfind
    exact ⟨t', hfind, .refl t'⟩
  · rw [haim] at hfind
    dsimp only at hfind
    rw [shoot_eq (ne_of_aim haim)] at hfind
    rcases keepsGuns_modify (keepsGun_shot dmg) targetId id t' hfind with ⟨t, ht, hsame⟩
    rw [find_modify_of_ne hne, find_cool_of_ne hne] at ht
    exact ⟨t, ht, hsame⟩

/-- Its own gun has cooled down once more, or the shot has set it back. -/
theorem gun_towerTurn {t' : Tower F}
    (hfind : (towerTurn minions heroes m towerId).find towerId = some (.tower t')) :
    ∃ t, m.find towerId = some (.tower t) ∧ t'.attackInterval = t.attackInterval ∧
      (t'.isAlive = true → t'.grade ≠ .crystal → t.isAlive = true ∧ t.grade ≠ .crystal ∧
        t'.attackCooldown = if (m.aim minions heroes towerId).isSome then t.attackInterval
          else t.attackCooldown - fixedStepMs) := by
  have hcool : (m.cool towerId).find towerId = (m.find towerId).map
      fun e => if fights e then e.onTower (.tickCooldown fixedStepMs) else e := by
    unfold cool test
    rcases hm : m.find towerId with _ | e
    · simp [hm]
    · by_cases hfights : fights e = true <;> simp [hfights, hm, find_modify_self]
  have hself : (towerTurn minions heroes m towerId).find towerId =
      ((m.cool towerId).find towerId).map fun e =>
        if (m.aim minions heroes towerId).isSome then e.onTower .onAttack else e := by
    rw [towerTurn_eq]
    rcases haim : m.aim minions heroes towerId with _ | ⟨targetId, dmg⟩
    · simp
    · have hne := (ne_of_aim haim).symm
      dsimp only
      rw [shoot_eq (ne_of_aim haim), find_modify_of_ne hne, find_modify_self]
      simp
  rw [hself, hcool] at hfind
  rcases hm : m.find towerId with _ | (_ | _ | t | _)
  case some.tower =>
    rw [hm] at hfind
    refine ⟨t, rfl, ?_⟩
    by_cases hfights : fights (.tower t) = true
    · have hlives : t.isAlive = true ∧ t.grade ≠ .crystal := by
        simpa [fights] using hfights
      by_cases hshot : (m.aim minions heroes towerId).isSome = true
      · simp only [Option.map_some, hfights, hshot, if_true, Entity.onTower, Option.some.injEq,
          Entity.tower.injEq] at hfind
        rw [if_pos hshot, ← hfind]
        refine ⟨?_, fun _ _ => ⟨hlives.1, hlives.2, ?_⟩⟩ <;>
          (unfold Tower.onAttack Tower.tickCooldown; split_ifs <;> rfl)
      · simp only [Option.map_some, hfights, hshot, if_true, Entity.onTower, Option.some.injEq,
          Entity.tower.injEq, Bool.false_eq_true, if_false] at hfind
        rw [if_neg hshot, ← hfind]
        refine ⟨?_, fun _ _ => ⟨hlives.1, hlives.2, tickCooldown_attackCooldown t fixedStepMs⟩⟩
        unfold Tower.tickCooldown
        split_ifs <;> rfl
    · -- a tower that takes no part in the fight
      have haim : ¬ (m.aim minions heroes towerId).isSome = true := by
        rw [aim_isSome_iff]
        rintro ⟨t₁, ht₁, halive, hgrade, _⟩
        cases hm.symm.trans ht₁
        exact hfights (by simp [fights, halive, hgrade])
      simp only [Option.map_some, hfights, haim, Bool.false_eq_true, if_false, Option.some.injEq,
        Entity.tower.injEq] at hfind
      rw [← hfind]
      refine ⟨rfl, fun halive hgrade => ?_⟩
      exact absurd (by simp [fights, halive, hgrade]) hfights
  all_goals
    rw [hm] at hfind
    exfalso
    simp only [Option.map_none, Option.map_some, fights, Bool.false_eq_true, if_false,
      reduceCtorEq] at hfind
    try (split_ifs at hfind <;> simp [Entity.onTower] at hfind)

/-! ## The shots of a tick -/

/-- The turn of a tower, and its shot if it has fired one. -/
def fire (now : ℕ) (minions heroes : List UInt64) (s : EntityManager F × List (UInt64 × ℕ))
    (towerId : UInt64) : EntityManager F × List (UInt64 × ℕ) :=
  (towerTurn minions heroes s.1 towerId,
    if (s.1.aim minions heroes towerId).isSome then (towerId, now) :: s.2 else s.2)

/-- The log does not disturb the loop of `TickCombat`. -/
theorem fst_foldl_fire (now : ℕ) (ids : List UInt64) (s : EntityManager F × List (UInt64 × ℕ)) :
    (ids.foldl (fire now minions heroes) s).1 = ids.foldl (towerTurn minions heroes) s.1 := by
  induction ids generalizing s with
  | nil => rfl
  | cons id ids ih =>
    rw [List.foldl_cons, ih]
    rfl

/-- What is left of a cooldown: it runs down twice as fast as the time goes on. -/
def remaining (last : Option ℕ) (now : ℕ) : ℕ :=
  last.elim 0 fun t => attackIntervalMs - 2 * (now - t)

/-- The guns while the towers take their turns, with those that still have to: the last shot of
a tower tells how long it has to wait. -/
structure Guns (now : ℕ) (rest : List UInt64) (s : EntityManager F × List (UInt64 × ℕ)) : Prop where
  interval : ∀ id t, s.1.find id = some (.tower t) → t.attackInterval = attackIntervalMs
  done : ∀ id t, s.1.find id = some (.tower t) → t.isAlive = true → t.grade ≠ .crystal →
    id ∉ rest → t.attackCooldown = remaining (s.2.lookup id) now
  todo : ∀ id t, s.1.find id = some (.tower t) → t.isAlive = true → t.grade ≠ .crystal →
    id ∈ rest → t.attackCooldown = remaining (s.2.lookup id) (now - fixedStepMs) - fixedStepMs
  older : ∀ id ∈ rest, ∀ last, s.2.lookup id = some last → last + fixedStepMs ≤ now
  past : ∀ p ∈ s.2, p.2 ≤ now
  newest : NewestFirst s.2

/-- A tower whose last shot is between half the interval and the interval ago meets nobody in
its range. -/
def NotPressed (now : ℕ) (minions heroes : List UInt64)
    (s : EntityManager F × List (UInt64 × ℕ)) (towerId : UInt64) : Prop :=
  ∀ t last, s.1.find towerId = some (.tower t) → t.isAlive = true → t.grade ≠ .crystal →
    s.2.lookup towerId = some last → attackIntervalMs ≤ 2 * (now - last) →
    now < last + attackIntervalMs → ∀ id ∈ minions ++ heroes, ¬ s.1.InTowerRange t id

section Shots

variable {now : ℕ} {rest : List UInt64} {s : EntityManager F × List (UInt64 × ℕ)}

theorem lookup_fire_of_ne (hne : id ≠ towerId) :
    (fire now minions heroes s towerId).2.lookup id = s.2.lookup id := by
  unfold fire
  dsimp only
  split_ifs
  · rw [List.lookup_cons, beq_eq_false_iff_ne.mpr hne]
  · rfl

/-- A tick and a turn take the time of a tick each. -/
theorem remaining_turn {last : Option ℕ}
    (holder : ∀ t, last = some t → t + fixedStepMs ≤ now) :
    remaining last (now - fixedStepMs) - fixedStepMs - fixedStepMs = remaining last now := by
  unfold remaining
  rcases last with _ | t
  · rfl
  · have ht := holder t rfl
    dsimp only [Option.elim]
    unfold fixedStepMs at *
    omega

/-- A turn leaves the guns in order. -/
theorem Guns.fire (h : Guns now (towerId :: rest) s) (hnot : towerId ∉ rest) :
    Guns now rest (EntityManager.fire now minions heroes s towerId) := by
  have hne : ∀ id ∈ rest, id ≠ towerId := fun id hid heq => hnot (heq ▸ hid)
  constructor
  case interval =>
    intro id t' hfind
    by_cases hid : id = towerId
    · subst hid
      rcases gun_towerTurn hfind with ⟨t, ht, hinterval, _⟩
      rw [hinterval, h.interval id t ht]
    · rcases gun_towerTurn_of_ne hid hfind with ⟨t, ht, hsame⟩
      rw [hsame.interval, h.interval id t ht]
  case done =>
    intro id t' hfind halive hgrade hid
    by_cases hself : id = towerId
    · subst hself
      rcases gun_towerTurn hfind with ⟨t, ht, _, hgun⟩
      rcases hgun halive hgrade with ⟨hlive, hnocrystal, hcooldown⟩
      have htodo := h.todo id t ht hlive hnocrystal List.mem_cons_self
      rw [hcooldown]
      unfold EntityManager.fire
      dsimp only
      split_ifs
      · -- it has just fired
        rw [h.interval id t ht, List.lookup_cons, beq_self_eq_true]
        unfold remaining
        dsimp only [Option.elim]
        omega
      · rw [htodo]
        exact remaining_turn (h.older id List.mem_cons_self)
    · rcases gun_towerTurn_of_ne hself hfind with ⟨t, ht, hsame⟩
      rw [lookup_fire_of_ne hself, hsame.cooldown]
      refine h.done id t ht (hsame.alive halive) (hsame.grade ▸ hgrade) ?_
      rw [List.mem_cons, not_or]
      exact ⟨hself, hid⟩
  case todo =>
    intro id t' hfind halive hgrade hid
    rcases gun_towerTurn_of_ne (hne id hid) hfind with ⟨t, ht, hsame⟩
    rw [lookup_fire_of_ne (hne id hid), hsame.cooldown]
    exact h.todo id t ht (hsame.alive halive) (hsame.grade ▸ hgrade) (List.mem_cons_of_mem _ hid)
  case older =>
    intro id hid last hlast
    rw [lookup_fire_of_ne (hne id hid)] at hlast
    exact h.older id (List.mem_cons_of_mem _ hid) last hlast
  case past =>
    intro p hp
    unfold EntityManager.fire at hp
    dsimp only at hp
    split_ifs at hp
    · rcases List.mem_cons.mp hp with rfl | hold
      · exact le_rfl
      · exact h.past p hold
    · exact h.past p hp
  case newest =>
    unfold EntityManager.fire
    dsimp only
    split_ifs
    · exact List.pairwise_cons.mpr ⟨fun p hp => h.past p hp, h.newest⟩
    · exact h.newest

/-- The turn of a tower that is not pressed, and no other, keeps the distance. -/
theorem Guns.spaced_fire_iff (h : Guns now (towerId :: rest) s) :
    Spaced attackIntervalMs (EntityManager.fire now minions heroes s towerId).2 ↔
      Spaced attackIntervalMs s.2 ∧ NotPressed now minions heroes s towerId := by
  -- a tower that lives is ready when half the interval has passed since its last shot
  have hready : ∀ t last, s.1.find towerId = some (.tower t) → t.isAlive = true →
      t.grade ≠ .crystal → s.2.lookup towerId = some last →
      (t.attackCooldown - fixedStepMs = 0 ↔ attackIntervalMs ≤ 2 * (now - last)) := by
    intro t last ht halive hgrade hlast
    rw [h.todo towerId t ht halive hgrade List.mem_cons_self,
      remaining_turn (h.older towerId List.mem_cons_self), hlast]
    unfold remaining
    dsimp only [Option.elim]
    omega
  by_cases haim : (s.1.aim minions heroes towerId).isSome = true
  · rcases aim_isSome_iff.mp haim with ⟨t, ht, halive, hgrade, hcool, id, hid, hrange⟩
    unfold EntityManager.fire
    dsimp only
    rw [if_pos haim, spaced_cons_iff h.newest]
    refine and_congr_right fun _ => ⟨fun hfar t' last ht' _ _ hlast _ hsoon => ?_,
      fun hfree last hlast => ?_⟩
    · have hle := hfar last hlast
      omega
    · by_contra hsoon
      have hhalf := (hready t last ht halive hgrade hlast).mp hcool
      exact hfree t last ht halive hgrade hlast hhalf (not_le.mp hsoon) id hid hrange
  · unfold EntityManager.fire
    dsimp only
    rw [if_neg haim]
    refine (and_iff_left ?_).symm
    intro t last ht halive hgrade hlast hhalf _ id hid hrange
    have hcool := (hready t last ht halive hgrade hlast).mpr hhalf
    exact haim (aim_isSome_iff.mpr ⟨t, ht, halive, hgrade, hcool, id, hid, hrange⟩)

/-- All turns of a tick. -/
theorem Guns.foldl_fire (h : Guns now rest s) (hnodup : rest.Nodup) :
    Guns now [] (rest.foldl (EntityManager.fire now minions heroes) s) := by
  induction rest generalizing s with
  | nil => exact h
  | cons id rest ih =>
    rcases List.nodup_cons.mp hnodup with ⟨hnot, hrest⟩
    exact ih (h.fire hnot) hrest

/-- The shots of a tick keep the distance if and only if no tower is pressed at its turn. -/
theorem Guns.spaced_foldl_fire_iff (h : Guns now rest s) (hnodup : rest.Nodup) :
    Spaced attackIntervalMs (rest.foldl (EntityManager.fire now minions heroes) s).2 ↔
      Spaced attackIntervalMs s.2 ∧
        FoldOk (EntityManager.fire now minions heroes) (NotPressed now minions heroes) s rest := by
  induction rest generalizing s with
  | nil => exact (and_iff_left trivial).symm
  | cons id rest ih =>
    rcases List.nodup_cons.mp hnodup with ⟨hnot, hrest⟩
    rw [List.foldl_cons, ih (h.fire hnot) hrest, h.spaced_fire_iff]
    exact and_assoc

omit [FloatOps F] in
/-- What leaves the guns alone. -/
theorem Guns.keep (h : Guns now [] s) {m' : EntityManager F} (hkeep : KeepsGuns s.1 m') :
    Guns now [] (m', s.2) := by
  constructor
  case interval =>
    intro id t' hfind
    rcases hkeep id t' hfind with ⟨t, ht, hsame⟩
    rw [hsame.interval, h.interval id t ht]
  case done =>
    intro id t' hfind halive hgrade hid
    rcases hkeep id t' hfind with ⟨t, ht, hsame⟩
    rw [hsame.cooldown]
    exact h.done id t ht (hsame.alive halive) (hsame.grade ▸ hgrade) hid
  case todo => exact fun id t' _ _ _ hid => absurd hid List.not_mem_nil
  case older => exact fun id hid => absurd hid List.not_mem_nil
  case past => exact h.past
  case newest => exact h.newest

/-- `TickAll` begins a new tick: all towers have their turns before them. -/
theorem Guns.tickAll (h : Guns now [] s) (o : Order UInt64) :
    Guns (now + fixedStepMs) ((s.1.tickAll o fixedStepMs).getByType o .tower)
      (s.1.tickAll o fixedStepMs, s.2) := by
  have hbefore : ∀ id t', (s.1.tickAll o fixedStepMs).find id = some (.tower t') →
      ∃ t, s.1.find id = some (.tower t) ∧ t' = t.tick fixedStepMs := by
    intro id t' hfind
    rw [find_tickAll] at hfind
    rcases Option.map_eq_some_iff.mp hfind with ⟨e, he, heq⟩
    rcases e with _ | _ | t | _
    case tower => exact ⟨t, he, (Entity.tower.inj heq).symm⟩
    all_goals cases heq
  constructor
  case interval =>
    intro id t' hfind
    rcases hbefore id t' hfind with ⟨t, ht, rfl⟩
    rw [← h.interval id t ht]
    unfold Tower.tick
    split_ifs <;> rfl
  case done =>
    intro id t' hfind _ _ hid
    exact absurd (mem_getByType.mpr ⟨_, hfind, rfl⟩) hid
  case todo =>
    intro id t' hfind halive hgrade _
    rcases hbefore id t' hfind with ⟨t, ht, rfl⟩
    unfold Tower.tick at halive hgrade ⊢
    split_ifs at halive hgrade ⊢ with hdead
    · rw [halive] at hdead
      cases hdead
    · dsimp only
      rw [h.done id t ht halive hgrade List.not_mem_nil, Nat.add_sub_cancel]
      omega
  case older =>
    intro id _ last hlast
    exact Nat.add_le_add_right (h.past _ (mem_of_lookup hlast)) fixedStepMs
  case past => exact fun p hp => (h.past p hp).trans (Nat.le_add_right _ _)
  case newest => exact h.newest

end Shots

end EntityManager

/-! ## The watch -/

/-- An arena, the milliseconds of its battle, and the shots of its towers, the newest first. -/
structure Watch (F : Type) where
  arena : Arena F := {}
  now : ℕ := 0
  shots : List (UInt64 × ℕ) := []

namespace Watch

variable [FloatOps F] {cfg : BattleConfig F} {w w' : Watch F} {confirmed : List ConfirmedInputs}
  {o : Orders}

open EntityManager

/-- The entities when the first tower has its turn. -/
def entityMgr (w : Watch F) (confirmed : List ConfirmedInputs) (o : Orders) : EntityManager F :=
  ((w.arena.processConfirmed confirmed).tickAll o.entities).entityMgr

/-- One turn of the tick. -/
def turn (w : Watch F) (confirmed : List ConfirmedInputs) (o : Orders) :
    EntityManager F × List (UInt64 × ℕ) → UInt64 → EntityManager F × List (UInt64 × ℕ) :=
  fire (w.now + fixedStepMs) ((w.entityMgr confirmed o).getByType o.entities .minion)
    ((w.entityMgr confirmed o).getByType o.entities .hero)

/-- The turns of the towers in `TickCombat`. -/
def turns (w : Watch F) (confirmed : List ConfirmedInputs) (o : Orders) :
    EntityManager F × List (UInt64 × ℕ) :=
  ((w.entityMgr confirmed o).getByType o.entities .tower).foldl (w.turn confirmed o)
    (w.entityMgr confirmed o, w.shots)

/-- One event: a tick takes its time, and its shots are noted. -/
def next (cfg : BattleConfig F) (w : Watch F) (e : ArenaEvent F) : Option (Watch F) :=
  (Arena.next cfg w.arena e).map fun arena =>
    match e with
    | .tick confirmed o => ⟨arena, w.now + fixedStepMs, (w.turns confirmed o).2⟩
    | _ => { w with arena }

/-- No tower is pressed at its turn. -/
def Unpressed (w : Watch F) : ArenaEvent F → Prop
  | .tick confirmed o => w.arena.stage = .fighting →
    FoldOk (w.turn confirmed o)
      (NotPressed (w.now + fixedStepMs) ((w.entityMgr confirmed o).getByType o.entities .minion)
        ((w.entityMgr confirmed o).getByType o.entities .hero))
      (w.entityMgr confirmed o, w.shots) ((w.entityMgr confirmed o).getByType o.entities .tower)
  | _ => True

/-! ### What holds in every run -/

/-- The guns are in order; before the scene is set up there are none. -/
structure Inv (w : Watch F) : Prop where
  guns : Guns w.now [] (w.arena.entityMgr, w.shots)
  before : w.arena.stage = .before → w.arena.entityMgr = {} ∧ w.shots = []

omit [FloatOps F] in
theorem guns_empty (now : ℕ) : Guns now [] (({} : EntityManager F), []) :=
  ⟨nofun, nofun, nofun, nofun, nofun, List.Pairwise.nil⟩

omit [FloatOps F] in
theorem inv_init : Inv ({} : Watch F) := ⟨guns_empty 0, fun _ => ⟨rfl, rfl⟩⟩

/-- A new scene has towers that have not fired. -/
theorem guns_initBattleScene {a : Arena F} (hempty : a.entityMgr = {}) (players : Order UInt64)
    (now : ℕ) : Guns now [] ((a.initBattleScene cfg players).entityMgr, []) := by
  have hnew : ∀ id t, (a.initBattleScene cfg players).entityMgr.find id = some (.tower t) →
      t.attackInterval = attackIntervalMs ∧ t.attackCooldown = 0 := by
    have hput : ∀ (m : EntityManager F) (id : UInt64) (e : Entity F),
        (∀ t, e = .tower t → t.attackInterval = attackIntervalMs ∧ t.attackCooldown = 0) →
        (∀ id t, m.find id = some (.tower t) →
          t.attackInterval = attackIntervalMs ∧ t.attackCooldown = 0) →
        ∀ j t, (m.put id e).find j = some (.tower t) →
          t.attackInterval = attackIntervalMs ∧ t.attackCooldown = 0 := by
      intro m id e he hm j t hfind
      rw [find_put] at hfind
      split_ifs at hfind
      · exact he t (Option.some.inj hfind)
      · exact hm j t hfind
    have htower : ∀ (id : UInt64) (team : TeamSide) (grade : TowerGrade) (t : Tower F),
        Entity.tower (.new id team grade) = .tower t →
          t.attackInterval = attackIntervalMs ∧ t.attackCooldown = 0 := by
      intro id team grade t heq
      cases heq
      rcases grade with _ | _ | _ | _
      all_goals exact ⟨rfl, rfl⟩
    refine Arena.initBattleScene_invariant (I := fun m : EntityManager F =>
      ∀ id t, m.find id = some (.tower t) →
        t.attackInterval = attackIntervalMs ∧ t.attackCooldown = 0) ?_ ?_ ?_ ?_
    · rw [hempty]
      exact nofun
    · intro m make hmake hm
      refine hput m m.nextEntityId (make m.nextEntityId) (fun t heq => ?_) hm
      have htype := hmake m.nextEntityId
      rw [heq] at htype
      cases htype
    · intro m d _ hm
      exact hput m d.entityId _ (htower d.entityId d.team d.grade) hm
    · intro m team grade hm
      exact hput m m.nextEntityId _ (htower m.nextEntityId team grade) hm
  exact ⟨fun id t ht => (hnew id t ht).1, fun id t ht _ _ _ => (hnew id t ht).2, nofun, nofun,
    nofun, List.Pairwise.nil⟩

/-- The towers are before their turns when the tick reaches `TickCombat`. -/
theorem Inv.guns_turns (h : Inv w) (confirmed : List ConfirmedInputs) (o : Orders) :
    Guns (w.now + fixedStepMs) ((w.entityMgr confirmed o).getByType o.entities .tower)
      (w.entityMgr confirmed o, w.shots) := by
  have hinputs : Effects Entity.KeepsGun (fun _ _ => True) w.arena.entityMgr
      (w.arena.processConfirmed confirmed).entityMgr :=
    Arena.effects_processConfirmed allows_keepsGun (foldOk_of_forall fun _ _ _ => trivial)
  exact (h.guns.keep (keepsGuns_of_effects hinputs)).tickAll o.entities

/-- A tick leaves the guns in order. -/
theorem Inv.guns_tick (h : Inv w) (confirmed : List ConfirmedInputs) (o : Orders) :
    Guns (w.now + fixedStepMs) []
      ((w.arena.fight cfg confirmed o).entityMgr, (w.turns confirmed o).2) := by
  have hturns : Guns (w.now + fixedStepMs) [] (w.turns confirmed o) :=
    (h.guns_turns confirmed o).foldl_fire nodup_getByType
  have hcombat : KeepsGuns (w.turns confirmed o).1
      ((w.entityMgr confirmed o).tickCombat o.entities) := by
    have hfst : (w.turns confirmed o).1 =
        ((w.entityMgr confirmed o).getByType o.entities .tower).foldl
          (towerTurn ((w.entityMgr confirmed o).getByType o.entities .minion)
            ((w.entityMgr confirmed o).getByType o.entities .hero)) (w.entityMgr confirmed o) :=
      fst_foldl_fire _ _ _
    rw [hfst]
    unfold EntityManager.tickCombat
    have hhits : ∀ (ids : List UInt64) (m : EntityManager F), Effects Entity.KeepsGun
        (fun _ _ => True) m (ids.foldl (projectileTurn ((w.entityMgr confirmed o).getByType
          o.entities .hero) ((w.entityMgr confirmed o).getByType o.entities .minion)
            ((w.entityMgr confirmed o).getByType o.entities .tower)) m) :=
      effects_foldl_all id fun _ => effects_projectileTurn allows_keepsGun _ _ _
    exact keepsGuns_of_effects (hhits _ _)
  refine hturns.keep (hcombat.trans ?_)
  rw [Arena.entityMgr_fight]
  -- the burials, the minions and the projectiles that go
  have hafter : ∀ a : Arena F, Effects Entity.KeepsGun (fun _ _ => True) a.entityMgr
      (((a.buryHeroes o.players).spawnMinions cfg).removeSpent o.entities).entityMgr := by
    intro a
    refine ((Arena.effects_buryHeroes allows_keepsGun o.players).trans
      (Arena.effects_spawnMinions ?_)).trans (effects_removeSpent o.entities)
    exact fun _ => ⟨foldOk_of_forall fun _ _ => trivial, foldOk_of_forall fun _ _ => trivial⟩
  exact keepsGuns_of_effects
    (hafter (((w.arena.processConfirmed confirmed).tickAll o.entities).tickCombat o.entities))

theorem Inv.next (h : Inv w) {e : ArenaEvent F} (hstep : w.next cfg e = some w') : Inv w' := by
  rcases Option.map_eq_some_iff.mp hstep with ⟨arena, harena, rfl⟩
  rcases e with ⟨playerId, team, spawnPos⟩ | playerId | players | ⟨confirmed, o⟩
  case enter =>
    rcases Arena.next_enter_eq_some harena with rfl | ⟨_, rfl⟩
    · exact h
    · exact ⟨h.guns, h.before⟩
  case remove =>
    cases harena
    exact ⟨h.guns, h.before⟩
  case initBattleScene =>
    rcases Arena.next_initBattleScene_eq_some.mp harena with ⟨hstage, rfl⟩
    rcases h.before hstage with ⟨hempty, hshots⟩
    refine ⟨?_, nofun⟩
    dsimp only
    rw [hshots]
    exact guns_initBattleScene hempty players w.now
  case tick =>
    rcases Arena.next_tick_eq_some.mp harena with ⟨hstage, rfl⟩
    refine ⟨h.guns_tick confirmed o, fun hbefore => ?_⟩
    dsimp only at hbefore
    exact absurd hbefore (Arena.fight_stage_ne_before hstage)

/-- The shots keep the distance exactly as long as no tower is pressed. -/
theorem Inv.spaced_next_iff (h : Inv w) {e : ArenaEvent F} (hstep : w.next cfg e = some w') :
    Spaced attackIntervalMs w'.shots ↔ Spaced attackIntervalMs w.shots ∧ w.Unpressed e := by
  rcases Option.map_eq_some_iff.mp hstep with ⟨arena, harena, rfl⟩
  rcases e with ⟨playerId, team, spawnPos⟩ | playerId | players | ⟨confirmed, o⟩
  case tick =>
    rcases Arena.next_tick_eq_some.mp harena with ⟨hstage, rfl⟩
    refine ((h.guns_turns confirmed o).spaced_foldl_fire_iff nodup_getByType).trans ?_
    exact and_congr_right fun _ => ⟨fun hok _ => hok, fun hok => hok hstage⟩
  all_goals exact (and_iff_left trivial).symm

/-! ### The rate of fire -/

/-- In every state of the run, no tower has shot twice in any window of `attack_interval_`. -/
def RespectsInterval (cfg : BattleConfig F) (es : List (ArenaEvent F)) : Prop :=
  ∀ (ms : List (ArenaEvent F)) (w : Watch F), ms <+: es → run (next cfg) {} ms = some w →
    OncePerWindow attackIntervalMs w.shots

/-- A blue tower and a red hero that stands next to it for twenty ticks. -/
def besieged : List (ArenaEvent ℚ) :=
  [.enter 1 .red (.ground 3 0), .initBattleScene .asIs] ++
    List.replicate 20 (.tick [] ⟨.asIs, .asIs⟩)

def oneTower : BattleConfig ℚ := { teamSize := 5, towerDefs := [⟨1000, .blue, .outer⟩] }

/-- The tower shoots at 33 and at 660 milliseconds. -/
theorem besieged_not_respected :
    ¬ ∀ (cfg : BattleConfig ℚ) (es : List (ArenaEvent ℚ)), RespectsInterval cfg es := by
  intro h
  have hrun : (run (next oneTower) {} besieged).map Watch.shots = some [(1000, 660), (1000, 33)] := by
    decide +kernel
  rcases Option.map_eq_some_iff.mp hrun with ⟨w, hw, hshots⟩
  have honce := h oneTower besieged besieged w (List.prefix_refl _) hw 1000 0
  rw [hshots] at honce
  exact absurd honce (by decide)

/-- The towers respect their interval exactly as long as none meets an enemy in its range in the
second half of it. -/
theorem respectsInterval_iff (cfg : BattleConfig F) (es : List (ArenaEvent F)) :
    RunOk (next cfg) Unpressed {} es ↔ RespectsInterval cfg es := by
  refine runOk_iff_of_implies (I := fun w => Inv w ∧ Spaced attackIntervalMs w.shots)
    (fun w e hnone => ?_) (fun w h => ?_) (fun w e w' h hok hstep => ?_)
    (fun w e w' h hstep honce => ?_) ⟨inv_init, List.Pairwise.nil⟩
  · rcases e with _ | _ | _ | ⟨confirmed, o⟩
    case tick =>
      intro hstage
      have hsome : Arena.next cfg w.arena (.tick confirmed o) =
          some (w.arena.fight cfg confirmed o) := Arena.next_tick_eq_some.mpr ⟨hstage, rfl⟩
      unfold next at hnone
      rw [hsome] at hnone
      cases hnone
    all_goals trivial
  · exact (oncePerWindow_iff h.1.guns.newest).mpr h.2
  · exact ⟨h.1.next hstep, (h.1.spaced_next_iff hstep).mpr ⟨h.2, hok⟩⟩
  · have hspaced := (oncePerWindow_iff (h.1.next hstep).guns.newest).mp honce
    exact ((h.1.spaced_next_iff hstep).mp hspaced).2

end Watch

end Gmaker.Realtime
