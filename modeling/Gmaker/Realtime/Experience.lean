import Mathlib
import Gmaker.Lib.Ladder
import Gmaker.Realtime.Entity

/-!
# Gmaker.Realtime.Experience — experience, in 32 bits

`AddExp` adds to `exp_` and pays for levels with it, 100 for each level so far, up to level 15. A
hero is a climber on that ladder (`climber`), so two amounts come to the same as their sum, as
long as nothing is lost: `exp_` is a word of 32 bits, and what a hero holds at level 15 or between
two levels stays in it.
-/

namespace Gmaker.Realtime

open Gmaker.Lib Climber Relation

/-- The fields of a `HeroEntity` that `AddExp` reads or writes, as a new hero has them. -/
structure HeroExp where
  level : UInt32 := 1
  exp : UInt32 := 0
  maxHp : Int32 := 1000
  hp : Int32 := 1000
deriving DecidableEq

namespace HeroExp

/-- `exp_to_next`. -/
def expToNext (h : HeroExp) : UInt32 := h.level * 100

/-- The condition of the loop of `AddExp`. -/
def More (h : HeroExp) : Prop := h.expToNext ≤ h.exp ∧ h.level < 15

instance (h : HeroExp) : Decidable h.More := inferInstanceAs (Decidable (_ ∧ _))

/-- The body of the loop of `AddExp`. -/
def pass (h : HeroExp) : HeroExp where
  level := h.level + 1
  exp := h.exp - h.expToNext
  maxHp := h.maxHp + 50
  hp := h.maxHp + 50

/-- A pass brings a hero closer to the last level. -/
theorem toNat_level_pass {h : HeroExp} (hlt : h.level < 15) :
    h.pass.level.toNat = h.level.toNat + 1 := by
  have hnat : h.level.toNat < 15 := UInt32.lt_iff_toNat_lt.mp hlt
  change (h.level + 1).toNat = _
  rw [UInt32.toNat_add]
  change (h.level.toNat + 1) % 2 ^ 32 = _
  omega

/-- The loop of `AddExp`. -/
def levelUp (h : HeroExp) : HeroExp := if h.More then levelUp h.pass else h
termination_by 15 - h.level.toNat
decreasing_by
  rename_i hmore
  have hnat : h.level.toNat < 15 := UInt32.lt_iff_toNat_lt.mp hmore.2
  rw [toNat_level_pass hmore.2]
  omega

/-- `exp_ += exp`. -/
def gain (h : HeroExp) (exp : UInt32) : HeroExp := { h with exp := h.exp + exp }

/-- `AddExp`. -/
def addExp (h : HeroExp) (exp : UInt32) : HeroExp := (h.gain exp).levelUp

/-- What becomes of a new hero; `TakeDamage`, `Heal` and the respawn write its hit points only. -/
inductive Reached : HeroExp → Prop
  | new : Reached {}
  | addExp {h : HeroExp} (exp : UInt32) : Reached h → Reached (h.addExp exp)
  | hp {h : HeroExp} (hp : Int32) : Reached h → Reached { h with hp }

/-! ## The loop -/

section Loop

variable {h : HeroExp}

/-- The loop ends: after `n` passes, each with the condition met, the condition fails. -/
theorem exists_levelUp_eq (h : HeroExp) :
    ∃ n ≤ 15 - h.level.toNat, h.levelUp = pass^[n] h ∧ (∀ k < n, (pass^[k] h).More) ∧
      ¬ h.levelUp.More := by
  fun_induction levelUp h with
  | case1 h hmore ih =>
    rcases ih with ⟨n, hn, heq, hall, hend⟩
    have hnat : h.level.toNat < 15 := UInt32.lt_iff_toNat_lt.mp hmore.2
    rw [toNat_level_pass hmore.2] at hn
    refine ⟨n + 1, by omega, heq, ?_, hend⟩
    intro k hk
    cases k with
    | zero => exact hmore
    | succ k => exact hall k (by omega)
  | case2 h hmore => exact ⟨0, Nat.zero_le _, rfl, by simp, hmore⟩

theorem levelUp_of_not_more (hmore : ¬ h.More) : h.levelUp = h := by
  rw [levelUp, if_neg hmore]

theorem not_more_levelUp (h : HeroExp) : ¬ h.levelUp.More :=
  let ⟨_, _, _, _, hend⟩ := exists_levelUp_eq h
  hend

end Loop

/-! ## A hero on the ladder of its levels -/

/-- What a level costs. -/
def price (level : ℕ) : ℕ := 100 * level

/-- The hero, as one who climbs. -/
def climber (h : HeroExp) : Climber ℕ := ⟨h.level.toNat, h.exp.toNat⟩

/-- From level 1 to 15, with 50 hit points more for each level gained. -/
structure Grown (h : HeroExp) : Prop where
  pos : 1 ≤ h.level.toNat
  le : h.level.toNat ≤ 15
  maxHp : h.maxHp.toInt = 950 + 50 * h.level.toNat

section Climb

variable {h : HeroExp}

theorem toNat_expToNext (hle : h.level.toNat ≤ 15) : h.expToNext.toNat = price h.level.toNat := by
  rw [expToNext, UInt32.toNat_mul]
  change h.level.toNat * 100 % 2 ^ 32 = 100 * h.level.toNat
  omega

theorem more_iff (hle : h.level.toNat ≤ 15) :
    h.More ↔ price h.level.toNat ≤ h.exp.toNat ∧ h.level.toNat < 15 := by
  rw [More, UInt32.le_iff_toNat_le, UInt32.lt_iff_toNat_lt, toNat_expToNext hle]
  rfl

/-- Hit points do not overflow. -/
theorem Grown.toInt_maxHp_add (hgrown : h.Grown) : (h.maxHp + 50).toInt = h.maxHp.toInt + 50 := by
  have hle := hgrown.le
  have hold := hgrown.maxHp
  rw [Int32.toInt_add]
  apply Int.bmod_eq_of_le
  · change _ ≤ h.maxHp.toInt + 50
    omega
  · change h.maxHp.toInt + 50 < _
    omega

theorem Grown.pass (hgrown : h.Grown) (hmore : h.More) : h.pass.Grown := by
  have hlt : h.level.toNat < 15 := UInt32.lt_iff_toNat_lt.mp hmore.2
  have hlevel : h.pass.level.toNat = h.level.toNat + 1 := toNat_level_pass hmore.2
  constructor
  · omega
  · omega
  · rw [hlevel]
    change (h.maxHp + 50).toInt = _
    rw [hgrown.toInt_maxHp_add, hgrown.maxHp]
    push_cast
    ring

theorem Grown.levelUp (hgrown : h.Grown) : h.levelUp.Grown := by
  fun_induction HeroExp.levelUp h with
  | case1 h hmore ih => exact ih (hgrown.pass hmore)
  | case2 h hmore => exact hgrown

/-- A pass pays for one level. -/
theorem climbs_pass (hmore : h.More) : Climbs price 15 h.climber h.pass.climber := by
  have hlt : h.level.toNat < 15 := UInt32.lt_iff_toNat_lt.mp hmore.2
  have hnext := toNat_expToNext hlt.le
  have hpaid : h.pass.exp.toNat = h.exp.toNat - h.expToNext.toNat :=
    UInt32.toNat_sub_of_le _ _ hmore.1
  have hle : h.expToNext.toNat ≤ h.exp.toNat := UInt32.le_iff_toNat_le.mp hmore.1
  constructor
  · exact hlt
  · exact toNat_level_pass hmore.2
  · change h.exp.toNat = price h.level.toNat + h.pass.exp.toNat
    omega

theorem climbs_levelUp (h : HeroExp) :
    ReflTransGen (Climbs price 15) h.climber h.levelUp.climber := by
  fun_induction levelUp h with
  | case1 h hmore ih => exact ReflTransGen.head (climbs_pass hmore) ih
  | case2 h hmore => exact ReflTransGen.refl

/-- Where the condition of the loop fails, the hero rests. -/
theorem rests_of_not_more (hgrown : h.Grown) (hmore : ¬ h.More) : Rests price 15 h.climber := by
  rw [more_iff hgrown.le] at hmore
  constructor
  · exact hgrown.le
  · exact Nat.zero_le _
  · intro hlt
    exact not_le.mp fun hle => hmore ⟨hle, hlt⟩

theorem Grown.gain (hgrown : h.Grown) (a : UInt32) : (h.gain a).Grown :=
  ⟨hgrown.pos, hgrown.le, hgrown.maxHp⟩

theorem Grown.addExp (hgrown : h.Grown) (a : UInt32) : (h.addExp a).Grown := (hgrown.gain a).levelUp

/-- What is reached has grown, and rests. -/
theorem Reached.grown (hreached : Reached h) : h.Grown := by
  induction hreached with
  | new => exact ⟨by decide, by decide, by decide⟩
  | addExp exp _ ih => exact ih.addExp exp
  | hp hp _ ih => exact ⟨ih.pos, ih.le, ih.maxHp⟩

theorem Reached.not_more (hreached : Reached h) : ¬ h.More := by
  induction hreached with
  | new => decide
  | addExp exp _ _ => exact not_more_levelUp _
  | hp hp _ ih => exact ih

end Climb

/-! ## Two amounts and their sum -/

/-- `Level`, `Exp` and `MaxHP`. -/
def growth (h : HeroExp) : UInt32 × UInt32 × Int32 := (h.level, h.exp, h.maxHp)

section Amounts

variable {h : HeroExp} {a b : UInt32}

theorem growth_eq {h' : HeroExp} (hgrown : h.Grown) (hgrown' : h'.Grown)
    (heq : h.climber = h'.climber) : h.growth = h'.growth := by
  have hlevel : h.level.toNat = h'.level.toNat := congrArg Climber.rung heq
  have hexp : h.exp.toNat = h'.exp.toNat := congrArg Climber.held heq
  have hmax : h.maxHp = h'.maxHp := by
    apply Int32.toInt_inj.mp
    rw [hgrown.maxHp, hgrown'.maxHp, hlevel]
  rw [growth, growth, UInt32.toNat_inj.mp hlevel, UInt32.toNat_inj.mp hexp, hmax]

theorem toNat_add_of_lt (hab : a.toNat + b.toNat < 2 ^ 32) :
    (a + b).toNat = a.toNat + b.toNat := by
  rw [UInt32.toNat_add]
  exact Nat.mod_eq_of_lt hab

theorem toNat_exp_gain (h : HeroExp) (a : UInt32) :
    (h.gain a).exp.toNat = (h.exp.toNat + a.toNat) % 2 ^ 32 := UInt32.toNat_add h.exp a

theorem climber_gain (hfit : h.exp.toNat + a.toNat < 2 ^ 32) :
    (h.gain a).climber = h.climber.earn a.toNat := by
  rw [climber, toNat_exp_gain, Nat.mod_eq_of_lt hfit]
  rfl

theorem gain_gain (h : HeroExp) (a b : UInt32) : (h.gain a).gain b = h.gain (a + b) := by
  simp [gain, UInt32.add_assoc]

/-- An amount that gains no level is kept until the next one comes. -/
theorem addExp_addExp_of_not_more (hmore : ¬ (h.gain a).More) :
    (h.addExp a).addExp b = h.addExp (a + b) := by
  rw [addExp, addExp, addExp, levelUp_of_not_more hmore, gain_gain]

theorem exp_addExp_le (hfit : h.exp.toNat + a.toNat < 2 ^ 32) :
    (h.addExp a).exp.toNat ≤ h.exp.toNat + a.toNat := by
  have hle := held_le_of_climbs (fun _ => Nat.zero_le _) (climbs_levelUp (h.gain a))
  rw [climber_gain hfit] at hle
  exact hle

/-- As long as nothing is lost, two amounts come to the same as their sum. -/
theorem growth_addExp_addExp_of_fits (hgrown : h.Grown)
    (hfit : h.exp.toNat + a.toNat + b.toNat < 2 ^ 32) :
    ((h.addExp a).addExp b).growth = (h.addExp (a + b)).growth := by
  have hsum : (a + b).toNat = a.toNat + b.toNat := toNat_add_of_lt (by omega)
  have hle := exp_addExp_le (h := h) (a := a) (by omega)
  have hfirst := climbs_levelUp (h.gain a)
  have hsecond := climbs_levelUp ((h.addExp a).gain b)
  have hboth := climbs_levelUp (h.gain (a + b))
  rw [climber_gain (by omega)] at hfirst hsecond hboth
  rw [hsum] at hboth
  have hgrown₂ : ((h.addExp a).addExp b).Grown := (hgrown.addExp a).addExp b
  have hgrown' : (h.addExp (a + b)).Grown := hgrown.addExp (a + b)
  apply growth_eq hgrown₂ hgrown'
  exact Rests.eq_of_add (fun _ => Nat.zero_le _) hfirst hsecond
    (rests_of_not_more hgrown₂ (not_more_levelUp _)) hboth
    (rests_of_not_more hgrown' (not_more_levelUp _))

theorem level_le_addExp (h : HeroExp) (a : UInt32) :
    h.level.toNat ≤ (h.addExp a).level.toNat := rung_le_of_climbs (climbs_levelUp (h.gain a))

theorem level_lt_addExp (hmore : (h.gain a).More) :
    h.level.toNat < (h.addExp a).level.toNat := by
  have hlt : h.level.toNat < (h.gain a).pass.level.toNat :=
    (toNat_level_pass hmore.2).symm ▸ Nat.lt_succ_self _
  rw [addExp, levelUp, if_pos hmore]
  exact hlt.trans_le (rung_le_of_climbs (climbs_levelUp (h.gain a).pass))

/-- After the loop, a hero is at the last level or below the price of the next. -/
theorem addExp_low_or_top (hgrown : h.Grown) (c : UInt32) :
    (h.addExp c).exp < (h.addExp c).level * 100 ∨ (h.addExp c).level = 15 := by
  have hle : (h.addExp c).level.toNat ≤ 15 := (hgrown.addExp c).le
  have hend : ¬ (h.addExp c).More := not_more_levelUp (h.gain c)
  by_cases hlt : (h.addExp c).level < 15
  · left
    exact UInt32.not_le.mp fun hpays => hend ⟨hpays, hlt⟩
  · right
    rw [UInt32.lt_iff_toNat_lt] at hlt
    exact UInt32.toNat_inj.mp (le_antisymm hle (not_lt.mp hlt))

/-- When a first amount gains a level and the sum wraps, the sum gains none. -/
theorem growth_addExp_addExp_ne (hreached : Reached h) (hab : a.toNat + b.toNat < 2 ^ 32)
    (hmore : (h.gain a).More) (hwrap : 2 ^ 32 ≤ h.exp.toNat + a.toNat + b.toNat) :
    ((h.addExp a).addExp b).growth ≠ (h.addExp (a + b)).growth := by
  have hsum : (a + b).toNat = a.toNat + b.toNat := toNat_add_of_lt hab
  have hlevel : h.level.toNat < 15 := UInt32.lt_iff_toNat_lt.mp hmore.2
  have hshort := (rests_of_not_more hreached.grown hreached.not_more).short hlevel
  -- what is left of the sum is less than the hero had
  have hnone : ¬ (h.gain (a + b)).More := by
    rw [more_iff (hreached.grown.gain _).le, toNat_exp_gain, hsum]
    change h.exp.toNat < price h.level.toNat at hshort
    change ¬ (price h.level.toNat ≤ _ ∧ _)
    have hword := h.exp.toNat_lt
    omega
  intro heq
  have hsame : ((h.addExp a).addExp b).level = h.level := by
    have hkept : (h.addExp (a + b)).level = h.level := by
      rw [addExp, levelUp_of_not_more hnone]
      rfl
    exact (congrArg Prod.fst heq).trans hkept
  have hlt := (level_lt_addExp hmore).trans_le (level_le_addExp (h.addExp a) b)
  rw [hsame] at hlt
  exact lt_irrefl _ hlt

/-- When an amount gains a reached hero no level. -/
theorem Reached.not_more_gain_iff (hreached : Reached h) (a : UInt32) :
    ¬ (h.gain a).More ↔ h.level = 15 ∨ 2 ^ 32 ≤ h.exp.toNat + a.toNat ∨
      h.exp.toNat + a.toNat < 100 * h.level.toNat := by
  have hgrown := hreached.grown
  have hrests := rests_of_not_more hgrown hreached.not_more
  have hle := hgrown.le
  have hword := h.exp.toNat_lt
  have hamount := a.toNat_lt
  have htop : h.level = 15 ↔ h.level.toNat = 15 := UInt32.toNat_inj.symm
  have hshort : h.level.toNat < 15 → h.exp.toNat < 100 * h.level.toNat := hrests.short
  rw [more_iff (hgrown.gain a).le, toNat_exp_gain, htop]
  change ¬ (100 * h.level.toNat ≤ _ ∧ h.level.toNat < 15) ↔ _
  omega

/-- Two amounts whose sum is a word come to the same as their sum, unless the first gains a level
and what the hero held and both amounts do not fit in a word. However much a hero comes by, the
loop ends, at the last level or below the price of the next. -/
theorem growth_addExp_addExp_iff (hreached : Reached h) (hab : a.toNat + b.toNat < 2 ^ 32) :
    (((h.addExp a).addExp b).growth = (h.addExp (a + b)).growth ↔
      h.level = 15 ∨ h.exp.toNat + a.toNat + b.toNat < 2 ^ 32 ∨ 2 ^ 32 ≤ h.exp.toNat + a.toNat ∨
        h.exp.toNat + a.toNat < 100 * h.level.toNat) ∧
    ∀ c : UInt32,
      (∃ n ≤ 15 - h.level.toNat, h.addExp c = pass^[n] (h.gain c) ∧
        (∀ k < n, (pass^[k] (h.gain c)).More) ∧ ¬ (h.addExp c).More) ∧
      ((h.addExp c).exp < (h.addExp c).level * 100 ∨ (h.addExp c).level = 15) := by
  have hnone := hreached.not_more_gain_iff a
  constructor
  · constructor
    · intro heq
      by_cases hmore : (h.gain a).More
      · by_cases hfit : h.exp.toNat + a.toNat + b.toNat < 2 ^ 32
        · exact Or.inr (Or.inl hfit)
        · exact absurd heq (growth_addExp_addExp_ne hreached hab hmore (not_lt.mp hfit))
      · rcases hnone.mp hmore with htop | hlost | hshort
        · exact Or.inl htop
        · exact Or.inr (Or.inr (Or.inl hlost))
        · exact Or.inr (Or.inr (Or.inr hshort))
    · rintro (htop | hfit | hlost | hshort)
      · rw [addExp_addExp_of_not_more (hnone.mpr (Or.inl htop))]
      · exact growth_addExp_addExp_of_fits hreached.grown hfit
      · rw [addExp_addExp_of_not_more (hnone.mpr (Or.inr (Or.inl hlost)))]
      · rw [addExp_addExp_of_not_more (hnone.mpr (Or.inr (Or.inr hshort)))]
  · intro c
    constructor
    · exact exists_levelUp_eq (h.gain c)
    · exact addExp_low_or_top hreached.grown c

/-- A new hero that comes by 150 and by 350 is at level 3 with 200 left. -/
theorem growth_addExp_addExp_new :
    ((HeroExp.addExp {} 150).addExp 350).growth = (HeroExp.addExp {} 500).growth ∧
      (HeroExp.addExp {} 500).growth = (3, 200, 1100) := by
  have hpath := (growth_addExp_addExp_iff (b := 350) Reached.new (a := 150) (by decide)).1
  constructor
  · exact hpath.mpr (Or.inr (Or.inl (by decide)))
  · simp +decide [addExp, levelUp, gain, growth, pass, expToNext]

/-- At 50, amounts of 2 ^ 31 and of 2 ^ 31 - 20 make a hero of the last level; their sum wraps, and
leaves a hero of level 1 with 30. -/
theorem growth_addExp_addExp_lost :
    Reached (HeroExp.addExp {} 50) ∧
      UInt32.toNat 2147483648 + UInt32.toNat 2147483628 < 2 ^ 32 ∧
      (((HeroExp.addExp {} 50).addExp 2147483648).addExp 2147483628).growth ≠
        ((HeroExp.addExp {} 50).addExp (2147483648 + 2147483628)).growth := by
  have hreached : Reached (HeroExp.addExp {} 50) := Reached.new.addExp 50
  have hkept : HeroExp.addExp {} 50 = { exp := 50 } := levelUp_of_not_more (by decide)
  refine ⟨hreached, by decide, growth_addExp_addExp_ne hreached (by decide) ?_ ?_⟩
  · rw [hkept]
    decide
  · rw [hkept]
    decide

end Amounts

/-! ## The heroes of a battle -/

section Shows

variable {F : Type} {w : HeroExp} {h : Hero F}

/-- The words hold the numbers of a hero of a battle. -/
structure Shows (w : HeroExp) (h : Hero F) : Prop where
  level : w.level.toNat = h.level
  exp : w.exp.toNat = h.exp
  maxHp : w.maxHp.toInt = h.maxHp
  hp : w.hp.toInt = h.hp

theorem Shows.pass (hshows : Shows w h) (hgrown : w.Grown) (hmore : w.More) :
    Shows w.pass { h with
      exp := h.exp - h.expToNext
      level := h.level + 1
      maxHp := h.maxHp + 50
      hp := h.maxHp + 50 } := by
  have hmax : (w.maxHp + 50).toInt = h.maxHp + 50 := by
    rw [hgrown.toInt_maxHp_add, hshows.maxHp]
  have hnext : w.expToNext.toNat = h.expToNext := by
    rw [toNat_expToNext hgrown.le, hshows.level]
    exact Nat.mul_comm 100 h.level
  constructor
  · rw [toNat_level_pass hmore.2, hshows.level]
  · change (w.exp - w.expToNext).toNat = h.exp - h.expToNext
    rw [UInt32.toNat_sub_of_le _ _ hmore.1, hshows.exp, hnext]
  · exact hmax
  · exact hmax

theorem Shows.new [FloatOps F] (entityId : UInt64) (team : TeamSide) (owner : UInt64) :
    Shows {} (Hero.new (F := F) entityId team owner) :=
  ⟨rfl, rfl, rfl, rfl⟩

theorem Shows.levelUp (hshows : Shows w h) (hgrown : w.Grown) :
    Shows w.levelUp (h.levelUp (15 - h.level)) := by
  fun_induction HeroExp.levelUp w generalizing h with
  | case1 w hmore ih =>
    have hpays := (more_iff hgrown.le).mp hmore
    rw [hshows.level, hshows.exp] at hpays
    have hfuel : 15 - h.level = 15 - (h.level + 1) + 1 := by omega
    have hcond : h.expToNext ≤ h.exp ∧ h.level < 15 :=
      ⟨(Nat.mul_comm h.level 100).trans_le hpays.1, hpays.2⟩
    rw [hfuel, Hero.levelUp, if_pos hcond]
    exact ih (hshows.pass hgrown hmore) (hgrown.pass hmore)
  | case2 w hmore =>
    rw [more_iff hgrown.le, hshows.level, hshows.exp] at hmore
    have hcond : ¬ (h.expToNext ≤ h.exp ∧ h.level < 15) := fun hpays =>
      hmore ⟨(Nat.mul_comm 100 h.level).trans_le hpays.1, hpays.2⟩
    have hstop : h.levelUp (15 - h.level) = h := by
      cases 15 - h.level with
      | zero => rfl
      | succ fuel => exact if_neg hcond
    rw [hstop]
    exact hshows

theorem Shows.addExp (hshows : Shows w h) (hgrown : w.Grown) {a : UInt32}
    (hfit : h.exp + a.toNat < 2 ^ 32) : Shows (w.addExp a) (h.addExp a.toNat) := by
  have hexp : (w.gain a).exp.toNat = h.exp + a.toNat := by
    rw [toNat_exp_gain, hshows.exp]
    exact Nat.mod_eq_of_lt hfit
  have hgain : Shows (w.gain a) { h with exp := h.exp + a.toNat } :=
    ⟨hshows.level, hexp, hshows.maxHp, hshows.hp⟩
  exact hgain.levelUp (hgrown.gain a)

/-- As long as all that comes fits in a word, `Hero.addExp` is the source's. -/
theorem Shows.foldl_addExp (hshows : Shows w h) (hgrown : w.Grown) (gains : List UInt32)
    (hfit : h.exp + (gains.map UInt32.toNat).sum < 2 ^ 32) :
    Shows (gains.foldl HeroExp.addExp w) ((gains.map UInt32.toNat).foldl Hero.addExp h) := by
  induction gains generalizing w h with
  | nil => exact hshows
  | cons a gains ih =>
    rw [List.map_cons, List.sum_cons] at hfit
    have hstep : Shows (w.addExp a) (h.addExp a.toNat) := hshows.addExp hgrown (by omega)
    have hle := exp_addExp_le (h := w) (a := a) (by rw [hshows.exp]; omega)
    rw [hstep.exp, hshows.exp] at hle
    exact ih hstep (hgrown.addExp a) (by omega)

/-- A new hero. -/
theorem foldl_addExp_new : Shows ([250, 750].foldl HeroExp.addExp {})
    (([250, 750].map UInt32.toNat).foldl Hero.addExp (Hero.new (F := ℚ) 1 .blue 7)) :=
  (Shows.new 1 .blue 7).foldl_addExp Reached.new.grown [250, 750] (by decide)

end Shows

end HeroExp

end Gmaker.Realtime
