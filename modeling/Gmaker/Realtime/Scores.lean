import Gmaker.Realtime.Battle

/-!
# Gmaker.Realtime.Scores — the score of a battle, counted twice

`MakeSnapshot` counts the score into every checkpoint, `SerializeBattleEnd` into the last
message of the battle. Both count the kills of the blue heroes for the blue side. For the
red side the message counts the kills of the other heroes, the checkpoint counts their
deaths. So the two agree when the red heroes have been killed as often as they have killed
(`scoresRight_iff`), and a battle that is uneven has a checkpoint that says otherwise.

The counters have 32 bits, and a hero or a tower without a side is counted as red; the
totals they are compared with are numbers, a side each.
-/

namespace Gmaker.Realtime

open Gmaker.Lib

variable {F : Type}

/-! ## The message at the end -/

/-- `BattleEnd`. -/
structure BattleEnd where
  winner : TeamSide
  durationSec : UInt32
  blueKills : UInt32
  redKills : UInt32
deriving DecidableEq

/-- One turn of the loop of `SerializeBattleEnd`. -/
def countKills (kills : UInt32 × UInt32) : Entity F → UInt32 × UInt32
  | .hero h =>
    if h.team = .blue then (kills.1 + UInt32.ofNat h.kills, kills.2)
    else (kills.1, kills.2 + UInt32.ofNat h.kills)
  | _ => kills

/-- `SerializeBattleEnd`, as the message that is put on the wire. -/
def serializeBattleEnd (o : Order UInt64) (r : BattleRoom) (m : EntityManager F)
    (winner : TeamSide) : BattleEnd :=
  let heroes := (m.getByType o .hero).filterMap m.find
  let kills := heroes.foldl countKills (0, 0)
  { winner
    durationSec := (r.battleFrame - r.battleStartFrame) / 30
    blueKills := kills.1
    redKills := kills.2 }

/-! ## Totals -/

/-- What the heroes of some sides have of something. -/
def heroCount (sides : TeamSide → Bool) (score : Hero F → ℕ) : Entity F → ℕ
  | .hero h => if sides h.team then score h else 0
  | _ => 0

/-- Whether the entity is a tower of a side that stands. -/
def standing (team : TeamSide) : Entity F → Bool
  | .tower t => t.isAlive && decide (t.team = team)
  | _ => false

namespace EntityManager

/-- All entities. -/
def all (m : EntityManager F) : List (Entity F) := m.ids.filterMap m.find

/-- The kills of the heroes of a side. -/
def killsOf (m : EntityManager F) (team : TeamSide) : ℕ :=
  (m.all.map (heroCount (fun t => t = team) Hero.kills)).sum

/-- The deaths of the heroes that are not blue. -/
def deathsOffBlue (m : EntityManager F) : ℕ :=
  (m.all.map (heroCount (fun t => t ≠ .blue) Hero.deaths)).sum

/-- The towers of a side that stand. -/
def towersOf (m : EntityManager F) (team : TeamSide) : ℕ := m.all.countP (standing team)

theorem arrange_perm_all (o : Order UInt64) (m : EntityManager F) :
    ((o.arrange m.ids).filterMap m.find).Perm m.all :=
  (o.perm m.ids).filterMap _

end EntityManager

/-- The scores of a checkpoint are those of the battle, and those of the message that
would end the battle now. -/
structure ScoresRight (m : EntityManager F) (cp : BattleCheckpoint F) (last : BattleEnd) : Prop
    where
  blueKills : cp.blueKills.toNat = m.killsOf .blue
  redKills : cp.redKills.toNat = m.killsOf .red
  blueTowers : cp.blueTowersAlive.toNat = m.towersOf .blue
  redTowers : cp.redTowersAlive.toNat = m.towersOf .red
  blueAgrees : cp.blueKills = last.blueKills
  redAgrees : cp.redKills = last.redKills

/-- The heroes that are not blue have died as often as the red heroes have killed, what has
no side does not show, and the totals fit the counters. -/
structure Even (m : EntityManager F) : Prop where
  deaths : m.deathsOffBlue ≡ m.killsOf .red [MOD 2 ^ 32]
  noSideKills : 2 ^ 32 ∣ m.killsOf .none
  noSideTowers : 2 ^ 32 ∣ m.towersOf .none
  blueFits : m.killsOf .blue < 2 ^ 32
  redFits : m.killsOf .red < 2 ^ 32
  blueTowersFit : m.towersOf .blue < 2 ^ 32
  redTowersFit : m.towersOf .red < 2 ^ 32

/-! ## What the counters hold -/

/-- A sum in 32 bits. -/
theorem sum_ofNat {α : Type} (f : α → ℕ) (l : List α) :
    (l.map fun a => UInt32.ofNat (f a)).sum = UInt32.ofNat (l.map f).sum := by
  induction l with
  | nil => rfl
  | cons a l ih => rw [List.map_cons, List.sum_cons, ih, List.map_cons, List.sum_cons,
      UInt32.ofNat_add]

/-- The loop of `SerializeBattleEnd` keeps two sums. -/
theorem foldl_countKills (l : List (Entity F)) (kills : UInt32 × UInt32) :
    l.foldl countKills kills =
      (kills.1 + UInt32.ofNat (l.map (heroCount (fun t => t = .blue) Hero.kills)).sum,
        kills.2 + UInt32.ofNat (l.map (heroCount (fun t => t ≠ .blue) Hero.kills)).sum) := by
  induction l generalizing kills with
  | nil => simp
  | cons e l ih =>
    rw [List.foldl_cons, ih]
    cases e with
    | hero h =>
      by_cases hblue : h.team = .blue
      · simp [countKills, heroCount, hblue, UInt32.ofNat_add, add_assoc]
      · simp [countKills, heroCount, hblue, UInt32.ofNat_add, add_assoc]
    | minion _ => simp [countKills, heroCount]
    | tower _ => simp [countKills, heroCount]
    | projectile _ => simp [countKills, heroCount]

/-- What only heroes count for is counted among the heroes. -/
theorem sum_heroes {sides : TeamSide → Bool} {score : Hero F → ℕ} (o : Order UInt64)
    (m : EntityManager F) :
    (((m.getByType o .hero).filterMap m.find).map (heroCount sides score)).sum =
      (m.all.map (heroCount sides score)).sum := by
  rw [← ((m.arrange_perm_all o).map _).sum_eq, EntityManager.getByType]
  induction o.arrange m.ids with
  | nil => rfl
  | cons id ids ih =>
    cases hfind : m.find id with
    | none =>
      -- an id without an entity is in neither of the lists
      have htest : m.test (fun e => e.type = .hero) id = false := by
        simp [EntityManager.test, hfind]
      rw [List.filter_cons_of_neg (by simp [htest]), List.filterMap_cons_none hfind, ih]
    | some e =>
      rw [List.filterMap_cons_some hfind, List.map_cons, List.sum_cons, ← ih]
      by_cases htype : e.type = .hero
      · have htest : m.test (fun e => e.type = .hero) id = true := by
          simp [EntityManager.test, hfind, htype]
        rw [List.filter_cons_of_pos htest, List.filterMap_cons_some hfind, List.map_cons,
          List.sum_cons]
      · -- what is no hero counts nothing
        have htest : m.test (fun e => e.type = .hero) id = false := by
          simp [EntityManager.test, hfind, htype]
        have hzero : heroCount sides score e = 0 := by
          cases e with
          | hero h => exact (htype rfl).elim
          | _ => rfl
        rw [List.filter_cons_of_neg (by simp [htest]), hzero, Nat.zero_add]

variable (o o' : Order UInt64) (frame : UInt32) (timestampMs : UInt64) (state : BattleState)
  (r : BattleRoom) (winner : TeamSide) (m : EntityManager F)

theorem makeSnapshot_blueKills :
    (makeSnapshot o frame timestampMs state m).blueKills = UInt32.ofNat (m.killsOf .blue) := by
  have hone : (blueKillsOf : Entity F → UInt32) =
      fun e => UInt32.ofNat (heroCount (fun t => t = .blue) Hero.kills e) := by
    funext e
    cases e with
    | hero h => by_cases hblue : h.team = .blue <;> simp [blueKillsOf, heroCount, hblue]
    | _ => rfl
  rw [makeSnapshot, hone]
  simp only [sum_ofNat]
  rw [EntityManager.killsOf, ((m.arrange_perm_all o).map _).sum_eq]

theorem makeSnapshot_redKills :
    (makeSnapshot o frame timestampMs state m).redKills = UInt32.ofNat m.deathsOffBlue := by
  have hone : (redKillsOf : Entity F → UInt32) =
      fun e => UInt32.ofNat (heroCount (fun t => t ≠ .blue) Hero.deaths e) := by
    funext e
    -- the checkpoint takes a death off the blue side for a kill of the red one
    cases e with
    | hero h => by_cases hblue : h.team = .blue <;> simp [redKillsOf, heroCount, hblue]
    | _ => rfl
  rw [makeSnapshot, hone]
  simp only [sum_ofNat]
  rw [EntityManager.deathsOffBlue, ((m.arrange_perm_all o).map _).sum_eq]

/-- The towers that the checkpoint counts for the blue side, and those for the other one. -/
theorem countP_towerAlive (l : List (Entity F)) :
    l.countP (towerAlive true) = l.countP (standing .blue) ∧
      l.countP (towerAlive false) = l.countP (standing .red) + l.countP (standing .none) := by
  induction l with
  | nil => exact ⟨rfl, rfl⟩
  | cons e l ih =>
    simp only [List.countP_cons, ih.1, ih.2]
    cases e with
    | tower t =>
      cases hteam : t.team with
      | none => simp [towerAlive, standing, hteam, Nat.add_assoc]
      | blue => simp [towerAlive, standing, hteam]
      | red => simp [towerAlive, standing, hteam, Nat.add_right_comm]
    | hero _ => simp [towerAlive, standing]
    | minion _ => simp [towerAlive, standing]
    | projectile _ => simp [towerAlive, standing]

theorem makeSnapshot_blueTowers :
    (makeSnapshot o frame timestampMs state m).blueTowersAlive =
      UInt32.ofNat (m.towersOf .blue) := by
  rw [makeSnapshot]
  simp only [(m.arrange_perm_all o).countP_eq, (countP_towerAlive _).1, EntityManager.towersOf]

theorem makeSnapshot_redTowers :
    (makeSnapshot o frame timestampMs state m).redTowersAlive =
      UInt32.ofNat (m.towersOf .red + m.towersOf .none) := by
  rw [makeSnapshot]
  simp only [(m.arrange_perm_all o).countP_eq, (countP_towerAlive _).2, EntityManager.towersOf]

/-- The kills off the blue side are those of the red side and those without a side. -/
theorem killsOffBlue_eq :
    (m.all.map (heroCount (fun t => t ≠ .blue) Hero.kills)).sum =
      m.killsOf .red + m.killsOf .none := by
  unfold EntityManager.killsOf
  induction m.all with
  | nil => rfl
  | cons e l ih =>
    simp only [List.map_cons, List.sum_cons, ih]
    cases e with
    | hero h =>
      cases hteam : h.team with
      | none => simp [heroCount, hteam]; omega
      | blue => simp [heroCount, hteam]
      | red => simp [heroCount, hteam]; omega
    | minion _ => simp [heroCount]
    | tower _ => simp [heroCount]
    | projectile _ => simp [heroCount]

theorem serializeBattleEnd_blueKills :
    (serializeBattleEnd o r m winner).blueKills = UInt32.ofNat (m.killsOf .blue) := by
  simp only [serializeBattleEnd, foldl_countKills, sum_heroes, EntityManager.killsOf, zero_add]

theorem serializeBattleEnd_redKills :
    (serializeBattleEnd o r m winner).redKills =
      UInt32.ofNat (m.killsOf .red + m.killsOf .none) := by
  simp only [serializeBattleEnd, foldl_countKills, sum_heroes, killsOffBlue_eq, zero_add]

/-- A number that a counter holds. -/
theorem toNat_ofNat_eq_iff {n k : ℕ} :
    (UInt32.ofNat n).toNat = k ↔ n ≡ k [MOD 2 ^ 32] ∧ k < 2 ^ 32 := by
  rw [UInt32.toNat_ofNat']
  constructor
  · rintro rfl
    exact ⟨(Nat.mod_modEq n _).symm, Nat.mod_lt n (by decide)⟩
  · rintro ⟨hmod, hk⟩
    exact (Nat.mod_eq_of_modEq hmod hk)

theorem ofNat_eq_iff {n k : ℕ} : UInt32.ofNat n = UInt32.ofNat k ↔ n ≡ k [MOD 2 ^ 32] := by
  rw [← UInt32.toNat_inj, UInt32.toNat_ofNat', UInt32.toNat_ofNat']
  exact Iff.rfl

/-- The scores of a checkpoint are right exactly in an even battle. -/
theorem scoresRight_iff :
    ScoresRight m (makeSnapshot o frame timestampMs state m) (serializeBattleEnd o' r m winner) ↔
      Even m := by
  constructor
  · rintro ⟨hblue, hred, htblue, htred, -, hagree⟩
    rw [makeSnapshot_blueKills, toNat_ofNat_eq_iff] at hblue
    rw [makeSnapshot_redKills, toNat_ofNat_eq_iff] at hred
    rw [makeSnapshot_blueTowers, toNat_ofNat_eq_iff] at htblue
    rw [makeSnapshot_redTowers, toNat_ofNat_eq_iff] at htred
    rw [makeSnapshot_redKills, serializeBattleEnd_redKills, ofNat_eq_iff] at hagree
    -- what the end and the checkpoint count for red differs by the heroes without a side
    refine ⟨hred.1, ?_, ?_, hblue.2, hred.2, htblue.2, htred.2⟩
    · have hkills := hagree.symm.trans hred.1
      exact (Nat.modEq_zero_iff_dvd).mp (Nat.ModEq.add_left_cancel' (m.killsOf .red) hkills)
    · exact (Nat.modEq_zero_iff_dvd).mp (Nat.ModEq.add_left_cancel' (m.towersOf .red) htred.1)
  · intro h
    have hkills : m.killsOf .red + m.killsOf .none ≡ m.killsOf .red [MOD 2 ^ 32] :=
      Nat.ModEq.add_left (m.killsOf .red) (Nat.modEq_zero_iff_dvd.mpr h.noSideKills)
    have htowers : m.towersOf .red + m.towersOf .none ≡ m.towersOf .red [MOD 2 ^ 32] :=
      Nat.ModEq.add_left (m.towersOf .red) (Nat.modEq_zero_iff_dvd.mpr h.noSideTowers)
    constructor
    · rw [makeSnapshot_blueKills, toNat_ofNat_eq_iff]
      exact ⟨rfl, h.blueFits⟩
    · rw [makeSnapshot_redKills, toNat_ofNat_eq_iff]
      exact ⟨h.deaths, h.redFits⟩
    · rw [makeSnapshot_blueTowers, toNat_ofNat_eq_iff]
      exact ⟨rfl, h.blueTowersFit⟩
    · rw [makeSnapshot_redTowers, toNat_ofNat_eq_iff]
      exact ⟨htowers, h.redTowersFit⟩
    · rw [makeSnapshot_blueKills, serializeBattleEnd_blueKills]
    · rw [makeSnapshot_redKills, serializeBattleEnd_redKills, ofNat_eq_iff]
      exact h.deaths.trans hkills.symm

/-! ## An uneven battle -/

/-- A blue hero that has killed once, and the red hero that it killed. -/
def firstBlood : EntityManager ℚ :=
  (({} : EntityManager ℚ).create fun id => .hero (Hero.new id .blue 7).addKill).create
    fun id => .hero (Hero.new id .red 8).addDeath

theorem not_scoresRight_firstBlood :
    ¬ ∀ (o o' : Order UInt64) (frame : UInt32) (timestampMs : UInt64) (state : BattleState)
      (r : BattleRoom) (winner : TeamSide) (m : EntityManager ℚ),
      ScoresRight m (makeSnapshot o frame timestampMs state m)
        (serializeBattleEnd o' r m winner) := by
  intro h
  have hagree := (h .asIs .asIs 0 0 .fighting {} .none firstBlood).redAgrees
  -- the red hero that died counts for its own side
  have hsnap : (makeSnapshot .asIs 0 0 .fighting firstBlood).redKills = 1 := by decide
  have hend : (serializeBattleEnd .asIs {} firstBlood .none).redKills = 0 := by decide
  rw [hsnap, hend] at hagree
  exact absurd hagree (by decide)

end Gmaker.Realtime
