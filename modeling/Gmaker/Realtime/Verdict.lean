import Gmaker.Realtime.Arena

/-!
# Gmaker.Realtime.Verdict — the end of a battle

A battle is decided when a crystal has fallen. `CheckWinCondition` names a winner when
one side has a crystal that stands and the other has none; when the last crystals of
both sides fall in one tick it names nobody, and the battle goes on for ever
(`decided_exact`).
-/

namespace Gmaker.Realtime

open Gmaker.Lib

variable {F : Type}

namespace EntityManager

variable {m : EntityManager F} {o : Order UInt64} {id : UInt64} {e : Entity F}

/-! ## Crystals -/

/-- Whether the entity is a crystal that has fallen. -/
def fallenCrystal : Entity F → Bool
  | .tower t => t.grade = .crystal && !t.isAlive
  | _ => false

/-- A crystal has fallen. -/
def CrystalDown (m : EntityManager F) : Prop := ∃ id ∈ m.ids, m.test fallenCrystal id = true

/-- A side has a crystal that stands. -/
def Stands (m : EntityManager F) (blue : Bool) : Prop :=
  ∃ id ∈ m.ids, m.test (standingCrystal blue) id = true

instance (m : EntityManager F) : Decidable m.CrystalDown := by
  unfold CrystalDown
  infer_instance

instance (m : EntityManager F) (blue : Bool) : Decidable (m.Stands blue) := by
  unfold Stands
  infer_instance

theorem crystalDown_iff :
    m.CrystalDown ↔ ∃ id e, m.find id = some e ∧ fallenCrystal e = true := by
  constructor
  · rintro ⟨id, hid, htest⟩
    obtain ⟨e, he⟩ := mem_ids_iff.mp hid
    unfold test at htest
    rw [he] at htest
    exact ⟨id, e, he, htest⟩
  · rintro ⟨id, e, he, hfallen⟩
    refine ⟨id, mem_ids_iff.mpr ⟨e, he⟩, ?_⟩
    unfold test
    rw [he]
    exact hfallen

/-- The loop over the towers finds a standing crystal if there is one. -/
theorem any_standingCrystal (blue : Bool) :
    (m.getByType o .tower).any (m.test (standingCrystal blue)) = decide (m.Stands blue) := by
  rw [Bool.eq_iff_iff, List.any_eq_true, decide_eq_true_iff]
  constructor
  · rintro ⟨id, hid, htest⟩
    obtain ⟨e, he, -⟩ := mem_getByType.mp hid
    exact ⟨id, mem_ids_iff.mpr ⟨e, he⟩, htest⟩
  · rintro ⟨id, hid, htest⟩
    obtain ⟨e, he⟩ := mem_ids_iff.mp hid
    refine ⟨id, mem_getByType.mpr ⟨e, he, ?_⟩, htest⟩
    unfold test at htest
    rw [he] at htest
    -- nothing but a tower is a crystal
    cases e with
    | tower t => rfl
    | _ => cases htest

/-- A winner is named exactly when one side alone has a crystal left. -/
theorem winner_ne_none_iff : m.winner o ≠ .none ↔ (m.Stands true ↔ ¬ m.Stands false) := by
  unfold winner
  simp only [any_standingCrystal]
  by_cases hblue : m.Stands true
  · by_cases hred : m.Stands false <;> simp [hblue, hred]
  · by_cases hred : m.Stands false <;> simp [hblue, hred]

/-! ## A new scene has no fallen crystal -/

theorem not_crystalDown_put (h : ¬ m.CrystalDown) (hnew : fallenCrystal e = false) :
    ¬ (m.put id e).CrystalDown := by
  rw [crystalDown_iff] at h ⊢
  rintro ⟨j, e', hfind, hfallen⟩
  rw [find_put] at hfind
  split_ifs at hfind
  · cases hfind
    rw [hnew] at hfallen
    cases hfallen
  · exact h ⟨j, e', hfind, hfallen⟩

theorem not_crystalDown_create (h : ¬ m.CrystalDown) {make : UInt64 → Entity F}
    (hnew : ∀ id, fallenCrystal (make id) = false) : ¬ (m.create make).CrystalDown := by
  have hput : ¬ (m.put m.nextEntityId (make m.nextEntityId)).CrystalDown :=
    not_crystalDown_put h (hnew m.nextEntityId)
  rw [crystalDown_iff] at hput ⊢
  exact hput

theorem fallenCrystal_new [FloatOps F] (id : UInt64) (team : TeamSide) (grade : TowerGrade) :
    fallenCrystal (.tower (Tower.new id team grade : Tower F)) = false := by
  cases grade <;> rfl

end EntityManager

namespace Arena

theorem buryOf_stage (a : Arena F) (playerId : UInt64) : (a.buryOf playerId).stage = a.stage := by
  unfold buryOf
  cases a.heroOf playerId <;> rfl

variable [FloatOps F] {cfg : BattleConfig F} {a a' : Arena F}

theorem not_crystalDown_initBattleScene (h : ¬ a.entityMgr.CrystalDown) (players : Order UInt64) :
    ¬ (a.initBattleScene cfg players).entityMgr.CrystalDown := by
  refine initBattleScene_invariant (I := fun m => ¬ m.CrystalDown) h
    (fun m make hmake hm => ?_) (fun m d _ hm => ?_) (fun m team grade hm => ?_)
  · refine EntityManager.not_crystalDown_create hm fun id => ?_
    -- a hero is no crystal
    have htype := hmake id
    generalize make id = e at htype ⊢
    rcases e with _ | _ | t | _
    case tower => cases htype
    all_goals rfl
  · exact EntityManager.not_crystalDown_put hm
      (EntityManager.fallenCrystal_new d.entityId d.team d.grade)
  · exact EntityManager.not_crystalDown_create hm
      fun id => EntityManager.fallenCrystal_new id team grade

/-! ## Every run -/

/-- If a crystal has fallen, the battle is over. -/
def Decided (a : Arena F) : Prop := a.entityMgr.CrystalDown → a.stage = .finished

instance (a : Arena F) : Decidable a.Decided := by
  unfold Decided
  infer_instance

/-- When `CheckWinCondition` meets a fallen crystal, one side alone has a crystal that
stands. -/
def OneSideStands (cfg : BattleConfig F) (a : Arena F) : ArenaEvent F → Prop
  | .tick confirmed o =>
    a.stage = .fighting → (a.play cfg confirmed o).entityMgr.CrystalDown →
      ((a.play cfg confirmed o).entityMgr.Stands true ↔
        ¬ (a.play cfg confirmed o).entityMgr.Stands false)
  | _ => True

theorem processHeroInput_stage (a : Arena F) (playerId : UInt64) (input : PlayerInput) :
    (a.processHeroInput playerId input).stage = a.stage := by
  unfold processHeroInput
  cases a.heroOf playerId with
  | none => rfl
  | some heroId =>
    simp only
    split_ifs <;> rfl

/-- Nothing but the look for a winner ends a battle. -/
theorem play_stage (confirmed : List ConfirmedInputs) (o : Orders) :
    (a.play cfg confirmed o).stage = a.stage := by
  have hinputs : ∀ a : Arena F, (a.processConfirmed confirmed).stage = a.stage := by
    intro a
    refine foldl_invariant_all (I := fun b : Arena F => b.stage = a.stage) ?_ rfl
    intro b inputs _ hb
    refine foldl_invariant_all (I := fun b : Arena F => b.stage = a.stage) ?_ hb
    intro b p _ hb
    rw [processHeroInput_stage, hb]
  have hbury : ∀ a : Arena F, (a.buryHeroes o.players).stage = a.stage := by
    intro a
    refine foldl_invariant_all (I := fun b : Arena F => b.stage = a.stage) ?_ rfl
    intro b pid _ hb
    rw [buryOf_stage, hb]
  have hspawn : ∀ a : Arena F, (a.spawnMinions cfg).stage = a.stage := by
    intro a
    unfold spawnMinions
    simp only
    split_ifs <;> rfl
  unfold play
  change (Arena.spawnMinions cfg _).stage = _
  rw [hspawn, hbury]
  exact hinputs a

/-- A battle that has begun has begun. -/
theorem fight_stage_ne_before {confirmed : List ConfirmedInputs} {o : Orders}
    (hstage : a.stage = .fighting) : (a.fight cfg confirmed o).stage ≠ .before := by
  have hplay : (a.play cfg confirmed o).stage = .fighting := (play_stage confirmed o).trans hstage
  unfold fight recordHash checkWinCondition
  split_ifs
  · exact Stage.noConfusion
  · show (a.play cfg confirmed o).stage ≠ .before
    rw [hplay]
    exact Stage.noConfusion

/-- A tick leaves the battle decided exactly when the condition is met. -/
theorem decided_fight_iff {confirmed : List ConfirmedInputs} {o : Orders}
    (hstage : a.stage = .fighting) :
    (a.fight cfg confirmed o).Decided ↔ OneSideStands cfg a (.tick confirmed o) := by
  have hfinished : (a.fight cfg confirmed o).stage = .finished ↔
      ((a.play cfg confirmed o).entityMgr.Stands true ↔
        ¬ (a.play cfg confirmed o).entityMgr.Stands false) := by
    rw [← EntityManager.winner_ne_none_iff (o := o.entities)]
    unfold fight recordHash checkWinCondition
    split_ifs with hwin
    · exact ⟨fun _ => hwin, fun _ => rfl⟩
    · change (a.play cfg confirmed o).stage = .finished ↔ _
      rw [play_stage, hstage]
      simp [hwin]
  unfold Decided OneSideStands
  rw [entityMgr_fight, hfinished]
  exact ⟨fun h _ => h, fun h => h hstage⟩

/-- A decided arena stays so, except for ticks that do not meet the condition. -/
theorem Decided.next_iff (h : a.Decided) {e : ArenaEvent F} (hstep : next cfg a e = some a') :
    a'.Decided ↔ OneSideStands cfg a e := by
  cases e with
  | enter playerId team spawnPos =>
    rcases next_enter_eq_some hstep with rfl | ⟨-, rfl⟩
    · exact iff_of_true h trivial
    · exact iff_of_true h trivial
  | remove playerId =>
    cases hstep
    exact iff_of_true h trivial
  | initBattleScene players =>
    obtain ⟨hstage, rfl⟩ := next_initBattleScene_eq_some.mp hstep
    have hnone : ¬ a.entityMgr.CrystalDown := by
      intro hdown
      rw [h hdown] at hstage
      cases hstage
    exact iff_of_true (fun hdown => absurd hdown (not_crystalDown_initBattleScene hnone players))
      trivial
  | tick confirmed o =>
    obtain ⟨hstage, rfl⟩ := next_tick_eq_some.mp hstep
    exact decided_fight_iff hstage

/-- In every state of the run, if a crystal has fallen the battle is over. -/
def EndsDecided (cfg : BattleConfig F) (es : List (ArenaEvent F)) : Prop :=
  ∀ (ms : List (ArenaEvent F)) (a : Arena F), ms <+: es → run (next cfg) {} ms = some a → a.Decided

/-- Fourteen a side, each with the skill that hits at once. -/
def fourteen : List UInt64 := (List.range 14).map UInt64.ofNat

/-- Everyone enters, and the scene has heroes 1 to 28 and the crystals 32 and 36. -/
def enterAll : List (ArenaEvent ℚ) :=
  (fourteen.map fun i => .enter (i + 1) .blue (.ground 10 10)) ++
    (fourteen.map fun i => .enter (i + 15) .red (.ground 90 90)) ++ [.initBattleScene .asIs]

/-- In one frame the blue side casts at the red crystal and the red side at the blue one. -/
def bothCrystals : ConfirmedInputs where
  frame := 1
  playerInputs :=
    (fourteen.map fun i =>
      (i + 1, { playerId := i + 1, skillSlot := 3, skillTargetEid := 36, hasInput := true })) ++
    (fourteen.map fun i =>
      (i + 15, { playerId := i + 15, skillSlot := 3, skillTargetEid := 32, hasInput := true }))

/-- Both crystals fall, and the battle goes on. -/
theorem bothCrystals_not_decided :
    ¬ ∀ (cfg : BattleConfig ℚ) (es : List (ArenaEvent ℚ)), EndsDecided cfg es := by
  intro h
  have hrun : (run (next { teamSize := 14 }) {} (enterAll ++ [.tick [bothCrystals] ⟨.asIs, .asIs⟩])).map
      (fun a => decide a.Decided) = some false := by
    decide +kernel
  obtain ⟨a, ha, hfalse⟩ := Option.map_eq_some_iff.mp hrun
  exact of_decide_eq_false hfalse (h { teamSize := 14 } _ _ a (List.prefix_refl _) ha)

/-- A battle ends when it is decided, exactly as long as no tick brings the last crystals
of both sides down and none leaves a side with crystals of both kinds. -/
theorem decided_exact (cfg : BattleConfig F) (es : List (ArenaEvent F)) :
    RunOk (next cfg) (OneSideStands cfg) {} es ↔ EndsDecided cfg es := by
  refine runOk_iff (fun a e hnone => ?_) (fun a e a' h hstep => Decided.next_iff h hstep) ?_
  · cases e with
    | tick confirmed o =>
      -- a tick of the battle is always taken
      intro hstage
      have hsome : next cfg a (.tick confirmed o) = some (a.fight cfg confirmed o) :=
        next_tick_eq_some.mpr ⟨hstage, rfl⟩
      rw [hnone] at hsome
      cases hsome
    | _ => trivial
  · intro hdown
    obtain ⟨id, hid, -⟩ := hdown
    cases hid

end Arena

end Gmaker.Realtime
