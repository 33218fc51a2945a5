import Gmaker.Realtime.Hits

/-!
# Gmaker.Realtime.Determinism — one battle in two processes

Two processes that play the same battle get the same inputs, but each has its own hash maps. Most
loops of a tick do the same in every order; the loop over the towers and the one over the
projectiles do so when every shot and every kill is decided (`Decided`), and setting up the scene,
which gives the heroes their ids, when there is one hero at most. A battle in which all this holds
goes the same way in both processes, and has the same hashes (`deterministic_of_run`).
-/

namespace Gmaker.Realtime

open Gmaker.Lib

variable {F : Type} [FloatOps F]

open FloatOps

namespace EntityManager

variable {m : EntityManager F}

/-! ## Loops in any order -/

/-- The loop over the towers. -/
def afterTowers (o : Order UInt64) (m : EntityManager F) : EntityManager F :=
  (m.getByType o .tower).foldl (towerTurn (m.getByType o .minion) (m.getByType o .hero)) m

/-- The candidates of the projectiles. -/
def candidates (o : Order UInt64) (m : EntityManager F) : List UInt64 :=
  m.getByType o .hero ++ m.getByType o .minion ++ m.getByType o .tower

/-- The hit points that the shots at an entity leave. -/
def left (m : EntityManager F) (id : UInt64) : ℤ :=
  m.hpOf id - aimedAt (m.getByType .asIs .minion) (m.getByType .asIs .hero) m
    (m.getByType .asIs .tower) id

/-- Every shot and every kill of a fight that begins in this state is the same in every order. -/
structure Decided (m : EntityManager F) : Prop where
  clear : ClearShots (m.getByType .asIs .minion) (m.getByType .asIs .hero) m
    (m.getByType .asIs .tower)
  undisputed : m.Undisputed m.left (m.hitsOf (m.getByType .asIs .projectile) (m.candidates .asIs))

instance (m : EntityManager F) : Decidable m.Decided :=
  decidable_of_iff (ClearShots (m.getByType .asIs .minion) (m.getByType .asIs .hero) m
      (m.getByType .asIs .tower) ∧
      m.Undisputed m.left (m.hitsOf (m.getByType .asIs .projectile) (m.candidates .asIs)))
    ⟨fun h => ⟨h.1, h.2⟩, fun h => ⟨h.clear, h.undisputed⟩⟩

theorem tickAll_eq (o o' : Order UInt64) (m : EntityManager F) (deltaMs : ℕ) :
    m.tickAll o deltaMs = m.tickAll o' deltaMs := by
  apply (o.arrange_perm o' m.ids).foldl_eq'
  intro i _ j _ m'
  by_cases hij : i = j
  · rw [hij]
  · exact modify_comm hij

theorem Decided.battery (h : m.Decided) :
    Battery (m.getByType .asIs .minion) (m.getByType .asIs .hero) m (m.getByType .asIs .tower) where
  nodup := nodup_getByType
  kinds := kinds_getByType .asIs m
  tower id hid := by
    rcases mem_getByType.mp hid with ⟨e, he, htype⟩
    rcases e with _ | _ | t | _
    case tower => exact ⟨t, he⟩
    all_goals cases htype
  clear := h.clear

theorem Decided.afterTowers_eq (h : m.Decided) (o : Order UInt64) :
    m.afterTowers o = m.afterTowers .asIs :=
  (foldl_towerTurn_perm h.battery (kinds_getByType o m) (getByType_perm .asIs o m .tower)).symm

/-- What the towers leave as it is. -/
structure Spared (m m' : EntityManager F) : Prop where
  fades : m.Fades m'
  ids : m'.ids = m.ids
  settled : ∀ id kills, (∀ e ∈ m.find id, e.Settled kills) → ∀ e ∈ m'.find id, e.Settled kills

omit [FloatOps F] in
theorem Spared.trans {m' m'' : EntityManager F} (h : m.Spared m') (h' : m'.Spared m'') :
    m.Spared m'' where
  fades := h.fades.trans h'.fades
  ids := h'.ids.trans h.ids
  settled id kills hsettled := h'.settled id kills (h.settled id kills hsettled)

theorem spared_towerTurn (minions heroes : List UInt64) (m : EntityManager F) (towerId : UInt64) :
    m.Spared (towerTurn minions heroes m towerId) := by
  have hmodify : ∀ (m : EntityManager F) (j : UInt64) (f : Entity F → Entity F),
      (∀ e kills, e.Settled kills → (f e).Settled kills) →
      ∀ id kills, (∀ e ∈ m.find id, e.Settled kills) →
        ∀ e ∈ (m.modify j f).find id, e.Settled kills := by
    intro m j f hf id kills hsettled e he
    rcases find_of_modify he with ⟨e₀, he₀, ⟨_, rfl⟩ | ⟨_, rfl⟩⟩
    · exact hf e₀ kills (hsettled e₀ he₀)
    · exact hsettled e he₀
  have honTower : ∀ (g : Tower F → Tower F) (e : Entity F) (kills : ℕ), e.Settled kills →
      (e.onTower g).Settled kills := by
    intro g e kills h
    cases e with
    | tower t => trivial
    | _ => exact h
  rw [towerTurn_eq_act]
  generalize m.aim minions heroes towerId = s
  constructor
  · exact fades_act m towerId s
  · cases s with
    | none => exact ids_modify
    | some x => exact ids_modify.trans ids_modify
  · intro id kills hsettled
    have hturned : ∀ e ∈ (m.modify towerId (turned s)).find id, e.Settled kills := by
      apply hmodify
      · intro e kills h
        unfold turned coolDown
        split_ifs
        · exact honTower _ _ _ (honTower _ _ _ h)
        · exact honTower _ _ _ h
        · exact honTower _ _ _ h
        · exact h
      · exact hsettled
    cases s with
    | none => exact hturned
    | some x =>
      apply hmodify
      · intro e kills h
        unfold shot
        dsimp only
        split_ifs
        · exact h.takeDamage x.2
        · have hblow := h.takeDamage x.2
          cases e with
          | hero _ => exact hblow
          | _ => trivial
      · exact hturned

theorem spared_afterTowers (o : Order UInt64) (m : EntityManager F) : m.Spared (m.afterTowers o) :=
  foldl_invariant_all (I := fun m' => m.Spared m')
    (fun m' towerId _ h => h.trans (spared_towerTurn _ _ m' towerId))
    ⟨.refl m, rfl, fun _ _ h => h⟩

/-- The towers leave the projectiles undisputed. -/
theorem Decided.undisputed_afterTowers (h : m.Decided) :
    (m.afterTowers .asIs).Undisputed (m.afterTowers .asIs).hpOf
      ((m.afterTowers .asIs).hitsOf ((m.afterTowers .asIs).getByType .asIs .projectile)
        (m.candidates .asIs)) := by
  have hspared := spared_afterTowers .asIs m
  have hkeep : m.KeepsProjectiles (m.afterTowers .asIs) := keepsProjectiles_towers .asIs m
  have hprojectiles : (m.afterTowers .asIs).getByType .asIs .projectile =
      m.getByType .asIs .projectile := by
    unfold getByType
    rw [hspared.ids, hkeep.test_eq]
    intro e htype
    rcases e with _ | _ | _ | p
    case projectile => exact ⟨p, rfl⟩
    all_goals simp [Entity.type] at htype
  have hhits : (m.afterTowers .asIs).hitsOf ((m.afterTowers .asIs).getByType .asIs .projectile)
      (m.candidates .asIs) = m.hitsOf (m.getByType .asIs .projectile) (m.candidates .asIs) := by
    unfold hitsOf
    rw [hprojectiles, landed_congr hkeep]
  rw [hhits]
  apply h.undisputed.congr hspared.fades.marks hspared.ids
  · intro id
    exact h.battery.hpOf_foldl id
  · exact hspared.settled

/-- A fight in which everything is decided. -/
theorem Decided.tickCombat_eq (h : m.Decided) (o o' : Order UInt64) :
    m.tickCombat o = m.tickCombat o' := by
  have hasIs : ∀ o, m.tickCombat o = m.tickCombat .asIs := by
    intro o
    change ((m.afterTowers o).getByType o .projectile).foldl
      (projectileTurn (m.getByType o .hero) (m.getByType o .minion) (m.getByType o .tower))
      (m.afterTowers o) = _
    rw [h.afterTowers_eq o]
    symm
    apply foldl_projectileTurn_perm h.undisputed_afterTowers
    · intro id hid
      exact (keepsProjectiles_towers .asIs m).noProjectile (noProjectile_candidates .asIs m id hid)
    · exact getByType_perm .asIs o _ .projectile
    · exact getByType_perm .asIs o m .hero
    · exact getByType_perm .asIs o m .minion
    · exact getByType_perm .asIs o m .tower
  rw [hasIs o, hasIs o']

omit [FloatOps F] in
theorem removeEntity_comm (m : EntityManager F) (i j : UInt64) :
    (m.removeEntity i).removeEntity j = (m.removeEntity j).removeEntity i := by
  apply EntityManager.ext
  · change (m.entities.filter _).filter _ = (m.entities.filter _).filter _
    exact List.filter_comm _ _ m.entities
  · rfl

omit [FloatOps F] in
theorem removeSpent_eq (o o' : Order UInt64) (m : EntityManager F) :
    m.removeSpent o = m.removeSpent o' :=
  ((getByType_perm o o' m .projectile).filter _).foldl_eq'
    (fun i _ j _ m' => removeEntity_comm m' i j) m

omit [FloatOps F] in
theorem winner_eq (o o' : Order UInt64) (m : EntityManager F) : m.winner o = m.winner o' := by
  have hany : ∀ P, (m.getByType o .tower).any P = (m.getByType o' .tower).any P :=
    fun P => (getByType_perm o o' m .tower).any_eq
  unfold winner
  dsimp only
  rw [hany, hany]

/-- The entities are sorted before they are hashed. -/
theorem computeFrameHash_eq (o o' : Order UInt64) (m : EntityManager F) :
    m.computeFrameHash o = m.computeFrameHash o' := by
  have hsorted : (o.arrange m.ids).insertionSort (· ≤ ·) =
      (o'.arrange m.ids).insertionSort (· ≤ ·) := by
    apply List.Perm.eq_of_pairwise' (r := (· ≤ ·))
    · exact List.pairwise_insertionSort (· ≤ ·) _
    · exact List.pairwise_insertionSort (· ≤ ·) _
    · exact (List.perm_insertionSort (· ≤ ·) _).trans
        ((o.arrange_perm o' m.ids).trans (List.perm_insertionSort (· ≤ ·) _).symm)
  unfold computeFrameHash
  rw [hsorted]

end EntityManager

namespace Arena

open EntityManager

variable {cfg : BattleConfig F} {a a' : Arena F} {confirmed : List ConfirmedInputs} {o o' : Orders}

/-! ## Ticks in any order -/

omit [FloatOps F] in
theorem buryOf_comm (a : Arena F) (pid qid : UInt64) :
    (a.buryOf pid).buryOf qid = (a.buryOf qid).buryOf pid := by
  have hbury : ∀ (a : Arena F) (pid : UInt64), a.buryOf pid =
      { a with entityMgr := (a.heroOf pid).elim a.entityMgr fun heroId =>
        a.entityMgr.modify heroId (.onHero buryHero) } := by
    intro a pid
    unfold buryOf
    rcases a.heroOf pid with _ | heroId
    · rfl
    · rfl
  rw [hbury (a.buryOf pid) qid, hbury (a.buryOf qid) pid, heroOf_buryOf, heroOf_buryOf, hbury a pid,
    hbury a qid]
  rcases a.heroOf pid with _ | heroId
  · rfl
  · rcases a.heroOf qid with _ | heroId'
    · rfl
    · dsimp only [Option.elim_some]
      by_cases hsame : heroId = heroId'
      · rw [hsame]
      · rw [modify_comm hsame]

omit [FloatOps F] in
theorem buryHeroes_eq (players players' : Order UInt64) (a : Arena F) :
    a.buryHeroes players = a.buryHeroes players' :=
  (players.arrange_perm players' a.members.keys).foldl_eq'
    (fun pid _ qid _ a' => buryOf_comm a' pid qid) a

/-- The fight of the tick is decided. -/
def FightDecided (a : Arena F) (confirmed : List ConfirmedInputs) : Prop :=
  ((a.processConfirmed confirmed).tickAll .asIs).entityMgr.Decided

instance (a : Arena F) (confirmed : List ConfirmedInputs) : Decidable (a.FightDecided confirmed) :=
  inferInstanceAs (Decidable (EntityManager.Decided _))

/-- A tick in which the fight is decided. -/
theorem fight_eq (h : a.FightDecided confirmed) (o o' : Orders) :
    a.fight cfg confirmed o = a.fight cfg confirmed o' := by
  have hplay : a.play cfg confirmed o = a.play cfg confirmed o' := by
    have htick : ∀ o, (a.processConfirmed confirmed).tickAll o =
        (a.processConfirmed confirmed).tickAll .asIs := by
      intro o
      unfold Arena.tickAll
      rw [tickAll_eq o .asIs]
    have hcombat : ((a.processConfirmed confirmed).tickAll .asIs).tickCombat o.entities =
        ((a.processConfirmed confirmed).tickAll .asIs).tickCombat o'.entities := by
      unfold Arena.tickCombat
      rw [EntityManager.Decided.tickCombat_eq h o.entities o'.entities]
    unfold play
    dsimp only
    rw [htick o.entities, htick o'.entities, hcombat, buryHeroes_eq o.players o'.players]
    unfold removeSpent
    rw [EntityManager.removeSpent_eq o.entities o'.entities]
  have hwinner : ∀ b : Arena F, b.checkWinCondition o.entities = b.checkWinCondition o'.entities := by
    intro b
    unfold checkWinCondition
    rw [winner_eq o.entities o'.entities]
  unfold fight recordHash
  rw [hplay, hwinner, computeFrameHash_eq o.entities o'.entities]

/-- A scene with one hero at most. -/
theorem initBattleScene_congr (h : a.members.length ≤ 1) (players players' : Order UInt64) :
    a.initBattleScene cfg players = a.initBattleScene cfg players' := by
  have hone : ∀ o : Order UInt64, o.arrange a.members.keys = a.members.keys := by
    intro o
    have hperm := o.perm a.members.keys
    rcases hkeys : a.members.keys with _ | ⟨pid, _ | ⟨qid, pids⟩⟩
    · rw [hkeys] at hperm
      exact List.perm_nil.mp hperm
    · rw [hkeys] at hperm
      exact List.perm_singleton.mp hperm
    · have hlength : a.members.keys.length = a.members.length := List.length_map _
      rw [hkeys] at hlength
      simp only [List.length_cons] at hlength
      omega
  unfold initBattleScene
  rw [hone players, hone players']

/-! ## Every run -/

/-- The same events, but for the orders. -/
def SameEvent : ArenaEvent F → ArenaEvent F → Prop
  | .initBattleScene _, .initBattleScene _ => True
  | .tick confirmed _, .tick confirmed' _ => confirmed = confirmed'
  | .enter playerId team spawnPos, .enter playerId' team' spawnPos' =>
    playerId = playerId' ∧ team = team' ∧ spawnPos = spawnPos'
  | .remove playerId, .remove playerId' => playerId = playerId'
  | _, _ => False

/-- In every state of the run the arena is what it is in another process that plays the same battle:
the same entities and the same hashes. -/
def Deterministic (cfg : BattleConfig F) (a : Arena F) (es : List (ArenaEvent F)) : Prop :=
  ∀ es', List.Forall₂ SameEvent es es' → ∀ n,
    run (next cfg) a (es.take n) = run (next cfg) a (es'.take n)

/-- The fight of a tick is decided, and no two heroes are created. -/
def EventDecided (a : Arena F) : ArenaEvent F → Prop
  | .tick confirmed _ => a.stage = .fighting → a.FightDecided confirmed
  | .initBattleScene _ => a.stage = .before → a.members.length ≤ 1
  | _ => True

instance (a : Arena F) (e : ArenaEvent F) : Decidable (a.EventDecided e) :=
  match e with
  | .tick confirmed _ => inferInstanceAs (Decidable (_ → a.FightDecided confirmed))
  | .initBattleScene _ => inferInstanceAs (Decidable (_ → a.members.length ≤ 1))
  | .enter .. | .remove _ => inferInstanceAs (Decidable True)

theorem next_eq {e e' : ArenaEvent F} (h : a.EventDecided e) (hsame : SameEvent e e') :
    next cfg a e = next cfg a e' := by
  rcases e with ⟨playerId, team, spawnPos⟩ | playerId | players | ⟨confirmed, o⟩
  · rcases e' with ⟨playerId', team', spawnPos'⟩ | _ | _ | _
    case enter =>
      rcases hsame with ⟨hplayer, hteam, hpos⟩
      rw [hplayer, hteam, hpos]
    all_goals exact absurd hsame id
  · rcases e' with _ | playerId' | _ | _
    case remove => rw [show playerId = playerId' from hsame]
    all_goals exact absurd hsame id
  · rcases e' with _ | _ | players' | _
    case initBattleScene =>
      change (if a.stage = .before then _ else none) = if a.stage = .before then _ else none
      split_ifs with hstage
      · rw [initBattleScene_congr (h hstage) players players']
      · rfl
    all_goals exact absurd hsame id
  · rcases e' with _ | _ | _ | ⟨confirmed', o'⟩
    case tick =>
      rw [show confirmed = confirmed' from hsame] at h ⊢
      change (if a.stage = .fighting then _ else none) = if a.stage = .fighting then _ else none
      split_ifs with hstage
      · rw [fight_eq (h hstage) o o']
      · rfl
    all_goals exact absurd hsame id

/-- A scene with the heroes of these players. -/
def sceneOf (members : Assoc UInt64 (Member ℚ)) : Arena ℚ :=
  ({ members } : Arena ℚ).initBattleScene { teamSize := 2 } .asIs

/-- Two red heroes, equally near to the blue towers. -/
def twoIntruders : Arena ℚ :=
  sceneOf [(1, { team := .red, spawnPos := .ground 3 0 }), (2, { team := .red, spawnPos := .ground 0 3 })]

/-- The towers shoot at the one that they meet first. -/
theorem twoIntruders_not_deterministic :
    ¬ ∀ (cfg : BattleConfig ℚ) (a : Arena ℚ) (es : List (ArenaEvent ℚ)), a.stage ≠ .before →
      Deterministic cfg a es := by
  intro h
  have hsame := h { teamSize := 2 } twoIntruders [.tick [] ⟨.asIs, .asIs⟩] (by decide)
    [.tick [] ⟨.backwards, .asIs⟩] (.cons rfl .nil) 1
  have hhp := congrArg (Option.map fun a => a.entityMgr.hpOf 1) hsame
  have hfirst : (run (next { teamSize := 2 }) twoIntruders [.tick [] ⟨.asIs, .asIs⟩]).map
      (fun a => a.entityMgr.hpOf 1) = some 640 := by decide +kernel
  have hsecond : (run (next { teamSize := 2 }) twoIntruders [.tick [] ⟨.backwards, .asIs⟩]).map
      (fun a => a.entityMgr.hpOf 1) = some 1000 := by decide +kernel
  have hall : some (640 : ℤ) = some 1000 := hfirst.symm.trans (hhp.trans hsecond)
  cases hall

/-- A battle goes the same way in every process if in all its ticks the fight is decided, and there
is one hero at most to be created when its scene is set up. -/
theorem deterministic_of_run {es : List (ArenaEvent F)} (hok : RunOk (next cfg) EventDecided a es) :
    Deterministic cfg a es := by
  intro es' hsame n
  induction hsame generalizing a n with
  | nil => rfl
  | cons he _ ih =>
    cases n with
    | zero => rfl
    | succ n =>
      rw [List.take_succ_cons, List.take_succ_cons, run_cons, run_cons, ← next_eq hok.1 he]
      apply Option.bind_congr
      intro s' hs'
      exact ih (hok.2 s' hs') n

/-- A blue and a red hero beside each other, and another red one near the blue towers. -/
def oneIntruder : Arena ℚ :=
  sceneOf [(1, { team := .blue, spawnPos := .ground 20 50 }),
    (2, { team := .red, spawnPos := .ground 21 50 }), (3, { team := .red, spawnPos := .ground 3 0 })]

/-- The blue player fires at the red hero beside its own, and is fired at. -/
def crossfire : List (ArenaEvent ℚ) :=
  let fire (playerId : UInt64) (x : ℤ) : PlayerInput :=
    { playerId, skillSlot := 1, skillTargetX := Fixed.fromInt x, skillTargetZ := Fixed.fromInt 50,
      hasInput := true }
  [.tick [⟨1, [(1, fire 1 21), (2, fire 2 20)]⟩] ⟨.asIs, .backwards⟩, .tick [] ⟨.backwards, .asIs⟩,
    .tick [] ⟨.asIs, .asIs⟩]

theorem deterministic_crossfire : Deterministic { teamSize := 2 } oneIntruder crossfire :=
  deterministic_of_run (by decide +kernel)

/-- Two heroes are hit, and the third is shot at. -/
example : (run (next { teamSize := 2 }) oneIntruder crossfire).map
    (fun a => [1, 2, 3].map a.entityMgr.hpOf) = some [880, 880, 640] := by decide +kernel

end Arena

end Gmaker.Realtime
