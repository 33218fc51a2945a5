import Gmaker.Realtime.HeroLife
import Gmaker.Realtime.Verdict

/-!
# Gmaker.Realtime.LifeCycle — the life cycle of heroes

After every event each hero has died as often as it has fallen and waits for nothing
while it lives; and a dead hero comes back only in a tick in which its respawn timer
runs out. `lifeCycle_of_run` proves it of every run whose blows meet the conditions of
`HeroLife`: a tower kills no hero of a player in the room, whom `TickFighting` would
count a second time, a skill kills only such heroes, and a dead hero gains no level.
-/

namespace Gmaker.Realtime

open Gmaker.Lib

variable {F : Type}

/-! ## Ticks and burials of one hero -/

namespace Hero

/-- Between two events: a hero whose falls are all counted. -/
structure Calm (owned : Bool) (h : Hero F) : Prop where
  maxHp : 0 < h.maxHp
  timer : h.isAlive = true → h.respawnTimer = 0
  counted : h.deaths = h.falls
  waits : owned = true → h.isAlive = false → 0 < h.respawnTimer

section Hero

variable {h : Hero F} {owned : Bool}

theorem Calm.ok (hcalm : h.Calm owned) : h.Ok owned := by
  refine ⟨hcalm.maxHp, hcalm.timer, ?_⟩
  have hnone : h.pending owned = 0 := by
    unfold pending
    split_ifs with hpending
    · simp only [Bool.and_eq_true, Bool.not_eq_true', decide_eq_true_eq] at hpending
      have hwait := hcalm.waits hpending.1.1 hpending.1.2
      omega
    · rfl
  rw [hnone, hcalm.counted, Nat.add_zero]

/-- A hero that is buried has no pending fall. -/
theorem Ok.buryHero (hok : h.Ok owned) (hown : owned = true) : (Arena.buryHero h).Calm owned := by
  have hcounted := hok.counted
  unfold Arena.buryHero
  split_ifs with hdead
  · simp only [Bool.and_eq_true, Bool.not_eq_true', isRespawning, decide_eq_false_iff_not,
      Nat.not_lt, Nat.le_zero] at hdead
    have hpending : h.pending owned = 1 := by simp [pending, hown, hdead.1, hdead.2]
    refine ⟨hok.maxHp, fun halive => ?_, ?_, fun _ _ => Nat.zero_lt_succ 9999⟩
    · have halive' : h.isAlive = true := halive
      rw [hdead.1] at halive'
      cases halive'
    · change h.deaths + 1 = h.falls
      omega
  · simp only [Bool.and_eq_true, Bool.not_eq_true', isRespawning, decide_eq_false_iff_not,
      Nat.not_lt, Nat.le_zero, not_and] at hdead
    have hpending : h.pending owned = 0 := by
      unfold pending
      split_ifs with hp
      · simp only [Bool.and_eq_true, Bool.not_eq_true', decide_eq_true_eq] at hp
        exact absurd hp.2 (hdead hp.1.2)
      · rfl
    refine ⟨hok.maxHp, hok.timer, by omega, fun _ hd => ?_⟩
    exact Nat.pos_of_ne_zero (hdead hd)

theorem Ok.calm_of_not_owned (hok : h.Ok false) : h.Calm false := by
  refine ⟨hok.maxHp, hok.timer, ?_, fun hown => by cases hown⟩
  have hcounted := hok.counted
  simpa [pending] using hcounted

theorem buryHero_isAlive (h : Hero F) : (Arena.buryHero h).isAlive = h.isAlive := by
  unfold Arena.buryHero
  split_ifs <;> rfl

theorem buryHero_buryHero (h : Hero F) :
    Arena.buryHero (Arena.buryHero h) = Arena.buryHero h := by
  unfold Arena.buryHero
  by_cases hdead : (!h.isAlive && !h.isRespawning) = true
  · rw [if_pos hdead]
    refine if_neg ?_
    simp [isRespawning, triggerRespawn]
  · rw [if_neg hdead, if_neg hdead]

variable [FloatOps F]

theorem walk_life (h : Hero F) (deltaMs : ℕ) : h.SameLife (h.walk deltaMs) := by
  unfold walk
  split_ifs
  · cases stepTowards h.pos h.moveTarget (stepLength h.moveSpeed deltaMs) with
    | mk pos yaw => cases yaw <;> exact ⟨rfl, rfl, rfl, rfl, le_rfl⟩
  · exact .refl h

/-- A tick of a hero: it stays as it is, waits on, or comes back when the timer has run
out. -/
theorem tick_cases (h : Hero F) (deltaMs : ℕ) :
    h.SameLife (h.tick deltaMs) ∨
    (h.isAlive = false ∧ deltaMs < h.respawnTimer ∧
      h.tick deltaMs = { h with respawnTimer := h.respawnTimer - deltaMs }) ∨
    (h.isAlive = false ∧ 0 < h.respawnTimer ∧ h.respawnTimer ≤ deltaMs ∧
      h.tick deltaMs = h.respawn) := by
  unfold tick
  cases halive : h.isAlive with
  | true =>
    left
    simp only [Bool.not_true, Bool.false_eq_true, if_false]
    have hcool : h.SameLife
        { h with skillCooldowns := h.skillCooldowns.map fun c => c - min c deltaMs } :=
      ⟨rfl, rfl, rfl, rfl, le_rfl⟩
    exact hcool.trans (walk_life _ deltaMs)
  | false =>
    simp only [Bool.not_false, if_true]
    by_cases htimer : 0 < h.respawnTimer
    · rw [if_pos htimer]
      by_cases hlt : deltaMs < h.respawnTimer
      · right
        left
        have hmin : min h.respawnTimer deltaMs = deltaMs := Nat.min_eq_right hlt.le
        rw [hmin, if_neg (by omega)]
        exact ⟨trivial, hlt, rfl⟩
      · right
        right
        have hmin : min h.respawnTimer deltaMs = h.respawnTimer :=
          Nat.min_eq_left (Nat.le_of_not_lt hlt)
        rw [hmin, if_pos (Nat.sub_self _)]
        exact ⟨trivial, htimer, Nat.le_of_not_lt hlt, rfl⟩
    · rw [if_neg htimer]
      exact .inl (.refl h)

theorem Ok.tick (hok : h.Ok owned) (deltaMs : ℕ) : (h.tick deltaMs).Ok owned := by
  have hcounted := hok.counted
  rcases tick_cases h deltaMs with hsame | ⟨hdead, hlt, heq⟩ | ⟨hdead, hpos, -, heq⟩
  · exact hok.step (.keeps hsame)
  · rw [heq]
    have hnone : h.pending owned = 0 := by
      unfold pending
      have hne : h.respawnTimer ≠ 0 := by omega
      simp [hne]
    have hnone' : ({ h with respawnTimer := h.respawnTimer - deltaMs } : Hero F).pending owned = 0 := by
      unfold pending
      have hne : h.respawnTimer - deltaMs ≠ 0 := by omega
      simp [hne]
    refine ⟨hok.maxHp, fun halive => ?_, ?_⟩
    · have halive' : h.isAlive = true := halive
      rw [hdead] at halive'
      cases halive'
    · rw [hnone']
      change h.deaths + 0 = h.falls
      omega
  · rw [heq]
    have hnone : h.pending owned = 0 := by
      unfold pending
      have hne : h.respawnTimer ≠ 0 := by omega
      simp [hne]
    have halive : h.respawn.isAlive = true := decide_eq_true hok.maxHp
    refine ⟨hok.maxHp, fun _ => rfl, ?_⟩
    rw [pending_of_alive halive]
    change h.deaths + 0 = h.falls
    omega

/-- Who lives after a tick lived before it, or the timer has run out. -/
theorem alive_of_tick {deltaMs : ℕ} (halive : (h.tick deltaMs).isAlive = true) :
    h.isAlive = true ∨ 0 < h.respawnTimer ∧ h.respawnTimer ≤ deltaMs := by
  rcases tick_cases h deltaMs with hsame | ⟨hdead, -, heq⟩ | ⟨-, hpos, hle, -⟩
  · exact .inl (hsame.alive.symm.trans halive)
  · rw [heq] at halive
    have halive' : h.isAlive = true := halive
    rw [hdead] at halive'
    cases halive'
  · exact .inr ⟨hpos, hle⟩

end Hero

end Hero

namespace Arena

/-! ## Heroes of players -/

/-- Whether the hero is one of a player in the room. -/
def owned (a : Arena F) (heroId : UInt64) : Bool :=
  a.members.keys.any fun pid => (a.members.lookup pid).any fun mem => mem.heroEntityId = heroId

section Owned

variable {a b : Arena F} {playerId heroId : UInt64}

theorem owned_iff : a.owned heroId = true ↔
    ∃ pid mem, a.members.lookup pid = some mem ∧ mem.heroEntityId = heroId := by
  unfold owned
  rw [List.any_eq_true]
  constructor
  · rintro ⟨pid, -, hany⟩
    obtain ⟨mem, hmem, hid⟩ := (Option.any_eq_true _ _).mp hany
    exact ⟨pid, mem, hmem, by simpa using hid⟩
  · rintro ⟨pid, mem, hmem, hid⟩
    refine ⟨pid, Assoc.mem_keys_iff.mpr ⟨mem, hmem⟩, ?_⟩
    rw [hmem]
    simpa using hid

theorem heroOf_eq_some : a.heroOf playerId = some heroId ↔
    (∃ mem, a.members.lookup playerId = some mem ∧ mem.heroEntityId = heroId) ∧
      ∃ h, a.entityMgr.find heroId = some (.hero h) := by
  have htest : ∀ id, a.entityMgr.test (fun e => e.type = .hero) id = true ↔
      ∃ h, a.entityMgr.find id = some (.hero h) := by
    intro id
    unfold EntityManager.test
    cases a.entityMgr.find id with
    | none => simp
    | some e => cases e <;> simp [Entity.type]
  unfold heroOf
  cases a.members.lookup playerId with
  | none => simp
  | some mem =>
    simp only
    constructor
    · intro h
      split_ifs at h with hhero
      cases h
      exact ⟨⟨mem, rfl, rfl⟩, (htest _).mp hhero⟩
    · rintro ⟨⟨mem', hmem, hid⟩, hhero⟩
      cases hmem
      rw [hid, if_pos ((htest heroId).mpr hhero)]

theorem owned_of_heroOf (h : a.heroOf playerId = some heroId) : a.owned heroId = true := by
  obtain ⟨⟨mem, hmem, hid⟩, -⟩ := heroOf_eq_some.mp h
  exact owned_iff.mpr ⟨playerId, mem, hmem, hid⟩

theorem owned_congr (h : b.members = a.members) : b.owned = a.owned := by
  funext id
  unfold owned
  rw [h]

end Owned

/-! ## Inputs -/

section Inputs

variable [FloatOps F]

/-- The condition on one input. -/
def InputCounted (a : Arena F) (p : UInt64 × PlayerInput) : Prop :=
  match a.heroOf p.1 with
  | none => True
  | some heroId =>
    a.entityMgr.test Entity.isAlive heroId = true → p.2.hasInput = true → p.2.skillSlot ≠ 0xFF →
      EntityManager.CastCounted a.owned (a.entityMgr.moveHero heroId p.2) heroId p.2

instance (a : Arena F) (p : UInt64 × PlayerInput) : Decidable (InputCounted a p) := by
  unfold InputCounted
  split <;> infer_instance

/-- The condition on the inputs of one frame. -/
def FrameCounted (a : Arena F) (inputs : ConfirmedInputs) : Prop :=
  FoldOk (fun a p => a.processHeroInput p.1 p.2) InputCounted a inputs.playerInputs

instance (a : Arena F) (inputs : ConfirmedInputs) : Decidable (FrameCounted a inputs) := by
  unfold FrameCounted
  infer_instance

variable {a b : Arena F}

/-- The players are those of `a`, and so are the heroes, but for what has happened since. -/
structure Since (a b : Arena F) : Prop where
  members : b.members = a.members
  lives : EntityManager.Lives a.owned a.entityMgr b.entityMgr

theorem Since.processHeroInput (h : Since a b) {p : UInt64 × PlayerInput}
    (hcounted : InputCounted b p) : Since a (b.processHeroInput p.1 p.2) := by
  unfold Arena.processHeroInput
  unfold InputCounted at hcounted
  cases hhero : b.heroOf p.1 with
  | none => exact h
  | some heroId =>
    rw [hhero] at hcounted
    simp only at hcounted ⊢
    split_ifs with hcan hslot
    · rw [Bool.and_eq_true] at hcan
      rw [owned_congr h.members] at hcounted
      exact ⟨h.members, (h.lives.moveHero heroId p.2).castHero (hcounted hcan.1 hcan.2 hslot)⟩
    · exact ⟨h.members, h.lives.moveHero heroId p.2⟩
    · exact h

theorem Since.processConfirmed (h : Since a a) {confirmed : List ConfirmedInputs}
    (hcounted : FoldOk processFrameInputs FrameCounted a confirmed) :
    Since a (a.processConfirmed confirmed) := by
  refine foldl_invariant (I := Since a) (fun b inputs _ (hframe : FrameCounted b inputs) hb => ?_)
    h hcounted
  exact foldl_invariant (I := Since a)
    (fun b p _ (hinput : InputCounted b p) hb => hb.processHeroInput hinput) hb hframe

end Inputs

/-! ## Burials -/

section Bury

variable {a : Arena F} {heroId : UInt64}

theorem buryOf_members (a : Arena F) (pid : UInt64) : (a.buryOf pid).members = a.members := by
  unfold buryOf
  cases a.heroOf pid <;> rfl

/-- The burial of one player's hero. -/
theorem find_buryOf (a : Arena F) (pid : UInt64) :
    (a.buryOf pid).entityMgr.find heroId =
      if a.heroOf pid = some heroId then
        (a.entityMgr.find heroId).map (.onHero buryHero)
      else a.entityMgr.find heroId := by
  unfold buryOf
  cases a.heroOf pid with
  | none => rfl
  | some id =>
    simp only [EntityManager.find_modify, Option.some.injEq, eq_comm]

theorem heroOf_buryOf (a : Arena F) (pid playerId : UInt64) :
    (a.buryOf pid).heroOf playerId = a.heroOf playerId := by
  have hhero : ∀ id, (∃ h, (a.buryOf pid).entityMgr.find id = some (.hero h)) ↔
      ∃ h, a.entityMgr.find id = some (.hero h) := by
    intro id
    rw [find_buryOf]
    split_ifs
    · cases a.entityMgr.find id with
      | none => simp
      | some e => cases e <;> simp [Entity.onHero]
    · rfl
  apply Option.ext
  intro id
  rw [heroOf_eq_some, heroOf_eq_some, buryOf_members, hhero]

theorem map_bury_bury (o : Option (Entity F)) :
    (o.map (Entity.onHero buryHero)).map (Entity.onHero buryHero) =
      o.map (Entity.onHero buryHero) := by
  cases o with
  | none => rfl
  | some e =>
    cases e with
    | hero h => exact congrArg (some ∘ Entity.hero) (Hero.buryHero_buryHero h)
    | _ => rfl

/-- After the loop the heroes of all its players have been buried. -/
theorem find_foldl_buryOf (l : List UInt64) (a : Arena F) :
    (l.foldl buryOf a).entityMgr.find heroId =
      if ∃ pid ∈ l, a.heroOf pid = some heroId then
        (a.entityMgr.find heroId).map (.onHero buryHero)
      else a.entityMgr.find heroId := by
  induction l generalizing a with
  | nil => simp
  | cons pid l ih =>
    rw [List.foldl_cons, ih]
    simp only [heroOf_buryOf, find_buryOf, List.mem_cons, exists_eq_or_imp]
    by_cases hpid : a.heroOf pid = some heroId
    · by_cases hrest : ∃ pid ∈ l, a.heroOf pid = some heroId
      · rw [if_pos hrest, if_pos hpid, if_pos (.inl hpid), map_bury_bury]
      · rw [if_neg hrest, if_pos hpid, if_pos (.inl hpid)]
    · by_cases hrest : ∃ pid ∈ l, a.heroOf pid = some heroId
      · rw [if_pos hrest, if_neg hpid, if_pos (.inr hrest)]
      · rw [if_neg hrest, if_neg hpid, if_neg (not_or.mpr ⟨hpid, hrest⟩)]

theorem buryHeroes_members (players : Order UInt64) (a : Arena F) :
    (a.buryHeroes players).members = a.members :=
  foldl_invariant_all (I := fun b : Arena F => b.members = a.members)
    (fun b pid _ hb => (buryOf_members b pid).trans hb) rfl

/-- A hero after the burials: all its falls are counted, and it has not risen. -/
theorem calm_buryHeroes {players : Order UInt64}
    (hok : ∀ id h, a.entityMgr.find id = some (.hero h) → h.Ok (a.owned id)) {h' : Hero F}
    (hfind : (a.buryHeroes players).entityMgr.find heroId = some (.hero h')) :
    h'.Calm (a.owned heroId) ∧ ∃ h, a.entityMgr.find heroId = some (.hero h) ∧
      h'.isAlive = h.isAlive := by
  unfold buryHeroes at hfind
  rw [find_foldl_buryOf] at hfind
  split_ifs at hfind with hplayer
  · obtain ⟨pid, -, hhero⟩ := hplayer
    obtain ⟨-, h, hold⟩ := heroOf_eq_some.mp hhero
    rw [hold] at hfind
    cases hfind
    have hown := owned_of_heroOf hhero
    exact ⟨(hok heroId h hold).buryHero hown, h, hold, Hero.buryHero_isAlive h⟩
  · refine ⟨?_, h', hfind, rfl⟩
    have hno : a.owned heroId = false := by
      by_contra hyes
      obtain ⟨pid, mem, hmem, hid⟩ := owned_iff.mp (by simpa using hyes)
      refine hplayer ⟨pid, ?_, heroOf_eq_some.mpr ⟨⟨mem, hmem, hid⟩, h', hfind⟩⟩
      exact players.mem_arrange.mpr (Assoc.mem_keys_iff.mpr ⟨mem, hmem⟩)
    have hone := hok heroId h' hfind
    rw [hno] at hone ⊢
    exact hone.calm_of_not_owned

end Bury

section Runs

variable [FloatOps F] {cfg : BattleConfig F} {a a' : Arena F}

/-! ## A tick -/

/-- The condition on an event: every blow of a tick meets its own. -/
def BlowsCounted (a : Arena F) : ArenaEvent F → Prop
  | .tick confirmed o =>
    a.stage = .fighting →
      FoldOk processFrameInputs FrameCounted a confirmed ∧
        EntityManager.CombatCounted a.owned o.entities
          ((a.processConfirmed confirmed).tickAll o.entities).entityMgr
  | _ => True

instance (a : Arena F) (e : ArenaEvent F) : Decidable (BlowsCounted a e) := by
  cases e <;> (unfold BlowsCounted; infer_instance)

theorem spawnMinions_sameHeroes (cfg : BattleConfig F) (a : Arena F) :
    EntityManager.SameHeroes a.entityMgr (a.spawnMinions cfg).entityMgr := by
  unfold spawnMinions
  simp only
  split_ifs
  · exact (EntityManager.sameHeroes_spawnWave _ _).trans (EntityManager.sameHeroes_spawnWave _ _)
  · exact .refl _

/-- Inputs move heroes, not players. -/
theorem processConfirmed_members (a : Arena F) (confirmed : List ConfirmedInputs) :
    (a.processConfirmed confirmed).members = a.members := by
  refine foldl_invariant_all (I := fun b : Arena F => b.members = a.members) ?_ rfl
  intro b inputs _ hb
  refine foldl_invariant_all (I := fun b : Arena F => b.members = a.members) ?_ hb
  intro b p _ hb
  rw [← hb]
  unfold processHeroInput
  rcases b.heroOf p.1 with _ | heroId
  · rfl
  · dsimp only
    split_ifs <;> rfl

theorem play_members {confirmed : List ConfirmedInputs} {o : Orders} :
    (a.play cfg confirmed o).members = a.members := by
  have hspawn : ∀ b : Arena F, (b.spawnMinions cfg).members = b.members := by
    intro b
    unfold spawnMinions
    simp only
    split_ifs <;> rfl
  unfold play
  change (Arena.spawnMinions cfg _).members = _
  rw [hspawn, buryHeroes_members]
  exact processConfirmed_members a confirmed

theorem fight_members {confirmed : List ConfirmedInputs} {o : Orders} :
    (a.fight cfg confirmed o).members = a.members := by
  have hplay : (a.play cfg confirmed o).members = a.members := play_members
  rw [← hplay]
  unfold fight recordHash checkWinCondition
  split_ifs <;> rfl

/-- A hero after a tick: its falls are counted, and if it lives it lived before, or its
timer has run out. -/
theorem calm_play {confirmed : List ConfirmedInputs} {o : Orders}
    (hcalm : ∀ id h, a.entityMgr.find id = some (.hero h) → h.Calm (a.owned id))
    (hframes : FoldOk processFrameInputs FrameCounted a confirmed)
    (hcombat : EntityManager.CombatCounted a.owned o.entities
      ((a.processConfirmed confirmed).tickAll o.entities).entityMgr)
    {id : UInt64} {h' : Hero F}
    (hfind : (a.play cfg confirmed o).entityMgr.find id = some (.hero h')) :
    h'.Calm (a.owned id) ∧ ∃ h, a.entityMgr.find id = some (.hero h) ∧
      (h'.isAlive = true → h.isAlive = true ∨
        0 < h.respawnTimer ∧ h.respawnTimer ≤ fixedStepMs) := by
  -- the inputs
  have hstart : Since a a := ⟨rfl, .refl fun id h hh => (hcalm id h hh).ok⟩
  have hinputs : Since a (a.processConfirmed confirmed) := hstart.processConfirmed hframes
  unfold play at hfind
  generalize a.processConfirmed confirmed = b at hinputs hcombat hfind
  -- everything ticks
  have hticked : ∀ id h, (b.tickAll o.entities).entityMgr.find id = some (.hero h) →
      ∃ h₁, b.entityMgr.find id = some (.hero h₁) ∧ h = h₁.tick fixedStepMs := by
    intro id h hh
    have hmap : (b.entityMgr.find id).map (Entity.tick fixedStepMs) = some (.hero h) :=
      EntityManager.find_tickAll.symm.trans hh
    obtain ⟨e, he, heq⟩ := Option.map_eq_some_iff.mp hmap
    cases e with
    | hero h₁ => exact ⟨h₁, he, (Entity.hero.inj heq).symm⟩
    | _ => cases heq
  have hok : ∀ id h, (b.tickAll o.entities).entityMgr.find id = some (.hero h) →
      h.Ok (a.owned id) := by
    intro id h hh
    obtain ⟨h₁, hold, rfl⟩ := hticked id h hh
    exact (hinputs.lives.ok id h₁ hold).tick fixedStepMs
  -- combat
  have hfought := (EntityManager.Lives.refl hok).tickCombat hcombat
  have hmembers : ((b.tickAll o.entities).tickCombat o.entities).owned = a.owned :=
    owned_congr hinputs.members
  -- the burials, and what does not touch heroes
  have hburied : ((((b.tickAll o.entities).tickCombat o.entities).buryHeroes
      o.players)).entityMgr.find id = some (.hero h') := by
    refine spawnMinions_sameHeroes cfg _ id h' ?_
    exact EntityManager.sameHeroes_removeSpent _ o.entities id h' hfind
  obtain ⟨hcalm', h₃, hfind₃, halive₃⟩ := calm_buryHeroes (by rw [hmembers]; exact hfought.ok) hburied
  rw [hmembers] at hcalm'
  refine ⟨hcalm', ?_⟩
  obtain ⟨h₂, hfind₂, halive₂, -⟩ := hfought.since id h₃ hfind₃
  obtain ⟨h₁, hfind₁, rfl⟩ := hticked id h₂ hfind₂
  obtain ⟨h, hfind₀, halive₁, htimer⟩ := hinputs.lives.since id h₁ hfind₁
  refine ⟨h, hfind₀, fun halive => ?_⟩
  rcases Hero.alive_of_tick (halive₂ (halive₃.symm.trans halive)) with hold | htime
  · exact .inl (halive₁ hold)
  · rw [htimer] at htime
    exact .inr htime

/-! ## A scene -/

/-- Every hero is new, and none has the id zero. -/
structure Fresh (m : EntityManager F) : Prop where
  hero : ∀ id h, m.find id = some (.hero h) →
    0 < h.maxHp ∧ h.isAlive = true ∧ h.respawnTimer = 0 ∧ h.deaths = h.falls
  nonzero : ∀ h, m.find 0 ≠ some (.hero h)

omit [FloatOps F] in
theorem Fresh.of_sameHeroes {m m' : EntityManager F} (h : Fresh m)
    (hsame : EntityManager.SameHeroes m m') : Fresh m' :=
  ⟨fun id hero hfind => h.hero id hero (hsame id hero hfind),
    fun hero hfind => h.nonzero hero (hsame 0 hero hfind)⟩

/-- A new scene gets a new hero, if the player is there. -/
theorem createHero_cases (a : Arena F) (pid : UInt64) :
    a.createHero pid = a ∨ ∃ make : UInt64 → Hero F,
      (∀ id, 0 < (make id).maxHp ∧ (make id).isAlive = true ∧ (make id).respawnTimer = 0 ∧
        (make id).deaths = (make id).falls) ∧
      (a.createHero pid).entityMgr = a.entityMgr.create fun id => .hero (make id) := by
  unfold createHero
  cases a.members.lookup pid with
  | none => exact .inl rfl
  | some mem =>
    refine .inr ⟨fun id => { Hero.new id mem.team pid with
      pos := mem.spawnPos, skills := defaultSkills,
      fountainPos := if mem.team = .blue then .ground 10 10 else .ground 90 90 }, ?_, rfl⟩
    exact fun id => ⟨(by decide : (0 : ℤ) < 1000), rfl, rfl, rfl⟩

/-- As many players as there are do not use the ids up. -/
theorem fresh_foldl_createHero (l : List UInt64) (a : Arena F) (h : Fresh a.entityMgr)
    (hpos : 0 < a.entityMgr.nextEntityId.toNat)
    (hroom : a.entityMgr.nextEntityId.toNat + l.length < 2 ^ 64) :
    Fresh (l.foldl createHero a).entityMgr := by
  induction l generalizing a with
  | nil => exact h
  | cons pid l ih =>
    rw [List.length_cons] at hroom
    rw [List.foldl_cons]
    rcases createHero_cases a pid with hsame | ⟨make, hmake, hmgr⟩
    · rw [hsame]
      exact ih a h hpos (by omega)
    · have hnext : (a.createHero pid).entityMgr.nextEntityId.toNat =
          a.entityMgr.nextEntityId.toNat + 1 := by
        rw [hmgr]
        change (a.entityMgr.nextEntityId + 1).toNat = _
        rw [UInt64.toNat_add]
        exact Nat.mod_eq_of_lt (by simp only [UInt64.toNat_one]; omega)
      refine ih _ ⟨fun id hero hfind => ?_, fun hero hfind => ?_⟩ (by omega) (by omega)
      · rw [hmgr, EntityManager.find_create] at hfind
        split_ifs at hfind
        · cases hfind
          exact hmake _
        · exact h.hero id hero hfind
      · rw [hmgr, EntityManager.find_create] at hfind
        split_ifs at hfind with hzero
        · rw [← hzero] at hpos
          exact absurd hpos (by decide)
        · exact h.nonzero hero hfind

theorem fresh_initBattleScene {players : Order UInt64} (hempty : a.entityMgr = {})
    (hroom : a.members.length ≤ 2 ^ 32) : Fresh (a.initBattleScene cfg players).entityMgr := by
  have hlen : (players.arrange a.members.keys).length ≤ 2 ^ 32 := by
    rw [(players.perm a.members.keys).length_eq]
    exact (List.length_map _).trans_le hroom
  have hheroes : Fresh ((players.arrange a.members.keys).foldl createHero a).entityMgr := by
    refine fresh_foldl_createHero _ a ?_ ?_ ?_
    · rw [hempty]
      exact ⟨fun id hero hfind => (by cases hfind), fun hero hfind => (by cases hfind)⟩
    · rw [hempty]
      exact Nat.one_pos
    · rw [hempty]
      have hone : (1 : UInt64).toNat = 1 := rfl
      simp only [hone]
      omega
  have hdefs : ∀ (defs : List TowerDef) (m : EntityManager F), Fresh m → Fresh (defs.foldl
      (fun m d => m.put d.entityId (.tower (.new d.entityId d.team d.grade))) m) :=
    fun defs m hm => foldl_invariant_all (I := Fresh)
      (fun m d _ hm => hm.of_sameHeroes (EntityManager.sameHeroes_put fun h' heq => by cases heq)) hm
  have hdefault : ∀ (defs : List (TeamSide × TowerGrade)) (m : EntityManager F), Fresh m →
      Fresh (defs.foldl (fun m d => m.create fun id => .tower (.new id d.1 d.2)) m) :=
    fun defs m hm => foldl_invariant_all (I := Fresh)
      (fun m d _ hm => hm.of_sameHeroes (EntityManager.sameHeroes_create fun h' heq => by cases heq)) hm
  unfold initBattleScene
  simp only
  split_ifs
  · exact hdefault _ _ (hdefs _ _ hheroes)
  · exact hdefs _ _ hheroes

/-! ## Every run -/

/-- Between events every hero is calm; none has the id zero, which players without a hero
have. -/
structure Inv (a : Arena F) : Prop where
  calm : ∀ id h, a.entityMgr.find id = some (.hero h) → h.Calm (a.owned id)
  nonzero : ∀ h, a.entityMgr.find 0 ≠ some (.hero h)
  empty : a.stage = .before → a.entityMgr = {}
  room : a.members.length ≤ 2 ^ 32

omit [FloatOps F] in
theorem inv_init : Inv ({} : Arena F) :=
  ⟨fun id h hfind => (by cases hfind), fun h hfind => (by cases hfind), fun _ => rfl,
    Nat.zero_le _⟩

omit [FloatOps F] in
/-- Other players own the same heroes, or fewer, or the one that nobody has. -/
theorem Inv.members (h : Inv a) {members : Assoc UInt64 (Member F)}
    (hown : ∀ id, id ≠ 0 → ({ a with members } : Arena F).owned id = true → a.owned id = true)
    (hroom : members.length ≤ 2 ^ 32) : Inv { a with members } := by
  refine ⟨fun id hero hfind => ?_, h.nonzero, h.empty, hroom⟩
  have hold := h.calm id hero hfind
  have hne : id ≠ 0 := by
    rintro rfl
    exact h.nonzero hero hfind
  exact ⟨hold.maxHp, hold.timer, hold.counted, fun ho => hold.waits (hown id hne ho)⟩

theorem Inv.next (h : Inv a) {e : ArenaEvent F} (hcounted : BlowsCounted a e)
    (hstep : Arena.next cfg a e = some a') : Inv a' := by
  cases e with
  | enter playerId team spawnPos =>
    rcases next_enter_eq_some hstep with rfl | ⟨hlt, rfl⟩
    · exact h
    · refine h.members (fun id hne hown => ?_) ?_
      · obtain ⟨pid, mem, hmem, hid⟩ := owned_iff.mp hown
        simp only [Assoc.lookup_assign] at hmem
        split_ifs at hmem
        · cases hmem
          exact absurd hid.symm hne
        · exact owned_iff.mpr ⟨pid, mem, hmem, hid⟩
      · have hlen := a.members.length_assign_le playerId ({ team, spawnPos } : Member F)
        have hsize : (cfg.teamSize * 2).toNat < 2 ^ 32 := UInt32.toNat_lt _
        omega
  | remove playerId =>
    cases hstep
    refine h.members (fun id _ hown => ?_) ?_
    · obtain ⟨pid, mem, hmem, hid⟩ := owned_iff.mp hown
      simp only [Assoc.lookup_erase] at hmem
      split_ifs at hmem
      exact owned_iff.mpr ⟨pid, mem, hmem, hid⟩
    · exact (List.length_filter_le _ _).trans h.room
  | initBattleScene players =>
    obtain ⟨hstage, rfl⟩ := next_initBattleScene_eq_some.mp hstep
    have hfresh : Fresh (a.initBattleScene cfg players).entityMgr :=
      fresh_initBattleScene (h.empty hstage) h.room
    have hlen : (a.initBattleScene cfg players).members.length = a.members.length := by
      refine foldl_invariant_all (I := fun b : Arena F => b.members.length = a.members.length)
        (fun b pid _ hb => ?_) rfl
      unfold createHero
      cases b.members.lookup pid with
      | none => exact hb
      | some mem => exact (List.length_map _).trans hb
    refine ⟨fun id hero hfind => ?_, hfresh.nonzero, nofun, hlen ▸ h.room⟩
    obtain ⟨hmax, halive, htimer, hdeaths⟩ := hfresh.hero id hero hfind
    exact ⟨hmax, fun _ => htimer, hdeaths, fun _ hdead => by rw [halive] at hdead; cases hdead⟩
  | tick confirmed o =>
    obtain ⟨hstage, rfl⟩ := next_tick_eq_some.mp hstep
    obtain ⟨hframes, hcombat⟩ := hcounted hstage
    have hmembers : (a.fight cfg confirmed o).members = a.members := fight_members
    refine ⟨fun id hero hfind => ?_, fun hero hfind => ?_, fun hb => ?_, hmembers ▸ h.room⟩
    · rw [entityMgr_fight] at hfind
      rw [owned_congr hmembers]
      exact (calm_play h.calm hframes hcombat hfind).1
    · rw [entityMgr_fight] at hfind
      obtain ⟨-, hero₀, hfind₀, -⟩ := calm_play h.calm hframes hcombat hfind
      exact h.nonzero hero₀ hfind₀
    · exact absurd hb (fight_stage_ne_before hstage)

/-- Each hero has died as often as it has fallen, and waits for nothing while it lives. -/
def HeroesCounted (a : Arena F) : Prop :=
  ∀ id h, a.entityMgr.find id = some (.hero h) →
    h.deaths = h.falls ∧ (h.isAlive = true → h.respawnTimer = 0)

/-- Dead heroes that live after the event: it is a tick, in which their timer has run
out. -/
def RisesByTimer (a : Arena F) (e : ArenaEvent F) (a' : Arena F) : Prop :=
  ∀ id h h', a.entityMgr.find id = some (.hero h) → a'.entityMgr.find id = some (.hero h') →
    h.isAlive = false → h'.isAlive = true →
      (∃ confirmed o, e = .tick confirmed o) ∧ 0 < h.respawnTimer ∧ h.respawnTimer ≤ fixedStepMs

/-- The life cycle is kept in every state and by every event of the run. -/
def LifeCycle (cfg : BattleConfig F) (es : List (ArenaEvent F)) : Prop :=
  ∀ (ms : List (ArenaEvent F)) (a : Arena F), ms <+: es → run (Arena.next cfg) {} ms = some a →
    HeroesCounted a ∧ ∀ (e : ArenaEvent F) (a' : Arena F), ms ++ [e] <+: es →
      Arena.next cfg a e = some a' → RisesByTimer a e a'

theorem Inv.risesByTimer (h : Inv a) {e : ArenaEvent F} (hcounted : BlowsCounted a e)
    (hstep : Arena.next cfg a e = some a') : RisesByTimer a e a' := by
  intro id hero hero' hfind hfind' hdead halive
  -- an event that leaves the entities alone
  have hstays : a'.entityMgr = a.entityMgr → False := by
    intro hsame
    rw [hsame, hfind] at hfind'
    cases hfind'
    rw [hdead] at halive
    cases halive
  cases e with
  | enter playerId team spawnPos =>
    rcases next_enter_eq_some hstep with rfl | ⟨-, rfl⟩
    · exact (hstays rfl).elim
    · exact (hstays rfl).elim
  | remove playerId =>
    cases hstep
    exact (hstays rfl).elim
  | initBattleScene players =>
    obtain ⟨hstage, -⟩ := next_initBattleScene_eq_some.mp hstep
    rw [h.empty hstage] at hfind
    cases hfind
  | tick confirmed o =>
    obtain ⟨hstage, rfl⟩ := next_tick_eq_some.mp hstep
    obtain ⟨hframes, hcombat⟩ := hcounted hstage
    rw [entityMgr_fight] at hfind'
    obtain ⟨-, hero₀, hfind₀, hrise⟩ := calm_play h.calm hframes hcombat hfind'
    rw [hfind] at hfind₀
    cases hfind₀
    refine ⟨⟨confirmed, o, rfl⟩, (hrise halive).resolve_left ?_⟩
    rw [hdead]
    exact Bool.false_ne_true

/-- Ten towers of the blue side, at the spot where heroes without a spawn point begin. -/
def tenTowers : BattleConfig ℚ where
  teamSize := 1
  towerDefs := (List.range 10).map fun i => ⟨UInt64.ofNat (i + 101), .blue, .outer⟩

/-- One player a side. -/
def duel : List (ArenaEvent ℚ) :=
  [.enter 1 .blue (.ground 0 0), .enter 2 .red (.ground 0 0), .initBattleScene .asIs]

/-- The towers kill the red hero in the first tick, and it has died twice. -/
theorem tenTowers_not_lifeCycle :
    ¬ ∀ (cfg : BattleConfig ℚ) (es : List (ArenaEvent ℚ)), LifeCycle cfg es := by
  intro h
  have hrun : (run (Arena.next tenTowers) {} (duel ++ [.tick [] ⟨.asIs, .asIs⟩])).map
      (fun a => a.entityMgr.test (fun
        | .hero h => h.deaths ≠ h.falls
        | .minion _ | .tower _ | .projectile _ => false) 2) = some true := by
    decide +kernel
  obtain ⟨a, ha, htwice⟩ := Option.map_eq_some_iff.mp hrun
  obtain ⟨hcounted, -⟩ := h tenTowers _ _ a (List.prefix_refl _) ha
  unfold EntityManager.test at htwice
  obtain ⟨e, he, hne⟩ := (Option.any_eq_true _ _).mp htwice
  cases e with
  | hero hero => exact absurd (hcounted 2 hero he).1 (by simpa using hne)
  | _ => cases hne

/-- The life cycle of heroes is kept by every run in which no tower kills the hero of a
player in the room, skills kill such heroes only, and no dead hero gains a level. -/
theorem lifeCycle_of_run {es : List (ArenaEvent F)}
    (hok : RunOk (Arena.next cfg) BlowsCounted {} es) : LifeCycle cfg es := by
  have hstep : ∀ a e a', BlowsCounted a e → Inv a → Arena.next cfg a e = some a' → Inv a' :=
    fun _ _ _ hcounted h hnext => h.next hcounted hnext
  rintro ms a ⟨rest, rfl⟩ hrun
  obtain ⟨hpre, hrest⟩ := runOk_append.mp hok
  have hinv : Inv a := run_invariant hstep inv_init hpre hrun
  refine ⟨fun id h hfind => ⟨(hinv.calm id h hfind).counted, (hinv.calm id h hfind).timer⟩, ?_⟩
  intro e a' hprefix hnext
  obtain ⟨tail, htail⟩ := hprefix
  rw [List.append_assoc, List.append_cancel_left_eq] at htail
  have hone := hrest a hrun
  rw [← htail] at hone
  exact hinv.risesByTimer hone.1 hnext

/-- The blue player's skill kills nobody, and a tower hits the red hero. -/
def skirmish : List (ArenaEvent ℚ) :=
  duel ++ [.tick [⟨1, [(1, { playerId := 1, skillSlot := 3, skillTargetEid := 2, hasInput := true })]⟩]
    ⟨.asIs, .backwards⟩, .tick [] ⟨.backwards, .asIs⟩]

/-- In a room with the towers of a scene without a configuration. -/
theorem lifeCycle_skirmish : LifeCycle { teamSize := 1 } skirmish :=
  lifeCycle_of_run (by decide +kernel)

end Runs

end Arena

end Gmaker.Realtime
