import Gmaker.Lib.Tipping
import Gmaker.Realtime.HeroLife
import Gmaker.Realtime.Projectiles
import Gmaker.Realtime.Targets

/-!
# Gmaker.Realtime.Hits — the projectiles in any order

The loop over the projectiles, and for each that has arrived the loops over its candidates, go
through hash maps too. Who is hit more than once in a tick may be killed by one caster or by
another, and the kill may lift a hero a level, which then has all its hit points again when it is
hit itself.

Neither happens if it is the same caster in every order whose hit kills, and a hero that is hit
gains no level by its own kills (`Undisputed`). Then the projectiles do the same in every order
(`foldl_projectileTurn_perm`).
-/

namespace Gmaker.Realtime

open Gmaker.Lib

variable {F : Type}

/-! ## Heroes that are hit and kill -/

namespace Hero

/-- So many kills lift the hero no level. -/
def Settled (h : Hero F) (kills : ℕ) : Prop := h.exp + 200 * kills < h.expToNext ∨ 15 ≤ h.level

instance (h : Hero F) (kills : ℕ) : Decidable (h.Settled kills) := inferInstanceAs (Decidable (_ ∨ _))

variable {h : Hero F} {kills kills' : ℕ}

theorem Settled.mono (hsettled : h.Settled kills) (hle : kills' ≤ kills) : h.Settled kills' := by
  rcases hsettled with hexp | hlevel
  · left
    omega
  · exact .inr hlevel

theorem Settled.gains (hsettled : h.Settled kills) (hpos : 0 < kills) : h.gains = false := by
  rcases hsettled with hexp | hlevel
  · have hnot : ¬ h.expToNext ≤ h.exp + 200 := by omega
    simp [Hero.gains, hnot]
  · have hnot : ¬ h.level < 15 := by omega
    simp [Hero.gains, hnot]

/-- A kill less is to come. -/
theorem Settled.addKill (hsettled : h.Settled (kills + 1)) : h.addKill.Settled kills := by
  rw [addKill_of_not_gains (hsettled.gains (Nat.succ_pos kills))]
  rcases hsettled with hexp | hlevel
  · left
    change h.exp + 200 + 200 * kills < h.expToNext
    omega
  · exact .inr hlevel

theorem levelUp_pos (fuel : ℕ) (h : Hero F) : (levelUp fuel h).pos = h.pos := by
  induction fuel generalizing h with
  | zero => rfl
  | succ fuel ih =>
    unfold levelUp
    split_ifs
    · exact ih _
    · rfl

end Hero

namespace Entity

/-- So many kills lift the entity no level, if it is a hero. -/
def Settled : Entity F → ℕ → Prop
  | .hero h, kills => h.Settled kills
  | _, _ => True

instance (e : Entity F) (kills : ℕ) : Decidable (e.Settled kills) :=
  match e with
  | .hero h => inferInstanceAs (Decidable (h.Settled kills))
  | .minion _ | .tower _ | .projectile _ => inferInstanceAs (Decidable True)

variable {e : Entity F} {kills kills' : ℕ}

theorem Settled.mono (hsettled : e.Settled kills) (hle : kills' ≤ kills) : e.Settled kills' := by
  cases e with
  | hero h => exact Hero.Settled.mono hsettled hle
  | _ => trivial

theorem Settled.addKill (hsettled : e.Settled (kills + 1)) : (e.onHero .addKill).Settled kills := by
  cases e with
  | hero h => exact Hero.Settled.addKill hsettled
  | _ => trivial

theorem Settled.takeDamage (hsettled : e.Settled kills) (dmg : ℕ) : (e.takeDamage dmg).Settled kills := by
  cases e with
  | hero h => exact hsettled
  | _ => trivial

/-- A kill that lifts no level leaves the hit points alone. -/
theorem Settled.base_addKill (hsettled : e.Settled kills) (hpos : 0 < kills) :
    (e.onHero .addKill).base.hp = e.base.hp := by
  cases e with
  | hero h =>
    change h.addKill.hp = h.hp
    rw [Hero.addKill_of_not_gains (Hero.Settled.gains hsettled hpos)]
  | _ => rfl

/-- And it does not matter then whether it comes before a blow or after it. -/
theorem Settled.takeDamage_addKill (hsettled : e.Settled kills) (hpos : 0 < kills) (dmg : ℕ) :
    (e.onHero .addKill).takeDamage dmg = (e.takeDamage dmg).onHero .addKill := by
  cases e with
  | hero h =>
    have hgains : h.gains = false := Hero.Settled.gains hsettled hpos
    have hgains' : (h.takeDamage dmg).gains = false := hgains
    change Entity.hero (h.addKill.takeDamage dmg) = .hero (h.takeDamage dmg).addKill
    rw [Hero.addKill_of_not_gains hgains, Hero.addKill_of_not_gains hgains']
    rfl
  | _ => rfl

end Entity

namespace EntityManager

theorem mark_takeDamage (e : Entity F) (dmg : ℕ) : mark (e.takeDamage dmg) = mark e := by
  cases e with
  | _ => rfl

theorem mark_addKill (e : Entity F) : mark (e.onHero .addKill) = mark e := by
  cases e with
  | hero h => exact mark_eq rfl (Hero.levelUp_team _ _) (Hero.levelUp_pos _ _)
  | _ => rfl

/-! ## One hit -/

/-- A projectile at its target, and a candidate. -/
abbrev Hit (F : Type) := Projectile F × UInt64

/-- A kill for the hero that has cast, if there is one to credit. -/
def credit (m : EntityManager F) : Option UInt64 → EntityManager F
  | none => m
  | some casterId => m.modify casterId (.onHero .addKill)

section Credit

variable {m : EntityManager F} {id j : UInt64} {k k' : Option UInt64} {f : Entity F → Entity F}
  {e : Entity F}

/-- What is found after a credit. -/
theorem find_credit : (m.credit k).find j =
    (m.find j).map fun e => if k = some j then e.onHero .addKill else e := by
  cases k with
  | none => simp [credit]
  | some c =>
    unfold credit
    rw [find_modify]
    by_cases hj : j = c
    · simp [hj]
    · have hne : ¬ (some c = some j) := fun h => hj (Option.some.inj h).symm
      simp [hj, hne]

theorem credit_credit : (m.credit k).credit k' = (m.credit k').credit k := by
  cases k with
  | none => rfl
  | some c =>
    cases k' with
    | none => rfl
    | some c' =>
      by_cases hc : c = c'
      · rw [hc]
      · exact modify_comm hc

/-- A blow and a credit change places, if the kill lifts no hero that is struck a level. -/
theorem credit_takeDamage {dmg : ℕ} (hsettled : k = some id → ∀ e ∈ m.find id, e.Settled 1) :
    (m.credit k).modify id (.takeDamage dmg) = (m.modify id (.takeDamage dmg)).credit k := by
  cases k with
  | none => rfl
  | some c =>
    change (m.modify c (.onHero .addKill)).modify id (.takeDamage dmg) =
      (m.modify id (.takeDamage dmg)).modify c (.onHero .addKill)
    by_cases hc : c = id
    · subst hc
      rw [modify_modify, modify_modify]
      apply modify_congr
      intro e he
      exact (hsettled rfl e he).takeDamage_addKill Nat.one_pos dmg
    · exact modify_comm hc

end Credit

section Strikes

variable [FloatOps F]

/-- The candidate is an enemy of the caster and near enough. -/
def strikes (m : EntityManager F) (x : Hit F) : Bool :=
  m.test (fun cand => cand.team ≠ m.casterTeam x.1 && inReach x.1 cand) x.2

/-- Whom a hit that strikes credits, if it kills. -/
def killer (m : EntityManager F) (x : Hit F) : Option UInt64 :=
  if m.hpOf x.2 ≤ x.1.damage then some x.1.casterId else none

/-- One pass of the loops over the candidates. -/
def hit (m : EntityManager F) (x : Hit F) : EntityManager F := checkHit x.1 m x.2

variable {m m' : EntityManager F} {x y : Hit F} {id : UInt64}

/-- Who strikes is alive afterwards, or dead and credited. -/
theorem hit_eq (hstrikes : m.strikes x = true) (halive : 0 < m.hpOf x.2) :
    m.hit x = (m.modify x.2 (.takeDamage x.1.damage)).credit (m.killer x) := by
  unfold hit
  rw [checkHit_eq]
  unfold strikes test at hstrikes
  rcases hfind : m.find x.2 with _ | cand
  · rw [hfind] at hstrikes
    cases hstrikes
  · rw [hfind] at hstrikes
    have hhp : m.hpOf x.2 = cand.base.hp := by
      unfold hpOf
      rw [hfind]
      rfl
    have hhits : m.hits x.1 cand = true := by
      unfold hits
      rw [Entity.isAlive_iff.mpr (hhp ▸ halive), Bool.true_and]
      exact hstrikes
    dsimp only
    rw [if_pos hhits]
    unfold killer
    rw [hhp]
    by_cases hlives : (x.1.damage : ℤ) < cand.base.hp
    · rw [if_pos (Entity.isAlive_takeDamage_iff.mpr hlives), if_neg (by omega)]
      rfl
    · have hdead : ¬ (cand.takeDamage x.1.damage).isAlive = true :=
        fun h => hlives (Entity.isAlive_takeDamage_iff.mp h)
      rw [if_neg hdead, if_pos (by omega)]
      rfl

/-- Nobody else does anything. -/
theorem hit_of_not (h : ¬ (m.strikes x = true ∧ 0 < m.hpOf x.2)) : m.hit x = m := by
  unfold hit
  rw [checkHit_eq]
  rcases hfind : m.find x.2 with _ | cand
  · rfl
  · have hhits : ¬ m.hits x.1 cand = true := by
      intro hhits
      apply h
      unfold hits at hhits
      rw [Bool.and_assoc, Bool.and_eq_true] at hhits
      constructor
      · unfold strikes test
        rw [hfind]
        exact hhits.2
      · unfold hpOf
        rw [hfind]
        exact Entity.isAlive_iff.mp hhits.1
    exact if_neg hhits

/-- Nobody moves or changes sides. -/
def Marked (m m' : EntityManager F) : Prop := ∀ id, (m'.find id).map mark = (m.find id).map mark

omit [FloatOps F] in
theorem Marked.trans {m'' : EntityManager F} (h : m.Marked m') (h' : m'.Marked m'') : m.Marked m'' :=
  fun id => (h' id).trans (h id)

omit [FloatOps F] in
theorem marked_modify {f : Entity F → Entity F} (hf : ∀ e, mark (f e) = mark e) :
    m.Marked (m.modify id f) := by
  intro j
  rw [find_modify]
  split_ifs
  · rw [Option.map_map]
    exact Option.map_congr fun e _ => hf e
  · rfl

omit [FloatOps F] in
theorem marked_credit (m : EntityManager F) (k : Option UInt64) : m.Marked (m.credit k) := by
  cases k with
  | none => exact fun _ => rfl
  | some c => exact marked_modify mark_addKill

theorem marked_hit (m : EntityManager F) (x : Hit F) : m.Marked (m.hit x) := by
  by_cases hland : m.strikes x = true ∧ 0 < m.hpOf x.2
  · rw [hit_eq hland.1 hland.2]
    exact (marked_modify fun e => mark_takeDamage e _).trans (marked_credit _ _)
  · rw [hit_of_not hland]
    exact fun _ => rfl

/-- Whether a projectile strikes does not change as long as nobody moves. -/
theorem strikes_congr (h : m.Marked m') (x : Hit F) : m'.strikes x = m.strikes x := by
  have hteam : m'.casterTeam x.1 = m.casterTeam x.1 := by
    have hmark := h x.1.casterId
    unfold casterTeam
    rcases hm : m.find x.1.casterId with _ | e
    · rw [hm] at hmark
      rw [Option.map_eq_none_iff.mp hmark]
    · rw [hm] at hmark
      rcases Option.map_eq_some_iff.mp hmark with ⟨e', he', heq⟩
      rw [he']
      exact congrArg (fun k => k.2.1) heq
  have hmark := h x.2
  unfold strikes test
  rcases hm : m.find x.2 with _ | e
  · rw [hm] at hmark
    rw [Option.map_eq_none_iff.mp hmark]
    rfl
  · rw [hm] at hmark
    rcases Option.map_eq_some_iff.mp hmark with ⟨e', he', heq⟩
    have hteam' : e'.team = e.team := congrArg (fun k => k.2.1) heq
    have hpos : e'.base.pos = e.base.pos := congrArg (fun k => k.2.2) heq
    rw [he', Option.any_some, Option.any_some, hteam, hteam']
    unfold inReach
    rw [hpos]

theorem mem_ids_of_strikes (h : m.strikes x = true) : x.2 ∈ m.ids := by
  unfold strikes test at h
  rcases hm : m.find x.2 with _ | e
  · rw [hm] at h
    cases h
  · exact mem_ids_iff.mpr ⟨e, hm⟩

/-- Nobody is struck by a projectile of its own. -/
theorem casterId_ne_of_strikes (h : m.strikes x = true) : x.1.casterId ≠ x.2 := by
  intro heq
  unfold strikes test casterTeam at h
  rw [heq] at h
  rcases hm : m.find x.2 with _ | e
  · rw [hm] at h
    cases h
  · rw [hm] at h
    simp at h

theorem killer_ne (h : m.strikes x = true) : ∀ c ∈ m.killer x, x.2 ≠ c := by
  intro c hc
  unfold killer at hc
  split_ifs at hc
  · cases hc
    exact (casterId_ne_of_strikes h).symm
  · cases hc

@[simp] theorem ids_hit (m : EntityManager F) (x : Hit F) : (m.hit x).ids = m.ids := by
  by_cases hland : m.strikes x = true ∧ 0 < m.hpOf x.2
  · rw [hit_eq hland.1 hland.2]
    unfold credit
    cases m.killer x with
    | none => exact ids_modify
    | some c => exact ids_modify.trans ids_modify
  · rw [hit_of_not hland]

/-- The hit points after a hit, but for those of a hero that it lifts a level. -/
theorem hpOf_hit (hstrikes : m.strikes x = true) (halive : 0 < m.hpOf x.2)
    (hsettled : m.killer x = some id → ∀ e ∈ m.find id, e.Settled 1) :
    (m.hit x).hpOf id = if id = x.2 then max 0 (m.hpOf id - x.1.damage) else m.hpOf id := by
  have hcredit : (m.hit x).hpOf id = (m.modify x.2 (.takeDamage x.1.damage)).hpOf id := by
    rw [hit_eq hstrikes halive]
    unfold hpOf
    rw [find_credit]
    split_ifs with hkiller
    · have hne : id ≠ x.2 := (killer_ne hstrikes id hkiller).symm
      rw [find_modify_of_ne hne]
      rcases hfind : m.find id with _ | e
      · rfl
      · exact (hsettled hkiller e hfind).base_addKill Nat.one_pos
    · simp
  rw [hcredit]
  split_ifs with hid
  · rw [hid]
    exact hpOf_modify_of_blow fun e => Entity.base_takeDamage e _
  · exact hpOf_modify_of_ne hid

end Strikes

/-! ## The condition -/

section Undisputed

variable [FloatOps F]

/-- Who gives how much damage. -/
def share (x : Hit F) : UInt64 × ℕ := (x.1.casterId, x.1.damage)

/-- The shares of some hits in the damage that an entity takes. -/
def sharesOn (m : EntityManager F) (hits : List (Hit F)) (id : UInt64) : List (UInt64 × ℕ) :=
  (hits.filter fun x => x.2 = id && m.strikes x).map share

/-- Of how many entities the caster may be the killer, with so many hit points left to each. -/
def possibleKills (m : EntityManager F) (left : UInt64 → ℤ) (hits : List (Hit F))
    (casterId : UInt64) : ℕ :=
  m.ids.countP fun id => MayTip (left id) (m.sharesOn hits id) casterId

/-- Nobody may be killed by one caster or by another, and nobody who is hit gains a level by its
own kills. -/
structure Undisputed (m : EntityManager F) (left : UInt64 → ℤ) (hits : List (Hit F)) : Prop where
  tips : ∀ id ∈ m.ids, OneTips (left id) (m.sharesOn hits id)
  settled : ∀ id ∈ m.ids, m.sharesOn hits id ≠ [] →
    ∀ e ∈ m.find id, e.Settled (m.possibleKills left hits id)

instance (m : EntityManager F) (left : UInt64 → ℤ) (hits : List (Hit F)) :
    Decidable (m.Undisputed left hits) :=
  have : Decidable (∀ id ∈ m.ids, OneTips (left id) (m.sharesOn hits id)) := List.decidableBAll _ _
  have : Decidable (∀ id ∈ m.ids, m.sharesOn hits id ≠ [] →
      ∀ e ∈ m.find id, e.Settled (m.possibleKills left hits id)) := List.decidableBAll _ _
  decidable_of_iff ((∀ id ∈ m.ids, OneTips (left id) (m.sharesOn hits id)) ∧
      ∀ id ∈ m.ids, m.sharesOn hits id ≠ [] →
        ∀ e ∈ m.find id, e.Settled (m.possibleKills left hits id))
    ⟨fun h => ⟨h.1, h.2⟩, fun h => ⟨h.tips, h.settled⟩⟩

variable {m m' : EntityManager F} {x y : Hit F} {id c : UInt64} {hits hits' : List (Hit F)}
  {left left' : UInt64 → ℤ}

theorem sharesOn_congr (h : m.Marked m') (hits : List (Hit F)) (id : UInt64) :
    m'.sharesOn hits id = m.sharesOn hits id := by
  unfold sharesOn
  have hstrikes : m'.strikes = m.strikes := funext fun x => strikes_congr h x
  rw [hstrikes]

theorem sharesOn_perm (hperm : hits.Perm hits') (id : UInt64) :
    (m.sharesOn hits id).Perm (m.sharesOn hits' id) :=
  (hperm.filter _).map _

/-- The hit strikes that entity. -/
theorem sharesOn_cons_of_strikes (hstrikes : m.strikes x = true) :
    m.sharesOn (x :: hits) x.2 = share x :: m.sharesOn hits x.2 := by
  unfold sharesOn
  rw [List.filter_cons_of_pos (by simp [hstrikes]), List.map_cons]

/-- It does not. -/
theorem sharesOn_cons_of_not (h : ¬ (id = x.2 ∧ m.strikes x = true)) :
    m.sharesOn (x :: hits) id = m.sharesOn hits id := by
  unfold sharesOn
  rw [List.filter_cons_of_neg]
  intro hboth
  rw [Bool.and_eq_true, decide_eq_true_eq] at hboth
  exact h ⟨hboth.1.symm, hboth.2⟩

theorem sharesOn_cons_ne_nil (h : m.sharesOn hits id ≠ []) : m.sharesOn (x :: hits) id ≠ [] := by
  by_cases hboth : id = x.2 ∧ m.strikes x = true
  · rw [hboth.1, sharesOn_cons_of_strikes hboth.2]
    exact List.cons_ne_nil _ _
  · rw [sharesOn_cons_of_not hboth]
    exact h

theorem possibleKills_perm (hperm : hits.Perm hits') (c : UInt64) :
    m.possibleKills left hits c = m.possibleKills left hits' c := by
  unfold possibleKills
  congr 1
  funext id
  rw [decide_eq_decide]
  exact ⟨.perm (sharesOn_perm hperm id), .perm (sharesOn_perm hperm.symm id)⟩

theorem Undisputed.perm (h : m.Undisputed left hits) (hperm : hits.Perm hits') :
    m.Undisputed left hits' where
  tips id hid := (h.tips id hid).perm (sharesOn_perm hperm id)
  settled id hid hshares := by
    rw [← possibleKills_perm hperm]
    apply h.settled id hid
    intro hnil
    apply hshares
    rw [← List.perm_nil, ← hnil]
    exact sharesOn_perm hperm.symm id

/-- Hits on entities that are where they were, with as many hit points left. -/
theorem Undisputed.congr (h : m.Undisputed left hits) (hmarked : m.Marked m') (hids : m'.ids = m.ids)
    (hleft : ∀ id, max 0 (left' id) = max 0 (left id))
    (hsettled : ∀ id kills, (∀ e ∈ m.find id, e.Settled kills) → ∀ e ∈ m'.find id, e.Settled kills) :
    m'.Undisputed left' hits := by
  have htip : ∀ {id c} {l : List (UInt64 × ℕ)}, MayTip (left' id) l c ↔ MayTip (left id) l c := by
    intro id c l
    rw [← mayTip_max_iff, hleft, mayTip_max_iff]
  have hkills : ∀ c, m'.possibleKills left' hits c = m.possibleKills left hits c := by
    intro c
    unfold possibleKills
    rw [hids]
    congr 1
    funext id
    rw [decide_eq_decide, sharesOn_congr hmarked]
    exact htip
  constructor
  · intro id hid b _ b' _ hb hb'
    rw [hids] at hid
    rw [sharesOn_congr hmarked, htip] at hb hb'
    exact (h.tips id hid).eq hb hb'
  · intro id hid hshares
    rw [hids] at hid
    rw [sharesOn_congr hmarked] at hshares
    rw [hkills]
    exact hsettled id _ (h.settled id hid hshares)

/-- Whoever a hit kills counts among those that the caster may kill. -/
theorem possibleKills_pos (hstrikes : m.strikes x = true) (halive : 0 < m.hpOf x.2)
    (hkiller : m.killer x = some c) : 0 < m.possibleKills m.hpOf (x :: hits) c := by
  unfold killer at hkiller
  split_ifs at hkiller with hle
  cases hkiller
  have hid : x.2 ∈ m.ids := mem_ids_of_strikes hstrikes
  unfold possibleKills
  rw [List.countP_pos_iff]
  refine ⟨x.2, hid, ?_⟩
  rw [decide_eq_true_eq, sharesOn_cons_of_strikes hstrikes]
  exact mayTip_of_le (b := share x) halive hle

/-- Who is hit later gains no level now. -/
theorem Undisputed.settled_one (h : m.Undisputed m.hpOf (x :: hits)) (hstrikes : m.strikes x = true)
    (halive : 0 < m.hpOf x.2) (hshares : m.sharesOn hits id ≠ []) (hkiller : m.killer x = some id) :
    ∀ e ∈ m.find id, e.Settled 1 := by
  intro e he
  have hpos : 0 < m.possibleKills m.hpOf (x :: hits) id := possibleKills_pos hstrikes halive hkiller
  exact (h.settled id (mem_ids_iff.mpr ⟨e, he⟩) (sharesOn_cons_ne_nil hshares) e he).mono hpos

/-- The hit points of an entity that is hit later. -/
theorem Undisputed.hpOf_hit (h : m.Undisputed m.hpOf (x :: hits)) (hstrikes : m.strikes x = true)
    (halive : 0 < m.hpOf x.2) (hshares : m.sharesOn hits id ≠ []) :
    (m.hit x).hpOf id = if id = x.2 then max 0 (m.hpOf id - x.1.damage) else m.hpOf id :=
  EntityManager.hpOf_hit hstrikes halive (h.settled_one hstrikes halive hshares)

/-- Who may kill after a hit might have killed before it. -/
theorem Undisputed.mayTip_of_hit (h : m.Undisputed m.hpOf (x :: hits))
    (htip : MayTip ((m.hit x).hpOf id) (m.sharesOn hits id) c) :
    MayTip (m.hpOf id) (m.sharesOn (x :: hits) id) c := by
  by_cases hland : m.strikes x = true ∧ 0 < m.hpOf x.2
  · have hshares : m.sharesOn hits id ≠ [] := by
      rcases htip.mem with ⟨b, hb, _⟩
      exact List.ne_nil_of_mem hb
    rw [h.hpOf_hit hland.1 hland.2 hshares] at htip
    by_cases hid : id = x.2
    · rw [if_pos hid, hid] at htip
      rw [hid, sharesOn_cons_of_strikes hland.1]
      exact MayTip.cons_of_left (b := share x) htip
    · rw [if_neg hid] at htip
      rw [sharesOn_cons_of_not fun hboth => hid hboth.1]
      exact htip
  · rw [hit_of_not hland] at htip
    by_cases hid : id = x.2 ∧ m.strikes x = true
    · rw [hid.1, sharesOn_cons_of_strikes hid.2]
      rw [hid.1] at htip
      exact htip.weaken
    · rw [sharesOn_cons_of_not hid]
      exact htip

/-- The kills that may come grow no more. -/
theorem Undisputed.possibleKills_hit_le (h : m.Undisputed m.hpOf (x :: hits)) (c : UInt64) :
    (m.hit x).possibleKills (m.hit x).hpOf hits c ≤ m.possibleKills m.hpOf (x :: hits) c := by
  unfold possibleKills
  rw [ids_hit]
  apply List.countP_mono_left
  intro id _ htip
  rw [decide_eq_true_eq, sharesOn_congr (marked_hit m x)] at htip
  exact decide_eq_true (h.mayTip_of_hit htip)

/-- And a kill that has come is one less. -/
theorem Undisputed.possibleKills_hit_lt (h : m.Undisputed m.hpOf (x :: hits)) (hstrikes : m.strikes x = true)
    (halive : 0 < m.hpOf x.2) (hkiller : m.killer x = some c) :
    (m.hit x).possibleKills (m.hit x).hpOf hits c < m.possibleKills m.hpOf (x :: hits) c := by
  unfold possibleKills
  rw [ids_hit]
  have hid : x.2 ∈ m.ids := mem_ids_of_strikes hstrikes
  unfold killer at hkiller
  split_ifs at hkiller with hle
  cases hkiller
  refine countP_lt (fun id _ htip => ?_) hid ?_ ?_
  · rw [decide_eq_true_eq, sharesOn_congr (marked_hit m x)] at htip
    exact decide_eq_true (h.mayTip_of_hit htip)
  · rw [decide_eq_false_iff_not, sharesOn_congr (marked_hit m x)]
    intro htip
    -- the dead are killed by nobody
    have hpos := htip.pos
    have hshares : m.sharesOn hits x.2 ≠ [] := by
      rcases htip.mem with ⟨b, hb, _⟩
      exact List.ne_nil_of_mem hb
    rw [h.hpOf_hit hstrikes halive hshares, if_pos rfl] at hpos
    omega
  · rw [decide_eq_true_eq, sharesOn_cons_of_strikes hstrikes]
    exact mayTip_of_le (b := share x) halive hle

/-- A hit leaves the rest undisputed. -/
theorem Undisputed.hit (h : m.Undisputed m.hpOf (x :: hits)) : (m.hit x).Undisputed (m.hit x).hpOf hits where
  tips id hid := by
    rw [ids_hit] at hid
    rw [sharesOn_congr (marked_hit m x)]
    intro b _ b' _ hb hb'
    exact (h.tips id hid).eq (h.mayTip_of_hit hb) (h.mayTip_of_hit hb')
  settled id hid hshares e' he' := by
    rw [ids_hit] at hid
    rw [sharesOn_congr (marked_hit m x)] at hshares
    have hsettled := h.settled id hid (sharesOn_cons_ne_nil hshares)
    have hle := h.possibleKills_hit_le id
    by_cases hland : m.strikes x = true ∧ 0 < m.hpOf x.2
    · rw [hit_eq hland.1 hland.2, Option.mem_def, find_credit] at he'
      rcases Option.map_eq_some_iff.mp he' with ⟨e₁, he₁, rfl⟩
      -- the blow changes no level
      have hblow : e₁.Settled (m.possibleKills m.hpOf (x :: hits) id) := by
        rcases find_of_modify he₁ with ⟨e, he, ⟨_, rfl⟩ | ⟨_, rfl⟩⟩
        · exact (hsettled e he).takeDamage _
        · exact hsettled e₁ he
      split_ifs with hkiller
      · have hlt := h.possibleKills_hit_lt hland.1 hland.2 hkiller
        exact (hblow.mono hlt).addKill
      · exact hblow.mono hle
    · rw [hit_of_not hland] at he' hle ⊢
      exact (hsettled e' he').mono hle

/-! ### Two hits -/

/-- Two hits on one entity are one, with whatever kill there is for the one that it is. -/
theorem hit_hit_of_same (hx : m.strikes x = true) (hy : m.strikes y = true) (hxy : x.2 = y.2)
    (halive : 0 < m.hpOf x.2) :
    (m.hit x).hit y = (m.modify x.2 (.takeDamage (x.1.damage + y.1.damage))).credit
      (if m.hpOf x.2 ≤ x.1.damage then some x.1.casterId
        else if m.hpOf x.2 ≤ (x.1.damage + y.1.damage : ℕ) then some y.1.casterId else none) := by
  have hne : m.killer x ≠ some x.2 := fun heq => killer_ne hx x.2 heq rfl
  have hhp : (m.hit x).hpOf y.2 = max 0 (m.hpOf x.2 - x.1.damage) := by
    rw [← hxy, hpOf_hit hx halive fun heq => absurd heq hne, if_pos rfl]
  have hy' : (m.hit x).strikes y = true := by
    rw [strikes_congr (marked_hit m x)]
    exact hy
  by_cases hkill : m.hpOf x.2 ≤ x.1.damage
  · -- the second finds it dead
    have hdead : ¬ ((m.hit x).strikes y = true ∧ 0 < (m.hit x).hpOf y.2) := by
      rw [hhp]
      omega
    rw [hit_of_not hdead, hit_eq hx halive, if_pos hkill]
    unfold killer
    rw [if_pos hkill]
    congr 1
    apply modify_congr
    intro e he
    have hhpe : e.base.hp ≤ x.1.damage := by
      unfold hpOf at hkill
      rw [he] at hkill
      exact hkill
    apply Entity.takeDamage_of_le hhpe
    push_cast
    omega
  · have hlives : 0 < (m.hit x).hpOf y.2 := by
      rw [hhp]
      omega
    have hnone : m.killer x = none := if_neg hkill
    have hkiller : (m.hit x).killer y =
        if m.hpOf x.2 ≤ (x.1.damage + y.1.damage : ℕ) then some y.1.casterId else none := by
      unfold killer
      rw [hhp]
      split_ifs with h₁ h₂ h₂
      · rfl
      · omega
      · omega
      · rfl
    rw [hit_eq hy' hlives, hkiller, hit_eq hx halive, hnone, if_neg hkill, ← hxy]
    congr 1
    change (m.modify x.2 (.takeDamage x.1.damage)).modify x.2 (.takeDamage y.1.damage) = _
    rw [modify_modify]
    congr 1
    funext e
    exact Entity.takeDamage_takeDamage e _ _

/-- It does not matter which of two hits on one entity comes first. -/
theorem Undisputed.hit_comm_of_same (h : m.Undisputed m.hpOf (x :: y :: hits)) (hx : m.strikes x = true)
    (hy : m.strikes y = true) (hxy : x.2 = y.2) (halive : 0 < m.hpOf x.2) :
    (m.hit x).hit y = (m.hit y).hit x := by
  have hshares : m.sharesOn (x :: y :: hits) x.2 = share x :: share y :: m.sharesOn hits x.2 := by
    rw [sharesOn_cons_of_strikes hx, hxy, sharesOn_cons_of_strikes hy]
  have htips := h.tips x.2 (mem_ids_of_strikes hx)
  rw [hshares] at htips
  have hswap : (share y :: share x :: m.sharesOn hits x.2).Perm
      (share x :: share y :: m.sharesOn hits x.2) := .swap _ _ _
  have hfirst : m.hpOf x.2 ≤ x.1.damage →
      MayTip (m.hpOf x.2) (share x :: share y :: m.sharesOn hits x.2) x.1.casterId :=
    fun hle => mayTip_of_le (b := share x) halive hle
  have hsecond : m.hpOf x.2 ≤ y.1.damage →
      MayTip (m.hpOf x.2) (share x :: share y :: m.sharesOn hits x.2) y.1.casterId :=
    fun hle => (mayTip_of_le (b := share y) halive hle).perm hswap
  -- each of them kills if it comes second, and together they do
  have hlast : ¬ m.hpOf x.2 ≤ x.1.damage → m.hpOf x.2 ≤ (x.1.damage + y.1.damage : ℕ) →
      MayTip (m.hpOf x.2) (share x :: share y :: m.sharesOn hits x.2) y.1.casterId := by
    intro hlives hle
    apply MayTip.cons
    apply mayTip_of_le (b := share y)
    · change 0 < m.hpOf x.2 - (x.1.damage : ℤ)
      omega
    · change m.hpOf x.2 - (x.1.damage : ℤ) ≤ y.1.damage
      push_cast at hle
      omega
  have hlast' : ¬ m.hpOf x.2 ≤ y.1.damage → m.hpOf x.2 ≤ (x.1.damage + y.1.damage : ℕ) →
      MayTip (m.hpOf x.2) (share x :: share y :: m.sharesOn hits x.2) x.1.casterId := by
    intro hlives hle
    refine MayTip.perm hswap (MayTip.cons ?_)
    apply mayTip_of_le (b := share x)
    · change 0 < m.hpOf x.2 - (y.1.damage : ℤ)
      omega
    · change m.hpOf x.2 - (y.1.damage : ℤ) ≤ x.1.damage
      push_cast at hle
      omega
  rw [hit_hit_of_same hx hy hxy halive, hit_hit_of_same hy hx hxy.symm (hxy ▸ halive), ← hxy,
    Nat.add_comm y.1.damage]
  congr 1
  by_cases hkill : m.hpOf x.2 ≤ x.1.damage
  · by_cases hkill' : m.hpOf x.2 ≤ y.1.damage
    · rw [if_pos hkill, if_pos hkill', htips.eq (hfirst hkill) (hsecond hkill')]
    · have hboth : m.hpOf x.2 ≤ (x.1.damage + y.1.damage : ℕ) := by
        push_cast
        omega
      rw [if_pos hkill, if_neg hkill', if_pos hboth]
  · by_cases hkill' : m.hpOf x.2 ≤ y.1.damage
    · have hboth : m.hpOf x.2 ≤ (x.1.damage + y.1.damage : ℕ) := by
        push_cast
        omega
      rw [if_neg hkill, if_pos hkill', if_pos hboth]
    · rw [if_neg hkill, if_neg hkill']
      split_ifs with hboth
      · rw [htips.eq (hlast hkill hboth) (hlast' hkill' hboth)]
      · rfl

/-- A hit on another entity changes nothing for the hit that is to come. -/
theorem Undisputed.hpOf_of_ne (h : m.Undisputed m.hpOf (x :: y :: hits)) (hy : m.strikes y = true)
    (hxy : x.2 ≠ y.2) : (m.hit x).hpOf y.2 = m.hpOf y.2 := by
  by_cases hland : m.strikes x = true ∧ 0 < m.hpOf x.2
  · have hshares : m.sharesOn (y :: hits) y.2 ≠ [] := by
      rw [sharesOn_cons_of_strikes hy]
      exact List.cons_ne_nil _ _
    rw [h.hpOf_hit hland.1 hland.2 hshares, if_neg hxy.symm]
  · rw [hit_of_not hland]

/-- Nor for what it does. -/
theorem Undisputed.hit_hit_of_ne (h : m.Undisputed m.hpOf (x :: y :: hits)) (hx : m.strikes x = true)
    (hy : m.strikes y = true) (hxy : x.2 ≠ y.2) (halive : 0 < m.hpOf x.2) (halive' : 0 < m.hpOf y.2) :
    (m.hit x).hit y = (((m.modify x.2 (.takeDamage x.1.damage)).modify y.2
      (.takeDamage y.1.damage)).credit (m.killer x)).credit (m.killer y) := by
  have hhp := h.hpOf_of_ne hy hxy
  have hy' : (m.hit x).strikes y = true := by
    rw [strikes_congr (marked_hit m x)]
    exact hy
  have hkiller : (m.hit x).killer y = m.killer y := by
    unfold killer
    rw [hhp]
  have hshares : m.sharesOn (y :: hits) y.2 ≠ [] := by
    rw [sharesOn_cons_of_strikes hy]
    exact List.cons_ne_nil _ _
  rw [hit_eq hy' (hhp ▸ halive'), hkiller, hit_eq hx halive, credit_takeDamage]
  intro hcredit e he
  rw [Option.mem_def, find_modify_of_ne hxy.symm] at he
  exact h.settled_one hx halive hshares hcredit e he

/-- Two hits do the same in any order. -/
theorem Undisputed.hit_comm (h : m.Undisputed m.hpOf (x :: y :: hits)) :
    (m.hit x).hit y = (m.hit y).hit x := by
  have h' : m.Undisputed m.hpOf (y :: x :: hits) := h.perm (.swap y x hits)
  have hmiss : ∀ {x y : Hit F}, ¬ m.strikes x = true → (m.hit x).hit y = (m.hit y).hit x := by
    intro x y hnot
    have hnot' : ¬ (m.hit y).strikes x = true := by
      rw [strikes_congr (marked_hit m y)]
      exact hnot
    rw [hit_of_not fun hboth => hnot hboth.1, hit_of_not fun hboth => hnot' hboth.1]
  by_cases hx : m.strikes x = true
  · by_cases hy : m.strikes y = true
    · by_cases hxy : x.2 = y.2
      · by_cases halive : 0 < m.hpOf x.2
        · exact h.hit_comm_of_same hx hy hxy halive
        · have halive' : ¬ 0 < m.hpOf y.2 := hxy ▸ halive
          rw [hit_of_not fun hboth => halive hboth.2, hit_of_not fun hboth => halive' hboth.2,
            hit_of_not fun hboth => halive hboth.2]
      · have hhp := h.hpOf_of_ne hy hxy
        have hhp' := h'.hpOf_of_ne hx fun heq => hxy heq.symm
        by_cases halive : 0 < m.hpOf x.2
        · by_cases halive' : 0 < m.hpOf y.2
          · rw [h.hit_hit_of_ne hx hy hxy halive halive',
              h'.hit_hit_of_ne hy hx (Ne.symm hxy) halive' halive, modify_comm hxy, credit_credit]
          · have hdead : ¬ 0 < (m.hit x).hpOf y.2 := hhp ▸ halive'
            rw [hit_of_not fun hboth => hdead hboth.2, hit_of_not fun hboth => halive' hboth.2]
        · have hdead : ¬ 0 < (m.hit y).hpOf x.2 := hhp' ▸ halive
          rw [hit_of_not fun hboth => halive hboth.2, hit_of_not fun hboth => hdead hboth.2]
    · exact (hmiss hy).symm
  · exact hmiss hx

/-- Undisputed hits do the same in every order. -/
theorem foldl_hit_perm (h : m.Undisputed m.hpOf hits) (hperm : hits.Perm hits') :
    hits.foldl hit m = hits'.foldl hit m :=
  foldl_eq_of_perm (J := fun m hits => m.Undisputed m.hpOf hits) (fun _ _ _ hperm h => h.perm hperm)
    (fun _ _ _ h => h.hit) (fun _ _ _ _ h => h.hit_comm) hperm h

end Undisputed

/-! ## The loop over the projectiles -/

section Loop

variable [FloatOps F]

/-- The projectile with the id, if it has arrived. -/
def landed (m : EntityManager F) (id : UInt64) : Option (Projectile F) :=
  match m.find id with
  | some (.projectile p) => if p.reached then some p else none
  | _ => none

/-- What the loops look at: every candidate for every projectile that has arrived. -/
def hitsOf (m : EntityManager F) (projectiles candidates : List UInt64) : List (Hit F) :=
  projectiles.filterMap m.landed ×ˢ candidates

variable {m m' : EntityManager F} {heroes minions towers heroes' minions' towers' : List UInt64}
  {projectiles projectiles' candidates candidates' : List UInt64}

omit [FloatOps F] in
theorem landed_congr (h : m.KeepsProjectiles m') : m'.landed = m.landed := by
  funext id
  have hsame := h id
  unfold landed
  rcases hm : m.find id with _ | (_ | _ | _ | p)
  case some.projectile => rw [(hsame p).mpr hm]
  all_goals
    rcases hm' : m'.find id with _ | (_ | _ | _ | q)
    case some.projectile =>
      rw [(hsame q).mp hm'] at hm
      cases hm
    all_goals rfl

omit [FloatOps F] in
theorem hitsOf_perm (hperm : projectiles.Perm projectiles') (hperm' : candidates.Perm candidates') :
    (m.hitsOf projectiles candidates).Perm (m.hitsOf projectiles' candidates') :=
  (hperm.filterMap _).product hperm'

/-- The turn of a projectile is a loop over its hits. -/
theorem projectileTurn_eq_foldl (heroes minions towers : List UInt64) (m : EntityManager F)
    (id : UInt64) : projectileTurn heroes minions towers m id =
      (((m.landed id).elim [] fun p => (heroes ++ minions ++ towers).map (Prod.mk p)) :
        List (Hit F)).foldl hit m := by
  rw [projectileTurn_eq]
  unfold landed
  rcases m.find id with _ | (_ | _ | _ | p)
  case some.projectile =>
    dsimp only
    split_ifs
    · rw [Option.elim_some, List.foldl_map]
      rfl
    · rfl
  all_goals rfl

/-- The nested loops are one loop over the hits. -/
theorem foldl_projectileTurn_eq
    (htargets : ∀ id ∈ heroes ++ minions ++ towers, m.NoProjectile id) (ids : List UInt64) :
    ids.foldl (projectileTurn heroes minions towers) m =
      (m.hitsOf ids (heroes ++ minions ++ towers)).foldl hit m := by
  induction ids generalizing m with
  | nil => rfl
  | cons id ids ih =>
    have hkeep : KeepsProjectiles m (projectileTurn heroes minions towers m id) :=
      keepsProjectiles_projectileTurn htargets id
    have hcons : m.hitsOf (id :: ids) (heroes ++ minions ++ towers) =
        ((m.landed id).elim [] fun p => (heroes ++ minions ++ towers).map (Prod.mk p)) ++
          m.hitsOf ids (heroes ++ minions ++ towers) := by
      unfold hitsOf
      rw [List.filterMap_cons]
      rcases m.landed id with _ | p
      · rfl
      · exact List.product_cons p _ _
    rw [List.foldl_cons, ih fun j hj => hkeep.noProjectile (htargets j hj), hcons,
      List.foldl_append, ← projectileTurn_eq_foldl]
    unfold hitsOf
    rw [landed_congr hkeep]

/-- Undisputed projectiles do the same in every order. -/
theorem foldl_projectileTurn_perm
    (h : m.Undisputed m.hpOf (m.hitsOf projectiles (heroes ++ minions ++ towers)))
    (htargets : ∀ id ∈ heroes ++ minions ++ towers, m.NoProjectile id)
    (hprojectiles : projectiles.Perm projectiles') (hheroes : heroes.Perm heroes')
    (hminions : minions.Perm minions') (htowers : towers.Perm towers') :
    projectiles.foldl (projectileTurn heroes minions towers) m =
      projectiles'.foldl (projectileTurn heroes' minions' towers') m := by
  have hcandidates : (heroes ++ minions ++ towers).Perm (heroes' ++ minions' ++ towers') :=
    (hheroes.append hminions).append htowers
  have htargets' : ∀ id ∈ heroes' ++ minions' ++ towers', m.NoProjectile id :=
    fun id hid => htargets id (hcandidates.mem_iff.mpr hid)
  rw [foldl_projectileTurn_eq htargets, foldl_projectileTurn_eq htargets']
  exact foldl_hit_perm h (hitsOf_perm hprojectiles hcandidates)

end Loop

end EntityManager

end Gmaker.Realtime
