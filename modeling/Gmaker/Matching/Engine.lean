import Gmaker.Matching.Pool

/-!
# Gmaker.Matching.Engine — finding two teams

`doMatch` goes through the queue of a mode, and for each ticket that is not used yet, the
anchor, asks the pool for tickets near it. Where there are enough, the nearest are dealt out
to two teams. The pool is asked again for every anchor while requests go on, so that one
anchor is one step here and what the pool answered is an argument of it.
-/

namespace Gmaker.Matching

open Gmaker.Lib

/-- `MatchCandidate`. -/
structure Candidate where
  teamA : List Ptr
  teamB : List Ptr
deriving DecidableEq

/-- Its tickets, the first team's before the second's. -/
def Candidate.tickets (c : Candidate) : List Ptr := c.teamA ++ c.teamB

namespace Engine

/-- `getTeamSize`. -/
def getTeamSize (mode : Int32) : Int32 :=
  if mode = 1 then 5 else if mode = 2 then 3 else if mode = 3 then 1 else defaultTeamSize

/-- How many tickets make a match, `int(teamSize * 2)`. -/
def totalNeeded (mode : Int32) : ℕ := (getTeamSize mode * 2).toInt.toNat

/-- The modes a tick goes through. -/
def modes : List Int32 := [1, 2, 3]

/-- The radius around an anchor. -/
def anchorRadius (queueLen : ℕ) (waitMs : Int32) (relaxed : Bool) : Int32 :=
  let radius := searchRadius queueLen waitMs
  if relaxed then
    let radius := radius * 3 / 2
    if maxSearchRadius < radius then maxSearchRadius else radius
  else radius

/-- The entries at even places. -/
def everyOther {α : Type} : List α → List α
  | [] => []
  | [a] => [a]
  | a :: _ :: l => a :: everyOther l

section Search

variable (S : SortSlice) (h : Heap)

/-- The anchor with the best of what is near, `none` where there are not enough. -/
def pick (needed : ℕ) (used : List UInt64) (anchor : Ptr) (nearby : List Ptr) : Option (List Ptr) :=
  let available := nearby.filter fun p => !used.contains (h p).uid && (h p).uid != (h anchor).uid
  if available.length + 1 < needed then none
  else
    let available := S.sort
      (fun a b => (h anchor).matchQuality (h a) < (h anchor).matchQuality (h b)) available
    let picked := anchor :: available.take (needed - 1)
    if picked.length < needed then none else some picked

/-- The picked tickets by falling MMR, dealt out in turn. -/
def deal (picked : List Ptr) : Candidate :=
  let picked := S.sort (fun a b => (h b).mmr < (h a).mmr) picked
  { teamA := everyOther picked, teamB := everyOther picked.tail }

/-- Where the loop of `doMatch` is. -/
structure Search where
  used : List UInt64 := []
  results : List Candidate := []
deriving DecidableEq

/-- One round of the loop of `doMatch`. -/
def Search.anchor (s : Search) (needed : ℕ) (anchor : Ptr) (nearby : List Ptr) : Search :=
  if s.used.contains (h anchor).uid then s
  else
    match pick S h needed s.used anchor nearby with
    | none => s
    | some picked =>
      { used := s.used ++ picked.map fun p => (h p).uid, results := s.results ++ [deal S h picked] }

end Search

/-! ## The shape of a candidate -/

/-- The number of players of a team. -/
def teamLength (mode : Int32) : ℕ := (getTeamSize mode).toInt.toNat

theorem teamLength_cases (mode : Int32) :
    (teamLength mode = 5 ∧ totalNeeded mode = 10) ∨ (teamLength mode = 3 ∧ totalNeeded mode = 6) ∨
      (teamLength mode = 1 ∧ totalNeeded mode = 2) := by
  unfold teamLength totalNeeded getTeamSize
  split_ifs
  · exact .inl ⟨rfl, rfl⟩
  · exact .inr (.inl ⟨rfl, rfl⟩)
  · exact .inr (.inr ⟨rfl, rfl⟩)
  · exact .inl ⟨rfl, rfl⟩

theorem totalNeeded_eq (mode : Int32) : totalNeeded mode = 2 * teamLength mode := by
  rcases teamLength_cases mode with ⟨hlen, hneed⟩ | ⟨hlen, hneed⟩ | ⟨hlen, hneed⟩
  all_goals rw [hlen, hneed]

theorem teamLength_pos (mode : Int32) : 0 < teamLength mode := by
  rcases teamLength_cases mode with ⟨hlen, -⟩ | ⟨hlen, -⟩ | ⟨hlen, -⟩
  all_goals rw [hlen]; decide

/-- Every other entry, and the others. -/
theorem everyOther_perm {α : Type} (l : List α) : (everyOther l ++ everyOther l.tail).Perm l := by
  induction l using everyOther.induct with
  | case1 => exact .refl _
  | case2 a => exact .refl _
  | case3 a b l ih =>
    cases l with
    | nil => exact .refl _
    | cons c l =>
      have hrest : (everyOther (c :: l) ++ everyOther l).Perm (c :: l) := ih
      change (a :: everyOther (c :: l) ++ everyOther (b :: c :: l)).Perm (a :: b :: c :: l)
      have hsecond : everyOther (b :: c :: l) = b :: everyOther l := rfl
      rw [hsecond, List.cons_append]
      exact (List.perm_middle.trans (hrest.cons b)).cons a

theorem length_everyOther {α : Type} (l : List α) : (everyOther l).length = (l.length + 1) / 2 := by
  induction l using everyOther.induct with
  | case1 => simp [everyOther]
  | case2 a => simp [everyOther]
  | case3 a b l ih =>
    unfold everyOther
    simp only [List.length_cons, ih]
    omega

variable {S : SortSlice} {h : Heap}

/-- A candidate consists of what was picked. -/
theorem deal_perm (picked : List Ptr) : (deal S h picked).tickets.Perm picked :=
  (everyOther_perm _).trans (S.perm _ picked)

/-- The teams are of one size when the number is even. -/
theorem length_deal {picked : List Ptr} {n : ℕ} (hlen : picked.length = 2 * n) :
    (deal S h picked).teamA.length = n ∧ (deal S h picked).teamB.length = n := by
  unfold deal
  simp only [length_everyOther, List.length_tail, S.length_sort, hlen]
  omega

/-- The right number is picked: the anchor and tickets that are near it. -/
theorem of_pick {needed : ℕ} {used : List UInt64} {anchor : Ptr} {nearby picked : List Ptr}
    (hneeded : 0 < needed) (hpick : pick S h needed used anchor nearby = some picked) :
    picked.length = needed ∧ ∀ p ∈ picked, p = anchor ∨ p ∈ nearby := by
  unfold pick at hpick
  simp only at hpick
  split_ifs at hpick with hfew hshort
  cases hpick
  constructor
  · rw [List.length_cons, List.length_take, S.length_sort] at hshort ⊢
    omega
  · intro p hp
    rcases List.mem_cons.mp hp with rfl | htake
    · exact .inl rfl
    · have hmem := S.mem_sort.mp (List.mem_of_mem_take htake)
      exact .inr (List.mem_filter.mp hmem).1

/-- Two teams of the mode's size, of tickets of the mode. -/
structure Formed (h : Heap) (fresh : Ptr) (c : Candidate) (mode : Int32) : Prop where
  teamA : c.teamA.length = teamLength mode
  teamB : c.teamB.length = teamLength mode
  tickets : ∀ p ∈ c.tickets, p < fresh ∧ (h p).mode = mode

/-- What a round of the loop adds is formed. -/
theorem Search.formed_anchor {s : Search} {fresh anchor : Ptr} {nearby : List Ptr} {mode : Int32}
    (hs : ∀ c ∈ s.results, Formed h fresh c mode) (hanchor : anchor < fresh ∧ (h anchor).mode = mode)
    (hnearby : ∀ p ∈ nearby, p < fresh ∧ (h p).mode = mode) :
    ∀ c ∈ (s.anchor S h (totalNeeded mode) anchor nearby).results, Formed h fresh c mode := by
  unfold Search.anchor
  split_ifs
  · exact hs
  · cases hpick : pick S h (totalNeeded mode) s.used anchor nearby with
    | none => exact hs
    | some picked =>
      have hpos : 0 < totalNeeded mode := by
        rw [totalNeeded_eq]
        exact Nat.mul_pos (by decide) (teamLength_pos mode)
      obtain ⟨hlen, hmem⟩ := of_pick hpos hpick
      rw [totalNeeded_eq] at hlen
      intro c hc
      rcases List.mem_append.mp hc with hold | hnew
      · exact hs c hold
      · rw [List.mem_singleton.mp hnew]
        obtain ⟨hA, hB⟩ := length_deal (S := S) (h := h) hlen
        refine ⟨hA, hB, fun p hp => ?_⟩
        rcases hmem p ((deal_perm picked).mem_iff.mp hp) with rfl | hnear
        · exact hanchor
        · exact hnearby p hnear

end Engine

end Gmaker.Matching
