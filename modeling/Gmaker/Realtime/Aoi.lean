import Gmaker.Lib.Assoc
import Gmaker.Lib.Filing

/-!
# Gmaker.Realtime.Aoi — the players near a point

`GridSpatialIndex` divides a map into cells. `Insert` drops a player whose cell is not on the grid,
while `QueryRange` moves the cells at the corners of its box onto the grid: a player at the far
border of the map, or beyond a border, is in no cell that any query looks at
(`queryRange_complete_iff`).

Coordinates are rationals. A conversion to `int` that does not fit has no value, and neither has
what depends on it.
-/

namespace Gmaker.Realtime.Aoi

open Gmaker.Lib

/-! ## The index -/

/-- The fraction is cut off. -/
def truncate (v : ℚ) : ℤ := if 0 ≤ v then ⌊v⌋ else ⌈v⌉

/-- `static_cast<int>` of a float. -/
def toInt (v : ℚ) : Option ℤ :=
  if -2 ^ 31 ≤ truncate v ∧ truncate v < 2 ^ 31 then some (truncate v) else none

/-- `GridSpatialIndex`: `cells` has `cols * rows` of them. -/
structure GridSpatialIndex where
  mapW : ℚ
  mapH : ℚ
  cellSize : ℚ
  cols : ℤ
  rows : ℤ
  cells : ℤ → List UInt64
  cols_pos : 0 < cols
  rows_pos : 0 < rows
  cellSize_ne : cellSize ≠ 0

def atLeastOne (n : ℤ) : ℤ := if n < 1 then 1 else n

theorem atLeastOne_pos (n : ℤ) : 0 < atLeastOne n := by
  unfold atLeastOne
  split_ifs
  · exact Int.one_pos
  · omega

namespace GridSpatialIndex

/-- The constructor. -/
def new (mapW mapH cellSize : ℚ) : Option GridSpatialIndex :=
  -- what is divided by zero is no number that fits
  if hne : cellSize = 0 then none
  else
    (toInt ⌈mapW / cellSize⌉).bind fun cols =>
      (toInt ⌈mapH / cellSize⌉).bind fun rows =>
        if atLeastOne cols * atLeastOne rows < 2 ^ 31 then
          some
            { mapW := mapW, mapH := mapH, cellSize := cellSize
              cols := atLeastOne cols, rows := atLeastOne rows, cells := fun _ => []
              cols_pos := atLeastOne_pos cols, rows_pos := atLeastOne_pos rows
              cellSize_ne := hne }
        else none

/-- `Clear`. -/
def clear (g : GridSpatialIndex) : GridSpatialIndex := { g with cells := fun _ => [] }

/-- `CoordToCell`. -/
def coordToCell (g : GridSpatialIndex) (v : ℚ) : Option ℤ := toInt (v / g.cellSize)

/-- `CellIndex`. -/
def cellIndex (g : GridSpatialIndex) (cx cz : ℤ) : ℤ :=
  if cx < 0 ∨ g.cols ≤ cx ∨ cz < 0 ∨ g.rows ≤ cz then -1 else cz * g.cols + cx

/-- `Insert`. -/
def insert (g : GridSpatialIndex) (playerId : UInt64) (x z : ℚ) : Option GridSpatialIndex :=
  (g.coordToCell x).bind fun cx =>
    (g.coordToCell z).bind fun cz =>
      let idx := g.cellIndex cx cz
      if 0 ≤ idx ∧ idx < g.cols * g.rows then
        some { g with cells := Function.update g.cells idx (g.cells idx ++ [playerId]) }
      else some g

/-- The cells at the corners of a box. -/
structure Corners where
  minCx : ℤ
  maxCx : ℤ
  minCz : ℤ
  maxCz : ℤ

def corners (g : GridSpatialIndex) (x z radius : ℚ) : Option Corners :=
  (g.coordToCell (x - radius)).bind fun minCx =>
    (g.coordToCell (x + radius)).bind fun maxCx =>
      (g.coordToCell (z - radius)).bind fun minCz =>
        (g.coordToCell (z + radius)).bind fun maxCz => some ⟨minCx, maxCx, minCz, maxCz⟩

/-- The corners are moved onto the grid. -/
def clamp (g : GridSpatialIndex) (c : Corners) : Corners where
  minCx := if c.minCx < 0 then 0 else c.minCx
  maxCx := if g.cols ≤ c.maxCx then g.cols - 1 else c.maxCx
  minCz := if c.minCz < 0 then 0 else c.minCz
  maxCz := if g.rows ≤ c.maxCz then g.rows - 1 else c.maxCz

/-- The numbers that a loop from `lo` to `hi` goes through. -/
def steps (lo hi : ℤ) : List ℤ := (List.range (hi + 1 - lo).toNat).map fun i : ℕ => lo + i

/-- The cells that the loops of `QueryRange` look at. -/
def visited (g : GridSpatialIndex) (c : Corners) : List ℤ :=
  (steps c.minCz c.maxCz).flatMap fun cz => (steps c.minCx c.maxCx).map fun cx => g.cellIndex cx cz

/-- `QueryRange`. -/
def queryRange (g : GridSpatialIndex) (x z radius : ℚ) : Option (List UInt64) :=
  (g.corners x z radius).map fun c => (g.visited (g.clamp c)).flatMap g.cells

/-- The players of a room, one after the other. -/
def insertAll (g : GridSpatialIndex) (players : Assoc UInt64 (ℚ × ℚ)) : Option GridSpatialIndex :=
  players.foldlM (fun g p => g.insert p.1 p.2.1 p.2.2) g

end GridSpatialIndex

/-! ## Conversions -/

theorem truncate_mono {v w : ℚ} (hle : v ≤ w) : truncate v ≤ truncate w := by
  unfold truncate
  split_ifs with hv hw hw
  · exact Int.floor_le_floor hle
  · exact absurd (hv.trans hle) hw
  · have hneg : ⌈v⌉ ≤ 0 := Int.ceil_le.mpr (by simpa using le_of_lt (not_le.mp hv))
    exact hneg.trans (Int.floor_nonneg.mpr hw)
  · exact Int.ceil_le_ceil hle

theorem eq_truncate_of_toInt {v : ℚ} {n : ℤ} (h : toInt v = some n) : n = truncate v := by
  unfold toInt at h
  split_ifs at h
  exact (Option.some.inj h).symm

theorem toInt_mono {v w : ℚ} {m n : ℤ} (hle : v ≤ w) (hv : toInt v = some m)
    (hw : toInt w = some n) : m ≤ n := by
  rw [eq_truncate_of_toInt hv, eq_truncate_of_toInt hw]
  exact truncate_mono hle

/-- Whatever is above -1 is cut off to a number that is not negative. -/
theorem truncate_nonneg_iff {v : ℚ} : 0 ≤ truncate v ↔ -1 < v := by
  unfold truncate
  split_ifs with hv
  · exact iff_of_true (Int.floor_nonneg.mpr hv) (lt_of_lt_of_le (by norm_num) hv)
  · have hceil : 0 ≤ ⌈v⌉ ↔ -1 < ⌈v⌉ := by omega
    rw [hceil, Int.lt_ceil]
    norm_num

theorem truncate_lt_iff {v : ℚ} {n : ℤ} (hn : 0 < n) : truncate v < n ↔ v < n := by
  unfold truncate
  split_ifs with hv
  · exact Int.floor_lt
  · have hneg : v < 0 := not_le.mp hv
    have hceil : ⌈v⌉ ≤ 0 := Int.ceil_le.mpr (by simpa using hneg.le)
    have hcast : (0 : ℚ) < n := by exact_mod_cast hn
    exact iff_of_true (lt_of_le_of_lt hceil hn) (hneg.trans hcast)

/-! ## Loops -/

theorem mem_steps {lo hi n : ℤ} : n ∈ GridSpatialIndex.steps lo hi ↔ lo ≤ n ∧ n ≤ hi := by
  unfold GridSpatialIndex.steps
  rw [List.mem_map]
  constructor
  · rintro ⟨i, hi', rfl⟩
    rw [List.mem_range] at hi'
    omega
  · rintro ⟨hlo, hhi⟩
    refine ⟨(n - lo).toNat, ?_, ?_⟩
    · rw [List.mem_range]
      omega
    · omega

theorem nodup_steps (lo hi : ℤ) : (GridSpatialIndex.steps lo hi).Nodup := by
  refine List.Nodup.map ?_ List.nodup_range
  intro i j hij
  have heq : lo + (i : ℤ) = lo + j := hij
  omega

namespace GridSpatialIndex

variable {g g' : GridSpatialIndex} {cx cz : ℤ} {c : Corners} {x z radius : ℚ} {pos : ℚ × ℚ}
  {players : Assoc UInt64 (ℚ × ℚ)} {out : List UInt64}

/-! ## Cells -/

/-- The cell is on the grid. -/
def OnGrid (g : GridSpatialIndex) (cx cz : ℤ) : Prop := (0 ≤ cx ∧ cx < g.cols) ∧ 0 ≤ cz ∧ cz < g.rows

theorem cellIndex_of_onGrid (h : g.OnGrid cx cz) : g.cellIndex cx cz = cz * g.cols + cx := by
  rcases h with ⟨⟨hcx, hcols⟩, hcz, hrows⟩
  rw [cellIndex, if_neg]
  omega

/-- An index that is not negative is one of the grid. -/
theorem cellIndex_nonneg_iff : 0 ≤ g.cellIndex cx cz ↔ g.OnGrid cx cz := by
  unfold OnGrid
  constructor
  · intro h
    unfold cellIndex at h
    split_ifs at h with hout
    · omega
    · omega
  · intro h
    rw [cellIndex_of_onGrid h]
    rcases h with ⟨⟨hcx, -⟩, hcz, -⟩
    exact add_nonneg (mul_nonneg hcz g.cols_pos.le) hcx

theorem cellIndex_lt (h : g.OnGrid cx cz) : g.cellIndex cx cz < g.cols * g.rows := by
  rw [cellIndex_of_onGrid h]
  rcases h with ⟨⟨-, hcols⟩, -, hrows⟩
  have hrow : cz * g.cols + g.cols ≤ g.rows * g.cols := by
    rw [← add_one_mul]
    exact mul_le_mul_of_nonneg_right hrows g.cols_pos.le
  linarith

/-- Cells of the grid have indices of their own. -/
theorem cellIndex_inj {cx' cz' : ℤ} (h : g.OnGrid cx cz) (h' : g.OnGrid cx' cz')
    (heq : g.cellIndex cx cz = g.cellIndex cx' cz') : cx = cx' ∧ cz = cz' := by
  rw [cellIndex_of_onGrid h, cellIndex_of_onGrid h'] at heq
  have hmod := congrArg (· % g.cols) heq
  simp only [Int.add_emod, Int.mul_emod_left, zero_add, Int.emod_emod] at hmod
  rw [Int.emod_eq_of_lt h.1.1 h.1.2, Int.emod_eq_of_lt h'.1.1 h'.1.2] at hmod
  refine ⟨hmod, ?_⟩
  rw [hmod] at heq
  exact mul_right_cancel₀ g.cols_pos.ne' (add_right_cancel heq)

/-- The cell is between the corners. -/
def Corners.Has (c : Corners) (cx cz : ℤ) : Prop :=
  (c.minCx ≤ cx ∧ cx ≤ c.maxCx) ∧ c.minCz ≤ cz ∧ cz ≤ c.maxCz

/-- Along one axis of `n` cells. -/
theorem within_clamp {lo hi n x : ℤ} :
    (if lo < 0 then 0 else lo) ≤ x ∧ x ≤ (if n ≤ hi then n - 1 else hi) ↔
      (0 ≤ x ∧ x < n) ∧ lo ≤ x ∧ x ≤ hi := by
  split_ifs <;> omega

/-- On the grid, nothing is lost by moving the corners onto it. -/
theorem has_clamp : (g.clamp c).Has cx cz ↔ g.OnGrid cx cz ∧ c.Has cx cz :=
  (and_congr within_clamp within_clamp).trans and_and_and_comm

/-- The loops look at the cells between the corners. -/
theorem mem_visited (h : g.OnGrid cx cz) :
    g.cellIndex cx cz ∈ g.visited (g.clamp c) ↔ c.Has cx cz := by
  unfold visited
  rw [List.mem_flatMap]
  constructor
  · rintro ⟨cz', hcz, hmem⟩
    rcases List.mem_map.mp hmem with ⟨cx', hcx, heq⟩
    have hhas : (g.clamp c).Has cx' cz' := ⟨mem_steps.mp hcx, mem_steps.mp hcz⟩
    rcases has_clamp.mp hhas with ⟨hgrid, hhas'⟩
    rcases cellIndex_inj hgrid h heq with ⟨rfl, rfl⟩
    exact hhas'
  · intro hhas
    rcases has_clamp.mpr ⟨h, hhas⟩ with ⟨hcx, hcz⟩
    exact ⟨cz, mem_steps.mpr hcz, List.mem_map.mpr ⟨cx, mem_steps.mpr hcx, rfl⟩⟩

/-- No cell is looked at twice. -/
theorem nodup_visited (g : GridSpatialIndex) (c : Corners) : (g.visited (g.clamp c)).Nodup := by
  have hgrid : ∀ cz ∈ steps (g.clamp c).minCz (g.clamp c).maxCz,
      ∀ cx ∈ steps (g.clamp c).minCx (g.clamp c).maxCx, g.OnGrid cx cz := by
    intro cz hcz cx hcx
    exact (has_clamp.mp ⟨mem_steps.mp hcx, mem_steps.mp hcz⟩).1
  unfold visited
  rw [List.nodup_flatMap]
  constructor
  · intro cz hcz
    refine List.Nodup.map_on ?_ (nodup_steps _ _)
    intro cx hcx cx' hcx' heq
    exact (cellIndex_inj (hgrid cz hcz cx hcx) (hgrid cz hcz cx' hcx') heq).1
  · refine List.Pairwise.imp_of_mem ?_ (nodup_steps _ _)
    intro cz cz' hcz hcz' hne idx hidx hidx'
    rcases List.mem_map.mp hidx with ⟨cx, hcx, rfl⟩
    rcases List.mem_map.mp hidx' with ⟨cx', hcx', heq⟩
    exact hne (cellIndex_inj (hgrid cz hcz cx hcx) (hgrid cz' hcz' cx' hcx') heq.symm).2

/-! ## Insertion -/

/-- The index of the cell of a position. -/
def index (g : GridSpatialIndex) (pos : ℚ × ℚ) : Option ℤ :=
  (g.coordToCell pos.1).bind fun cx => (g.coordToCell pos.2).map fun cz => g.cellIndex cx cz

theorem index_eq_some {idx : ℤ} : g.index pos = some idx ↔
    ∃ cx cz, g.coordToCell pos.1 = some cx ∧ g.coordToCell pos.2 = some cz ∧
      g.cellIndex cx cz = idx := by
  unfold index
  simp only [Option.bind_eq_some_iff, Option.map_eq_some_iff]
  constructor
  · rintro ⟨cx, hcx, cz, hcz, hidx⟩
    exact ⟨cx, cz, hcx, hcz, hidx⟩
  · rintro ⟨cx, cz, hcx, hcz, hidx⟩
    exact ⟨cx, hcx, cz, hcz, hidx⟩

/-- A cell with one more player. -/
def put (g : GridSpatialIndex) (idx : ℤ) (playerId : UInt64) : GridSpatialIndex :=
  { g with cells := Function.update g.cells idx (g.cells idx ++ [playerId]) }

/-- A player is put into its cell if that is on the grid. -/
theorem insert_eq (g : GridSpatialIndex) (playerId : UInt64) (pos : ℚ × ℚ) :
    g.insert playerId pos.1 pos.2 =
      (g.index pos).map fun idx => if 0 ≤ idx then g.put idx playerId else g := by
  unfold insert index
  cases hcx : g.coordToCell pos.1 with
  | none => rfl
  | some cx =>
    cases hcz : g.coordToCell pos.2 with
    | none => rfl
    | some cz =>
      simp only [Option.bind_some, Option.map_some, ← apply_ite some]
      by_cases hgrid : 0 ≤ g.cellIndex cx cz
      · rw [if_pos ⟨hgrid, cellIndex_lt (cellIndex_nonneg_iff.mp hgrid)⟩, if_pos hgrid]
        rfl
      · rw [if_neg (fun hand => hgrid hand.1), if_neg hgrid]

/-- The grid itself stays as it is. -/
structure SameGrid (g g' : GridSpatialIndex) : Prop where
  cellSize : g'.cellSize = g.cellSize
  cols : g'.cols = g.cols
  rows : g'.rows = g.rows

theorem SameGrid.index (h : SameGrid g g') (pos : ℚ × ℚ) : g'.index pos = g.index pos := by
  unfold GridSpatialIndex.index coordToCell cellIndex
  rw [h.cellSize, h.cols, h.rows]

theorem SameGrid.corners (h : SameGrid g g') (x z radius : ℚ) :
    g'.corners x z radius = g.corners x z radius := by
  unfold GridSpatialIndex.corners coordToCell
  rw [h.cellSize]

theorem SameGrid.visited (h : SameGrid g g') (c : Corners) :
    g'.visited (g'.clamp c) = g.visited (g.clamp c) := by
  unfold GridSpatialIndex.visited clamp cellIndex
  rw [h.cols, h.rows]

/-- Where a player is filed: the index of its cell, or -1. -/
def place (g : GridSpatialIndex) (players : Assoc UInt64 (ℚ × ℚ)) (id : UInt64) : ℤ :=
  ((players.lookup id).bind g.index).getD (-1)

/-- Every player has one position, and is filed there. -/
theorem index_eq_place (hkeyed : players.keys.Nodup)
    (hindex : ∀ p ∈ players, ∃ idx, g.index p.2 = some idx) :
    ∀ p ∈ players, g.index p.2 = some (g.place players p.1) := by
  intro p hp
  rcases hindex p hp with ⟨idx, hidx⟩
  rw [place, (Assoc.mem_iff_lookup hkeyed).mp hp, Option.bind_some, hidx]
  rfl

/-- The players in `l` are in the cells of the grid. -/
structure Holds (g g' : GridSpatialIndex) (key : UInt64 → ℤ) (l : List UInt64) : Prop where
  same : SameGrid g g'
  filed : FiledBy key g'.cells (l.filter fun id => 0 ≤ key id)

theorem holds_clear (g : GridSpatialIndex) (key : UInt64 → ℤ) : Holds g g.clear key [] :=
  ⟨⟨rfl, rfl, rfl⟩, filedBy_nil⟩

/-- One player more. -/
theorem Holds.insert {g'' : GridSpatialIndex} {key : UInt64 → ℤ} {l : List UInt64} {id : UInt64}
    (h : Holds g g' key l) (hkey : g.index pos = some (key id))
    (hinsert : g'.insert id pos.1 pos.2 = some g'') : Holds g g'' key (id :: l) := by
  rw [insert_eq, h.same.index, hkey, Option.map_some, Option.some.injEq] at hinsert
  subst hinsert
  -- off the grid a player is filed nowhere
  by_cases hgrid : 0 ≤ key id
  · rw [if_pos hgrid]
    refine ⟨⟨h.same.cellSize, h.same.cols, h.same.rows⟩, ?_⟩
    rw [List.filter_cons_of_pos (by simpa using hgrid)]
    refine h.filed.cons ?_ ?_
    · simp only [put, Function.update_self]
      exact List.perm_append_singleton _ _
    · intro k hk
      exact Function.update_of_ne hk _ _
  · rw [if_neg hgrid]
    refine ⟨h.same, ?_⟩
    rw [List.filter_cons_of_neg (by simpa using hgrid)]
    exact h.filed

/-- The loop of `Tick`: every player with a cell is in it, once. -/
theorem Holds.insertAll {key : UInt64 → ℤ} {l : List UInt64} (h : Holds g g' key l)
    (hkey : ∀ p ∈ players, g.index p.2 = some (key p.1)) :
    ∃ g'', g'.insertAll players = some g'' ∧ Holds g g'' key (players.keys.reverse ++ l) := by
  induction players generalizing g' l with
  | nil => exact ⟨g', rfl, h⟩
  | cons p players ih =>
    have hindex := hkey p List.mem_cons_self
    have hinsert := insert_eq g' p.1 p.2
    rw [h.same.index, hindex, Option.map_some] at hinsert
    obtain ⟨g'', hrest, hholds⟩ := ih (h.insert hindex hinsert)
      (fun q hq => hkey q (List.mem_cons_of_mem p hq))
    refine ⟨g'', ?_, ?_⟩
    · unfold GridSpatialIndex.insertAll at hrest ⊢
      rw [List.foldlM_cons, hinsert]
      exact hrest
    · rw [Assoc.keys_cons, List.reverse_cons, List.append_assoc]
      exact hholds

/-- The loop has no result if the cell of a player has none, and it leaves the grid alone. -/
theorem sameGrid_of_insertAll (hsame : SameGrid g g') {g'' : GridSpatialIndex}
    (h : g'.insertAll players = some g'') :
    SameGrid g g'' ∧ ∀ p ∈ players, ∃ idx, g.index p.2 = some idx := by
  induction players generalizing g' with
  | nil =>
    cases h
    exact ⟨hsame, by simp⟩
  | cons p players ih =>
    unfold GridSpatialIndex.insertAll at h
    rw [List.foldlM_cons, insert_eq, hsame.index] at h
    cases hindex : g.index p.2 with
    | none =>
      rw [hindex] at h
      cases h
    | some idx =>
      rw [hindex, Option.map_some] at h
      have hsame' : SameGrid g (if 0 ≤ idx then g'.put idx p.1 else g') := by
        split_ifs
        · exact ⟨hsame.cellSize, hsame.cols, hsame.rows⟩
        · exact hsame
      rcases ih hsame' h with ⟨hgrid, hrest⟩
      refine ⟨hgrid, ?_⟩
      intro q hq
      rcases List.mem_cons.mp hq with rfl | htail
      · exact ⟨idx, hindex⟩
      · exact hrest q htail

theorem sameGrid_clear (g : GridSpatialIndex) : SameGrid g g.clear := ⟨rfl, rfl, rfl⟩

/-! ## What a query finds -/

/-- The cell of a position is on the grid and between the corners. -/
def Reached (g : GridSpatialIndex) (c : Corners) (pos : ℚ × ℚ) : Prop :=
  ∃ cx cz, g.coordToCell pos.1 = some cx ∧ g.coordToCell pos.2 = some cz ∧
    g.OnGrid cx cz ∧ c.Has cx cz

theorem index_of_reached (h : g.Reached c pos) :
    ∃ idx, g.index pos = some idx ∧ 0 ≤ idx ∧ idx ∈ g.visited (g.clamp c) := by
  rcases h with ⟨cx, cz, hcx, hcz, hgrid, hhas⟩
  exact ⟨g.cellIndex cx cz, index_eq_some.mpr ⟨cx, cz, hcx, hcz, rfl⟩,
    cellIndex_nonneg_iff.mpr hgrid, (mem_visited hgrid).mpr hhas⟩

theorem reached_of_index {idx : ℤ} (hindex : g.index pos = some idx) (hgrid : 0 ≤ idx)
    (hvisited : idx ∈ g.visited (g.clamp c)) : g.Reached c pos := by
  rcases index_eq_some.mp hindex with ⟨cx, cz, hcx, hcz, rfl⟩
  have hcell := cellIndex_nonneg_iff.mp hgrid
  exact ⟨cx, cz, hcx, hcz, hcell, (mem_visited hcell).mp hvisited⟩

/-- A query finds the players whose cells are reached, each of them once. -/
theorem queryRange_spec (hkeyed : players.keys.Nodup) (hinsert : g.clear.insertAll players = some g')
    (hcorners : g.corners x z radius = some c) :
    ∃ out, g'.queryRange x z radius = some out ∧ out.Nodup ∧
      ∀ id, id ∈ out ↔ ∃ pos, players.lookup id = some pos ∧ g.Reached c pos := by
  have hplace := index_eq_place hkeyed (sameGrid_of_insertAll (sameGrid_clear g) hinsert).2
  rcases (holds_clear g (g.place players)).insertAll hplace with ⟨g'', hrun, hholds⟩
  cases hinsert.symm.trans hrun
  -- the cells of the loops, each visited once, hold the players filed in them
  have hperm := hholds.filed.flatMap (nodup_visited g c)
  rw [List.append_nil] at hperm
  refine ⟨(g.visited (g.clamp c)).flatMap g'.cells, ?_, ?_, ?_⟩
  · rw [queryRange, hholds.same.corners, hcorners, Option.map_some, hholds.same.visited]
  · exact hperm.nodup_iff.mpr ((List.nodup_reverse.mpr hkeyed).filter _ |>.filter _)
  · intro id
    rw [hperm.mem_iff, List.mem_filter, List.mem_filter, List.mem_reverse, Assoc.mem_keys_iff]
    simp only [decide_eq_true_eq]
    constructor
    · rintro ⟨⟨⟨pos, hpos⟩, hgrid⟩, hvisited⟩
      exact ⟨pos, hpos,
        reached_of_index (hplace (id, pos) (Assoc.mem_of_lookup hpos)) hgrid hvisited⟩
    · rintro ⟨pos, hpos, hreached⟩
      rcases index_of_reached hreached with ⟨idx, hindex, hgrid, hvisited⟩
      cases (hplace (id, pos) (Assoc.mem_of_lookup hpos)).symm.trans hindex
      exact ⟨⟨⟨pos, hpos⟩, hgrid⟩, hvisited⟩

/-! ## Who is missed -/

/-- The position is in the box of a query. -/
def Near (x z radius : ℚ) (pos : ℚ × ℚ) : Prop := |pos.1 - x| ≤ radius ∧ |pos.2 - z| ≤ radius

/-- The position is on the grid: at most a cell before the first column or row is left out, and
the first place behind the last. -/
def InMap (g : GridSpatialIndex) (pos : ℚ × ℚ) : Prop :=
  (-1 < pos.1 / g.cellSize ∧ pos.1 / g.cellSize < g.cols) ∧
    -1 < pos.2 / g.cellSize ∧ pos.2 / g.cellSize < g.rows

theorem onGrid_iff_inMap (hcx : g.coordToCell pos.1 = some cx) (hcz : g.coordToCell pos.2 = some cz) :
    g.OnGrid cx cz ↔ g.InMap pos := by
  unfold OnGrid InMap
  rw [eq_truncate_of_toInt hcx, eq_truncate_of_toInt hcz, truncate_nonneg_iff, truncate_nonneg_iff,
    truncate_lt_iff g.cols_pos, truncate_lt_iff g.rows_pos]

/-- A coordinate in the box has a cell between those of the ends; the ends change places if cells
have a negative size. -/
theorem between_ends {v center : ℚ} {n lo hi : ℤ} (hv : |v - center| ≤ radius)
    (hn : g.coordToCell v = some n) (hlo : g.coordToCell (center - radius) = some lo)
    (hhi : g.coordToCell (center + radius) = some hi) :
    (0 < g.cellSize → lo ≤ n ∧ n ≤ hi) ∧ (g.cellSize < 0 → hi ≤ n ∧ n ≤ lo) := by
  rcases abs_le.mp hv with ⟨hlow, hhigh⟩
  have hle : center - radius ≤ v := by linarith
  have hle' : v ≤ center + radius := by linarith
  constructor
  · intro hpos
    exact ⟨toInt_mono (div_le_div_of_nonneg_right hle hpos.le) hlo hn,
      toInt_mono (div_le_div_of_nonneg_right hle' hpos.le) hn hhi⟩
  · intro hneg
    exact ⟨toInt_mono (div_le_div_of_nonpos_of_le hneg.le hle') hhi hn,
      toInt_mono (div_le_div_of_nonpos_of_le hneg.le hle) hn hlo⟩

theorem corners_eq_some : g.corners x z radius = some c ↔
    g.coordToCell (x - radius) = some c.minCx ∧ g.coordToCell (x + radius) = some c.maxCx ∧
      g.coordToCell (z - radius) = some c.minCz ∧ g.coordToCell (z + radius) = some c.maxCz := by
  unfold corners
  simp only [Option.bind_eq_some_iff]
  constructor
  · rintro ⟨a, ha, b, hb, d, hd, e, he, heq⟩
    cases heq
    exact ⟨ha, hb, hd, he⟩
  · rintro ⟨ha, hb, hd, he⟩
    exact ⟨_, ha, _, hb, _, hd, _, he, rfl⟩

/-- The box is of one cell in each direction. -/
def Corners.OneCell (c : Corners) : Prop := c.minCx = c.maxCx ∧ c.minCz = c.maxCz

/-- In the box, a position is reached if it is on the grid, and if the loops go the right way. -/
theorem reached_iff_of_near (hcorners : g.corners x z radius = some c) (hnear : Near x z radius pos)
    {idx : ℤ} (hindex : g.index pos = some idx) :
    g.Reached c pos ↔ g.InMap pos ∧ (0 < g.cellSize ∨ c.OneCell) := by
  rcases corners_eq_some.mp hcorners with ⟨hminX, hmaxX, hminZ, hmaxZ⟩
  rcases index_eq_some.mp hindex with ⟨cx, cz, hcx, hcz, -⟩
  have hx := between_ends hnear.1 hcx hminX hmaxX
  have hz := between_ends hnear.2 hcz hminZ hmaxZ
  -- with cells of a negative size the loops run from the larger end to the smaller
  have hhas : c.Has cx cz ↔ 0 < g.cellSize ∨ c.OneCell := by
    unfold Corners.Has Corners.OneCell
    rcases lt_or_gt_of_ne g.cellSize_ne with hneg | hpos
    · have hx' := hx.2 hneg
      have hz' := hz.2 hneg
      have hnot : ¬ 0 < g.cellSize := not_lt.mpr hneg.le
      rw [or_iff_right hnot]
      omega
    · exact iff_of_true ⟨hx.1 hpos, hz.1 hpos⟩ (Or.inl hpos)
  rw [← onGrid_iff_inMap hcx hcz, ← hhas]
  constructor
  · rintro ⟨cx', cz', hcx', hcz', hgrid, hcell⟩
    cases hcx.symm.trans hcx'
    cases hcz.symm.trans hcz'
    exact ⟨hgrid, hcell⟩
  · rintro ⟨hgrid, hcell⟩
    exact ⟨cx, cz, hcx, hcz, hgrid, hcell⟩

/-- A query contains every player in its box exactly once, after these players were inserted. -/
def Complete (mapW mapH cellSize : ℚ) (players : Assoc UInt64 (ℚ × ℚ)) (x z radius : ℚ) : Prop :=
  ∃ g g' out, new mapW mapH cellSize = some g ∧ g.clear.insertAll players = some g' ∧
    g'.queryRange x z radius = some out ∧
    ∀ p ∈ players, Near x z radius p.2 → out.count p.1 = 1

/-- All cells are numbers that fit, and every player in the box is on the grid. -/
def Covered (mapW mapH cellSize : ℚ) (players : Assoc UInt64 (ℚ × ℚ)) (x z radius : ℚ) : Prop :=
  ∃ g c, new mapW mapH cellSize = some g ∧ (∀ p ∈ players, (g.index p.2).isSome) ∧
    g.corners x z radius = some c ∧
    ∀ p ∈ players, Near x z radius p.2 → g.InMap p.2 ∧ (0 < cellSize ∨ c.OneCell)

theorem new_eq_some {mapW mapH cellSize : ℚ} (h : new mapW mapH cellSize = some g) :
    g.cellSize = cellSize ∧ g.cols = atLeastOne (truncate ⌈mapW / cellSize⌉) ∧
      g.rows = atLeastOne (truncate ⌈mapH / cellSize⌉) := by
  unfold new at h
  split_ifs at h
  rcases Option.bind_eq_some_iff.mp h with ⟨cols, hcols, h⟩
  rcases Option.bind_eq_some_iff.mp h with ⟨rows, hrows, h⟩
  split_ifs at h
  cases h
  rw [eq_truncate_of_toInt hcols, eq_truncate_of_toInt hrows]
  exact ⟨rfl, rfl, rfl⟩

/-- A player is found once if it is reached. -/
theorem count_eq_one_iff (hkeyed : players.keys.Nodup) (hnodup : out.Nodup)
    (hmem : ∀ id, id ∈ out ↔ ∃ pos, players.lookup id = some pos ∧ g.Reached c pos)
    {p : UInt64 × ℚ × ℚ} (hp : p ∈ players) : out.count p.1 = 1 ↔ g.Reached c p.2 := by
  have hlookup : players.lookup p.1 = some p.2 := (Assoc.mem_iff_lookup hkeyed).mp hp
  rw [hnodup.count]
  constructor
  · intro h
    split_ifs at h with hin
    rcases (hmem p.1).mp hin with ⟨pos, hpos, hreached⟩
    cases hlookup.symm.trans hpos
    exact hreached
  · intro h
    rw [if_pos ((hmem p.1).mpr ⟨p.2, hlookup, h⟩)]

theorem covered_of_complete (hkeyed : players.keys.Nodup) {mapW mapH cellSize : ℚ}
    (h : Complete mapW mapH cellSize players x z radius) :
    Covered mapW mapH cellSize players x z radius := by
  rcases h with ⟨g, g', out, hnew, hinsert, hquery, hcomplete⟩
  rcases sameGrid_of_insertAll (sameGrid_clear g) hinsert with ⟨hsame, hindex⟩
  rcases Option.map_eq_some_iff.mp hquery with ⟨c, hcorners, -⟩
  rw [hsame.corners] at hcorners
  rcases queryRange_spec hkeyed hinsert hcorners with ⟨out', hquery', hnodup, hmem⟩
  cases hquery.symm.trans hquery'
  refine ⟨g, c, hnew, fun p hp => Option.isSome_iff_exists.mpr (hindex p hp), hcorners, ?_⟩
  -- everybody in the box is found, so everybody is reached
  intro p hp hnear
  rcases hindex p hp with ⟨idx, hidx⟩
  have hreached := (count_eq_one_iff hkeyed hnodup hmem hp).mp (hcomplete p hp hnear)
  rw [reached_iff_of_near hcorners hnear hidx, (new_eq_some hnew).1] at hreached
  exact hreached

theorem complete_of_covered (hkeyed : players.keys.Nodup) {mapW mapH cellSize : ℚ}
    (h : Covered mapW mapH cellSize players x z radius) :
    Complete mapW mapH cellSize players x z radius := by
  rcases h with ⟨g, c, hnew, hindex, hcorners, hcovered⟩
  have hplace := index_eq_place hkeyed fun p hp => Option.isSome_iff_exists.mp (hindex p hp)
  rcases (holds_clear g (g.place players)).insertAll hplace with ⟨g', hinsert, -⟩
  rcases queryRange_spec hkeyed hinsert hcorners with ⟨out, hquery, hnodup, hmem⟩
  refine ⟨g, g', out, hnew, hinsert, hquery, ?_⟩
  intro p hp hnear
  rw [count_eq_one_iff hkeyed hnodup hmem hp, reached_iff_of_near hcorners hnear (hplace p hp),
    (new_eq_some hnew).1]
  exact hcovered p hp hnear

/-- Whatever the map, the players and the query are: nobody in the box is missed, if and only if
all cells are numbers that fit and everybody in the box is on the grid. -/
theorem queryRange_complete_iff (mapW mapH cellSize x z radius : ℚ)
    (players : Assoc UInt64 (ℚ × ℚ)) (hkeyed : players.keys.Nodup) :
    Complete mapW mapH cellSize players x z radius ↔
      Covered mapW mapH cellSize players x z radius := by
  constructor
  · intro h
    exact covered_of_complete hkeyed h
  · intro h
    exact complete_of_covered hkeyed h

/-- Two players in the map of a room. -/
theorem queryRange_complete_iff_two :
    Complete 1000 1000 200 [(1, (150, 150)), (2, (320, 90))] 200 200 200 ↔
      Covered 1000 1000 200 [(1, (150, 150)), (2, (320, 90))] 200 200 200 :=
  queryRange_complete_iff 1000 1000 200 200 200 200 [(1, (150, 150)), (2, (320, 90))] (by decide)

/-- A player at the far border of the map is in no cell. -/
theorem not_queryRange_complete : ¬ ∀ (mapW mapH cellSize x z radius : ℚ)
    (players : Assoc UInt64 (ℚ × ℚ)), players.keys.Nodup →
    Complete mapW mapH cellSize players x z radius := by
  intro h
  have hkeyed : Assoc.keys [((1 : UInt64), ((1000 : ℚ), (100 : ℚ)))] |>.Nodup := by decide
  obtain ⟨g, c, hnew, -, -, hcovered⟩ :=
    covered_of_complete hkeyed (h 1000 1000 200 900 100 200 _ hkeyed)
  rcases new_eq_some hnew with ⟨hsize, hcols, -⟩
  have hnear : Near 900 100 200 ((1000 : ℚ), (100 : ℚ)) := by norm_num [Near, abs_le]
  have hinMap := (hcovered _ List.mem_cons_self hnear).1.1.2
  have hceil : ⌈(1000 : ℚ) / 200⌉ = 5 := by norm_num
  have hfive : truncate ((5 : ℤ) : ℚ) = 5 := by norm_num [truncate]
  rw [hsize, hcols, hceil, hfive] at hinMap
  norm_num [atLeastOne] at hinMap

end GridSpatialIndex

end Gmaker.Realtime.Aoi
