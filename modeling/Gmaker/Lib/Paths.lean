import Mathlib

/-!
# Gmaker.Lib.Paths — slashed paths and their cleaning

Paths as texts, split at their slashes and cleaned element by element: empty elements and `.` go,
`..` takes the element before it along. A rooted path has only plain elements afterwards
(`plain_of_mem_segments_clean`), and one that has only plain elements before is left as it is
(`clean_of_plain`).
-/

namespace Gmaker.Lib.Paths

/-- The texts between the slashes. -/
def segments (p : List Char) : List (List Char) := p.splitOn '/'

/-- The elements with a slash before each. -/
def rooted (l : List (List Char)) : List Char := ['/'].intercalate ([] :: l)

/-- An element that stands for itself. -/
structure Plain (x : List Char) : Prop where
  ne_nil : x ≠ []
  ne_dot : x ≠ ['.']
  ne_dots : x ≠ ['.', '.']
  noSlash : '/' ∉ x

/-- One element, with those before it from the last on. -/
def cleanStep (isRooted : Bool) (out : List (List Char)) (x : List Char) : List (List Char) :=
  if x = [] ∨ x = ['.'] then out
  else if x = ['.', '.'] then
    match out with
    | [] => if isRooted then [] else [x]
    | top :: rest => if top = ['.', '.'] then x :: out else rest
  else x :: out

/-- `path.Clean`. -/
def clean (p : List Char) : List Char :=
  if p.head? = some '/' then
    let out := ((segments p).foldl (cleanStep true) []).reverse
    if out = [] then ['/'] else rooted out
  else
    let out := ((segments p).foldl (cleanStep false) []).reverse
    if out = [] then ['.'] else ['/'].intercalate out

variable {x p : List Char} {l out : List (List Char)}

theorem noSlash_of_mem_segments (h : x ∈ segments p) : '/' ∉ x := by
  unfold segments at h
  induction p generalizing x with
  | nil =>
    rw [List.splitOn_nil, List.mem_singleton] at h
    rw [h]
    exact List.not_mem_nil
  | cons c p ih =>
    rw [List.splitOn_cons_eq_if_modifyHead] at h
    split_ifs at h with hc
    · rcases List.mem_cons.mp h with rfl | hin
      · exact List.not_mem_nil
      · exact ih hin
    · obtain ⟨head, tail, hsplit⟩ := List.exists_cons_of_ne_nil (List.splitOn_ne_nil '/' p)
      rw [hsplit, List.modifyHead_cons] at h
      rcases List.mem_cons.mp h with rfl | hin
      · rw [List.mem_cons, not_or]
        refine ⟨?_, ih (by rw [hsplit]; exact List.mem_cons_self)⟩
        rintro rfl
        exact hc (beq_self_eq_true _)
      · exact ih (by rw [hsplit]; exact List.mem_cons_of_mem head hin)

/-- What is joined is split again. -/
theorem segments_rooted (h : ∀ x ∈ l, '/' ∉ x) : segments (rooted l) = [] :: l := by
  refine List.splitOn_intercalate '/' ?_ (List.cons_ne_nil _ _)
  intro y hy
  rcases List.mem_cons.mp hy with rfl | hin
  · exact List.not_mem_nil
  · exact h y hin

/-- Plain elements stay plain. -/
theorem plain_cleanStep (h : ∀ y ∈ out, Plain y) (hx : '/' ∉ x) :
    ∀ y ∈ cleanStep true out x, Plain y := by
  unfold cleanStep
  by_cases hskip : x = [] ∨ x = ['.']
  · rw [if_pos hskip]
    exact h
  · rw [if_neg hskip]
    by_cases hdots : x = ['.', '.']
    · -- the element before goes, and it was none of these dots
      rw [if_pos hdots]
      cases out with
      | nil => exact h
      | cons top rest =>
        dsimp only
        rw [if_neg (h top List.mem_cons_self).ne_dots]
        exact fun y hy => h y (List.mem_cons_of_mem top hy)
    · rw [if_neg hdots]
      intro y hy
      rcases List.mem_cons.mp hy with rfl | hin
      · rw [not_or] at hskip
        exact ⟨hskip.1, hskip.2, hdots, hx⟩
      · exact h y hin

theorem plain_foldl (hl : ∀ x ∈ l, '/' ∉ x) (h : ∀ y ∈ out, Plain y) :
    ∀ y ∈ l.foldl (cleanStep true) out, Plain y := by
  induction l generalizing out with
  | nil => exact h
  | cons x l ih =>
    refine ih (fun y hy => hl y (List.mem_cons_of_mem x hy)) ?_
    exact plain_cleanStep h (hl x List.mem_cons_self)

/-- The elements of a rooted path that was cleaned: none, or plain ones after the first slash. -/
theorem segments_clean (hp : p.head? = some '/') : ∃ l, (∀ x ∈ l, Plain x) ∧
    segments (clean p) = if l = [] then [[], []] else [] :: l := by
  have hplain : ∀ y ∈ ((segments p).foldl (cleanStep true) []).reverse, Plain y := by
    intro y hy
    rw [List.mem_reverse] at hy
    exact plain_foldl (fun x hx => noSlash_of_mem_segments hx) (fun y hy => absurd hy List.not_mem_nil)
      y hy
  refine ⟨_, hplain, ?_⟩
  unfold clean
  rw [if_pos hp]
  dsimp only
  split_ifs with hnil
  · rfl
  · exact segments_rooted fun x hx => (hplain x hx).noSlash

/-- Plain elements are passed on. -/
theorem foldl_of_plain (hl : ∀ x ∈ l, Plain x) :
    l.foldl (cleanStep true) out = l.reverse ++ out := by
  induction l generalizing out with
  | nil => rfl
  | cons x l ih =>
    have hx := hl x List.mem_cons_self
    rw [List.foldl_cons, ih fun y hy => hl y (List.mem_cons_of_mem x hy), List.reverse_cons,
      List.append_assoc]
    have hstep : cleanStep true out x = x :: out := by
      unfold cleanStep
      rw [if_neg (not_or.mpr ⟨hx.ne_nil, hx.ne_dot⟩), if_neg hx.ne_dots]
    rw [hstep]
    rfl

/-- A rooted path of plain elements is clean. -/
theorem clean_of_plain (hl : ∀ x ∈ l, Plain x) (hne : l ≠ []) : clean (rooted l) = rooted l := by
  have hhead : (rooted l).head? = some '/' := by
    obtain ⟨x, l, rfl⟩ := List.exists_cons_of_ne_nil hne
    unfold rooted
    rw [List.intercalate_cons_cons]
    rfl
  unfold clean
  rw [if_pos hhead, segments_rooted fun x hx => (hl x hx).noSlash, List.foldl_cons]
  have hfirst : cleanStep true [] [] = [] := rfl
  rw [hfirst, foldl_of_plain hl, List.append_nil, List.reverse_reverse]
  dsimp only
  rw [if_neg hne]

end Gmaker.Lib.Paths
