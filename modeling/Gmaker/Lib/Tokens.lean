import Mathlib

/-!
# Gmaker.Lib.Tokens — streams with expiries

A byte stream as a reader with a deadline sees it: the items that arrive, and
between them the moments at which the deadline expires. `takeExact` reads a number
of items. A strict reader fails at the first expiry it meets and has then lost the
items it had already taken; one that is not strict does not see expiries.

A stream usually comes in pieces whose size is not up to the reader. `Piece` says
that one read hands out a piece of the stream, and `takeExact_piece` that reading a
number of items piece by piece does not depend on how the stream was cut.
-/

namespace Gmaker.Lib

variable {α : Type*}

/-- An item, or an expiry of the deadline between two items. -/
inductive Token (α : Type*) where
  | item (a : α)
  | expiry
deriving DecidableEq

/-- Why a read fails. -/
inductive ReadError where
  | timeout
  | eof
deriving DecidableEq

open Token

/-- The items of the stream. -/
def items : List (Token α) → List α
  | [] => []
  | .item a :: ts => a :: items ts
  | .expiry :: ts => items ts

@[simp] theorem items_nil : items ([] : List (Token α)) = [] := rfl
@[simp] theorem items_item (a : α) (ts : List (Token α)) :
    items (.item a :: ts) = a :: items ts := rfl
@[simp] theorem items_expiry (ts : List (Token α)) : items (.expiry :: ts) = items ts := rfl

@[simp] theorem items_append (ts us : List (Token α)) : items (ts ++ us) = items ts ++ items us := by
  induction ts with
  | nil => rfl
  | cons t ts ih => cases t <;> simp [ih]

@[simp] theorem items_map (as : List α) : items (as.map item) = as := by
  induction as with
  | nil => rfl
  | cons a as ih => simp [ih]

theorem length_items_le (ts : List (Token α)) : (items ts).length ≤ ts.length := by
  induction ts with
  | nil => exact le_rfl
  | cons t ts ih => cases t <;> simp <;> omega

/-- Items in front of the stream are in front of every expiry of it. -/
theorem eq_append_of_map_append {as : List α} {rest pre post : List (Token α)}
    (h : as.map item ++ rest = pre ++ expiry :: post) :
    ∃ cs, pre = as.map item ++ cs ∧ rest = cs ++ expiry :: post := by
  induction as generalizing pre with
  | nil => exact ⟨pre, rfl, h⟩
  | cons a as ih =>
    cases pre with
    | nil => cases h
    | cons t pre =>
      rw [List.map_cons, List.cons_append, List.cons_append, List.cons.injEq] at h
      obtain ⟨cs, rfl, hrest⟩ := ih h.2
      exact ⟨cs, by rw [← h.1]; rfl, hrest⟩

/-- The first `n` of some items come before the others. -/
theorem map_item_split (as : List α) (n : ℕ) (ts : List (Token α)) :
    as.map item ++ ts = (as.take n).map item ++ ((as.drop n).map item ++ ts) := by
  rw [← List.append_assoc, ← List.map_append, List.take_append_drop]

/-! ## Reading a number of items -/

/-- What was read goes in front of what is read next. -/
def prepend (as : List α) (r : Except ReadError (List α) × List (Token α)) :
    Except ReadError (List α) × List (Token α) :=
  match r with
  | (.ok bs, ts) => (.ok (as ++ bs), ts)
  | (.error e, ts) => (.error e, ts)

/-- Read `n` items. -/
def takeExact (strict : Bool) : ℕ → List (Token α) → Except ReadError (List α) × List (Token α)
  | 0, ts => (.ok [], ts)
  | _ + 1, [] => (.error .eof, [])
  | n + 1, .item a :: ts => prepend [a] (takeExact strict n ts)
  | n + 1, .expiry :: ts => if strict then (.error .timeout, ts) else takeExact strict (n + 1) ts

@[simp] theorem takeExact_zero (strict : Bool) (ts : List (Token α)) :
    takeExact strict 0 ts = (.ok [], ts) := by
  cases ts <;> rfl

theorem takeExact_item (strict : Bool) (n : ℕ) (a : α) (ts : List (Token α)) :
    takeExact strict (n + 1) (.item a :: ts) = prepend [a] (takeExact strict n ts) := rfl

theorem takeExact_expiry (strict : Bool) (n : ℕ) (ts : List (Token α)) :
    takeExact strict (n + 1) (.expiry :: ts) =
      if strict then (.error .timeout, ts) else takeExact strict (n + 1) ts := rfl

theorem prepend_prepend (as bs : List α) (r : Except ReadError (List α) × List (Token α)) :
    prepend as (prepend bs r) = prepend (as ++ bs) r := by
  obtain ⟨_ | _, _⟩ := r
  · rfl
  · simp [prepend]

theorem takeExact_map_append (strict : Bool) (as : List α) (n : ℕ) (ts : List (Token α)) :
    takeExact strict (as.length + n) (as.map item ++ ts) = prepend as (takeExact strict n ts) := by
  induction as with
  | nil =>
    rw [List.length_nil, Nat.zero_add, List.map_nil, List.nil_append]
    rcases takeExact strict n ts with ⟨_ | _, _⟩ <;> rfl
  | cons a as ih =>
    have hlen : (a :: as).length + n = (as.length + n) + 1 := by simp; omega
    rw [hlen, List.map_cons, List.cons_append, takeExact_item, ih, prepend_prepend]
    rfl

/-- What a read that succeeds took from the stream; a strict one took items only. -/
theorem takeExact_ok {strict : Bool} {n : ℕ} {ts us : List (Token α)} {as : List α}
    (h : takeExact strict n ts = (.ok as, us)) :
    as.length = n ∧ ∃ front, ts = front ++ us ∧ items front = as ∧
      (strict = true → front = as.map item) := by
  induction n, ts using takeExact.induct strict generalizing as with
  | case1 ts =>
    rw [takeExact_zero] at h
    cases h
    exact ⟨rfl, [], rfl, rfl, fun _ => rfl⟩
  | case2 n => cases h
  | case3 n a ts ih =>
    rcases hrest : takeExact strict n ts with ⟨_ | bs, us'⟩
    · rw [takeExact_item, hrest] at h
      cases h
    · rw [takeExact_item, hrest] at h
      cases h
      obtain ⟨hlen, front, hfront, hitems, hmap⟩ := ih hrest
      refine ⟨by simp [hlen], .item a :: front, by rw [hfront]; rfl, by rw [items_item, hitems]; rfl, ?_⟩
      intro hstrict
      rw [hmap hstrict]
      rfl
  | case4 n ts hstrict =>
    rw [takeExact_expiry, if_pos hstrict] at h
    cases h
  | case5 n ts hnot ih =>
    rw [takeExact_expiry, if_neg hnot] at h
    obtain ⟨hlen, front, hfront, hitems, -⟩ := ih h
    exact ⟨hlen, .expiry :: front, by rw [hfront]; rfl, hitems, fun hs => absurd hs hnot⟩

/-- A read that times out has lost the items in front of the expiry. -/
theorem takeExact_timeout {strict : Bool} {n : ℕ} {ts us : List (Token α)}
    (h : takeExact strict n ts = (.error .timeout, us)) :
    strict = true ∧ ∃ as : List α, as.length < n ∧ ts = as.map item ++ expiry :: us := by
  induction n, ts using takeExact.induct strict with
  | case1 ts =>
    rw [takeExact_zero] at h
    cases h
  | case2 n => cases h
  | case3 n a ts ih =>
    rcases hrest : takeExact strict n ts with ⟨e | bs, us'⟩
    · rw [takeExact_item, hrest] at h
      cases h
      obtain ⟨hstrict, as, hlen, hts⟩ := ih hrest
      exact ⟨hstrict, a :: as, by simp [hlen], by rw [hts]; rfl⟩
    · rw [takeExact_item, hrest] at h
      cases h
  | case4 n ts hstrict =>
    rw [takeExact_expiry, if_pos hstrict] at h
    cases h
    exact ⟨hstrict, [], Nat.succ_pos n, rfl⟩
  | case5 n ts hnot ih =>
    rw [takeExact_expiry, if_neg hnot] at h
    exact absurd (ih h).1 hnot

/-- A read that comes to the end found too few items; a strict one met no expiry. -/
theorem takeExact_eof {strict : Bool} {n : ℕ} {ts us : List (Token α)}
    (h : takeExact strict n ts = (.error .eof, us)) :
    us = [] ∧ (items ts).length < n ∧ (strict = true → ts = (items ts).map item) := by
  induction n, ts using takeExact.induct strict with
  | case1 ts =>
    rw [takeExact_zero] at h
    cases h
  | case2 n =>
    cases h
    exact ⟨rfl, Nat.succ_pos n, fun _ => rfl⟩
  | case3 n a ts ih =>
    rcases hrest : takeExact strict n ts with ⟨e | bs, us'⟩
    · rw [takeExact_item, hrest] at h
      cases h
      obtain ⟨hus, hlen, hmap⟩ := ih hrest
      refine ⟨hus, by simp [hlen], fun hstrict => ?_⟩
      rw [items_item, List.map_cons, ← hmap hstrict]
    · rw [takeExact_item, hrest] at h
      cases h
  | case4 n ts hstrict =>
    rw [takeExact_expiry, if_pos hstrict] at h
    cases h
  | case5 n ts hnot ih =>
    rw [takeExact_expiry, if_neg hnot] at h
    obtain ⟨hus, hlen, -⟩ := ih h
    exact ⟨hus, hlen, fun hs => absurd hs hnot⟩

/-! ## Reading in pieces -/

/-- One read of the stream: some items, an expiry that is seen, or the end. -/
inductive Piece (strict : Bool) :
    List (Token α) → Except ReadError (List α) → List (Token α) → Prop where
  | items {as : List α} {ts : List (Token α)} (hne : as ≠ []) :
      Piece strict (as.map item ++ ts) (.ok as) ts
  | timeout {ts : List (Token α)} (hstrict : strict = true) :
      Piece strict (.expiry :: ts) (.error .timeout) ts
  | skip {ts us : List (Token α)} {r : Except ReadError (List α)} (hnot : strict = false)
      (hrest : Piece strict ts r us) : Piece strict (.expiry :: ts) r us
  | eof : Piece strict [] (.error .eof) []

/-- The first items of a piece are a piece. -/
theorem Piece.take {strict : Bool} {ts us : List (Token α)} {as : List α} {n : ℕ} (hn : 0 < n)
    (h : Piece strict ts (.ok as) us) :
    Piece strict ts (.ok (as.take n)) ((as.drop n).map item ++ us) := by
  generalize hr : Except.ok as = r at h
  induction h with
  | @items bs rest hne =>
    cases hr
    rw [map_item_split as n rest]
    exact .items (by simp [hne]; omega)
  | timeout hstrict => cases hr
  | skip hnot hrest ih => exact .skip hnot (ih hr)
  | eof => cases hr

/-- A piece that fails makes the whole read fail. -/
theorem takeExact_piece_error {strict : Bool} {ts us : List (Token α)} {e : ReadError} {n : ℕ}
    (h : Piece strict ts (.error e) us) (hn : 0 < n) :
    takeExact strict n ts = (.error e, us) := by
  obtain ⟨n, rfl⟩ := Nat.exists_eq_succ_of_ne_zero (Nat.ne_of_gt hn)
  generalize hr : Except.error e = r at h
  induction h with
  | items hne => cases hr
  | timeout hstrict =>
    cases hr
    rw [takeExact_expiry, if_pos hstrict]
  | skip hnot hrest ih =>
    rw [takeExact_expiry, if_neg (by simp [hnot])]
    exact ih hr
  | eof =>
    cases hr
    rfl

/-- A piece of at most `n` items, and the read goes on with the rest. -/
theorem takeExact_piece {strict : Bool} {ts us : List (Token α)} {as : List α} {n : ℕ}
    (h : Piece strict ts (.ok as) us) (hle : as.length ≤ n) :
    as ≠ [] ∧ takeExact strict n ts = prepend as (takeExact strict (n - as.length) us) := by
  generalize hr : Except.ok as = r at h
  induction h with
  | @items bs rest hne =>
    cases hr
    have hsplit := takeExact_map_append strict as (n - as.length) rest
    rw [Nat.add_sub_cancel' hle] at hsplit
    exact ⟨hne, hsplit⟩
  | timeout hstrict => cases hr
  | skip hnot hrest ih =>
    obtain ⟨hne, hrec⟩ := ih hr
    refine ⟨hne, ?_⟩
    have hpos : 0 < n := Nat.lt_of_lt_of_le (List.length_pos_iff.mpr hne) hle
    obtain ⟨n, rfl⟩ := Nat.exists_eq_succ_of_ne_zero (Nat.ne_of_gt hpos)
    rw [takeExact_expiry, if_neg (by simp [hnot]), hrec]
  | eof => cases hr

end Gmaker.Lib
