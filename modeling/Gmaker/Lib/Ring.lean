import Mathlib

/-!
# Gmaker.Lib.Ring — cells that are used in a circle

A buffer of cells, written and read from some position on and from the front again
when the end is reached. The copies are made piece by piece, as with `memcpy`;
`rotate` says what they amount to: seen from the position, what is written comes first
(`writeRound_rotate`), and what is read is what comes first (`readRound_eq`).
-/

namespace Gmaker.Lib

universe u

variable {α : Type u}

/-! ## Writing in place -/

/-- Overwrite the cells from `i` on. -/
def writeAt (buf : List α) (i : ℕ) (xs : List α) : List α :=
  buf.take i ++ (xs ++ buf.drop (i + xs.length))

theorem length_writeAt {buf xs : List α} {i : ℕ} (h : i + xs.length ≤ buf.length) :
    (writeAt buf i xs).length = buf.length := by
  simp only [writeAt, List.length_append, List.length_take, List.length_drop]
  omega

/-- Seen from where they are written, the new cells come first. -/
theorem rotate_writeAt {buf xs : List α} {i : ℕ} (h : i + xs.length ≤ buf.length) :
    (writeAt buf i xs).rotate i = xs ++ (buf.rotate i).drop xs.length := by
  have htake : (buf.take i).length = i := by
    rw [List.length_take]
    omega
  have hrot : (writeAt buf i xs).rotate i = (xs ++ buf.drop (i + xs.length)) ++ buf.take i := by
    have hr := List.rotate_append_length_eq (buf.take i) (xs ++ buf.drop (i + xs.length))
    rwa [htake] at hr
  have hdrop : (buf.drop i ++ buf.take i).drop xs.length =
      buf.drop (i + xs.length) ++ buf.take i := by
    rw [List.drop_append_of_le_length (by rw [List.length_drop]; omega), List.drop_drop]
  rw [hrot, List.rotate_eq_drop_append_take (by omega), hdrop, List.append_assoc]

/-! ## Going round -/

/-- Write `xs` from `pos` on, a piece at a time: the cells, and the position behind
what has been written. The number bounds the pieces. -/
def writeRound : ℕ → List α → ℕ → List α → List α × ℕ
  | 0, buf, pos, _ => (buf, pos)
  | pieces + 1, buf, pos, xs =>
    if xs.length = 0 then (buf, pos)
    else
      let chunk := min xs.length (buf.length - pos)
      writeRound pieces (writeAt buf pos (xs.take chunk)) ((pos + chunk) % buf.length)
        (xs.drop chunk)

/-- Read `len` cells from `start` on, a piece at a time. -/
def readRound (buf : List α) : ℕ → ℕ → ℕ → List α
  | 0, _, _ => []
  | pieces + 1, start, len =>
    if len = 0 then []
    else
      let chunk := min len (buf.length - start)
      (buf.drop start).take chunk ++ readRound buf pieces 0 (len - chunk)

theorem writeRound_nil (n : ℕ) (buf : List α) (pos : ℕ) : writeRound n buf pos [] = (buf, pos) := by
  cases n with
  | zero => rfl
  | succ n => rfl

theorem readRound_zero (n : ℕ) (buf : List α) (start : ℕ) : readRound buf n start 0 = [] := by
  cases n with
  | zero => rfl
  | succ n => rfl

/-- What has been written, as seen from where the writing began. -/
structure Written (buf : List α) (pos : ℕ) (xs : List α) (res : List α × ℕ) : Prop where
  length : res.1.length = buf.length
  rotate : res.1.rotate pos = xs ++ (buf.rotate pos).drop xs.length
  pos : res.2 = (pos + xs.length) % buf.length

section Round

variable {buf xs : List α} {pos start n len : ℕ}

/-- One piece is enough up to the end of the buffer. -/
theorem writeRound_fits (hlen : pos + xs.length ≤ buf.length) (hpos : pos < buf.length)
    (hn : xs.length ≤ n) : Written buf pos xs (writeRound n buf pos xs) := by
  cases n with
  | zero =>
    have hnil : xs = [] := List.length_eq_zero_iff.mp (by omega)
    subst hnil
    exact ⟨rfl, by simp [writeRound], by simp [writeRound, Nat.mod_eq_of_lt hpos]⟩
  | succ n =>
    by_cases hnil : xs.length = 0
    · have hxs : xs = [] := List.length_eq_zero_iff.mp hnil
      subst hxs
      exact ⟨rfl, by simp [writeRound], by simp [writeRound, Nat.mod_eq_of_lt hpos]⟩
    · have hchunk : min xs.length (buf.length - pos) = xs.length := by omega
      have hstep : writeRound (n + 1) buf pos xs =
          (writeAt buf pos xs, (pos + xs.length) % buf.length) := by
        rw [writeRound, if_neg hnil]
        simp only
        rw [hchunk, List.take_length, List.drop_length, writeRound_nil]
      rw [hstep]
      exact ⟨length_writeAt hlen, rotate_writeAt hlen, rfl⟩

/-- Seen from the position, what is written comes first. -/
theorem writeRound_rotate (hlen : xs.length ≤ buf.length) (hpos : pos < buf.length)
    (hn : xs.length ≤ n) : Written buf pos xs (writeRound n buf pos xs) := by
  by_cases hfits : pos + xs.length ≤ buf.length
  · exact writeRound_fits hfits hpos hn
  · -- the first piece goes to the end, the rest fits in front of the position
    obtain ⟨k, rfl⟩ : ∃ k, n = k + 1 := ⟨n - 1, by omega⟩
    let chunk := buf.length - pos
    let cells := writeAt buf pos (xs.take chunk)
    have hchunk : min xs.length (buf.length - pos) = chunk := by omega
    have hfirst : (xs.take chunk).length = chunk := by
      rw [List.length_take]
      omega
    have hrest : (xs.drop chunk).length = xs.length - chunk := List.length_drop
    have hcells : cells.length = buf.length := length_writeAt (by omega)
    have hzero : (pos + chunk) % buf.length = 0 := by
      have : pos + chunk = buf.length := by omega
      rw [this, Nat.mod_self]
    have hstep : writeRound (k + 1) buf pos xs = writeRound k cells 0 (xs.drop chunk) := by
      rw [writeRound, if_neg (by omega)]
      simp only
      rw [hchunk, hzero]
    have hw : Written cells 0 (xs.drop chunk) (writeRound k cells 0 (xs.drop chunk)) :=
      writeRound_fits (by omega) (by omega) (by omega)
    rw [hstep]
    refine ⟨hw.length.trans hcells, ?_, ?_⟩
    · have hrot := hw.rotate
      rw [List.rotate_zero, List.rotate_zero] at hrot
      -- in front of the position there is now the rest, with old cells after it
      have hfront : cells.drop (xs.drop chunk).length =
          (buf.take pos).drop (xs.drop chunk).length ++ xs.take chunk := by
        change (buf.take pos ++ (xs.take chunk ++ buf.drop (pos + (xs.take chunk).length))).drop _ = _
        have hend : buf.drop (pos + (xs.take chunk).length) = [] :=
          List.drop_eq_nil_of_le (by omega)
        rw [hend, List.append_nil, List.drop_append_of_le_length (by rw [List.length_take]; omega)]
      have hpos' : (xs.drop chunk ++ (buf.take pos).drop (xs.drop chunk).length).length = pos := by
        rw [List.length_append, List.length_drop, List.length_drop, List.length_take]
        omega
      have hround : ((xs.drop chunk ++ (buf.take pos).drop (xs.drop chunk).length) ++
          xs.take chunk).rotate pos = xs.take chunk ++
            (xs.drop chunk ++ (buf.take pos).drop (xs.drop chunk).length) := by
        have hr := List.rotate_append_length_eq
          (xs.drop chunk ++ (buf.take pos).drop (xs.drop chunk).length) (xs.take chunk)
        rwa [hpos'] at hr
      have hold : (buf.rotate pos).drop xs.length =
          (buf.take pos).drop (xs.drop chunk).length := by
        rw [List.rotate_eq_drop_append_take (by omega), List.drop_append,
          List.drop_eq_nil_of_le (by rw [List.length_drop]; omega), List.nil_append,
          List.length_drop, hrest]
      rw [hrot, hfront, ← List.append_assoc, hround, hold, ← List.append_assoc,
        List.take_append_drop]
    · rw [hw.pos, hcells, hrest]
      have hsum : pos + xs.length = buf.length + (0 + (xs.length - chunk)) := by omega
      rw [hsum, Nat.add_mod_left]

/-- What is read is what comes first. -/
theorem readRound_eq (hlen : len ≤ buf.length) (hstart : start < buf.length) (hn : len ≤ n) :
    readRound buf n start len = (buf.rotate start).take len := by
  rw [List.rotate_eq_drop_append_take (by omega)]
  by_cases hzero : len = 0
  · subst hzero
    rw [readRound_zero, List.take_zero]
  · obtain ⟨k, rfl⟩ : ∃ k, n = k + 1 := ⟨n - 1, by omega⟩
    rw [readRound, if_neg hzero]
    simp only
    by_cases hfits : start + len ≤ buf.length
    · have hchunk : min len (buf.length - start) = len := by omega
      rw [hchunk, Nat.sub_self, readRound_zero, List.append_nil,
        List.take_append_of_le_length (by rw [List.length_drop]; omega)]
    · -- all of the rest is in front of `start`
      have hchunk : min len (buf.length - start) = buf.length - start := by omega
      have hall : (buf.drop start).take (buf.length - start) = buf.drop start :=
        List.take_of_length_le (by rw [List.length_drop])
      have hrest : readRound buf k 0 (len - (buf.length - start)) =
          buf.take (len - (buf.length - start)) := by
        obtain ⟨j, rfl⟩ : ∃ j, k = j + 1 := ⟨k - 1, by omega⟩
        have hpiece : min (len - (buf.length - start)) (buf.length - 0) =
            len - (buf.length - start) := by omega
        rw [readRound, if_neg (by omega)]
        simp only
        rw [hpiece, Nat.sub_self, readRound_zero, List.append_nil, List.drop_zero]
      have hback : (buf.drop start).take len = buf.drop start :=
        List.take_of_length_le (by rw [List.length_drop]; omega)
      rw [hchunk, hall, hrest, List.take_append, hback, List.length_drop, List.take_take,
        Nat.min_eq_left (by omega)]

/-- As much is read as was asked for, over and over if need be. -/
theorem length_readRound (hstart : start < buf.length) (hn : len ≤ n) :
    (readRound buf n start len).length = len := by
  induction n generalizing start len with
  | zero =>
    obtain rfl : len = 0 := Nat.le_zero.mp hn
    rfl
  | succ n ih =>
    rw [readRound]
    split_ifs with hzero
    · exact hzero.symm
    · have hrest := @ih 0 (len - min len (buf.length - start)) (by omega) (by omega)
      rw [List.length_append, hrest, List.length_take, List.length_drop]
      omega

end Round

end Gmaker.Lib
