import Mathlib

/-!
# Gmaker.Lib.Decimal — numbers as text

Whole numbers in decimal, as they are written to texts and read back: without a sign, with
one, and within so many bits. What is not a number is told apart from what is out of range;
of the latter the nearest number that fits is what is read. What is read is written back as it
was when it was in its shortest form (`repr_eq_iff`). A list of numbers is a text with separators.
-/

namespace Gmaker.Lib

/-! ## Digits -/

/-- One digit or more, and nothing else. -/
def parseDigits (s : List Char) : Option ℕ :=
  if s ≠ [] ∧ s.all Char.isDigit then some (Nat.ofDigitChars 10 s 0) else none

theorem isDigit_of_mem_toDigits {n : ℕ} {c : Char} (hc : c ∈ Nat.toDigits 10 n) :
    c.isDigit = true :=
  Nat.isDigit_of_mem_toDigits (by decide) (by decide) hc

@[simp] theorem parseDigits_toDigits (n : ℕ) : parseDigits (Nat.toDigits 10 n) = some n := by
  have hdigits : (Nat.toDigits 10 n).all Char.isDigit = true :=
    List.all_eq_true.mpr fun _ hc => isDigit_of_mem_toDigits hc
  rw [parseDigits, if_pos ⟨Nat.toDigits_ne_nil, hdigits⟩, Nat.ofDigitChars_ten_toDigits]

/-! ## Numbers without a sign -/

/-- A number of so many bits. -/
def parseUint (bits : ℕ) (s : String) : Option ℕ :=
  (parseDigits s.toList).filter (· < 2 ^ bits)

theorem parseUint_repr {bits n : ℕ} (hn : n < 2 ^ bits) : parseUint bits n.repr = some n := by
  rw [parseUint, Nat.toList_repr, parseDigits_toDigits]
  simp [hn]

/-- Different numbers are written differently. -/
theorem natRepr_inj {m n : ℕ} : m.repr = n.repr ↔ m = n := by
  constructor
  · intro h
    have hparsed : parseDigits m.repr.toList = parseDigits n.repr.toList := by rw [h]
    rwa [Nat.toList_repr, Nat.toList_repr, parseDigits_toDigits, parseDigits_toDigits,
      Option.some.injEq] at hparsed
  · intro h
    rw [h]

/-! ## Numbers with a sign -/

/-- A sign or none, and digits. -/
def parseSigned : List Char → Option ℤ
  | '-' :: s => (parseDigits s).map fun n => -(n : ℤ)
  | '+' :: s => (parseDigits s).map fun n => (n : ℤ)
  | s => (parseDigits s).map fun n => (n : ℤ)

@[simp] theorem parseSigned_repr (z : ℤ) : parseSigned z.repr.toList = some z := by
  cases z with
  | ofNat n =>
    rw [Int.repr, Nat.toList_repr]
    -- the first digit is not a sign
    cases hs : Nat.toDigits 10 n with
    | nil => exact absurd hs Nat.toDigits_ne_nil
    | cons c s =>
      have hc : c.isDigit = true := isDigit_of_mem_toDigits (hs ▸ List.mem_cons_self)
      have hparsed : parseDigits (c :: s) = some n := hs ▸ parseDigits_toDigits n
      unfold parseSigned
      split
      · cases ‹_ :: _ = _›
        exact absurd hc (by decide)
      · cases ‹_ :: _ = _›
        exact absurd hc (by decide)
      · rw [hparsed]
        rfl
  | negSucc n =>
    have hsign : "-".toList = ['-'] := by decide
    rw [Int.repr, String.toList_append, Nat.toList_repr, hsign, List.singleton_append, parseSigned,
      parseDigits_toDigits]
    rfl

/-- A number of so many bits, of which one is the sign, and whether it is right. -/
def parseInt (bits : ℕ) (s : String) : ℤ × Bool :=
  match parseSigned s.toList with
  | none => (0, false)
  | some z =>
    if 2 ^ (bits - 1) ≤ z then (2 ^ (bits - 1) - 1, false)
    else if z < -2 ^ (bits - 1) then (-2 ^ (bits - 1), false)
    else (z, true)

theorem parseInt_repr {bits : ℕ} {z : ℤ} (hl : -2 ^ (bits - 1) ≤ z) (hu : z < 2 ^ (bits - 1)) :
    parseInt bits z.repr = (z, true) := by
  rw [parseInt, parseSigned_repr]
  dsimp only
  rw [if_neg hu.not_ge, if_neg hl.not_gt]

/-- What is read is within the bits. -/
theorem parseInt_bounds (bits : ℕ) (s : String) :
    -2 ^ (bits - 1) ≤ (parseInt bits s).1 ∧ (parseInt bits s).1 < 2 ^ (bits - 1) := by
  have hpos : (0 : ℤ) < 2 ^ (bits - 1) := by positivity
  unfold parseInt
  split
  · constructor <;> simp
  · split_ifs <;> constructor <;> simp only <;> omega

/-! ## Numbers in their shortest form -/

theorem isDigit_bounds {c : Char} (hc : c.isDigit = true) : 48 ≤ c.toNat ∧ c.toNat ≤ 57 :=
  Char.isDigit_iff_toNat.mp hc

theorem digitChar_of_isDigit {c : Char} (hc : c.isDigit = true) :
    Nat.digitChar (c.toNat - 48) = c := by
  have hbounds := isDigit_bounds hc
  apply Char.toNat_inj.mp
  have hlt : c.toNat - 48 < 10 := by omega
  have hdigit := Nat.toNat_digitChar_sub_48_of_lt_ten hlt
  have hback := isDigit_bounds (Nat.isDigit_digitChar.trans (decide_eq_true hlt))
  omega

/-- A number has no more digits than it was read from. -/
theorem ofDigitChars_lt {s : List Char} (hs : s.all Char.isDigit = true) :
    Nat.ofDigitChars 10 s 0 < 10 ^ s.length := by
  induction s with
  | nil => exact Nat.one_pos
  | cons c s ih =>
    rw [List.all_cons, Bool.and_eq_true] at hs
    have hbounds := isDigit_bounds hs.1
    have hrest := ih hs.2
    rw [Nat.ofDigitChars_cons, Nat.ofDigitChars_eq_ofDigitChars_zero, List.length_cons, Nat.pow_succ]
    have hzero : '0'.toNat = 48 := rfl
    rw [hzero]
    have hhead : 10 ^ s.length * (10 * 0 + (c.toNat - 48)) ≤ 10 ^ s.length * 9 :=
      Nat.mul_le_mul_left _ (by omega)
    omega

/-- Digits after one that is not zero are those of their number. -/
theorem toDigits_ofDigitChars {c : Char} {s : List Char} (hc : c ≠ '0')
    (hs : (c :: s).all Char.isDigit = true) :
    Nat.toDigits 10 (Nat.ofDigitChars 10 (c :: s) 0) = c :: s := by
  induction s using List.reverseRecOn with
  | nil =>
    rw [List.all_cons, Bool.and_eq_true] at hs
    have hbounds := isDigit_bounds hs.1
    rw [Nat.ofDigitChars_cons, Nat.ofDigitChars_nil, Nat.mul_zero, Nat.zero_add]
    have hzero : '0'.toNat = 48 := rfl
    rw [hzero, Nat.toDigits_of_lt_base (by omega), digitChar_of_isDigit hs.1]
  | append_singleton s d ih =>
    rw [← List.cons_append, List.all_append, Bool.and_eq_true] at hs
    have hold := hs.1
    have hd : d.isDigit = true := List.all_eq_true.mp hs.2 d List.mem_cons_self
    have hbounds := isDigit_bounds hd
    have hprev := ih hold
    have hpos : 0 < Nat.ofDigitChars 10 (c :: s) 0 := by
      apply Nat.pos_of_ne_zero
      intro h0
      -- the digits of zero are a zero
      rw [h0, Nat.toDigits_zero] at hprev
      exact hc (List.cons.inj hprev).1.symm
    rw [← List.cons_append, Nat.ofDigitChars_append, Nat.ofDigitChars_cons, Nat.ofDigitChars_nil]
    have hzero : '0'.toNat = 48 := rfl
    rw [hzero, ← Nat.toDigits_append_toDigits (by decide) hpos (by omega), hprev,
      Nat.toDigits_of_lt_base (by omega), digitChar_of_isDigit hd]

/-- Digits are those of their number when there is no zero in front. -/
theorem toDigits_of_parseDigits {s : List Char} {n : ℕ} (h : parseDigits s = some n) :
    Nat.toDigits 10 n = s ↔ ∀ rest, s = '0' :: rest → rest = [] := by
  unfold parseDigits at h
  split_ifs at h with hs
  rcases hs with ⟨hne, hdigits⟩
  cases h
  cases s with
  | nil => exact absurd rfl hne
  | cons c s =>
    by_cases hc : c = '0'
    · subst hc
      have hvalue : Nat.ofDigitChars 10 ('0' :: s) 0 = Nat.ofDigitChars 10 s 0 := by
        rw [Nat.ofDigitChars_cons]
        rfl
      rw [List.all_cons, Bool.and_eq_true] at hdigits
      constructor
      · rintro heq _ ⟨⟩
        -- there are fewer digits than were read
        by_contra hrest
        have hlen := (Nat.length_toDigits_le_iff (by decide) (List.length_pos_iff.mpr hrest)).mpr
          (ofDigitChars_lt hdigits.2)
        rw [← hvalue, heq, List.length_cons] at hlen
        omega
      · intro hrest
        rw [hrest s rfl]
        rfl
    · constructor
      · rintro - _ ⟨⟩
        exact absurd rfl hc
      · intro _
        exact toDigits_ofDigitChars hc hdigits

/-- Not written with a plus sign, a zero in front or as `-0`. -/
def shortestForm : List Char → Bool
  | '+' :: _ => false
  | '-' :: '0' :: _ => false
  | '0' :: _ :: _ => false
  | _ => true

/-- Zero is read from zeros only. -/
theorem head_of_parseDigits_zero {s : List Char} (h : parseDigits s = some 0) :
    ∃ rest, s = '0' :: rest := by
  by_contra hhead
  have heq := (toDigits_of_parseDigits h).mpr fun rest hrest => absurd ⟨rest, hrest⟩ hhead
  exact hhead ⟨[], heq.symm⟩

/-- A number that is read is written back as it was when it was in its shortest form. -/
theorem repr_eq_iff {s : String} {z : ℤ} (h : parseSigned s.toList = some z) :
    z.repr = s ↔ shortestForm s.toList = true := by
  rw [← String.toList_inj]
  revert h
  generalize s.toList = l
  intro h
  have hminus : "-".toList = ['-'] := by decide
  have hnat : ∀ n : ℕ, (n : ℤ).repr.toList = Nat.toDigits 10 n := fun n => Nat.toList_repr
  unfold parseSigned at h
  split at h
  · -- a minus sign
    rename_i s
    cases hdigits : parseDigits s with
    | none =>
      rw [hdigits] at h
      cases h
    | some n =>
      rw [hdigits] at h
      cases h
      have hshort := toDigits_of_parseDigits hdigits
      change (-(n : ℤ)).repr.toList = '-' :: s ↔ _
      cases n with
      | zero =>
        rcases head_of_parseDigits_zero hdigits with ⟨rest, rfl⟩
        constructor
        · intro heq
          exact absurd (List.cons.inj heq).1 (by decide)
        · intro hform
          cases hform
      | succ n =>
        have hrepr : (-((n + 1 : ℕ) : ℤ)).repr.toList = '-' :: Nat.toDigits 10 (n + 1) := by
          change (Int.negSucc n).repr.toList = _
          rw [Int.repr, String.toList_append, Nat.toList_repr, hminus, List.singleton_append]
        rw [hrepr, List.cons_inj_right, hshort]
        constructor
        · intro hrest
          unfold shortestForm
          split
          · cases ‹_ :: _ = _›
          · cases ‹_ :: _ = _›
            -- a zero alone is read as zero
            rw [hrest _ rfl] at hdigits
            cases hdigits
          · exact absurd (List.cons.inj ‹_ :: _ = _›).1 (by decide)
          · rfl
        · rintro hform rest rfl
          cases hform
  · -- a plus sign
    rename_i s
    constructor
    · intro heq
      cases hdigits : parseDigits s with
      | none =>
        rw [hdigits] at h
        cases h
      | some n =>
        rw [hdigits] at h
        cases h
        have hhead : '+' ∈ Nat.toDigits 10 n := by
          rw [← hnat n]
          exact heq ▸ List.mem_cons_self
        exact absurd (isDigit_of_mem_toDigits hhead) (by decide)
    · intro hform
      cases hform
  · -- no sign
    rename_i hnotMinus hnotPlus
    cases hdigits : parseDigits l with
    | none =>
      rw [hdigits] at h
      cases h
    | some n =>
      rw [hdigits] at h
      cases h
      change (n : ℤ).repr.toList = l ↔ _
      rw [hnat, toDigits_of_parseDigits hdigits]
      unfold shortestForm
      split
      · exact absurd rfl (hnotPlus _)
      · exact absurd rfl (hnotMinus _)
      · constructor
        · intro hrest
          cases hrest _ rfl
        · intro hform
          cases hform
      · rename_i hnotZero
        constructor
        · intro _
          rfl
        · rintro - rest rfl
          cases rest with
          | nil => rfl
          | cons c rest => exact absurd rfl (hnotZero c rest)

/-! ## Lists of numbers -/

/-- The numbers with a comma after each but the last. -/
def joinNumbers (l : List ℕ) : String :=
  String.ofList ([','].intercalate (l.map (Nat.toDigits 10)))

/-- The numbers between the commas; what is none is passed over. -/
def splitNumbers (bits : ℕ) (s : String) : List ℕ :=
  if s = "" then [] else (s.toList.splitOn ',').filterMap fun p => parseUint bits (String.ofList p)

theorem splitNumbers_joinNumbers {bits : ℕ} {l : List ℕ} (hl : ∀ n ∈ l, n < 2 ^ bits) :
    splitNumbers bits (joinNumbers l) = l := by
  have hcomma : ∀ p ∈ l.map (Nat.toDigits 10), ',' ∉ p := by
    intro p hp hmem
    obtain ⟨n, -, rfl⟩ := List.mem_map.mp hp
    exact absurd (isDigit_of_mem_toDigits hmem) (by decide)
  have hread : ∀ n ∈ l, parseUint bits (String.ofList (Nat.toDigits 10 n)) = some n := by
    intro n hn
    rw [← Nat.repr_eq_ofList_toDigits]
    exact parseUint_repr (hl n hn)
  unfold splitNumbers
  cases l with
  | nil => rfl
  | cons n l =>
    have hsplit := List.splitOn_intercalate ',' hcomma (by simp)
    have hne : joinNumbers (n :: l) ≠ "" := by
      intro h
      have hnil := congrArg String.toList h
      rw [joinNumbers, String.toList_ofList] at hnil
      rw [hnil] at hsplit
      -- the text of the first number is not empty
      exact Nat.toDigits_ne_nil (List.cons.inj hsplit).1.symm
    rw [if_neg hne, joinNumbers, String.toList_ofList, hsplit, List.filterMap_map]
    exact (List.filterMap_congr hread).trans List.filterMap_some

end Gmaker.Lib
