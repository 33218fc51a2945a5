import Mathlib

/-!
# Gmaker.Lib.Protowire — the wire format of protocol buffers

A message is a sequence of fields; a field is a tag, which is a number and a wire type in one
varint, and a value. What a reader consumes is given with what it leaves. A value whose field is
not known is skipped by its wire type; groups nest, down to a limit.

A varint is at least as large as its last byte, so bytes from 32 on have no tag with a number
below 4 (`four_le_of_consumeTag`). What is written is read back: a number (`consumeVarint_varint`),
a tag (`consumeTag_varint`) and a run of bytes (`consumeBytes_varint`), whatever follows.
-/

namespace Gmaker.Lib.Protowire

/-! ## Reading -/

/-- A varint of `left` bytes at most, of which the tenth is 0 or 1. -/
def consumeVarintUpTo : ℕ → List UInt8 → Option (ℕ × List UInt8)
  | 0, _ => none
  | _ + 1, [] => none
  | left + 1, b :: bs =>
    if b < 0x80 then (if left = 0 ∧ 1 < b then none else some (b.toNat, bs))
    else (consumeVarintUpTo left bs).map fun r => (b.toNat - 0x80 + 0x80 * r.1, r.2)

/-- `ConsumeVarint`. -/
def consumeVarint (bs : List UInt8) : Option (ℕ × List UInt8) := consumeVarintUpTo 10 bs

/-- A varint as a field number and a wire type. -/
def consumeTag (bs : List UInt8) : Option (ℕ × ℕ × List UInt8) :=
  (consumeVarint bs).map fun r => (r.1 / 8, r.1 % 8, r.2)

/-- `ConsumeBytes`: a length and so many bytes. -/
def consumeBytes (bs : List UInt8) : Option (List UInt8 × List UInt8) :=
  (consumeVarint bs).bind fun r =>
    if r.1 ≤ r.2.length then some (r.2.take r.1, r.2.drop r.1) else none

/-- So many bytes. -/
def consumeFixed (n : ℕ) (bs : List UInt8) : Option (List UInt8) :=
  if n ≤ bs.length then some (bs.drop n) else none

/-- What is left behind a value that is no group. -/
def consumeScalar (typ : ℕ) (bs : List UInt8) : Option (List UInt8) :=
  match typ with
  | 0 => (consumeVarint bs).map Prod.snd
  | 1 => consumeFixed 8 bs
  | 2 => (consumeBytes bs).map Prod.snd
  | 5 => consumeFixed 4 bs
  | _ => none

/-- What is left behind a group, up to its end; `depth` groups may be open at a time, and one
tag is read for a unit of fuel. -/
def consumeGroup : ℕ → ℕ → ℕ → List UInt8 → Option (List UInt8)
  | 0, _, _, _ => none
  | _, 0, _, _ => none
  | fuel + 1, depth + 1, num, bs =>
    (consumeTag bs).bind fun (num', typ, bs') =>
      if num' = 0 ∨ 2 ^ 31 ≤ num' then none
      else if typ = 4 then (if num' = num then some bs' else none)
      else if typ = 3 then
        (consumeGroup fuel depth num' bs').bind fun bs'' => consumeGroup fuel (depth + 1) num bs''
      else (consumeScalar typ bs').bind fun bs'' => consumeGroup fuel (depth + 1) num bs''

/-- `DefaultRecursionLimit`, and the outermost group. -/
def recursionLimit : ℕ := 10001

/-- `ConsumeFieldValue`: what is left behind a value. -/
def consumeFieldValue (num typ : ℕ) (bs : List UInt8) : Option (List UInt8) :=
  if typ = 3 then consumeGroup (bs.length + 1) recursionLimit num bs else consumeScalar typ bs

/-- The largest number of a field. -/
def maxFieldNumber : ℕ := 2 ^ 29 - 1

/-- The fields of a message up to its end, one for a unit of fuel; `field` reads one into what
there is so far. -/
def consumeFields {α : Type*} (field : α → ℕ → ℕ → List UInt8 → Option (α × List UInt8)) :
    ℕ → α → List UInt8 → Option α
  | _, m, [] => some m
  | 0, _, _ => none
  | fuel + 1, m, b :: bs =>
    (consumeTag (b :: bs)).bind fun (num, typ, rest) =>
      -- a group that was not begun is not ended either
      if num < 1 ∨ maxFieldNumber < num ∨ typ = 4 then none
      else (field m num typ rest).bind fun r => consumeFields field fuel r.1 r.2

/-! ## Writing -/

/-- A number as bytes of seven bits, the lowest first; all but the last have the top bit. -/
def varint (n : ℕ) : List UInt8 :=
  if n < 128 then [.ofNat n] else .ofNat (n % 128 + 128) :: varint (n / 128)
termination_by n
decreasing_by omega

/-! ## What is left -/

variable {bs rest : List UInt8} {n num typ left fuel : ℕ}

/-- A varint takes at least a byte off the front. -/
theorem suffix_of_consumeVarintUpTo (h : consumeVarintUpTo left bs = some (n, rest)) :
    rest <:+ bs ∧ rest.length < bs.length := by
  induction left generalizing bs n with
  | zero => cases h
  | succ left ih =>
    cases bs with
    | nil => cases h
    | cons b bs =>
      rw [consumeVarintUpTo] at h
      split_ifs at h
      · cases h
        exact ⟨List.suffix_cons b _, Nat.lt_succ_self _⟩
      · rcases Option.map_eq_some_iff.mp h with ⟨r, hr, heq⟩
        cases heq
        rcases ih hr with ⟨hsuffix, hlt⟩
        exact ⟨hsuffix.trans (List.suffix_cons b bs), hlt.trans (Nat.lt_succ_self _)⟩

theorem suffix_of_consumeTag (h : consumeTag bs = some (num, typ, rest)) :
    rest <:+ bs ∧ rest.length < bs.length := by
  rcases Option.map_eq_some_iff.mp h with ⟨r, hr, heq⟩
  cases heq
  exact suffix_of_consumeVarintUpTo hr

theorem suffix_of_consumeBytes {value : List UInt8} (h : consumeBytes bs = some (value, rest)) :
    rest <:+ bs := by
  rcases Option.bind_eq_some_iff.mp h with ⟨r, hr, hif⟩
  split_ifs at hif
  cases hif
  exact (List.drop_suffix _ _).trans (suffix_of_consumeVarintUpTo hr).1

theorem suffix_of_consumeFixed (h : consumeFixed n bs = some rest) : rest <:+ bs := by
  unfold consumeFixed at h
  split_ifs at h
  cases h
  exact List.drop_suffix _ _

theorem suffix_of_consumeScalar (h : consumeScalar typ bs = some rest) : rest <:+ bs := by
  unfold consumeScalar at h
  split at h
  · rcases Option.map_eq_some_iff.mp h with ⟨r, hr, rfl⟩
    exact (suffix_of_consumeVarintUpTo hr).1
  · exact suffix_of_consumeFixed h
  · rcases Option.map_eq_some_iff.mp h with ⟨r, hr, rfl⟩
    exact suffix_of_consumeBytes hr
  · exact suffix_of_consumeFixed h
  · cases h

theorem suffix_of_consumeGroup {depth : ℕ} (h : consumeGroup fuel depth num bs = some rest) :
    rest <:+ bs := by
  induction fuel generalizing depth num bs rest with
  | zero => cases h
  | succ fuel ih =>
    cases depth with
    | zero => cases h
    | succ depth =>
      rw [consumeGroup] at h
      rcases Option.bind_eq_some_iff.mp h with ⟨⟨num', typ, bs'⟩, htag, h⟩
      have hsuffix := (suffix_of_consumeTag htag).1
      dsimp only at h
      split_ifs at h
      · cases h
        exact hsuffix
      · rcases Option.bind_eq_some_iff.mp h with ⟨bs'', hgroup, hrest⟩
        exact (ih hrest).trans ((ih hgroup).trans hsuffix)
      · rcases Option.bind_eq_some_iff.mp h with ⟨bs'', hscalar, hrest⟩
        exact (ih hrest).trans ((suffix_of_consumeScalar hscalar).trans hsuffix)

theorem suffix_of_consumeFieldValue (h : consumeFieldValue num typ bs = some rest) :
    rest <:+ bs := by
  unfold consumeFieldValue at h
  split_ifs at h
  · exact suffix_of_consumeGroup h
  · exact suffix_of_consumeScalar h

/-! ## Enough fuel -/

/-- A byte of fuel for each byte, and one more, are enough: more changes nothing. -/
theorem consumeGroup_fuel {depth : ℕ} (hfuel : bs.length < fuel) :
    consumeGroup (fuel + 1) depth num bs = consumeGroup fuel depth num bs := by
  induction fuel generalizing depth num bs with
  | zero => exact absurd hfuel (Nat.not_lt_zero _)
  | succ fuel ih =>
    cases depth with
    | zero => rfl
    | succ depth =>
      rw [consumeGroup, consumeGroup]
      refine Option.bind_congr fun ⟨num', typ, bs'⟩ htag => ?_
      have hlt := (suffix_of_consumeTag htag).2
      dsimp only
      split_ifs
      · rfl
      · rfl
      · rfl
      · rw [ih (by omega)]
        refine Option.bind_congr fun bs'' hgroup => ih ?_
        have hle := (suffix_of_consumeGroup hgroup).length_le
        omega
      · refine Option.bind_congr fun bs'' hscalar => ih ?_
        have hle := (suffix_of_consumeScalar hscalar).length_le
        omega

/-! ## Bytes that have no small tags -/

/-- The last byte of a varint is a part of it. -/
theorem le_of_consumeVarintUpTo {low : ℕ} (hbytes : ∀ b ∈ bs, low ≤ b.toNat)
    (h : consumeVarintUpTo left bs = some (n, rest)) : low ≤ n := by
  induction left generalizing bs n with
  | zero => cases h
  | succ left ih =>
    cases bs with
    | nil => cases h
    | cons b bs =>
      rw [consumeVarintUpTo] at h
      split_ifs at h
      · cases h
        exact hbytes b List.mem_cons_self
      · rcases Option.map_eq_some_iff.mp h with ⟨r, hr, heq⟩
        cases heq
        have hle := ih (fun c hc => hbytes c (List.mem_cons_of_mem b hc)) hr
        omega

/-- Bytes from 32 on have no tag with a number below 4. -/
theorem four_le_of_consumeTag (hbytes : ∀ b ∈ bs, 32 ≤ b.toNat)
    (h : consumeTag bs = some (num, typ, rest)) : 4 ≤ num := by
  rcases Option.map_eq_some_iff.mp h with ⟨r, hr, heq⟩
  cases heq
  have hle := le_of_consumeVarintUpTo hbytes hr
  omega

/-! ## What is written is read back -/

theorem varint_ne_nil (n : ℕ) : varint n ≠ [] := by
  rw [varint]
  split_ifs
  · exact List.cons_ne_nil _ _
  · exact List.cons_ne_nil _ _

/-- `left + 1` bytes are enough for `7 * (left + 1)` bits. -/
theorem length_varint_le (h : n < 128 ^ (left + 1)) : (varint n).length ≤ left + 1 := by
  induction left generalizing n with
  | zero =>
    have hsmall : n < 128 := by simpa using h
    rw [varint, if_pos hsmall]
    exact Nat.le_refl 1
  | succ left ih =>
    rw [varint]
    split_ifs with hsmall
    · exact Nat.succ_le_succ (Nat.zero_le _)
    · have hdiv : n / 128 < 128 ^ (left + 1) := by
        rw [Nat.div_lt_iff_lt_mul (by norm_num), ← pow_succ]
        exact h
      exact Nat.succ_le_succ (ih hdiv)

/-- The tenth byte holds the last of 64 bits, so the induction counts the bits that are left. -/
theorem consumeVarintUpTo_varint (rest : List UInt8) (h : n < 2 ^ (7 * left + 1)) :
    consumeVarintUpTo (left + 1) (varint n ++ rest) = some (n, rest) := by
  induction left generalizing n with
  | zero =>
    have hbit : n < 2 := by simpa using h
    rw [varint, if_pos (by omega), List.cons_append, List.nil_append, consumeVarintUpTo]
    interval_cases n
    · rfl
    · rfl
  | succ left ih =>
    rw [varint]
    split_ifs with hsmall
    · have hbyte : (UInt8.ofNat n).toNat = n := by
        rw [UInt8.toNat_ofNat']
        omega
      rw [List.cons_append, List.nil_append, consumeVarintUpTo, if_pos, if_neg, hbyte]
      · exact fun hlast => Nat.succ_ne_zero left hlast.1
      · rw [UInt8.lt_iff_toNat_lt, hbyte]
        exact hsmall
    · have hbyte : (UInt8.ofNat (n % 128 + 128)).toNat = n % 128 + 128 := by
        rw [UInt8.toNat_ofNat']
        omega
      have hdiv : n / 128 < 2 ^ (7 * left + 1) := by
        rw [Nat.div_lt_iff_lt_mul (by norm_num)]
        calc n < 2 ^ (7 * (left + 1) + 1) := h
          _ = 2 ^ (7 * left + 1) * 128 := by ring
      rw [List.cons_append, consumeVarintUpTo, if_neg, ih hdiv, Option.map_some, hbyte]
      · have hsplit : n % 128 + 128 - 0x80 + 0x80 * (n / 128) = n := by omega
        rw [hsplit]
      · rw [UInt8.lt_iff_toNat_lt, hbyte]
        exact Nat.not_lt_of_le (Nat.le_add_left 128 _)

theorem consumeVarint_varint (rest : List UInt8) (h : n < 2 ^ 64) :
    consumeVarint (varint n ++ rest) = some (n, rest) :=
  consumeVarintUpTo_varint rest h

theorem consumeTag_varint (rest : List UInt8) (h : n < 2 ^ 64) :
    consumeTag (varint n ++ rest) = some (n / 8, n % 8, rest) := by
  rw [consumeTag, consumeVarint_varint rest h]
  rfl

theorem consumeBytes_varint {value : List UInt8} (rest : List UInt8) (h : value.length < 2 ^ 64) :
    consumeBytes (varint value.length ++ (value ++ rest)) = some (value, rest) := by
  rw [consumeBytes, consumeVarint_varint _ h, Option.bind_some, if_pos, List.take_left,
    List.drop_left]
  rw [List.length_append]
  exact Nat.le_add_right _ _

/-- One field is read, and the rest with a unit of fuel less. -/
theorem consumeFields_varint {α : Type*}
    {field : α → ℕ → ℕ → List UInt8 → Option (α × List UInt8)} {m m' : α} {value : List UInt8}
    (htag : n < 2 ^ 32) (hnum : 1 ≤ n / 8) (htyp : n % 8 ≠ 4)
    (hfield : field m (n / 8) (n % 8) value = some (m', rest)) :
    consumeFields field (fuel + 1) m (varint n ++ value) = consumeFields field fuel m' rest := by
  have hread := consumeTag_varint value (htag.trans (by norm_num))
  obtain ⟨b, bs, hcons⟩ := List.exists_cons_of_ne_nil
    (List.append_ne_nil_of_left_ne_nil (varint_ne_nil n) value)
  rw [hcons] at hread ⊢
  rw [consumeFields, hread, Option.bind_some]
  dsimp only
  rw [if_neg, hfield, Option.bind_some]
  rintro (hlow | hhigh | hend)
  · omega
  · unfold maxFieldNumber at hhigh
    omega
  · exact htyp hend

theorem consumeFields_nil {α : Type*}
    (field : α → ℕ → ℕ → List UInt8 → Option (α × List UInt8)) (fuel : ℕ) (m : α) :
    consumeFields field fuel m [] = some m := by
  rw [consumeFields]

end Gmaker.Lib.Protowire
