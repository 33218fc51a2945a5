import Gmaker.Lib.Machine
import Gmaker.Net.RingQueue

/-!
# Gmaker.Net.Buffer — views of shared bytes

A `Buffer` is a range of a vector that several buffers may share. `Slice` makes a view of a
view, and cuts it off where its parent ends; but it compares `offset + len` in `size_t`, and
a sum that comes round is not too large.

Views are sliced one after the other, beside the buffer that the first one was cut from and
the sum of the offsets. As long as no sum comes round, every view lies within its parent and
is the slice of the first buffer at that sum (`views_faithful_iff`).
-/

namespace Gmaker.Net

open Gmaker.Lib

/-- A vector of bytes that can exist. -/
abbrev ByteVector := { data : Bytes // data.length ≤ maxSize }

/-- `size()`. -/
def ByteVector.size (v : ByteVector) : UInt64 := UInt64.ofNat v.val.length

theorem ByteVector.toNat_size (v : ByteVector) : v.size.toNat = v.val.length := by
  have hfits := v.property
  unfold maxSize at hfits
  rw [size, UInt64.toNat_ofNat', Nat.mod_eq_of_lt (by omega)]

/-- `Buffer`: a range of a vector that it may write to (`own_`) or only reads (`shared_`). -/
structure Buffer where
  own : Option ByteVector := none
  shared : Option ByteVector := none
  offset : UInt64 := 0
  length : UInt64 := 0
deriving DecidableEq

namespace Buffer

/-! ## The class -/

/-- `Allocate`; there is no vector of more than `max_size()` bytes. -/
def allocate (size : UInt64) : Option Buffer :=
  if h : size.toNat ≤ maxSize then
    some { own := some ⟨List.replicate size.toNat 0, by rwa [List.length_replicate]⟩, length := size }
  else none

/-- `FromVector`. -/
def fromVector (data : ByteVector) : Buffer := { own := some data, length := data.size }

/-- `Wrap`. -/
def wrap (data : Option ByteVector) (offset len : UInt64) : Buffer :=
  match data with
  | none => {}
  | some v =>
    if v.size < offset then {}
    else
      { shared := some v
        offset
        length := if v.size < offset + len then v.size - offset else len }

/-- `Slice`. -/
def slice (b : Buffer) (offset len : UInt64) : Buffer :=
  if b.length < offset then {}
  else
    let len := if b.length < offset + len then b.length - offset else len
    match b.own with
    | some v => { own := some v, offset := b.offset + offset, length := len }
    | none => { shared := b.shared, offset := b.offset + offset, length := len }

/-- The vector that `Data()` points into. -/
def vector (b : Buffer) : Option ByteVector :=
  match b.own with
  | some v => some v
  | none => b.shared

/-- `ToVector`; `none` is a read outside the vector. -/
def toVector (b : Buffer) : Option Bytes :=
  if b.length = 0 then some []
  else
    match b.vector with
    | none => some []
    | some v =>
      if b.offset.toNat + b.length.toNat ≤ v.val.length then
        some ((v.val.drop b.offset.toNat).take b.length.toNat)
      else none

/-! ## What a view may show -/

/-- The bytes there are behind `Data()`. -/
def extent (b : Buffer) : ℕ := b.vector.elim 0 fun v => v.val.length

/-- At most one of the pointers is set, and the range lies within the vector. -/
structure InVector (b : Buffer) : Prop where
  exclusive : b.own = none ∨ b.shared = none
  inside : b.offset.toNat + b.length.toNat ≤ b.extent

/-- The range lies within that of the parent, or is empty. -/
def Within (b parent : Buffer) : Prop :=
  b.length = 0 ∨
    b.vector = parent.vector ∧ parent.offset.toNat ≤ b.offset.toNat ∧
      b.offset.toNat + b.length.toNat ≤ parent.offset.toNat + parent.length.toNat

/-- The sum that a call makes does not come round, or is not made as the offset is too large. -/
def Fits (b : Buffer) (offset len : UInt64) : Prop :=
  b.length < offset ∨ offset.toNat + len.toNat < 2 ^ 64

instance (b : Buffer) (offset len : UInt64) : Decidable (b.Fits offset len) :=
  inferInstanceAs (Decidable (_ ∨ _))

section Slices

variable {b : Buffer} {offset len : UInt64}

theorem extent_le (b : Buffer) : b.extent ≤ maxSize := by
  unfold extent
  cases b.vector with
  | none => exact Nat.zero_le _
  | some v => exact v.property

/-- What is left of the parent, if the view asks for more. -/
theorem toNat_clamp {size : UInt64} (hoffset : ¬ size < offset)
    (hsum : offset.toNat + len.toNat < 2 ^ 64) :
    (if size < offset + len then size - offset else len).toNat =
      min len.toNat (size.toNat - offset.toNat) := by
  have hle : offset ≤ size := UInt64.not_lt.mp hoffset
  have hle' := UInt64.le_iff_toNat_le.mp hle
  have hadd : (offset + len).toNat = offset.toNat + len.toNat := by
    rw [UInt64.toNat_add, Nat.mod_eq_of_lt hsum]
  by_cases hmore : size < offset + len
  · rw [if_pos hmore, UInt64.toNat_sub_of_le _ _ hle]
    rw [UInt64.lt_iff_toNat_lt, hadd] at hmore
    omega
  · rw [if_neg hmore]
    rw [UInt64.lt_iff_toNat_lt, hadd] at hmore
    omega

/-- A sum that comes round is smaller than the offset, and nothing is cut off. -/
theorem clamp_of_wrap {size : UInt64} (hoffset : ¬ size < offset)
    (hsum : 2 ^ 64 ≤ offset.toNat + len.toNat) :
    (if size < offset + len then size - offset else len) = len := by
  have hle := UInt64.le_iff_toNat_le.mp (UInt64.not_lt.mp hoffset)
  have hoffsetLt := offset.toNat_lt
  have hlenLt := len.toNat_lt
  refine if_neg ?_
  rw [UInt64.lt_iff_toNat_lt, UInt64.toNat_add]
  omega

/-- The pointers of a view are those of its parent. -/
theorem slice_eq (h : b.InVector) (hoffset : ¬ b.length < offset) :
    b.slice offset len =
      { b with
        offset := b.offset + offset
        length := if b.length < offset + len then b.length - offset else len } := by
  unfold slice
  rw [if_neg hoffset]
  rcases hown : b.own with _ | v
  · rfl
  · have hshared : b.shared = none := h.exclusive.resolve_left (by rw [hown]; exact nofun)
    rw [hshared]

theorem slice_of_lt (hoffset : b.length < offset) : b.slice offset len = {} := if_pos hoffset

theorem vector_with (b : Buffer) (offset len : UInt64) :
    Buffer.vector { b with offset := offset, length := len } = b.vector := rfl

theorem inVector_empty : InVector {} := ⟨.inl rfl, le_rfl⟩

/-- The offset of a view in the vector does not come round. -/
theorem toNat_add_offset (h : b.InVector) (hoffset : ¬ b.length < offset) :
    (b.offset + offset).toNat = b.offset.toNat + offset.toNat := by
  have hinside := h.inside
  have hextent := b.extent_le
  have hle := UInt64.le_iff_toNat_le.mp (UInt64.not_lt.mp hoffset)
  unfold maxSize at hextent
  rw [UInt64.toNat_add, Nat.mod_eq_of_lt (by omega)]

theorem InVector.slice (h : b.InVector) (hfits : b.Fits offset len) :
    (b.slice offset len).InVector := by
  by_cases hoffset : b.length < offset
  · rw [slice_of_lt hoffset]
    exact inVector_empty
  · rw [slice_eq h hoffset]
    refine ⟨h.exclusive, ?_⟩
    have hinside := h.inside
    have hle := UInt64.le_iff_toNat_le.mp (UInt64.not_lt.mp hoffset)
    have hclamp := toNat_clamp hoffset (hfits.resolve_left hoffset)
    have hextent : Buffer.extent { b with
        offset := b.offset + offset
        length := if b.length < offset + len then b.length - offset else len } = b.extent := rfl
    rw [hextent]
    dsimp only
    rw [toNat_add_offset h hoffset, hclamp]
    omega

/-- A view lies within its parent if and only if the sum does not come round. -/
theorem within_slice_iff (h : b.InVector) :
    (b.slice offset len).Within b ↔ b.Fits offset len := by
  by_cases hoffset : b.length < offset
  · rw [slice_of_lt hoffset]
    exact iff_of_true (.inl rfl) (.inl hoffset)
  have hle := UInt64.le_iff_toNat_le.mp (UInt64.not_lt.mp hoffset)
  by_cases hsum : offset.toNat + len.toNat < 2 ^ 64
  · refine iff_of_true (.inr ?_) (.inr hsum)
    have hclamp := toNat_clamp hoffset hsum
    rw [slice_eq h hoffset]
    refine ⟨rfl, ?_, ?_⟩
    · rw [toNat_add_offset h hoffset]
      exact Nat.le_add_right _ _
    · dsimp only
      rw [toNat_add_offset h hoffset, hclamp]
      omega
  · -- nothing is cut off, and the view is longer than any vector
    refine iff_of_false ?_ (not_or.mpr ⟨hoffset, hsum⟩)
    have hclamp := clamp_of_wrap hoffset (not_lt.mp hsum)
    have hblen := b.length.toNat_lt
    have hoffsetLt := offset.toNat_lt
    rw [slice_eq h hoffset, hclamp]
    rintro (hzero | ⟨-, -, hend⟩)
    · dsimp only at hzero
      rw [hzero, UInt64.toNat_zero] at hsum
      omega
    · dsimp only at hend
      rw [toNat_add_offset h hoffset] at hend
      omega

/-- What a buffer shows lies within its vector. -/
theorem toVector_eq (h : b.InVector) :
    b.toVector = some (((b.vector.elim [] Subtype.val).drop b.offset.toNat).take b.length.toNat) := by
  have hinside := h.inside
  unfold toVector extent at *
  by_cases hzero : b.length = 0
  · rw [if_pos hzero, hzero, UInt64.toNat_zero, List.take_zero]
  · rw [if_neg hzero]
    cases hvector : b.vector with
    | none => exact congrArg some (by rw [Option.elim_none, List.drop_nil, List.take_nil])
    | some v =>
      rw [hvector] at hinside
      exact if_pos hinside

/-- The bytes of a view are those of its parent from the offset on. -/
theorem toVector_slice (h : b.InVector) (hfits : b.Fits offset len) :
    (b.slice offset len).toVector =
      b.toVector.map fun data => (data.drop offset.toNat).take len.toNat := by
  rw [toVector_eq (h.slice hfits), toVector_eq h, Option.map_some, List.drop_take, List.drop_drop,
    List.take_take]
  by_cases hoffset : b.length < offset
  · have hlt := UInt64.lt_iff_toNat_lt.mp hoffset
    rw [slice_of_lt hoffset, Nat.sub_eq_zero_of_le hlt.le, Nat.min_zero, List.take_zero]
    rfl
  · have hclamp := toNat_clamp hoffset (hfits.resolve_left hoffset)
    rw [slice_eq h hoffset, vector_with]
    dsimp only
    rw [toNat_add_offset h hoffset, hclamp]

/-- The middle of three bytes. -/
theorem toVector_slice_three :
    ((fromVector ⟨[1, 2, 3], by decide⟩).slice 1 1).toVector = some [2] :=
  (toVector_slice (b := fromVector ⟨[1, 2, 3], by decide⟩) ⟨.inr rfl, by decide⟩
    (.inr (by decide))).trans (by decide)

end Slices

/-! ## Views of views -/

/-- The buffer that was sliced first, the view that is left, and the sum of the offsets. -/
structure Views where
  root : Buffer
  view : Buffer
  sum : ℕ

/-- The last view is sliced. -/
def Views.step (s : Views) (call : UInt64 × UInt64) : Option Views :=
  some { s with view := s.view.slice call.1 call.2, sum := s.sum + call.1.toNat }

/-- The new view lies within its parent; it is rejected, or is the slice of the first buffer
at the sum of the offsets. -/
structure Views.Faithful (s : Views) (call : UInt64 × UInt64) : Prop where
  within : (s.view.slice call.1 call.2).Within s.view
  sliced : s.view.slice call.1 call.2 = {} ∨
    s.view.slice call.1 call.2 =
      s.root.slice (UInt64.ofNat (s.sum + call.1.toNat)) (min call.2 (s.view.length - call.1))

/-- The sum of the call does not come round. -/
def Views.Fits (s : Views) (call : UInt64 × UInt64) : Prop := s.view.Fits call.1 call.2

instance (s : Views) (call : UInt64 × UInt64) : Decidable (s.Fits call) :=
  inferInstanceAs (Decidable (s.view.Fits ..))

/-- Where a buffer comes from. -/
inductive Source where
  | allocate (size : UInt64)
  | fromVector (data : ByteVector)
  | wrap (data : Option ByteVector) (offset len : UInt64)

/-- The buffer that is made; `none` if memory cannot hold it. -/
def Source.make : Source → Option Buffer
  | .allocate size => Buffer.allocate size
  | .fromVector data => some (Buffer.fromVector data)
  | .wrap data offset len => some (Buffer.wrap data offset len)

/-- The sum that `Wrap` makes does not come round, or is not made. -/
def Source.Fits : Source → Prop
  | .wrap (some v) offset len => v.size < offset ∨ offset.toNat + len.toNat < 2 ^ 64
  | _ => True

section Views

variable {b : Buffer} {s s' : Views} {call : UInt64 × UInt64}

/-- The view is the range of the first buffer at the sum of the offsets, or has been
rejected. -/
structure Views.Nested (s : Views) : Prop where
  root : s.root.InVector
  view : s.view = {} ∨ s.sum + s.view.length.toNat ≤ s.root.length.toNat ∧
    s.view = { s.root with offset := s.root.offset + UInt64.ofNat s.sum, length := s.view.length }

/-- The sum of the offsets does not come round. -/
theorem Views.Nested.toNat_sum (h : s.Nested) {n : ℕ} (hn : n ≤ s.root.length.toNat) :
    (UInt64.ofNat n).toNat = n ∧ (s.root.offset + UInt64.ofNat n).toNat = s.root.offset.toNat + n := by
  have hlt := s.root.length.toNat_lt
  have hsum : (UInt64.ofNat n).toNat = n := by
    rw [UInt64.toNat_ofNat', Nat.mod_eq_of_lt (by omega)]
  have hoffset : ¬ s.root.length < UInt64.ofNat n := by
    rw [UInt64.lt_iff_toNat_lt, hsum]
    exact not_lt.mpr hn
  refine ⟨hsum, ?_⟩
  rw [toNat_add_offset h.root hoffset, hsum]

theorem Views.Nested.inVector (h : s.Nested) : s.view.InVector := by
  rcases h.view with hrejected | ⟨hle, hview⟩
  · rw [hrejected]
    exact inVector_empty
  · have hinside := h.root.inside
    have hsum := (h.toNat_sum (Nat.le_of_add_right_le hle)).2
    rw [hview]
    refine ⟨h.root.exclusive, ?_⟩
    have hextent : Buffer.extent { s.root with
        offset := s.root.offset + UInt64.ofNat s.sum, length := s.view.length } = s.root.extent :=
      rfl
    rw [hextent]
    dsimp only
    rw [hsum]
    omega

theorem toNat_min (x y : UInt64) : (min x y).toNat = min x.toNat y.toNat := by
  have hmin : min x y = if x ≤ y then x else y := rfl
  rw [hmin, Nat.min_def]
  by_cases hle : x ≤ y
  · rw [if_pos hle, if_pos (UInt64.le_iff_toNat_le.mp hle)]
  · rw [if_neg hle, if_neg (hle ∘ UInt64.le_iff_toNat_le.mpr)]

theorem slice_empty (offset len : UInt64) : ({} : Buffer).slice offset len = {} := by
  by_cases hoffset : (0 : UInt64) < offset
  · exact slice_of_lt hoffset
  · have hzero : offset = 0 := by
      have hle := UInt64.le_iff_toNat_le.mp (UInt64.not_lt.mp hoffset)
      exact UInt64.toNat_inj.mp (Nat.le_zero.mp hle)
    rw [slice_eq inVector_empty hoffset, hzero]
    have hstart : ¬ (0 : UInt64) < 0 := by decide
    have hsum : (0 : UInt64).toNat + len.toNat < 2 ^ 64 := by
      rw [UInt64.toNat_zero, Nat.zero_add]
      exact len.toNat_lt
    have hclamp := toNat_clamp hstart hsum
    have hlength : (if (0 : UInt64) < 0 + len then (0 : UInt64) - 0 else len) = 0 := by
      apply UInt64.toNat_inj.mp
      rw [hclamp]
      exact Nat.min_zero _
    dsimp only
    rw [hlength]
    rfl

/-- A view that is not rejected is the slice of the first buffer, and no longer than what was
left of its parent. -/
theorem Views.Nested.slice_view (h : s.Nested) (hfits : s.view.Fits call.1 call.2)
    (hcall : s.view.slice call.1 call.2 ≠ {}) :
    s.sum + call.1.toNat + (s.view.slice call.1 call.2).length.toNat ≤ s.root.length.toNat ∧
      s.view.slice call.1 call.2 =
        { s.root with
          offset := s.root.offset + UInt64.ofNat (s.sum + call.1.toNat)
          length := min call.2 (s.view.length - call.1) } := by
  rcases h.view with hrejected | ⟨hle, hview⟩
  · rw [hrejected, slice_empty] at hcall
    exact absurd rfl hcall
  have hoffset : ¬ s.view.length < call.1 := by
    intro hlt
    exact hcall (slice_of_lt hlt)
  have hcallLe := UInt64.not_lt.mp hoffset
  have hcallLe' := UInt64.le_iff_toNat_le.mp hcallLe
  have hclamp := toNat_clamp hoffset (hfits.resolve_left hoffset)
  have hlength : (if s.view.length < call.1 + call.2 then s.view.length - call.1 else call.2) =
      min call.2 (s.view.length - call.1) := by
    apply UInt64.toNat_inj.mp
    rw [hclamp, toNat_min, UInt64.toNat_sub_of_le _ _ hcallLe]
  have hadd : s.view.offset + call.1 = s.root.offset + UInt64.ofNat (s.sum + call.1.toNat) := by
    apply UInt64.toNat_inj.mp
    rw [toNat_add_offset h.inVector hoffset, (h.toNat_sum (by omega)).2, hview]
    dsimp only
    rw [(h.toNat_sum (Nat.le_of_add_right_le hle)).2, Nat.add_assoc]
  rw [slice_eq h.inVector hoffset]
  constructor
  · dsimp only
    rw [hclamp]
    omega
  · dsimp only
    rw [hadd, hlength, hview]

theorem Views.Nested.step (h : s.Nested) (hfits : s.Fits call) (hstep : s.step call = some s') :
    s'.Nested := by
  rcases Option.some.inj hstep with rfl
  refine ⟨h.root, ?_⟩
  by_cases hcall : s.view.slice call.1 call.2 = {}
  · exact .inl hcall
  · rcases h.slice_view hfits hcall with ⟨hle, hslice⟩
    refine .inr ⟨hle, ?_⟩
    dsimp only
    have hlength := congrArg Buffer.length hslice
    dsimp only at hlength
    rw [hlength]
    exact hslice

/-- A call is faithful if and only if its sum does not come round. -/
theorem Views.Nested.faithful_iff (h : s.Nested) : s.Faithful call ↔ s.Fits call := by
  constructor
  · intro hfaithful
    exact (within_slice_iff h.inVector).mp hfaithful.within
  · intro hfits
    refine ⟨(within_slice_iff h.inVector).mpr hfits, ?_⟩
    by_cases hcall : s.view.slice call.1 call.2 = {}
    · exact .inl hcall
    · right
      rcases h.slice_view hfits hcall with ⟨hle, hslice⟩
      have hlength := congrArg Buffer.length hslice
      dsimp only at hlength
      rw [hlength] at hle
      rw [hslice]
      -- the first buffer is long enough, so that nothing is cut off
      have hsum := (h.toNat_sum (Nat.le_of_add_right_le hle)).1
      have hlt := s.root.length.toNat_lt
      have hoffset : ¬ s.root.length < UInt64.ofNat (s.sum + call.1.toNat) := by
        rw [UInt64.lt_iff_toNat_lt, hsum]
        omega
      have hmore : ¬ s.root.length <
          UInt64.ofNat (s.sum + call.1.toNat) + min call.2 (s.view.length - call.1) := by
        rw [UInt64.lt_iff_toNat_lt, UInt64.toNat_add, hsum, Nat.mod_eq_of_lt (by omega)]
        omega
      rw [slice_eq h.root hoffset, if_neg hmore]

/-- What is made lies within its vector if and only if the sum of `Wrap` does not come round. -/
theorem inVector_make_iff {source : Source} (hmake : source.make = some b) :
    b.InVector ↔ source.Fits := by
  cases source with
  | allocate size =>
    simp only [Source.make, allocate] at hmake
    split_ifs at hmake with hsize
    rcases Option.some.inj hmake with rfl
    refine iff_of_true ⟨.inr rfl, ?_⟩ trivial
    simp [extent, vector]
  | fromVector data =>
    rcases Option.some.inj hmake with rfl
    refine iff_of_true ⟨.inr rfl, ?_⟩ trivial
    simp [fromVector, extent, vector, ByteVector.toNat_size]
  | wrap data offset len =>
    rcases Option.some.inj hmake with rfl
    cases data with
    | none => exact iff_of_true inVector_empty trivial
    | some v =>
      simp only [wrap, Source.Fits]
      by_cases hoffset : v.size < offset
      · rw [if_pos hoffset]
        exact iff_of_true inVector_empty (.inl hoffset)
      rw [if_neg hoffset]
      have hle := UInt64.le_iff_toNat_le.mp (UInt64.not_lt.mp hoffset)
      have hsize := v.toNat_size
      by_cases hsum : offset.toNat + len.toNat < 2 ^ 64
      · refine iff_of_true ⟨.inl rfl, ?_⟩ (.inr hsum)
        have hclamp := toNat_clamp hoffset hsum
        simp only [extent, vector, Option.elim_some, hclamp]
        omega
      · refine iff_of_false (fun hbad => ?_) (not_or.mpr ⟨hoffset, hsum⟩)
        have hinside := hbad.inside
        have hfits := v.property
        simp only [extent, vector, Option.elim_some, clamp_of_wrap hoffset (not_lt.mp hsum)]
          at hinside
        unfold maxSize at hfits
        omega

end Views

/-- A buffer lies within its vector, and all views of it and of its views lie within their
parents and are its slices at the sums of their offsets, if and only if no sum comes round. -/
theorem views_faithful_iff (source : Source) {b : Buffer} (hmake : source.make = some b)
    (calls : List (UInt64 × UInt64)) :
    (b.InVector ∧ RunOk Views.step Views.Faithful ⟨b, b, 0⟩ calls) ↔
      source.Fits ∧ RunOk Views.step Views.Fits ⟨b, b, 0⟩ calls := by
  rw [inVector_make_iff hmake]
  refine and_congr_right fun hsource => ?_
  have hb : b.InVector := (inVector_make_iff hmake).mpr hsource
  have hstart : Views.Nested ⟨b, b, 0⟩ := by
    refine ⟨hb, .inr ⟨(Nat.zero_add _).le, ?_⟩⟩
    have hzero : b.offset + UInt64.ofNat 0 = b.offset := UInt64.add_zero _
    dsimp only
    rw [hzero]
  constructor
  · exact runOk_of_invariant
      (fun s call s' hs hok hstep => hs.step (hs.faithful_iff.mp hok) hstep)
      (fun s call hs hok => hs.faithful_iff.mp hok) hstart
  · exact runOk_of_invariant (fun s call s' hs hok hstep => hs.step hok hstep)
      (fun s call hs hok => hs.faithful_iff.mpr hok) hstart

/-- A packet of five bytes. -/
def fiveBytes : Buffer := fromVector ⟨[1, 2, 3, 4, 5], by decide⟩

/-- All but the first byte, and of these two from the second on. -/
theorem views_faithful_iff_nested :
    (fiveBytes.InVector ∧
      RunOk Views.step Views.Faithful ⟨fiveBytes, fiveBytes, 0⟩ [(1, 9), (1, 2)]) ↔
    True ∧ RunOk Views.step Views.Fits ⟨fiveBytes, fiveBytes, 0⟩ [(1, 9), (1, 2)] :=
  views_faithful_iff (.fromVector ⟨[1, 2, 3, 4, 5], by decide⟩) rfl [(1, 9), (1, 2)]

example : RunOk Views.step Views.Fits ⟨fiveBytes, fiveBytes, 0⟩ [(1, 9), (1, 2)] := by decide

example : ((fiveBytes.slice 1 9).slice 1 2).toVector = some [3, 4] := by decide

/-- All but the first byte of three: the length that means the rest comes round. -/
theorem not_views_faithful_rest :
    ¬ ∀ (source : Source) (b : Buffer), source.make = some b → ∀ calls : List (UInt64 × UInt64),
      b.InVector ∧ RunOk Views.step Views.Faithful ⟨b, b, 0⟩ calls := by
  intro h
  have hrun := (h (.fromVector ⟨[1, 2, 3], by decide⟩) _ rfl [(1, -1)]).2.1.within
  rcases hrun with hzero | ⟨-, -, hend⟩
  · exact absurd hzero (by decide)
  · exact absurd hend (by decide)

end Buffer

end Gmaker.Net
