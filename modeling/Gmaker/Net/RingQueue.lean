import Gmaker.Lib.Machine
import Gmaker.Net.RingBuffer

/-!
# Gmaker.Net.RingQueue — the ring buffer as a queue of bytes

A run of `RingBuffer` is put beside a list to which bytes are appended at the back and from
which they are taken at the front. The sums that the class makes of what its callers pass
are made in `size_t` here, and may come round. `ReadAt` and `DataAt` answer as the list
does all the same; `IsContiguous` does as long as `start + len` does not come round
(`answers_iff`), which takes a length that no object has.
-/

namespace Gmaker.Net

open Gmaker.Lib

/-- `std::vector<uint8_t>::max_size()`. -/
def maxSize : ℕ := 2 ^ 63 - 1

/-- What is done with a buffer; the numbers are of type `size_t`. -/
inductive RingOp where
  | append (data : Bytes)
  | consume (len : UInt64)
  | readable
  | readAt (offset len : UInt64)
  | isContiguous (offset len : UInt64)
  | dataAt (offset : UInt64)
deriving DecidableEq

namespace RingQueue

/-! ## The buffer -/

/-- `(rpos_ + offset) % buf_.size()`. -/
def start (r : RingBuffer) (offset : UInt64) : ℕ :=
  (UInt64.ofNat r.rpos + offset).toNat % r.buf.length

/-- `ReadAt`: what is copied to `out`. -/
def readAt (r : RingBuffer) (offset len : UInt64) : Bytes :=
  readRound r.buf len.toNat (start r offset) len.toNat

/-- `IsContiguous`. -/
def isContiguous (r : RingBuffer) (offset len : UInt64) : Bool :=
  if UInt64.ofNat r.size < offset + len then false
  else decide (UInt64.ofNat (start r offset) + len ≤ UInt64.ofNat r.buf.length)

/-- `DataAt`: the bytes from the pointer on, up to the end of the buffer. -/
def dataAt (r : RingBuffer) (offset : UInt64) : Bytes := r.buf.drop (start r offset)

/-- One call; an `Append` does not return if the vector it needs is too large to exist. -/
def next (r : RingBuffer) : RingOp → Option RingBuffer
  | .append data =>
    if (r.ensureSpace data.length).buf.length ≤ maxSize then some (r.append data) else none
  | .consume len => some (r.consume len.toNat)
  | .readable | .readAt _ _ | .isContiguous _ _ | .dataAt _ => some r

/-! ## The list -/

/-- What a call does to the list. -/
def listNext (q : Bytes) : RingOp → Bytes
  | .append data => q ++ data
  | .consume len => q.drop len.toNat
  | .readable | .readAt _ _ | .isContiguous _ _ | .dataAt _ => q

/-- What the buffer answers is what the list answers. What lies outside the list has no
answer there. -/
def Answers (s : RingBuffer × Bytes) : RingOp → Prop
  | .append _ | .consume _ => True
  | .readable => s.1.size = s.2.length
  | .readAt offset len => offset.toNat + len.toNat ≤ s.2.length →
      readAt s.1 offset len = (s.2.drop offset.toNat).take len.toNat
  | .isContiguous offset len => isContiguous s.1 offset len = true →
      (dataAt s.1 offset).take len.toNat = readAt s.1 offset len
  | .dataAt offset => offset.toNat < s.2.length → (dataAt s.1 offset).head? = s.2[offset.toNat]?

/-- Buffer and list take the same call. -/
def step (s : RingBuffer × Bytes) (op : RingOp) : Option (RingBuffer × Bytes) :=
  (next s.1 op).map fun r => (r, listNext s.2 op)

/-- The sum that `IsContiguous` makes with `len` last does not come round, or is not made
because the first test has failed. -/
def NoWrap (s : RingBuffer × Bytes) : RingOp → Prop
  | .isContiguous offset len =>
    UInt64.ofNat s.1.size < offset + len ∨ start s.1 offset + len.toNat < 2 ^ 64
  | _ => True

/-! ## The buffer holds the list -/

/-- The buffer holds what is in the list, in a vector that can exist. -/
structure Holds (s : RingBuffer × Bytes) : Prop where
  bytes : s.1.bytes = s.2
  fits : s.1.buf.length ≤ maxSize

theorem holds_new {cap : ℕ} (hcap : 0 < cap) (hmax : cap ≤ maxSize) :
    Holds (RingBuffer.new cap hcap, []) := by
  constructor
  · exact RingBuffer.bytes_new cap hcap
  · simpa [RingBuffer.new] using hmax

/-- The vector of a buffer that has been appended to is the one room was made in. -/
theorem length_append_buf (r : RingBuffer) (data : Bytes) :
    (r.append data).buf.length = (r.ensureSpace data.length).buf.length :=
  (r.written data).length

/-- Every call keeps the two together. -/
theorem Holds.step {s s' : RingBuffer × Bytes} {op : RingOp} (h : Holds s)
    (hstep : RingQueue.step s op = some s') : Holds s' := by
  rcases s with ⟨r, q⟩
  rcases Option.map_eq_some_iff.mp hstep with ⟨r', hnext, rfl⟩
  cases op with
  | append data =>
    simp only [next] at hnext
    split_ifs at hnext with hmax
    rcases Option.some.inj hnext with rfl
    constructor
    · rw [RingBuffer.bytes_append, h.bytes]
      rfl
    · rw [length_append_buf]
      exact hmax
  | consume len =>
    rcases Option.some.inj hnext with rfl
    constructor
    · rw [RingBuffer.bytes_consume, h.bytes]
      rfl
    · exact h.fits
  | readable | readAt _ _ | isContiguous _ _ | dataAt _ =>
    rcases Option.some.inj hnext with rfl
    exact h

/-! ## Answers -/

section Answers

variable {r : RingBuffer} {offset len : UInt64}

theorem start_lt (r : RingBuffer) (offset : UInt64) : start r offset < r.buf.length :=
  Nat.mod_lt _ r.buf_pos

/-- Inside the list the sum does not come round. -/
theorem start_eq (hfits : r.buf.length ≤ maxSize) (h : offset.toNat ≤ r.size) :
    start r offset = (r.rpos + offset.toNat) % r.buf.length := by
  have hrpos := r.rpos_lt
  have hsize := r.size_le
  unfold maxSize at hfits
  have hrpos' : r.rpos % 2 ^ 64 = r.rpos := Nat.mod_eq_of_lt (by omega)
  have hsum : (r.rpos + offset.toNat) % 2 ^ 64 = r.rpos + offset.toNat :=
    Nat.mod_eq_of_lt (by omega)
  rw [start, UInt64.toNat_add, UInt64.toNat_ofNat', hrpos', hsum]

theorem readAt_eq (hfits : r.buf.length ≤ maxSize) (h : offset.toNat + len.toNat ≤ r.size) :
    readAt r offset len = (r.bytes.drop offset.toNat).take len.toNat := by
  rw [readAt, start_eq hfits (by omega)]
  exact r.readAt_eq h

theorem head?_dataAt (hfits : r.buf.length ≤ maxSize) (h : offset.toNat < r.size) :
    (dataAt r offset).head? = r.bytes[offset.toNat]? := by
  have hcell : (r.buf.rotate (r.rpos + offset.toNat)).take 1 = (r.bytes.drop offset.toNat).take 1 :=
    r.take_rotate h
  have hpos := start_lt r offset
  rw [← List.rotate_mod, ← start_eq hfits h.le, List.rotate_eq_drop_append_take hpos.le,
    List.take_append_of_le_length (by rw [List.length_drop]; omega)] at hcell
  have hhead := congrArg List.head? hcell
  rwa [List.head?_take, List.head?_take, if_neg Nat.one_ne_zero, if_neg Nat.one_ne_zero,
    List.head?_drop (i := offset.toNat)] at hhead

theorem length_readAt (r : RingBuffer) (offset len : UInt64) :
    (readAt r offset len).length = len.toNat :=
  length_readRound (start_lt r offset) le_rfl

/-- Where the second test of `IsContiguous` is made and passes, the bytes lie in one piece
exactly if the sum has not come round. -/
theorem take_dataAt_eq_readAt_iff (hfits : r.buf.length ≤ maxSize)
    (h : isContiguous r offset len = true) :
    (dataAt r offset).take len.toNat = readAt r offset len ↔
      start r offset + len.toNat < 2 ^ 64 := by
  have hpos := start_lt r offset
  unfold maxSize at hfits
  constructor
  · -- a piece of the buffer is shorter than a length that makes the sum come round
    intro heq
    have hlen := congrArg List.length heq
    rw [length_readAt, dataAt, List.length_take, List.length_drop] at hlen
    omega
  · intro hsum
    unfold isContiguous at h
    split_ifs at h with hsize
    have hend := UInt64.le_iff_toNat_le.mp (of_decide_eq_true h)
    have hstart : start r offset % 2 ^ 64 = start r offset := Nat.mod_eq_of_lt (by omega)
    have hcap : r.buf.length % 2 ^ 64 = r.buf.length := Nat.mod_eq_of_lt (by omega)
    have hsum' : (start r offset + len.toNat) % 2 ^ 64 = start r offset + len.toNat :=
      Nat.mod_eq_of_lt hsum
    rw [UInt64.toNat_add, UInt64.toNat_ofNat', UInt64.toNat_ofNat', hstart, hcap, hsum'] at hend
    -- the piece ends before the buffer does, so that nothing is read from its front
    rw [readAt, readRound_eq (by omega) hpos le_rfl, List.rotate_eq_drop_append_take hpos.le,
      List.take_append_of_le_length (by rw [List.length_drop]; omega)]
    rfl

end Answers

/-- A call is answered as the list answers it exactly if the last sum does not come
round. -/
theorem answers_iff {s : RingBuffer × Bytes} {op : RingOp} (h : Holds s) :
    Answers s op ↔ NoWrap s op := by
  rcases s with ⟨r, q⟩
  have hbytes : r.bytes = q := h.bytes
  have hfits : r.buf.length ≤ maxSize := h.fits
  have hlen : q.length = r.size := by
    rw [← hbytes, RingBuffer.length_bytes]
  cases op with
  | append data => exact iff_of_true trivial trivial
  | consume len => exact iff_of_true trivial trivial
  | readable => exact iff_of_true hlen.symm trivial
  | readAt offset len =>
    refine iff_of_true ?_ trivial
    intro hin
    rw [← hbytes]
    exact readAt_eq hfits (hlen ▸ hin)
  | dataAt offset =>
    refine iff_of_true ?_ trivial
    intro hin
    rw [← hbytes]
    exact head?_dataAt hfits (hlen ▸ hin)
  | isContiguous offset len =>
    constructor
    · intro hans
      by_cases hsize : UInt64.ofNat r.size < offset + len
      · exact Or.inl hsize
      · right
        by_contra hwrap
        change ¬ start r offset + len.toNat < 2 ^ 64 at hwrap
        -- a sum that comes round passes the second test
        have hpos := start_lt r offset
        have hlt := len.toNat_lt
        unfold maxSize at hfits
        have hstart : start r offset % 2 ^ 64 = start r offset := Nat.mod_eq_of_lt (by omega)
        have hcap : r.buf.length % 2 ^ 64 = r.buf.length := Nat.mod_eq_of_lt (by omega)
        have hend : UInt64.ofNat (start r offset) + len ≤ UInt64.ofNat r.buf.length := by
          rw [UInt64.le_iff_toNat_le, UInt64.toNat_add, UInt64.toNat_ofNat', UInt64.toNat_ofNat',
            hstart, hcap]
          omega
        have htrue : isContiguous r offset len = true := by
          rw [isContiguous, if_neg hsize, decide_eq_true hend]
        exact hwrap ((take_dataAt_eq_readAt_iff hfits htrue).mp (hans htrue))
    · rintro (hsize | hsum) htrue
      · simp only [isContiguous, if_pos hsize] at htrue
        cases htrue
      · exact (take_dataAt_eq_readAt_iff hfits htrue).mpr hsum

/-! ## Runs -/

/-- A run of a new buffer answers as the list does exactly if no sum comes round. -/
theorem run_answers_iff (cap : ℕ) (hcap : 0 < cap) (hmax : cap ≤ maxSize) (ops : List RingOp) :
    RunOk step Answers (RingBuffer.new cap hcap, []) ops ↔
      RunOk step NoWrap (RingBuffer.new cap hcap, []) ops := by
  constructor
  · exact runOk_of_invariant (fun s op s' hs _ hstep => Holds.step hs hstep)
      (fun s op hs hans => (answers_iff hs).mp hans) (holds_new hcap hmax)
  · exact runOk_of_invariant (fun s op s' hs _ hstep => Holds.step hs hstep)
      (fun s op hs hok => (answers_iff hs).mpr hok) (holds_new hcap hmax)

theorem run_answers_iff_wrapped :
    RunOk step Answers (RingBuffer.new 4 (by decide), [])
        [.append [1, 2, 3], .consume 2, .append [4, 5], .isContiguous 1 2] ↔
      RunOk step NoWrap (RingBuffer.new 4 (by decide), [])
        [.append [1, 2, 3], .consume 2, .append [4, 5], .isContiguous 1 2] :=
  run_answers_iff 4 (by decide) (by decide) _

/-- Three bytes in a buffer of four, and the question whether `2 ^ 64 - 1` bytes lie in one
piece from the third one on. -/
theorem not_answers_wrapped :
    ¬ ∀ (cap : ℕ) (hcap : 0 < cap), cap ≤ maxSize → ∀ ops : List RingOp,
      RunOk step Answers (RingBuffer.new cap hcap, []) ops := by
  intro h
  have hrun := h 4 (by decide) (by decide) [.append [1, 2, 3], .isContiguous 2 (-1)]
  have hlast := (hrun.2 (((RingBuffer.new 4 (by decide)).append [1, 2, 3]), [1, 2, 3]) rfl).1
  have htrue : isContiguous ((RingBuffer.new 4 (by decide)).append [1, 2, 3]) 2 (-1) = true := by
    decide
  have hlen := congrArg List.length (hlast htrue)
  rw [length_readAt] at hlen
  exact absurd hlen (by decide)

end RingQueue

end Gmaker.Net
