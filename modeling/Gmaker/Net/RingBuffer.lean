import Gmaker.Lib.Ring
import Gmaker.Net.Packet

/-!
# Gmaker.Net.RingBuffer — the read buffer of a connection

The bytes that have been read and not yet consumed, in a buffer that is used in a
circle and grows by doubling. `bytes` is what is in it; each operation is described by
what it does to `bytes`, whatever the positions are.
-/

namespace Gmaker.Net

open Gmaker.Lib

/-! ## The buffer -/

/-- `RingBuffer`. -/
structure RingBuffer where
  buf : Bytes
  rpos : ℕ
  wpos : ℕ
  size : ℕ
  rpos_lt : rpos < buf.length
  size_le : size ≤ buf.length
  wpos_eq : wpos = (rpos + size) % buf.length

namespace RingBuffer

/-- What is in the buffer, first byte first. -/
def bytes (r : RingBuffer) : Bytes := (r.buf.rotate r.rpos).take r.size

theorem buf_pos (r : RingBuffer) : 0 < r.buf.length := Nat.zero_lt_of_lt r.rpos_lt

theorem wpos_lt (r : RingBuffer) : r.wpos < r.buf.length := r.wpos_eq ▸ Nat.mod_lt _ r.buf_pos

@[simp] theorem length_bytes (r : RingBuffer) : r.bytes.length = r.size := by
  rw [bytes, List.length_take, List.length_rotate]
  exact Nat.min_eq_left r.size_le

/-- The capacity of a new buffer, if not given. -/
def defaultCap : ℕ := 1024 * 1024

/-- `RingBuffer(cap)`. -/
def new (cap : ℕ) (hcap : 0 < cap) : RingBuffer where
  buf := List.replicate cap 0
  rpos := 0
  wpos := 0
  size := 0
  rpos_lt := by rwa [List.length_replicate]
  size_le := Nat.zero_le _
  wpos_eq := by rw [Nat.add_zero, Nat.zero_mod]

@[simp] theorem bytes_new (cap : ℕ) (hcap : 0 < cap) : (new cap hcap).bytes = [] := rfl

/-! ## Making room -/

/-- `while (new_cap < need) new_cap *= 2`. -/
def doubled (need cap : ℕ) : ℕ :=
  if h : 0 < cap ∧ cap < need then doubled need (cap * 2) else cap
termination_by need - cap
decreasing_by omega

theorem le_doubled {need cap : ℕ} (hcap : 0 < cap) : need ≤ doubled need cap := by
  induction cap using doubled.induct need with
  | case1 cap h ih =>
    rw [doubled, dif_pos h]
    exact ih (by omega)
  | case2 cap h =>
    rw [doubled, dif_neg h]
    omega

/-- The bytes of the buffer, moved to the front of a new one. -/
def moved (r : RingBuffer) (newCap : ℕ) : Bytes :=
  writeAt (List.replicate newCap 0) 0 (readRound r.buf r.size r.rpos r.size)

theorem readRound_bytes (r : RingBuffer) : readRound r.buf r.size r.rpos r.size = r.bytes :=
  readRound_eq r.size_le r.rpos_lt le_rfl

theorem length_moved (r : RingBuffer) {newCap : ℕ} (h : r.size ≤ newCap) :
    (r.moved newCap).length = newCap := by
  have hlen : r.bytes.length = r.size := r.length_bytes
  rw [moved, readRound_bytes, length_writeAt (by rw [List.length_replicate]; omega),
    List.length_replicate]

/-- `EnsureSpace`. -/
def ensureSpace (r : RingBuffer) (len : ℕ) : RingBuffer :=
  if h : r.size + len ≤ r.buf.length then r
  else
    have hcap : r.size < doubled (r.size + len) r.buf.length := by
      have hle : r.size + len ≤ doubled (r.size + len) r.buf.length := le_doubled r.buf_pos
      have hsize := r.size_le
      omega
    { buf := r.moved (doubled (r.size + len) r.buf.length)
      rpos := 0
      wpos := r.size
      size := r.size
      rpos_lt := by
        rw [r.length_moved hcap.le]
        omega
      size_le := by
        rw [r.length_moved hcap.le]
        exact hcap.le
      wpos_eq := by
        rw [r.length_moved hcap.le, Nat.zero_add, Nat.mod_eq_of_lt hcap] }

/-- There is room, and nothing else has changed. -/
theorem ensureSpace_spec (r : RingBuffer) (len : ℕ) :
    (r.ensureSpace len).bytes = r.bytes ∧ (r.ensureSpace len).size = r.size ∧
      r.size + len ≤ (r.ensureSpace len).buf.length := by
  unfold ensureSpace
  split_ifs with h
  · exact ⟨rfl, rfl, h⟩
  · have hle : r.size + len ≤ doubled (r.size + len) r.buf.length := le_doubled r.buf_pos
    have hlen : r.bytes.length = r.size := r.length_bytes
    refine ⟨?_, rfl, ?_⟩
    · change ((r.moved (doubled (r.size + len) r.buf.length)).rotate 0).take r.size = r.bytes
      rw [List.rotate_zero, moved, readRound_bytes, writeAt, List.take_zero, List.nil_append,
        ← hlen, List.take_left]
    · change _ ≤ (r.moved (doubled (r.size + len) r.buf.length)).length
      rw [r.length_moved (by omega)]
      exact hle

/-! ## Writing and reading -/

theorem written (r : RingBuffer) (data : Bytes) :
    Written (r.ensureSpace data.length).buf (r.ensureSpace data.length).wpos data
      (writeRound data.length (r.ensureSpace data.length).buf (r.ensureSpace data.length).wpos
        data) := by
  obtain ⟨-, hsize, hroom⟩ := r.ensureSpace_spec data.length
  exact writeRound_rotate (by omega) (wpos_lt _) le_rfl

/-- `Append`. -/
def append (r : RingBuffer) (data : Bytes) : RingBuffer :=
  let e := r.ensureSpace data.length
  let w := writeRound data.length e.buf e.wpos data
  have hw : Written e.buf e.wpos data w := r.written data
  { buf := w.1
    rpos := e.rpos
    wpos := w.2
    size := e.size + data.length
    rpos_lt := by
      rw [hw.length]
      exact e.rpos_lt
    size_le := by
      obtain ⟨-, hsize, hroom⟩ := r.ensureSpace_spec data.length
      rw [hw.length]
      change (r.ensureSpace data.length).size + _ ≤ (r.ensureSpace data.length).buf.length
      omega
    wpos_eq := by
      rw [hw.length, hw.pos, e.wpos_eq, Nat.mod_add_mod, Nat.add_assoc] }

/-- The new bytes come last. -/
theorem bytes_append (r : RingBuffer) (data : Bytes) : (r.append data).bytes = r.bytes ++ data := by
  obtain ⟨hbytes, hsize, hroom⟩ := r.ensureSpace_spec data.length
  have hw := r.written data
  rw [← hbytes]
  change ((writeRound data.length (r.ensureSpace data.length).buf (r.ensureSpace data.length).wpos
    data).1.rotate (r.ensureSpace data.length).rpos).take _ = _
  change List.take ((r.ensureSpace data.length).size + data.length) _ = _
  generalize r.ensureSpace data.length = e at hw hsize hroom ⊢
  generalize writeRound data.length e.buf e.wpos data = w at hw ⊢
  -- the cells behind the bytes are free
  let free := (e.buf.rotate e.rpos).drop e.size
  have hcells : e.buf.rotate e.rpos = e.bytes ++ free := (List.take_append_drop _ _).symm
  have hlen : e.bytes.length = e.size := e.length_bytes
  have hfree : free.length = e.buf.length - e.size := by
    rw [List.length_drop, List.length_rotate]
  have hsize' := e.size_le
  -- seen from the write position they come first, and take the new bytes
  have hseen : e.buf.rotate e.wpos = free ++ e.bytes := by
    rw [e.wpos_eq, List.rotate_mod, ← List.rotate_rotate, hcells, ← hlen,
      List.rotate_append_length_eq]
  have hnew : w.1.rotate e.wpos = (data ++ free.drop data.length) ++ e.bytes := by
    rw [hw.rotate, hseen, List.drop_append_of_le_length (by omega), List.append_assoc]
  have hfront : (data ++ free.drop data.length).length = e.buf.length - e.size := by
    rw [List.length_append, List.length_drop, hfree]
    omega
  -- and back to the read position
  have hback : w.1.rotate e.rpos = e.bytes ++ (data ++ free.drop data.length) := by
    have hturn : (w.1.rotate e.wpos).rotate (e.buf.length - e.size) = w.1.rotate e.rpos := by
      have hsum : e.rpos + e.size + (e.buf.length - e.size) = e.buf.length + e.rpos := by omega
      rw [e.wpos_eq, ← hw.length, List.rotate_mod, List.rotate_rotate, hw.length, hsum,
        ← List.rotate_rotate, ← hw.length, List.rotate_length]
    rw [← hturn, hnew, ← hfront, List.rotate_append_length_eq]
  rw [hback, ← List.append_assoc, ← hlen, ← List.length_append, List.take_left]

/-- `ReadAt`. -/
def readAt (r : RingBuffer) (offset len : ℕ) : Bytes :=
  readRound r.buf len ((r.rpos + offset) % r.buf.length) len

/-- `IsContiguous`. -/
def isContiguous (r : RingBuffer) (offset len : ℕ) : Bool :=
  if r.size < offset + len then false
  else decide ((r.rpos + offset) % r.buf.length + len ≤ r.buf.length)

/-- The bytes from `DataAt` on, up to the end of the buffer. -/
def dataAt (r : RingBuffer) (offset : ℕ) : Bytes := r.buf.drop ((r.rpos + offset) % r.buf.length)

/-- `Consume`. -/
def consume (r : RingBuffer) (len : ℕ) : RingBuffer where
  buf := r.buf
  rpos := (r.rpos + min len r.size) % r.buf.length
  wpos := r.wpos
  size := r.size - min len r.size
  rpos_lt := Nat.mod_lt _ r.buf_pos
  size_le := (Nat.sub_le _ _).trans r.size_le
  wpos_eq := by
    have hsum : r.rpos + min len r.size + (r.size - min len r.size) = r.rpos + r.size := by omega
    rw [r.wpos_eq, Nat.mod_add_mod, hsum]

/-- `len` cells from an offset on, as long as they hold bytes. -/
theorem take_rotate (r : RingBuffer) {offset len : ℕ} (h : offset + len ≤ r.size) :
    (r.buf.rotate (r.rpos + offset)).take len = (r.bytes.drop offset).take len := by
  have hsize := r.size_le
  have hlen : (r.buf.rotate r.rpos).length = r.buf.length := List.length_rotate _ _
  rw [← List.rotate_rotate, List.rotate_eq_drop_append_take (by omega), bytes, List.drop_take,
    List.take_take, List.take_append_of_le_length (by rw [List.length_drop]; omega),
    Nat.min_eq_left (by omega)]

theorem readAt_eq (r : RingBuffer) {offset len : ℕ} (h : offset + len ≤ r.size) :
    r.readAt offset len = (r.bytes.drop offset).take len := by
  have hsize := r.size_le
  rw [readAt, readRound_eq (by omega) (Nat.mod_lt _ r.buf_pos) le_rfl, List.rotate_mod,
    r.take_rotate h]

/-- Where the bytes do not go round, they are read in place. -/
theorem dataAt_eq (r : RingBuffer) {offset len : ℕ} (h : r.isContiguous offset len = true) :
    (r.dataAt offset).take len = (r.bytes.drop offset).take len := by
  unfold isContiguous at h
  split_ifs at h with hsize
  have hend := of_decide_eq_true h
  have hpos : (r.rpos + offset) % r.buf.length < r.buf.length := Nat.mod_lt _ r.buf_pos
  rw [← r.take_rotate (not_lt.mp hsize), ← List.rotate_mod,
    List.rotate_eq_drop_append_take hpos.le, dataAt,
    List.take_append_of_le_length (by rw [List.length_drop]; omega)]

@[simp] theorem bytes_consume (r : RingBuffer) (len : ℕ) :
    (r.consume len).bytes = r.bytes.drop len := by
  have hsize := r.size_le
  have htake : (r.buf.rotate (r.rpos + min len r.size)).take (r.size - min len r.size) =
      (r.bytes.drop (min len r.size)).take (r.size - min len r.size) :=
    r.take_rotate (by omega)
  have hall : (r.bytes.drop (min len r.size)).take (r.size - min len r.size) =
      r.bytes.drop (min len r.size) :=
    List.take_of_length_le (by rw [List.length_drop, r.length_bytes])
  change (r.buf.rotate ((r.rpos + min len r.size) % r.buf.length)).take (r.size - min len r.size) = _
  rw [List.rotate_mod, htake, hall]
  rcases le_total len r.size with hle | hle
  · rw [Nat.min_eq_left hle]
  · rw [Nat.min_eq_right hle, List.drop_eq_nil_of_le (by rw [r.length_bytes]),
      List.drop_eq_nil_of_le (by rw [r.length_bytes]; exact hle)]

end RingBuffer

end Gmaker.Net
