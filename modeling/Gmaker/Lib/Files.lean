import Mathlib

/-!
# Gmaker.Lib.Files — named files over inodes

A directory names inodes, and an inode keeps its bytes under whatever name it has: who has a
file open goes on writing to its inode when the name is given to another. Opening for writing
creates or truncates, writing puts bytes at an offset, renaming gives the inode of one name to
another name.
-/

namespace Gmaker.Lib

universe u

/-- A directory with the bytes of its inodes; no inode from `fresh` on is in use. -/
structure Disk (Name : Type u) where
  entry : Name → Option ℕ
  bytes : ℕ → List UInt8
  fresh : ℕ

namespace Disk

variable {Name : Type u} [DecidableEq Name]

/-- The bytes under a name. -/
def contents (d : Disk Name) (name : Name) : Option (List UInt8) := (d.entry name).map d.bytes

/-- Open for writing, created if it is not there and truncated: the inode. -/
def create (d : Disk Name) (name : Name) : ℕ × Disk Name :=
  match d.entry name with
  | some n => (n, { d with bytes := Function.update d.bytes n [] })
  | none =>
    (d.fresh, { entry := Function.update d.entry name (some d.fresh)
                bytes := Function.update d.bytes d.fresh []
                fresh := d.fresh + 1 })

/-- The bytes after some were put at an offset; a gap is filled with zeros, and to put none
changes nothing. -/
def overwrite (old : List UInt8) (off : ℕ) (chunk : List UInt8) : List UInt8 :=
  if chunk = [] then old
  else
    old.take off ++ List.replicate (off - old.length) 0 ++ chunk ++ old.drop (off + chunk.length)

/-- Put bytes at an offset of an inode. -/
def writeAt (d : Disk Name) (n off : ℕ) (chunk : List UInt8) : Disk Name :=
  { d with bytes := Function.update d.bytes n (overwrite (d.bytes n) off chunk) }

/-- Give the inode of a name to another name; `none` if there is no such file. -/
def rename (d : Disk Name) (old new : Name) : Option (Disk Name) :=
  (d.entry old).map fun n =>
    { d with entry := Function.update (Function.update d.entry new (some n)) old none }

variable {d d' : Disk Name} {name old new : Name} {n off k : ℕ} {c : List UInt8}

/-- A file that was just opened for writing is under its name, and empty. -/
theorem create_spec (d : Disk Name) (name : Name) :
    (d.create name).2.entry name = some (d.create name).1 ∧
      (d.create name).2.bytes (d.create name).1 = [] := by
  unfold create
  split
  · next n h => exact ⟨h, Function.update_self ..⟩
  · exact ⟨Function.update_self .., Function.update_self ..⟩

omit [DecidableEq Name] in
@[simp] theorem writeAt_entry (chunk : List UInt8) : (d.writeAt n off chunk).entry = d.entry := rfl

/-- Where the bytes of a text up to an offset stand, the next bytes of the text continue it. -/
theorem overwrite_take (hoff : off ≤ c.length) :
    overwrite (c.take off) off ((c.drop off).take k) = c.take (off + k) := by
  have hlen : (c.take off).length = off := List.length_take_of_le hoff
  have htail (n : ℕ) : (c.take off).drop (off + n) = [] :=
    List.drop_of_length_le (by omega)
  unfold overwrite
  split_ifs with hempty
  · rw [List.take_add, hempty, List.append_nil]
  · rw [hlen, Nat.sub_self, List.take_take, min_self, List.replicate_zero, List.append_nil, htail,
      List.append_nil, List.take_add]

omit [DecidableEq Name] in
theorem bytes_writeAt_take (hoff : off ≤ c.length) (h : d.bytes n = c.take off) :
    (d.writeAt n off ((c.drop off).take k)).bytes n = c.take (off + k) := by
  rw [writeAt, h, overwrite_take hoff]
  exact Function.update_self ..

omit [DecidableEq Name] in
@[simp] theorem writeAt_nil : d.writeAt n off [] = d := by
  unfold writeAt overwrite
  rw [if_pos rfl, Function.update_eq_self]

theorem rename_eq_some :
    d.rename old new = some d' ↔ ∃ n, d.entry old = some n ∧
      { d with entry := Function.update (Function.update d.entry new (some n)) old none } = d' :=
  Option.map_eq_some_iff

end Disk

end Gmaker.Lib
