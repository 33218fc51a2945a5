import Mathlib
import Gmaker.Lib.Fold
import Gmaker.Cache.Reads

/-!
# Gmaker.Cache.BatchSteps — the steps of a batch

What the steps of `getBatch` come to: the scan sorts the keys by what the store has for them
(`seen`), whichever way it asks; the loaded rows are filed under the keys that the key function
gives them, and their texts written; the missed keys that no row was filed under get the
placeholder.
-/

namespace Gmaker.Cache

open Gmaker.Lib

namespace CacheManager

variable {κ ρ : Type*} [DecidableEq κ] {m : CacheManager κ ρ} {l : DataLoader κ ρ m.sprint}
  {s : CacheState} {keys : List κ} {k : κ}

/-! ## What the store has for a key -/

/-- What a scan makes of a key. -/
inductive Seen (ρ : Type*) where
  | missed
  | placeholder
  | undecodable
  | decoded (v : ρ)

/-- What the store has for a key; the empty text is nothing. -/
def seen (m : CacheManager κ ρ) (s : CacheState) (k : κ) : Seen ρ :=
  match s.get (m.cacheKey k) with
  | none => .missed
  | some text =>
    if text = "" then .missed
    else if text = nilPlaceholder then .placeholder
    else
      match m.codec.decode text with
      | none => .undecodable
      | some v => .decoded v

def Seen.isMissed : Seen ρ → Bool
  | missed => true
  | _ => false

def Seen.isUndecodable : Seen ρ → Bool
  | undecodable => true
  | _ => false

def Seen.value : Seen ρ → Option ρ
  | decoded v => some v
  | _ => none

/-- The keys that go to the database together. -/
def missedKeys (m : CacheManager κ ρ) (s : CacheState) (keys : List κ) : List κ :=
  keys.filter fun k => (m.seen s k).isMissed

/-- The keys that are read again one by one. -/
def hitKeys (m : CacheManager κ ρ) (s : CacheState) (keys : List κ) : List κ :=
  keys.filter fun k => (m.seen s k).isUndecodable

/-- One key of a scan. -/
def look (m : CacheManager κ ρ) (s : CacheState) (acc : Scan κ ρ) (k : κ) : Scan κ ρ :=
  match m.seen s k with
  | .missed => { acc with missedKeys := acc.missedKeys ++ [k] }
  | .placeholder => acc
  | .undecodable => { acc with hitKeys := acc.hitKeys ++ [k] }
  | .decoded v => { acc with result := acc.result.assign k v }

omit [DecidableEq κ] in
theorem mem_hitKeys : k ∈ m.hitKeys s keys ↔ k ∈ keys ∧ (m.seen s k).isUndecodable = true :=
  List.mem_filter

/-! ## The loaded rows -/

/-- The key of a row, if there is a key function. -/
def keyOf (m : CacheManager κ ρ) (v : ρ) : Option κ := m.keyFunc.map fun keyFunc => keyFunc v

end CacheManager

end Gmaker.Cache
