import Mathlib
import Gmaker.Lib.Assoc
import Gmaker.Cache.CircuitBreaker

/-!
# Gmaker.Cache.Manager — the two levels of the cache

The manager keeps rows in a store of texts, in front of a loader that reads the database. A row
that is not there is remembered by a placeholder, so that it is not looked for again and again.
`get` reads one row, `getBatch` many; both are taken one at a time here, so that shared loads
and the lock against a stampede make no difference. Key values are compared with their types,
while the store and the database know a key by its text.
-/

namespace Gmaker.Cache

open Gmaker.Lib

/-! ## The parts -/

/-- The errors of a read. -/
inductive CacheError where
  /-- `ErrNotFound`. -/
  | notFound (key : String)
  | failed (text : String)
deriving DecidableEq

/-- `nilPlaceholder`. -/
def nilPlaceholder : String := "__cache_nil__"

/-- `Codec`: what was encoded decodes to what it was. -/
structure Codec (ρ : Type*) where
  encode : ρ → Option String
  decode : String → Option ρ
  decode_encode : ∀ v text, encode v = some text → decode text = some v

/-- `DataLoader`, in front of the rows of a table: `load` reads the row of a key, by the text of
the key, and `loadBatch` what it can read of the rows of many keys, in any order. -/
structure DataLoader (κ ρ : Type*) (sprint : κ → String) where
  rows : String → Option ρ
  load : String → Except CacheError ρ
  loadBatch : List κ → Except String (List ρ)
  rows_of_load : ∀ text v, load text = .ok v → rows text = some v
  rows_of_notFound : ∀ text key, load text = .error (.notFound key) → rows text = none
  mem_loadBatch : ∀ keys vs, loadBatch keys = .ok vs → ∀ v, v ∈ vs ↔
    ∃ k ∈ keys, load (sprint k) = .ok v

/-- `StringCodec`. -/
def stringCodec : Codec String where
  encode := some
  decode := some
  decode_encode := fun _ _ h => h.symm ▸ rfl

/-- `CacheManager`: its configuration, its codec and the function that finds the key of a row. -/
structure CacheManager (κ ρ : Type*) where
  keyPrefix : String
  /-- `NilTTL > 0`. -/
  nilTTL : Bool
  /-- The store can read and write many texts at a time. -/
  batchStore : Bool
  /-- `fmt.Sprintf("%v", key)`. -/
  sprint : κ → String
  codec : Codec ρ
  keyFunc : Option (ρ → κ)

/-- The store, which may be out of reach, and the breaker if there is one. -/
structure CacheState where
  data : String → Option String
  readable : Bool
  writable : Bool
  breaker : Option CircuitBreaker
  now : ℤ

namespace CacheState

/-- `store.Get`; an error is `none`, whatever it is. -/
def get (s : CacheState) (ck : String) : Option String := if s.readable then s.data ck else none

/-- `store.Set`, and whether it succeeded. -/
def set (s : CacheState) (ck text : String) : CacheState × Bool :=
  if s.writable then ({ s with data := Function.update s.data ck (some text) }, true)
  else (s, false)

/-- `store.Del`. -/
def del (s : CacheState) (ck : String) : CacheState × Bool :=
  if s.writable then ({ s with data := Function.update s.data ck none }, true)
  else (s, false)

/-- `m.breaker == nil || m.breaker.Allow()`. -/
def allow (s : CacheState) : CacheState × Bool :=
  match s.breaker with
  | none => (s, true)
  | some cb => ({ s with breaker := some (cb.allowNow s.now).1 }, (cb.allowNow s.now).2)

/-- A report, if there is a breaker. -/
def record (s : CacheState) (ok : Bool) : CacheState :=
  { s with breaker := s.breaker.map fun cb => cb.recordNow s.now ok }

end CacheState

/-! ## One row -/

namespace CacheManager

section Get

variable {κ ρ : Type*} (m : CacheManager κ ρ) (l : DataLoader κ ρ m.sprint)

/-- `cacheKey`. -/
def cacheKey (k : κ) : String := m.keyPrefix ++ ":" ++ m.sprint k

/-- `encodeAndSet`, and whether it succeeded. -/
def encodeAndSet (s : CacheState) (ck : String) (v : ρ) : CacheState × Bool :=
  match m.codec.encode v with
  | none => (s, false)
  | some text => s.set ck text

/-- The placeholder, if there is one. -/
def setPlaceholder (s : CacheState) (ck : String) : CacheState :=
  if m.nilTTL then (s.set ck nilPlaceholder).1 else s

/-- `doLoad`. -/
def doLoad (s : CacheState) (k : κ) : CacheState × Except CacheError ρ :=
  let r := s.allow
  if r.2 = false then
    (r.1, .error (.failed s!"cache manager breaker open for key: {m.sprint k}"))
  else
    match l.load (m.sprint k) with
    | .error (.notFound key) =>
      ((m.setPlaceholder r.1 (m.cacheKey k)).record true, .error (.notFound key))
    | .error (.failed text) => (r.1.record false, .error (.failed text))
    | .ok v =>
      let w := m.encodeAndSet r.1 (m.cacheKey k) v
      (if w.2 then w.1.record true else w.1, .ok v)

/-- `Get`. -/
def get (s : CacheState) (k : κ) : CacheState × Except CacheError ρ :=
  match s.get (m.cacheKey k) with
  | none => m.doLoad l s k
  | some text =>
    if text = nilPlaceholder then (s, .error (.notFound (m.sprint k)))
    else
      match m.codec.decode text with
      | some v => (s, .ok v)
      | none => m.doLoad l s k

/-- `Delete` of one key. -/
def delete (s : CacheState) (k : κ) : CacheState := (s.del (m.cacheKey k)).1

/-- `Refresh`. -/
def refresh (s : CacheState) (k : κ) : CacheState × Except CacheError ρ :=
  m.get l (m.delete s k) k

end Get

/-! ## Many rows -/

section GetBatch

variable {κ ρ : Type*} [DecidableEq κ] (m : CacheManager κ ρ) (l : DataLoader κ ρ m.sprint)

/-- What the store had: the rows, the keys to load, and the keys whose text does not decode. -/
structure Scan (κ ρ : Type*) where
  result : Assoc κ ρ
  missedKeys : List κ
  hitKeys : List κ

/-- One value of `MGet`; a key that is not there has the empty text. -/
def scanValue (acc : Scan κ ρ) (k : κ) (text : String) : Scan κ ρ :=
  if text = "" then { acc with missedKeys := acc.missedKeys ++ [k] }
  else if text = nilPlaceholder then acc
  else
    match m.codec.decode text with
    | none => { acc with hitKeys := acc.hitKeys ++ [k] }
    | some v => { acc with result := acc.result.assign k v }

/-- One `store.Get` of the other way. -/
def scanKey (s : CacheState) (acc : Scan κ ρ) (k : κ) : Scan κ ρ :=
  match s.get (m.cacheKey k) with
  | none => { acc with missedKeys := acc.missedKeys ++ [k] }
  | some text =>
    if text = "" then { acc with missedKeys := acc.missedKeys ++ [k] }
    else if text = nilPlaceholder then acc
    else
      match m.codec.decode text with
      | none => { acc with hitKeys := acc.hitKeys ++ [k] }
      | some v => { acc with result := acc.result.assign k v }

/-- The first part of `GetBatch`: what the store has. -/
def scan (s : CacheState) (keys : List κ) : Scan κ ρ :=
  if m.batchStore then
    if s.readable then
      (keys.zip (keys.map fun k => (s.data (m.cacheKey k)).getD "")).foldl
        (fun acc p => m.scanValue acc p.1 p.2) ⟨[], [], []⟩
    else ⟨[], keys, []⟩
  else keys.foldl (m.scanKey s) ⟨[], [], []⟩

/-- The loaded rows by key, the keys that have been loaded, and the texts to write. -/
structure Filled (κ ρ : Type*) where
  result : Assoc κ ρ
  loadedSet : List κ
  pairs : Assoc String String

/-- One loaded row; without a key function it is left out. -/
def fill (acc : Filled κ ρ) (v : ρ) : Filled κ ρ :=
  match m.keyFunc with
  | none => acc
  | some keyFunc =>
    { result := acc.result.assign (keyFunc v) v
      loadedSet := keyFunc v :: acc.loadedSet
      pairs :=
        match m.codec.encode v with
        | none => acc.pairs
        | some text => acc.pairs.assign (m.cacheKey (keyFunc v)) text }

/-- The texts are written. -/
def setPairs (s : CacheState) (pairs : Assoc String String) : CacheState :=
  pairs.foldl (fun s p => (s.set p.1 p.2).1) s

/-- The placeholders of the keys that were not loaded are written. -/
def setPlaceholders (s : CacheState) (missedKeys loadedSet : List κ) : CacheState :=
  missedKeys.foldl (fun s k => if k ∈ loadedSet then s else m.setPlaceholder s (m.cacheKey k)) s

/-- A key whose text did not decode is read again. -/
def reload (acc : CacheState × Assoc κ ρ) (k : κ) : CacheState × Assoc κ ρ :=
  let r := m.get l acc.1 k
  (r.1, match r.2 with
    | .ok v => acc.2.assign k v
    | .error _ => acc.2)

/-- `GetBatch`: the state it leaves, the rows, and its error. -/
def getBatch (s : CacheState) (keys : List κ) : CacheState × Assoc κ ρ × Option String :=
  let found := m.scan s keys
  if found.missedKeys = [] then
    let r := found.hitKeys.foldl (m.reload l) (s, found.result)
    (r.1, r.2, none)
  else
    match l.loadBatch found.missedKeys with
    | .error text => (s, found.result, some s!"batch load from db failed: {text}")
    | .ok loaded =>
      let filled := loaded.foldl m.fill ⟨found.result, [], []⟩
      let written := m.setPlaceholders (setPairs s filled.pairs) found.missedKeys filled.loadedSet
      let r := found.hitKeys.foldl (m.reload l) (written, filled.result)
      (r.1, r.2, none)

end GetBatch

end CacheManager

end Gmaker.Cache
