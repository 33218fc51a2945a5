import Mathlib
import Gmaker.Lib.Expiring
import Gmaker.Lib.Trap
import Gmaker.Cache.Manager

/-!
# Gmaker.Cache.Aside — the cache beside a loader

A cache over a store of texts. `getOrLoad` reads the cache and, where nothing is found, asks
the loader and stores what it brings; where the loader fails a placeholder is stored, so that
the next call need not ask again. The store forgets what has expired; a command to it may
fail, before or after it was executed. Calls on one key are merged where they overlap, and are
taken one after another here. The history keeps of every call what it found, what the loader
said and what it stored.
-/

namespace Gmaker.CacheAside

open Gmaker.Lib
open Gmaker.Cache (Codec nilPlaceholder stringCodec)

/-! ## The cache -/

variable {ρ ε : Type*}

/-- The errors of a call: `ErrNotFound`, `StoreError`, those of the codec, the loader's own. -/
inductive GetError (ε : Type*) where
  | notFound (key : String)
  | store (text : String)
  | decode
  | encode
  | loader (e : ε)
deriving DecidableEq

/-- `Cache`; the times are in nanoseconds. -/
structure Cache (ρ : Type*) where
  keyPrefix : String
  ttl : ℤ
  nilTTL : ℤ
  codec : Codec ρ

/-- `Cache.key`. -/
def Cache.key (c : Cache ρ) (k : String) : String :=
  if c.keyPrefix ≠ "" then c.keyPrefix ++ ":" ++ k else k

/-- Two keys have two texts. -/
theorem Cache.key_injective (c : Cache ρ) : Function.Injective c.key := by
  intro k k' h
  unfold Cache.key at h
  split_ifs at h
  · exact (String.append_right_inj _).mp h
  · exact h

/-- How a command that writes to the store goes: whether it is executed, and the error that is
reported. -/
structure Write where
  executed : Bool
  error : Option String
deriving DecidableEq

/-- What a call has found in the store, what the loader has answered if it was asked, what the
call has stored, and what it has returned. -/
inductive Outcome (ρ ε : Type*) where
  | got (key : String) (result : Except (GetError ε) ρ)
  | set (key : String) (written : Option String) (result : Except (GetError ε) Unit)
  | deleted (keys : List String) (result : Except (GetError ε) Unit)
  | gotOrLoaded (key : String) (found : Option String) (asked : Option (Except ε ρ))
      (written : Option String) (result : Except (GetError ε) ρ)
deriving DecidableEq

/-- A call, with what the store and the loader answer: the error of a read, the way a write
goes, the loader's answer and the milliseconds it takes. -/
inductive Call (ρ ε : Type*) where
  | get (key : String) (fault : Option String)
  | set (key : String) (value : ρ) (ttl : ℤ) (write : Write)
  | delete (keys : List String) (write : Write)
  | getOrLoad (key : String) (fault : Option String) (answer : Except ε ρ) (took : ℕ)
      (write : Write)
  | elapse (milliseconds : ℕ)

/-- The store, by the texts of the keys; the time in milliseconds; the calls so far. -/
structure State (ρ ε : Type*) where
  data : String → Key String
  now : ℕ
  history : List (Outcome ρ ε)

/-- Nothing is stored. -/
def State.start : State ρ ε := ⟨fun _ => none, 0, []⟩

/-- `isRedisNil`. -/
def isRedisNil (text : String) : Bool := text = "redis: nil" ∨ text = "nil"

namespace State

/-- What is stored under the text of a key. -/
def found (s : State ρ ε) (ck : String) : Option String :=
  ((s.data ck).present s.now).map Timed.value

/-- `store.Get`. -/
def storeGet (s : State ρ ε) (ck : String) (fault : Option String) : Except String String :=
  match fault with
  | some text => .error text
  | none => (s.found ck).elim (.error "redis: nil") .ok

/-- `store.Set`. -/
def storeSet (s : State ρ ε) (ck text : String) (ttl : ℤ) (write : Write) : State ρ ε :=
  if write.executed then
    { s with data := Function.update s.data ck ((s.data ck).set s.now text ttl) }
  else s

/-- `store.Del`. -/
def storeDel (s : State ρ ε) (cks : List String) (write : Write) : State ρ ε :=
  if write.executed then
    { s with data := fun ck => if ck ∈ cks then (s.data ck).del else s.data ck }
  else s

/-- What a write that stores a text has stored. -/
def written (text : String) (write : Write) : Option String :=
  if write.executed then some text else none

/-- The error of a write. -/
def writeResult (write : Write) : Except (GetError ε) Unit :=
  write.error.elim (.ok ()) fun text => .error (.store text)

def record (s : State ρ ε) (o : Outcome ρ ε) : State ρ ε := { s with history := s.history ++ [o] }

end State

namespace Cache

variable (c : Cache ρ)

/-- `Cache.Get`. -/
def get (s : State ρ ε) (key : String) (fault : Option String) : Except (GetError ε) ρ :=
  match s.storeGet (c.key key) fault with
  | .error text => if isRedisNil text then .error (.notFound key) else .error (.store text)
  | .ok text =>
    if text = nilPlaceholder then .error (.notFound key)
    else (c.codec.decode text).elim (.error .decode) .ok

/-- `Cache.Set`. -/
def set (s : State ρ ε) (key : String) (value : ρ) (ttl : ℤ) (write : Write) : State ρ ε :=
  match c.codec.encode value with
  | none => s.record (.set key none (.error .encode))
  | some text =>
    (s.storeSet (c.key key) text (if ttl ≤ 0 then c.ttl else ttl) write).record
      (.set key (State.written text write) (State.writeResult write))

/-- `Cache.Delete`. -/
def delete (s : State ρ ε) (keys : List String) (write : Write) : State ρ ε :=
  (s.storeDel (keys.map c.key) write).record (.deleted keys (State.writeResult write))

/-- The flight: the loader is asked, and what it brings is stored. -/
def load (s : State ρ ε) (key : String) (found : Option String) (answer : Except ε ρ)
    (write : Write) : State ρ ε :=
  match answer with
  | .error e =>
    (s.storeSet (c.key key) nilPlaceholder c.nilTTL write).record
      (.gotOrLoaded key found (some answer) (State.written nilPlaceholder write)
        (.error (.loader e)))
  | .ok loaded =>
    match c.codec.encode loaded with
    | none => s.record (.gotOrLoaded key found (some answer) none (.error .encode))
    | some text =>
      (s.storeSet (c.key key) text c.ttl write).record
        (.gotOrLoaded key found (some answer) (State.written text write) (.ok loaded))

/-- `Cache.GetOrLoad`. -/
def getOrLoad (s : State ρ ε) (key : String) (fault : Option String) (answer : Except ε ρ)
    (took : ℕ) (write : Write) : State ρ ε :=
  match (c.get s key fault : Except (GetError ε) ρ) with
  | .error (.notFound _) =>
    c.load { s with now := s.now + took } key (s.found (c.key key)) answer write
  | result => s.record (.gotOrLoaded key (s.found (c.key key)) none none result)

/-- A call. -/
def step (s : State ρ ε) : Call ρ ε → State ρ ε
  | .get key fault => s.record (.got key (c.get s key fault))
  | .set key value ttl write => c.set s key value ttl write
  | .delete keys write => c.delete s keys write
  | .getOrLoad key fault answer took write => c.getOrLoad s key fault answer took write
  | .elapse milliseconds => { s with now := s.now + milliseconds }

end Cache

/-! ## What the placeholder is for -/

/-- The loader was asked for the key and reported that there is nothing. -/
def Outcome.Reported (notExist : ε → Prop) (k : String) : Outcome ρ ε → Prop
  | .gotOrLoaded key _ (some (.error e)) _ _ => key = k ∧ notExist e
  | _ => False

/-- The call stored the text under the key. -/
def Outcome.Wrote (k text : String) : Outcome ρ ε → Prop
  | .got .. | .deleted .. => False
  | .set key written _ | .gotOrLoaded key _ _ written _ => key = k ∧ written = some text

/-- The call stored no placeholder but for what the loader reported not to exist, and where it
found one it answered not-found without the loader. -/
def Outcome.Ok (notExist : ε → Prop) : Outcome ρ ε → Prop
  | .got .. | .deleted .. => True
  | .set _ written _ => written ≠ some nilPlaceholder
  | .gotOrLoaded key found asked written result =>
    (written = some nilPlaceholder → ∃ e, asked = some (.error e) ∧ notExist e) ∧
    (found = some nilPlaceholder → asked = none ∧ result = .error (.notFound key))

/-- The placeholder has done its job in every call, and where one is there now the loader has
reported that there is nothing. -/
structure DoesItsJob (c : Cache ρ) (notExist : ε → Prop) (s : State ρ ε) : Prop where
  calls : ∀ o ∈ s.history, o.Ok notExist
  stored : ∀ k, s.found (c.key k) = some nilPlaceholder →
    ∃ o ∈ s.history, o.Reported notExist k

/-- A read that finds no text. -/
def Missing (s : State ρ ε) (ck : String) (fault : Option String) : Prop :=
  match fault with
  | some text => isRedisNil text
  | none => s.found ck = none

/-- The loader brings a row, which is not written like the placeholder, or reports that there is
nothing. -/
def Brings (c : Cache ρ) (notExist : ε → Prop) : Except ε ρ → Prop
  | .error e => notExist e
  | .ok loaded => c.codec.encode loaded ≠ some nilPlaceholder

/-- The condition on a call: no row is written like the placeholder; `getOrLoad` meets no
placeholder, and where it comes to the loader and the store is written, the loader brings a row
or reports that there is nothing. -/
def Careful (c : Cache ρ) (notExist : ε → Prop) (s : State ρ ε) : Call ρ ε → Prop
  | .get .. | .delete .. | .elapse _ => True
  | .set _ value _ write =>
    write.executed = true → c.codec.encode value ≠ some nilPlaceholder
  | .getOrLoad key fault answer _ write =>
    s.found (c.key key) ≠ some nilPlaceholder ∧
    (Missing s (c.key key) fault → write.executed = true → Brings c notExist answer)

/-! ## What a call finds and leaves -/

section Store

variable {s : State ρ ε} {ck ck' text text' : String} {write : Write}

@[simp] theorem history_record (s : State ρ ε) (o : Outcome ρ ε) :
    (s.record o).history = s.history ++ [o] := rfl

@[simp] theorem found_record (s : State ρ ε) (o : Outcome ρ ε) : (s.record o).found = s.found :=
  rfl

@[simp] theorem history_storeSet (ttl : ℤ) :
    (s.storeSet ck text ttl write).history = s.history := by
  unfold State.storeSet
  split_ifs <;> rfl

@[simp] theorem history_storeDel (cks : List String) :
    (s.storeDel cks write).history = s.history := by
  unfold State.storeDel
  split_ifs <;> rfl

/-- What is stored now was stored before. -/
theorem found_of_later {d : ℕ}
    (h : ({ s with now := s.now + d } : State ρ ε).found ck = some text) :
    s.found ck = some text := by
  rcases Option.map_eq_some_iff.mp h with ⟨t, ht, htext⟩
  refine Option.map_eq_some_iff.mpr ⟨t, ?_, htext⟩
  exact Key.present_of_later ht (Nat.le_add_right s.now d)

/-- After a write there is what was written, and what was there under other keys. -/
theorem found_storeSet {ttl : ℤ} (h : (s.storeSet ck' text' ttl write).found ck = some text) :
    s.found ck = some text ∨ ck' = ck ∧ State.written text' write = some text := by
  unfold State.storeSet at h
  split_ifs at h with hexec
  · by_cases hck : ck = ck'
    · right
      refine ⟨hck.symm, ?_⟩
      rcases Option.map_eq_some_iff.mp h with ⟨t, ht, htext⟩
      subst hck
      dsimp only at ht
      rw [Function.update_self] at ht
      rw [State.written, if_pos hexec, ← htext, Key.value_of_set ht]
    · left
      unfold State.found at h
      dsimp only at h
      rw [Function.update_of_ne hck] at h
      exact h
  · exact Or.inl h

/-- Nothing comes up by a deletion. -/
theorem found_storeDel {cks : List String} (h : (s.storeDel cks write).found ck = some text) :
    s.found ck = some text := by
  unfold State.storeDel at h
  split_ifs at h
  · unfold State.found at h
    dsimp only at h
    split_ifs at h
    · cases h
    · exact h
  · exact h

end Store

section Calls

variable (c : Cache ρ) (notExist : ε → Prop)

/-- A read answers not-found where there is no text and where there is the placeholder. -/
theorem get_eq_notFound_iff (s : State ρ ε) (key : String) (fault : Option String) :
    (∃ k, c.get s key fault = (.error (.notFound k) : Except (GetError ε) ρ)) ↔
      Missing s (c.key key) fault ∨
        fault = none ∧ s.found (c.key key) = some nilPlaceholder := by
  unfold Cache.get State.storeGet Missing
  rcases fault with _ | text
  · rcases hfound : s.found (c.key key) with _ | text
    · simp [isRedisNil]
    · by_cases hnil : text = nilPlaceholder
      · simp [hnil]
      · rcases hdec : c.codec.decode text with _ | v <;> simp [hnil, hdec]
  · by_cases hnil : isRedisNil text = true <;> simp [hnil]

/-- What one call adds to the history, and to the store. -/
def Adds (s s' : State ρ ε) (o : Outcome ρ ε) : Prop :=
  s'.history = s.history ++ [o] ∧
  ∀ k text, s'.found (c.key k) = some text → s.found (c.key k) = some text ∨ o.Wrote k text

variable {c} in
/-- A write under the text of a key, and its record. -/
theorem adds_storeSet {s : State ρ ε} {key text : String} {ttl : ℤ} {write : Write} {d : ℕ}
    {o : Outcome ρ ε}
    (ho : ∀ t, State.written text write = some t → o.Wrote key t) :
    Adds c s ((({ s with now := s.now + d } : State ρ ε).storeSet (c.key key) text ttl
      write).record o) o := by
  refine ⟨by simp, ?_⟩
  intro k t h
  rcases found_storeSet h with hbefore | ⟨hkey, hwritten⟩
  · exact Or.inl (found_of_later hbefore)
  · right
    rw [← c.key_injective hkey]
    exact ho t hwritten

variable {c} in
theorem adds_record {s : State ρ ε} {d : ℕ} (o : Outcome ρ ε) :
    Adds c s (({ s with now := s.now + d } : State ρ ε).record o) o :=
  ⟨rfl, fun _ _ h => Or.inl (found_of_later h)⟩

theorem set_adds (s : State ρ ε) (key : String) (value : ρ) (ttl : ℤ) (write : Write) :
    ∃ o, Adds c s (c.set s key value ttl write) o ∧
      (o.Ok notExist ↔ Careful c notExist s (.set key value ttl write)) := by
  unfold Cache.set Careful
  rcases henc : c.codec.encode value with _ | text
  · exact ⟨_, adds_record (d := 0) _, by simp [Outcome.Ok, henc]⟩
  · refine ⟨_, adds_storeSet (d := 0) fun t ht => ⟨rfl, ht⟩, ?_⟩
    by_cases hexec : write.executed = true <;> simp [Outcome.Ok, State.written, hexec, henc]

theorem delete_adds (s : State ρ ε) (keys : List String) (write : Write) :
    Adds c s (c.delete s keys write) (.deleted keys (State.writeResult write)) := by
  refine ⟨by simp [Cache.delete], ?_⟩
  intro k text h
  exact Or.inl (found_storeDel h)

theorem load_adds (s : State ρ ε) (key : String) (found : Option String) (answer : Except ε ρ)
    (d : ℕ) (write : Write) :
    ∃ o, Adds c s (c.load { s with now := s.now + d } key found answer write) o ∧
      (o.Ok notExist ↔ found ≠ some nilPlaceholder ∧
        (write.executed = true → Brings c notExist answer)) := by
  unfold Cache.load Brings
  rcases answer with e | loaded
  · refine ⟨_, adds_storeSet fun t ht => ⟨rfl, ht⟩, ?_⟩
    by_cases hexec : write.executed = true <;> simp [Outcome.Ok, State.written, hexec, and_comm]
  · dsimp only
    rcases henc : c.codec.encode loaded with _ | text
    · exact ⟨_, adds_record _, by simp [Outcome.Ok]⟩
    · refine ⟨_, adds_storeSet fun t ht => ⟨rfl, ht⟩, ?_⟩
      by_cases hexec : write.executed = true <;>
        simp [Outcome.Ok, State.written, hexec, and_comm]

theorem getOrLoad_adds (s : State ρ ε) (key : String) (fault : Option String)
    (answer : Except ε ρ) (took : ℕ) (write : Write) :
    ∃ o, Adds c s (c.getOrLoad s key fault answer took write) o ∧
      (o.Ok notExist ↔ Careful c notExist s (.getOrLoad key fault answer took write)) := by
  have hasks := get_eq_notFound_iff c s key fault
  unfold Cache.getOrLoad Careful
  split
  · -- the loader is asked: a placeholder that was there has not kept the call from it
    rename_i k hget
    rcases load_adds c notExist s key (s.found (c.key key)) answer took write with ⟨o, hadds, hok⟩
    refine ⟨o, hadds, hok.trans ?_⟩
    refine and_congr_right fun hnil => ?_
    rcases hasks.mp ⟨k, hget⟩ with hmissing | ⟨_, hfound⟩
    · exact ⟨fun h _ => h, fun h => h hmissing⟩
    · exact absurd hfound hnil
  · -- the read has answered, and not with not-found
    rename_i hget
    have hno : ¬ Missing s (c.key key) fault := by
      intro hmissing
      rcases hasks.mpr (Or.inl hmissing) with ⟨k, hk⟩
      exact hget k hk
    refine ⟨_, adds_record (d := 0) _, ?_⟩
    constructor
    · intro hok
      refine ⟨fun hfound => ?_, fun hmissing => absurd hmissing hno⟩
      exact hget key (hok.2 hfound).2
    · intro hcareful
      exact ⟨nofun, fun hfound => absurd hfound hcareful.1⟩

/-- What a call adds is as it should be if and only if it meets the condition. -/
theorem step_adds (s : State ρ ε) (call : Call ρ ε) :
    (∃ o, Adds c s (c.step s call) o ∧ (o.Ok notExist ↔ Careful c notExist s call)) ∨
    (∃ d, c.step s call = { s with now := s.now + d }) ∧ Careful c notExist s call := by
  rcases call with ⟨key, fault⟩ | ⟨key, value, ttl, write⟩ | ⟨keys, write⟩ |
    ⟨key, fault, answer, took, write⟩ | d
  · exact Or.inl ⟨_, adds_record (d := 0) _, Iff.rfl⟩
  · exact Or.inl (set_adds c notExist s key value ttl write)
  · exact Or.inl ⟨_, delete_adds c s keys write, Iff.rfl⟩
  · exact Or.inl (getOrLoad_adds c notExist s key fault answer took write)
  · exact Or.inr ⟨⟨d, rfl⟩, trivial⟩

variable {c notExist}

/-- A placeholder that is stored as it should be was reported. -/
theorem Outcome.Ok.reported {o : Outcome ρ ε} (h : o.Ok notExist) {k : String}
    (hwrote : o.Wrote k nilPlaceholder) : o.Reported notExist k := by
  rcases o with _ | ⟨key, written, _⟩ | _ | ⟨key, found, asked, written, result⟩
  · exact hwrote
  · exact absurd hwrote.2 h
  · exact hwrote
  · rcases h.1 hwrote.2 with ⟨e, hasked, he⟩
    subst hasked
    exact ⟨hwrote.1, he⟩

/-- A call that meets the condition keeps the placeholder at its job. -/
theorem DoesItsJob.step {s : State ρ ε} (h : DoesItsJob c notExist s) {call : Call ρ ε}
    (hcall : Careful c notExist s call) : DoesItsJob c notExist (c.step s call) := by
  rcases step_adds c notExist s call with ⟨o, ⟨hhist, hfound⟩, hok⟩ | ⟨⟨d, hd⟩, _⟩
  · constructor
    · intro o' ho'
      rw [hhist, List.mem_append, List.mem_singleton] at ho'
      rcases ho' with ho' | rfl
      · exact h.calls o' ho'
      · exact hok.mpr hcall
    · intro k hk
      rw [hhist]
      rcases hfound k nilPlaceholder hk with hbefore | hwrote
      · rcases h.stored k hbefore with ⟨o', ho', hreported⟩
        exact ⟨o', List.mem_append_left _ ho', hreported⟩
      · exact ⟨o, by simp, (hok.mpr hcall).reported hwrote⟩
  · rw [hd]
    exact ⟨h.calls, fun k hk => h.stored k (found_of_later hk)⟩

/-- After a call that does not, the history shows it. -/
theorem not_ok_of_not_careful {s : State ρ ε} {call : Call ρ ε}
    (hcall : ¬ Careful c notExist s call) :
    ∃ o ∈ (c.step s call).history, ¬ o.Ok notExist := by
  rcases step_adds c notExist s call with ⟨o, ⟨hhist, _⟩, hok⟩ | ⟨_, hcareful⟩
  · refine ⟨o, ?_, fun h => hcall (hok.mp h)⟩
    rw [hhist]
    exact List.mem_append_right _ (List.mem_singleton_self o)
  · exact absurd hcareful hcall

/-- The history only grows. -/
theorem mem_history_step {s : State ρ ε} {call : Call ρ ε} {o : Outcome ρ ε}
    (h : o ∈ s.history) : o ∈ (c.step s call).history := by
  rcases step_adds c (fun _ : ε => True) s call with ⟨o', ⟨hhist, _⟩, _⟩ | ⟨⟨d, hd⟩, _⟩
  · rw [hhist]
    exact List.mem_append_left _ h
  · rw [hd]
    exact h

theorem doesItsJob_start : DoesItsJob c notExist (State.start : State ρ ε) :=
  ⟨nofun, nofun⟩

end Calls

/-- The placeholder does its job and only its job in exactly those sequences of calls in which
no row is written like it, `getOrLoad` never meets it, and the loader's only error, where the
store is written after it, is the report that there is nothing. -/
theorem placeholder_iff (c : Cache ρ) (notExist : ε → Prop) (calls : List (Call ρ ε)) :
    FoldOk c.step (Careful c notExist) State.start calls ↔
      DoesItsJob c notExist (calls.foldl c.step State.start) := by
  refine foldOk_iff_of_trap (I := DoesItsJob c notExist)
    (B := fun s => ∃ o ∈ s.history, ¬ o.Ok notExist) ?_ ?_ ?_ doesItsJob_start id ?_
  · exact fun s call h hcall => h.step hcall
  · exact fun s call _ hcall => not_ok_of_not_careful hcall
  · rintro s call ⟨o, ho, hbad⟩
    exact ⟨o, mem_history_step ho, hbad⟩
  · rintro ⟨o, ho, hbad⟩ h
    exact hbad (h.calls o ho)

/-! ## An account that does not exist -/

/-- The account cache of the login service, with the placeholder's default lifetime. -/
def accountCache : Cache String := ⟨"account", 3600000000000, 60000000000, stringCodec⟩

/-- The same account is looked for twice, within a second, and is not in the database. -/
def lookedForTwice : List (Call String String) :=
  [.getOrLoad "bob" none (.error "account not found") 5 ⟨true, none⟩, .elapse 900,
    .getOrLoad "bob" none (.error "account not found") 5 ⟨true, none⟩]

/-- The placeholder is there, and the loader is asked again. -/
theorem lookedForTwice_not_doesItsJob :
    ¬ DoesItsJob accountCache (· = "account not found")
      (lookedForTwice.foldl accountCache.step State.start) := by
  intro h
  have hok := h.calls (.gotOrLoaded "bob" (some nilPlaceholder)
    (some (.error "account not found")) (some nilPlaceholder)
    (.error (.loader "account not found"))) (by decide)
  exact nomatch (hok.2 rfl).1

end Gmaker.CacheAside
