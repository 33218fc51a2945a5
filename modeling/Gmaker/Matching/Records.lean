import Gmaker.Lib.Decimal
import Gmaker.Lib.Fold
import Gmaker.Lib.Threads
import Gmaker.Matching.Service

/-!
# Gmaker.Matching.Records — matches that outlive the service

A confirmed match is saved to a hash of the Redis server at every step, so that a service
that starts again finds the matches that were under way and takes them to their end. A hash
maps names of fields to texts; the writer and the reader each have a list of fields of their
own, and the reader looks for one that the writer does not write: the match's number. It is
in the name of the hash only.
-/

namespace Gmaker.Matching

open Gmaker.Lib

/-! ## Texts -/

namespace MatchState

/-- The names of the states. -/
def toText : MatchState → String
  | draft => "draft"
  | confirmed => "confirmed"
  | roomPrep => "room_prep"
  | retry => "retry"
  | notifying => "notifying"
  | complete => "complete"
  | aborted => "aborted"
  | rollback => "rollback"
  | matchPartial => "partial"

end MatchState

/-- `parseMatchState`: what is not known is a draft. -/
def parseMatchState (s : String) : MatchState :=
  if s = "confirmed" then .confirmed
  else if s = "room_prep" then .roomPrep
  else if s = "retry" then .retry
  else if s = "notifying" then .notifying
  else if s = "complete" then .complete
  else if s = "aborted" then .aborted
  else if s = "rollback" then .rollback
  else if s = "partial" then .matchPartial
  else .draft

theorem parseMatchState_toText (state : MatchState) : parseMatchState state.toText = state := by
  cases state <;> decide

/-- `parseInt32`: what is no number is 0. -/
def parseInt32 (s : String) : Int32 := Int32.ofInt (parseInt 32 s).1

/-- `uidsToString`. -/
def uidsToString (uids : List UInt64) : String := joinNumbers (uids.map UInt64.toNat)

/-- `stringToUIDs`. -/
def stringToUIDs (s : String) : List UInt64 := (splitNumbers 64 s).map UInt64.ofNat

/-- `Unix` of a time: its second. -/
def unixSecond (t : ℤ) : ℤ := t / 1000

/-- The time that was never set: the first second of the year 1. -/
def zeroTime : ℤ := -62135596800000

/-! ## Hashes -/

/-- A hash of the Redis server. -/
abbrev Fields := Assoc String String

namespace Fields

/-- A field that is not there reads as an empty text. -/
def get (data : Fields) (field : String) : String := (data.lookup field).getD ""

/-- `HSET`: other fields stay. -/
def hset (data fields : Fields) : Fields := fields.foldl (fun data e => data.assign e.1 e.2) data

end Fields

/-- The fields `SaveMatchRecord` writes. -/
def matchFields (m : Match) (now : ℤ) : Fields :=
  [("state", m.state.toText), ("team_a", uidsToString m.teamA), ("team_b", uidsToString m.teamB),
    ("room_id", m.roomId.toNat.repr), ("retries", m.retries.repr), ("mode", m.mode.toInt.repr),
    ("team_size", m.teamSize.toInt.repr), ("created_at", (unixSecond m.createdAt).repr),
    ("updated_at", (unixSecond now).repr)]

/-- `parseMatchRecord`: a field that cannot be read stays at its default. -/
def parseMatchRecord (data : Fields) : Match where
  id := ((parseUint 64 (data.get "id")).map UInt64.ofNat).getD 0
  state := parseMatchState (data.get "state")
  mode := parseInt32 (data.get "mode")
  teamSize := parseInt32 (data.get "team_size")
  teamA := stringToUIDs (data.get "team_a")
  teamB := stringToUIDs (data.get "team_b")
  roomId := ((parseUint 64 (data.get "room_id")).map UInt64.ofNat).getD 0
  retries := (parseInt32 (data.get "retries")).toInt
  createdAt :=
    let ts := parseInt 64 (data.get "created_at")
    if ts.2 then ts.1 * 1000 else zeroTime

/-! ## What is read back -/

theorem parseInt32_repr (n : Int32) : parseInt32 n.toInt.repr = n := by
  rw [parseInt32, parseInt_repr n.le_toInt n.toInt_lt]
  exact Int32.ofInt_toInt n

theorem stringToUIDs_uidsToString (uids : List UInt64) :
    stringToUIDs (uidsToString uids) = uids := by
  have hfits : ∀ n ∈ uids.map UInt64.toNat, n < 2 ^ 64 := by
    intro n hn
    obtain ⟨uid, -, rfl⟩ := List.mem_map.mp hn
    exact uid.toNat_lt
  rw [stringToUIDs, uidsToString, splitNumbers_joinNumbers hfits, List.map_map]
  refine (List.map_congr_left fun uid _ => ?_).trans (List.map_id uids)
  exact UInt64.ofNat_toNat

/-- The one is what the other was saved as: number, state, mode, teams, room, retries and the
second of its creation. -/
structure Restores (m m' : Match) : Prop where
  id : m'.id = m.id
  state : m'.state = m.state
  mode : m'.mode = m.mode
  teamSize : m'.teamSize = m.teamSize
  teamA : m'.teamA = m.teamA
  teamB : m'.teamB = m.teamB
  roomId : m'.roomId = m.roomId
  retries : m'.retries = m.retries
  second : unixSecond m'.createdAt = unixSecond m.createdAt

/-- The number of retries is read with 32 bits and the second with 64. -/
structure SmallNumbers (m : Match) : Prop where
  retries : -2 ^ 31 ≤ m.retries ∧ m.retries < 2 ^ 31
  second : -2 ^ 63 ≤ unixSecond m.createdAt ∧ unixSecond m.createdAt < 2 ^ 63

variable {m : Match} {data : Fields} {now : ℤ}

/-- The hash reads as the fields of the match. -/
def ReadsAs (data : Fields) (m : Match) : Prop :=
  ∃ now, ∀ field, data.lookup field = (matchFields m now).lookup field

theorem ReadsAs.get (h : ReadsAs data m) : ∃ now, ∀ field, data.get field =
    Fields.get (matchFields m now) field := by
  obtain ⟨now, hnow⟩ := h
  refine ⟨now, fun field => ?_⟩
  unfold Fields.get
  rw [hnow]

/-- No number is read, since none was written. -/
theorem ReadsAs.parsed_id (h : ReadsAs data m) : (parseMatchRecord data).id = 0 := by
  obtain ⟨now, hget⟩ := h.get
  have hid : data.get "id" = "" := by
    rw [hget]
    rfl
  show ((parseUint 64 (data.get "id")).map UInt64.ofNat).getD 0 = 0
  rw [hid]
  decide

/-- A second that is read is one of 64 bits. -/
theorem second_parseMatchRecord (data : Fields) :
    -2 ^ 63 ≤ unixSecond (parseMatchRecord data).createdAt ∧
      unixSecond (parseMatchRecord data).createdAt < 2 ^ 63 := by
  have hbounds := parseInt_bounds 64 (data.get "created_at")
  show -2 ^ 63 ≤ unixSecond (if (parseInt 64 (data.get "created_at")).2 then _ else zeroTime) ∧
    unixSecond (if (parseInt 64 (data.get "created_at")).2 then _ else zeroTime) < 2 ^ 63
  split_ifs
  · rw [unixSecond, Int.mul_ediv_cancel _ (by decide)]
    exact hbounds
  · decide

theorem second_read (hl : -2 ^ 63 ≤ unixSecond m.createdAt) (hu : unixSecond m.createdAt < 2 ^ 63)
    (hget : data.get "created_at" = (unixSecond m.createdAt).repr) :
    unixSecond (parseMatchRecord data).createdAt = unixSecond m.createdAt := by
  show unixSecond (if (parseInt 64 (data.get "created_at")).2 then
    (parseInt 64 (data.get "created_at")).1 * 1000 else zeroTime) = _
  rw [hget, parseInt_repr hl hu, if_pos rfl, unixSecond, Int.mul_ediv_cancel _ (by decide)]

/-- What was saved is read back as it was, if its number is 0. -/
theorem ReadsAs.restores_iff (h : ReadsAs data m) :
    Restores m (parseMatchRecord data) ↔ m.id = 0 ∧ SmallNumbers m := by
  obtain ⟨now, hget⟩ := h.get
  have hretries : (parseMatchRecord data).retries = (parseInt32 m.retries.repr).toInt := by
    show (parseInt32 (data.get "retries")).toInt = _
    rw [hget]
    rfl
  constructor
  · intro hr
    refine ⟨hr.id.symm.trans h.parsed_id, ?_, ?_⟩
    · rw [← hr.retries, hretries]
      exact ⟨Int32.le_toInt _, Int32.toInt_lt _⟩
    · rw [← hr.second]
      exact second_parseMatchRecord data
  · rintro ⟨hid, hsmall⟩
    refine ⟨h.parsed_id.trans hid.symm, ?_, ?_, ?_, ?_, ?_, ?_, ?_, ?_⟩
    · show parseMatchState (data.get "state") = m.state
      rw [hget]
      exact parseMatchState_toText m.state
    · show parseInt32 (data.get "mode") = m.mode
      rw [hget]
      exact parseInt32_repr m.mode
    · show parseInt32 (data.get "team_size") = m.teamSize
      rw [hget]
      exact parseInt32_repr m.teamSize
    · show stringToUIDs (data.get "team_a") = m.teamA
      rw [hget]
      exact stringToUIDs_uidsToString m.teamA
    · show stringToUIDs (data.get "team_b") = m.teamB
      rw [hget]
      exact stringToUIDs_uidsToString m.teamB
    · show ((parseUint 64 (data.get "room_id")).map UInt64.ofNat).getD 0 = m.roomId
      rw [hget]
      show ((parseUint 64 m.roomId.toNat.repr).map UInt64.ofNat).getD 0 = m.roomId
      rw [parseUint_repr m.roomId.toNat_lt]
      exact UInt64.ofNat_toNat
    · rw [hretries, parseInt32, parseInt_repr hsmall.retries.1 hsmall.retries.2]
      exact Int32.toInt_ofInt_of_le hsmall.retries.1 hsmall.retries.2
    · refine second_read hsmall.second.1 hsmall.second.2 ?_
      rw [hget]
      rfl

/-! ## The records of the server -/

/-- The hashes of the matches, by name. -/
abbrev RecordStore := Assoc String Fields

/-- `keyMatchActive` with a match's number. -/
def activeKey (matchID : UInt64) : String := "match:active:" ++ matchID.toNat.repr

theorem activeKey_inj {i j : UInt64} : activeKey i = activeKey j ↔ i = j := by
  unfold activeKey
  rw [String.append_right_inj, natRepr_inj, UInt64.toNat_inj]

namespace RecordStore

/-- What `HGETALL` returns: nothing where there is no such hash. -/
def hgetall (db : RecordStore) (key : String) : Fields := (db.lookup key).getD []

/-- `SaveMatchRecord`. -/
def saveMatchRecord (db : RecordStore) (m : Match) (now : ℤ) : RecordStore :=
  db.assign (activeKey m.id) ((db.hgetall (activeKey m.id)).hset (matchFields m now))

/-- `DeleteMatchRecord`; the time to live does the same. -/
def deleteMatchRecord (db : RecordStore) (matchID : UInt64) : RecordStore :=
  db.erase (activeKey matchID)

/-- `LoadActiveMatches`: the keys that `SCAN` returns, each with whether its hash could be
read. -/
def loadActiveMatches (db : RecordStore) (scan : List (String × Bool)) : List Match :=
  scan.filterMap fun key => if key.2 then some (parseMatchRecord (db.hgetall key.1)) else none

theorem hgetall_saveMatchRecord (db : RecordStore) (m : Match) (now : ℤ) (id : UInt64) :
    (db.saveMatchRecord m now).hgetall (activeKey id) =
      if id = m.id then (db.hgetall (activeKey m.id)).hset (matchFields m now)
      else db.hgetall (activeKey id) := by
  unfold hgetall saveMatchRecord
  rw [Assoc.lookup_assign]
  by_cases hid : id = m.id
  · rw [if_pos (congrArg activeKey hid), if_pos hid, Option.getD_some, hgetall]
  · rw [if_neg (activeKey_inj.not.mpr hid), if_neg hid]

theorem hgetall_deleteMatchRecord (db : RecordStore) (matchID id : UInt64) :
    (db.deleteMatchRecord matchID).hgetall (activeKey id) =
      if id = matchID then [] else db.hgetall (activeKey id) := by
  unfold hgetall deleteMatchRecord
  rw [Assoc.lookup_erase]
  by_cases hid : id = matchID
  · rw [if_pos (congrArg activeKey hid), if_pos hid, Option.getD_none]
  · rw [if_neg (activeKey_inj.not.mpr hid), if_neg hid]

end RecordStore

/-- What has been saved: the hashes of the server, and the match that was saved last under
each number. -/
structure Saved where
  db : RecordStore := []
  latest : Assoc UInt64 Match := []

inductive RecordOp where
  | save (m : Match) (now : ℤ)
  /-- A record is deleted, or its time is over. -/
  | drop (matchID : UInt64)

namespace Saved

def apply (s : Saved) : RecordOp → Saved
  | .save m now =>
    { db := s.db.saveMatchRecord m now, latest := s.latest.assign m.id m }
  | .drop matchID =>
    { db := s.db.deleteMatchRecord matchID, latest := s.latest.erase matchID }

/-- The hash of a match reads as the match that was saved last. -/
structure Inv (s : Saved) : Prop where
  reads : ∀ id m, s.latest.lookup id = some m →
    m.id = id ∧ ReadsAs (s.db.hgetall (activeKey id)) m
  empty : ∀ id, s.latest.lookup id = none → s.db.hgetall (activeKey id) = []

/-- The names of the fields are always the same. -/
theorem lookup_matchFields_eq_none {m m' : Match} {now now' : ℤ} {field : String} :
    (matchFields m now).lookup field = none ↔ (matchFields m' now').lookup field = none := by
  rw [List.lookup_eq_none_iff, List.lookup_eq_none_iff]
  simp [matchFields]

theorem lookup_hset (data : Fields) {fields : Fields} (hf : fields.keys.Nodup) (field : String) :
    (data.hset fields).lookup field = (fields.lookup field).or (data.lookup field) := by
  induction fields generalizing data with
  | nil => rfl
  | cons e fields ih =>
    obtain ⟨hfirst, hf⟩ := List.nodup_cons.mp hf
    have hrest := ih (data.assign e.1 e.2) hf
    rw [Fields.hset, List.foldl_cons]
    rw [Fields.hset] at hrest
    rw [hrest, Assoc.lookup_assign, List.lookup_cons]
    by_cases hfield : field = e.1
    · subst hfield
      rw [Assoc.lookup_of_not_mem hfirst]
      simp
    · have hne : (field == e.1) = false := by simpa using hfield
      rw [if_neg hfield, hne]

/-- A save leaves the fields of the match, whatever was saved under the number before. -/
theorem readsAs_hset {data : Fields} (hdata : data = [] ∨ ∃ m, ReadsAs data m) (m : Match)
    (now : ℤ) : ReadsAs (data.hset (matchFields m now)) m := by
  refine ⟨now, fun field => ?_⟩
  rw [lookup_hset data (by simp [matchFields])]
  cases hfield : (matchFields m now).lookup field with
  | some text => rfl
  | none =>
    rw [Option.none_or]
    rcases hdata with rfl | ⟨m', now', hreads⟩
    · rfl
    · rw [hreads]
      exact lookup_matchFields_eq_none.mp hfield

variable {s : Saved} {op : RecordOp}

theorem inv_empty : Inv {} := by
  refine ⟨fun id m hm => ?_, fun _ _ => rfl⟩
  cases hm

theorem Inv.apply (h : Inv s) (op : RecordOp) : Inv (s.apply op) := by
  cases op with
  | save m now =>
    have hdata : s.db.hgetall (activeKey m.id) = [] ∨
        ∃ m', ReadsAs (s.db.hgetall (activeKey m.id)) m' := by
      cases hm : s.latest.lookup m.id with
      | none => exact .inl (h.empty _ hm)
      | some m' => exact .inr ⟨m', (h.reads _ _ hm).2⟩
    have hdb := s.db.hgetall_saveMatchRecord m now
    have hmatches := s.latest.lookup_assign m.id
    refine ⟨fun id m' hm' => ?_, fun id hnone => ?_⟩
    · change (s.latest.assign m.id m).lookup id = some m' at hm'
      change m'.id = id ∧ ReadsAs ((s.db.saveMatchRecord m now).hgetall (activeKey id)) m'
      rw [hmatches] at hm'
      rw [hdb]
      split_ifs at hm' ⊢ with hid
      · cases hm'
        exact ⟨hid.symm, readsAs_hset hdata m now⟩
      · exact h.reads id m' hm'
    · change (s.latest.assign m.id m).lookup id = none at hnone
      change (s.db.saveMatchRecord m now).hgetall (activeKey id) = []
      rw [hmatches] at hnone
      rw [hdb]
      split_ifs at hnone ⊢ with hid
      exact h.empty id hnone
  | drop matchID =>
    have hdb := s.db.hgetall_deleteMatchRecord matchID
    have hmatches := s.latest.lookup_erase matchID
    refine ⟨fun id m' hm' => ?_, fun id hnone => ?_⟩
    · change (s.latest.erase matchID).lookup id = some m' at hm'
      change m'.id = id ∧ ReadsAs ((s.db.deleteMatchRecord matchID).hgetall (activeKey id)) m'
      rw [hmatches] at hm'
      rw [hdb]
      split_ifs at hm' ⊢ with hid
      exact h.reads id m' hm'
    · change (s.latest.erase matchID).lookup id = none at hnone
      change (s.db.deleteMatchRecord matchID).hgetall (activeKey id) = []
      rw [hmatches] at hnone
      rw [hdb]
      split_ifs at hnone ⊢ with hid
      · rfl
      · exact h.empty id hnone

theorem inv_saved (ops : List RecordOp) : Inv (ops.foldl Saved.apply {}) :=
  foldl_invariant_all (fun _ op _ h => h.apply op) inv_empty

end Saved

/-! ## A service that starts again -/

/-- `RedisKeyTTL`, in seconds. -/
def redisKeyTTL : ℤ := 60

/-- Too old to be taken up again. -/
def isStale (m : Match) (now : ℤ) : Bool := redisKeyTTL * 1000 < now - m.createdAt

/-- A match of an earlier run is put in the table and handed to the settlement loop. -/
def State.putRecovered (s : State) (m : Match) : State :=
  { s with
    records := s.records ++ [m]
    mem := s.mem.putMatch m s.records.length
    notifyCh := s.notifyCh ++ [s.records.length] }

/-- `Recover`, with the matches that were loaded. It runs before the settlement loop does, so
that it waits for ever once the channel is full. -/
def recover (s : State) (db : RecordStore) (now : ℤ) : List Match → Option (State × RecordStore)
  | [] => some (s, db)
  | m :: ms =>
    if isStale m now then recover s (db.deleteMatchRecord m.id) now ms
    else if s.notifyCh.length < notifyCap then recover (s.putRecovered m) db now ms
    else none

/-- The recovered matches have different numbers, and the table has each under its own. -/
structure RecoveredApart (s : State) : Prop where
  distinct : (s.records.map Match.id).Nodup
  stored : ∀ place m, s.records[place]? = some m → s.mem.matchById.lookup m.id = some place

variable {s s' : State} {db db' : RecordStore} {ms : List Match} {scan : List (String × Bool)}

theorem records_recover (hrec : recover s db now ms = some (s', db')) :
    s'.records = s.records ++ ms.filter fun m => !isStale m now := by
  induction ms generalizing s db with
  | nil =>
    cases hrec
    rw [List.filter_nil, List.append_nil]
  | cons m ms ih =>
    rw [recover] at hrec
    by_cases hstale : isStale m now = true
    · rw [if_pos hstale] at hrec
      rw [ih hrec, List.filter_cons_of_neg (by simp [hstale])]
    · rw [if_neg hstale] at hrec
      split_ifs at hrec with hcap
      rw [ih hrec, List.filter_cons_of_pos (by simpa using hstale)]
      exact List.append_assoc _ _ _

/-- Where the numbers differ, no match takes another's place in the table. -/
theorem RecoveredApart.recover (h : RecoveredApart s)
    (hrec : Matching.recover s db now ms = some (s', db'))
    (hids : (s'.records.map Match.id).Nodup) : RecoveredApart s' := by
  induction ms generalizing s db with
  | nil =>
    cases hrec
    exact h
  | cons m ms ih =>
    have hrecords := records_recover hrec
    rw [Matching.recover] at hrec
    by_cases hstale : isStale m now = true
    · rw [if_pos hstale] at hrec
      exact ih h hrec
    · rw [if_neg hstale] at hrec
      split_ifs at hrec with hcap
      refine ih ?_ hrec
      rw [hrecords, List.filter_cons_of_pos (by simpa using hstale)] at hids
      have hsub : ((s.records ++ [m]).map Match.id).Nodup := by
        refine hids.sublist ?_
        exact ((List.Sublist.refl _).append (List.singleton_sublist.mpr List.mem_cons_self)).map _
      refine ⟨hsub, fun place m' hm' => ?_⟩
      change (s.records ++ [m])[place]? = some m' at hm'
      change (s.mem.matchById.assign m.id s.records.length).lookup m'.id = some place
      rw [Assoc.lookup_assign]
      rw [getElem?_append_singleton] at hm'
      split_ifs at hm' with hplace
      · cases hm'
        rw [if_pos rfl, hplace]
      · have hmem : m' ∈ s.records := List.mem_of_getElem? hm'
        have hne : m'.id ≠ m.id := by
          intro hid
          rw [List.map_append, List.nodup_append] at hsub
          exact hsub.2.2 m'.id (List.mem_map_of_mem hmem) m.id (by simp) hid
        rw [if_neg hne]
        exact h.stored place m' hm'

/-- The key's hash is read, and its match is taken up. -/
def isTaken (db : RecordStore) (now : ℤ) (key : String × Bool) : Bool :=
  key.2 && !isStale (parseMatchRecord (db.hgetall key.1)) now

theorem filter_loadActiveMatches (db : RecordStore) (scan : List (String × Bool)) (now : ℤ) :
    (db.loadActiveMatches scan).filter (fun m => !isStale m now) =
      (scan.filter (isTaken db now)).map fun key => parseMatchRecord (db.hgetall key.1) := by
  unfold RecordStore.loadActiveMatches isTaken
  induction scan with
  | nil => rfl
  | cons key scan ih =>
    -- a key that is not read has no match; one that is too old is not taken
    rw [List.filterMap_cons]
    by_cases hread : key.2 = true
    · simp only [if_pos hread]
      by_cases hstale : isStale (parseMatchRecord (db.hgetall key.1)) now = true
      · rw [List.filter_cons_of_neg (by simp [hstale]), List.filter_cons_of_neg (by simp [hstale])]
        exact ih
      · rw [List.filter_cons_of_pos (by simpa using hstale),
          List.filter_cons_of_pos (by simpa [hread] using hstale), List.map_cons, ih]
    · simp only [if_neg hread]
      rw [List.filter_cons_of_neg (by simp [hread])]
      exact ih

/-- What was saved is read back as it was, and recovered apart. -/
def Survives (s : Saved) (service : State) : Prop :=
  (∀ id m, s.latest.lookup id = some m →
    Restores m (parseMatchRecord (s.db.hgetall (activeKey id)))) ∧ RecoveredApart service

/-- A confirmed match of one against one. -/
def duelMatch (id first second : UInt64) : Match :=
  { id, state := .confirmed, mode := 3, teamSize := 1, teamA := [first], teamB := [second]
    createdAt := 1700000000000 }

/-- Two matches are saved, and the service starts again after ten seconds: neither has its number,
and the second is put in the first one's place. -/
theorem twoMatches_not_survive :
    ¬ ∀ (ops : List RecordOp) (redis : Option Redis) (now : ℤ) (scan : List (String × Bool))
      (service : State) (db' : RecordStore),
      (∀ key ∈ scan, ∃ id m, key.1 = activeKey id ∧
        (ops.foldl Saved.apply {}).latest.lookup id = some m) →
      recover { redis } (ops.foldl Saved.apply {}).db now
        ((ops.foldl Saved.apply {}).db.loadActiveMatches scan) = some (service, db') →
      Survives (ops.foldl Saved.apply {}) service := by
  intro h
  let ops : List RecordOp :=
    [.save (duelMatch 7 1 2) 1700000000000, .save (duelMatch 8 3 4) 1700000000000]
  let saved := ops.foldl Saved.apply {}
  have hrun : (recover { redis := some {} } saved.db 1700000010000
      (saved.db.loadActiveMatches [(activeKey 7, true), (activeKey 8, true)])).map
        (fun r => r.1.records.map Match.id) = some [0, 0] := by
    decide
  obtain ⟨⟨service, db'⟩, hrec, hids⟩ := Option.map_eq_some_iff.mp hrun
  have hscan : ∀ key ∈ [(activeKey 7, true), (activeKey 8, true)], ∃ id m,
      key.1 = activeKey id ∧ saved.latest.lookup id = some m := by
    intro key hkey
    rcases List.mem_cons.mp hkey with rfl | hkey
    · exact ⟨7, duelMatch 7 1 2, rfl, rfl⟩
    · rw [List.mem_singleton] at hkey
      subst hkey
      exact ⟨8, duelMatch 8 3 4, rfl, rfl⟩
  have hdistinct := (h ops (some {}) 1700000010000 _ service db' hscan hrec).2.distinct
  rw [hids] at hdistinct
  exact absurd hdistinct (by decide)

/-- Matches survive a restart only where they all have the number 0: there is one at the most.
The others are read back without their numbers, and two of them have the same. -/
theorem survives_iff (ops : List RecordOp) (redis : Option Redis) {service : State}
    (hscan : ∀ key ∈ scan, ∃ id m, key.1 = activeKey id ∧
      (ops.foldl Saved.apply {}).latest.lookup id = some m)
    (hrec : recover { redis } (ops.foldl Saved.apply {}).db now
      ((ops.foldl Saved.apply {}).db.loadActiveMatches scan) = some (service, db')) :
    Survives (ops.foldl Saved.apply {}) service ↔
      (∀ id m, (ops.foldl Saved.apply {}).latest.lookup id = some m → id = 0 ∧ SmallNumbers m) ∧
      ((scan.filter (isTaken (ops.foldl Saved.apply {}).db now)).map Prod.fst).Nodup := by
  have hinv := Saved.inv_saved ops
  revert hscan hrec hinv
  generalize ops.foldl Saved.apply {} = s
  intro hscan hrec hinv
  have hrecords := records_recover hrec
  rw [List.nil_append, filter_loadActiveMatches] at hrecords
  have hids : service.records.map Match.id =
      List.replicate (scan.filter (isTaken s.db now)).length 0 := by
    rw [hrecords, List.map_map, List.eq_replicate_iff]
    refine ⟨by simp, fun id hid => ?_⟩
    obtain ⟨key, hkey, rfl⟩ := List.mem_map.mp hid
    obtain ⟨id, m, hname, hm⟩ := hscan key (List.mem_filter.mp hkey).1
    rw [Function.comp_apply, hname]
    exact (hinv.reads id m hm).2.parsed_id
  constructor
  · rintro ⟨hrestores, hapart⟩
    refine ⟨fun id m hm => ?_, ?_⟩
    · obtain ⟨rfl, hreads⟩ := hinv.reads id m hm
      exact hreads.restores_iff.mp (hrestores _ m hm)
    · have hone := List.nodup_replicate.mp (hids ▸ hapart.distinct)
      rcases hl : scan.filter (isTaken s.db now) with _ | ⟨key, _ | ⟨key', l⟩⟩
      · exact .nil
      · exact List.nodup_singleton _
      · rw [hl] at hone
        exact absurd hone (by simp)
  · rintro ⟨hzero, honce⟩
    refine ⟨fun id m hm => ?_, ?_⟩
    · obtain ⟨hid, hreads⟩ := hinv.reads id m hm
      obtain ⟨hnull, hsmall⟩ := hzero id m hm
      exact hreads.restores_iff.mpr ⟨hid.trans hnull, hsmall⟩
    · have hnone : RecoveredApart { redis } := by
        refine ⟨List.nodup_nil, fun place m hm => ?_⟩
        cases hm
      refine hnone.recover hrec ?_
      · have hkeys : (scan.filter (isTaken s.db now)).map Prod.fst =
            List.replicate (scan.filter (isTaken s.db now)).length (activeKey 0) := by
          rw [List.eq_replicate_iff]
          refine ⟨by simp, fun name hname => ?_⟩
          obtain ⟨key, hkey, rfl⟩ := List.mem_map.mp hname
          obtain ⟨id, m, hname, hm⟩ := hscan key (List.mem_filter.mp hkey).1
          rw [hname, (hzero id m hm).1]
        rw [hids, List.nodup_replicate]
        rw [hkeys, List.nodup_replicate] at honce
        exact honce

/-- The match that has the number 0. -/
theorem survives_iff_zero :
    ∃ service db', recover { redis := some {} }
        (Saved.apply {} (.save (duelMatch 0 1 2) 1700000000000)).db 1700000010000
        ((Saved.apply {} (.save (duelMatch 0 1 2) 1700000000000)).db.loadActiveMatches
          [(activeKey 0, true)]) = some (service, db') ∧
      Survives (Saved.apply {} (.save (duelMatch 0 1 2) 1700000000000)) service := by
  have hrun : (recover { redis := some {} }
      (Saved.apply {} (.save (duelMatch 0 1 2) 1700000000000)).db 1700000010000
        ((Saved.apply {} (.save (duelMatch 0 1 2) 1700000000000)).db.loadActiveMatches
          [(activeKey 0, true)])).isSome = true := by
    decide
  obtain ⟨⟨service, db'⟩, hrec⟩ := Option.isSome_iff_exists.mp hrun
  refine ⟨service, db', hrec, ?_⟩
  refine (survives_iff [.save (duelMatch 0 1 2) 1700000000000] (some {}) ?_ hrec).mpr ⟨?_, ?_⟩
  · intro key hkey
    rw [List.mem_singleton] at hkey
    subst hkey
    exact ⟨0, duelMatch 0 1 2, rfl, rfl⟩
  · intro id m hm
    have hmem := List.mem_singleton.mp (Assoc.mem_of_lookup hm)
    cases hmem
    exact ⟨rfl, by decide, by decide⟩
  · exact (List.nodup_singleton _).sublist ((List.filter_sublist).map Prod.fst)

end Gmaker.Matching
