import Mathlib

/-!
# Gmaker.Idgen.Snowflake — ids from a clock

An id holds the milliseconds since the epoch, the node and a sequence number. The generators in Go
and in C++ read the clock once for a call, and again while the sequence numbers of a millisecond
are used up. Every id of a run is of a later moment than the one before, a moment being a
millisecond and a sequence number (`Snowflake.nextID_cases`), and ids are ordered as their moments
are (`nextID_unique`), whatever the clock shows.
-/

namespace Gmaker.Idgen

/-! ## The generator in Go -/

/-- `Snowflake`, without its lock. -/
structure Snowflake where
  epoch : Int64
  nodeID : Int64
  sequence : Int64
  lastTime : Int64
  deriving DecidableEq

def nodeBits : Int64 := 10

def sequenceBits : Int64 := 12

def nodeMax : Int64 := -1 ^^^ ((-1 : Int64) <<< nodeBits)

def sequenceMask : Int64 := -1 ^^^ ((-1 : Int64) <<< sequenceBits)

def timeShift : Int64 := nodeBits + sequenceBits

def nodeShift : Int64 := sequenceBits

/-- The milliseconds at 2024-01-01 00:00:00 UTC. -/
def defaultEpoch : Int64 := 1704067200000

/-- `NewSnowflake`. -/
def newSnowflake (nodeID : Int64) : Except String Snowflake :=
  if nodeID < 0 ∨ nodeMax < nodeID then .error "node ID out of range"
  else .ok { epoch := defaultEpoch, nodeID := nodeID, sequence := 0, lastTime := -1 }

/-- The clock is read until it is past `lastTime`; `none` is a wait that the readings do not end. -/
def waitNext (lastTime : Int64) : List Int64 → Option (Int64 × List Int64)
  | [] => none
  | now :: rest => if now ≤ lastTime then waitNext lastTime rest else some (now, rest)

/-- The end of `NextID`. -/
def Snowflake.issue (s : Snowflake) (now : Int64) : Int64 × Snowflake :=
  let s := { s with lastTime := now }
  ((now - s.epoch) <<< timeShift ||| s.nodeID <<< nodeShift ||| s.sequence, s)

/-- `NextID`, with what it leaves of the readings of the clock; `none` is a call that has not
returned when they run out. -/
def Snowflake.nextID (s : Snowflake) :
    List Int64 → Option (Except String Int64 × Snowflake × List Int64)
  | [] => none
  | now :: rest =>
    if now < s.lastTime then some (.error "clock moved backwards", s, rest)
    else if now = s.lastTime then
      let s : Snowflake := { s with sequence := (s.sequence + 1) &&& sequenceMask }
      if s.sequence = 0 then
        (waitNext s.lastTime rest).map fun (now, rest) =>
          (.ok (s.issue now).1, (s.issue now).2, rest)
      else some (.ok (s.issue now).1, (s.issue now).2, rest)
    else
      let s := { s with sequence := 0 }
      some (.ok (s.issue now).1, (s.issue now).2, rest)

/-! ## The generator in C++ -/

namespace Cpp

/-- `Snowflake`, without its lock. -/
structure Snowflake where
  nodeId : Int64
  sequence : Int64
  lastTime : Int64
  deriving DecidableEq

def kNodeBits : Int64 := 10

def kSequenceBits : Int64 := 12

def kNodeMax : Int64 := ((1 : Int64) <<< kNodeBits) - 1

def kSequenceMask : Int64 := ((1 : Int64) <<< kSequenceBits) - 1

def kTimeShift : Int64 := kNodeBits + kSequenceBits

def kNodeShift : Int64 := kSequenceBits

/-- The milliseconds at 2024-01-01 00:00:00 UTC. -/
def kEpoch : Int64 := 1704067200000

/-- The constructor; an error is what it throws. -/
def newSnowflake (nodeId : Int64) : Except String Snowflake :=
  if nodeId < 0 ∨ kNodeMax < nodeId then .error "node ID out of range"
  else .ok { nodeId := nodeId, sequence := 0, lastTime := -1 }

/-- The loop of `NextID`: `now` is replaced by the next reading while it is not past `lastTime`. -/
def waitWhile (lastTime now : Int64) : List Int64 → Option (Int64 × List Int64)
  | [] => if now ≤ lastTime then none else some (now, [])
  | next :: rest =>
    if now ≤ lastTime then waitWhile lastTime next rest else some (now, next :: rest)

/-- The end of `NextID`. -/
def Snowflake.issue (s : Snowflake) (now : Int64) : Int64 × Snowflake :=
  let s := { s with lastTime := now }
  ((now - kEpoch) <<< kTimeShift ||| s.nodeId <<< kNodeShift ||| s.sequence, s)

/-- `NextID`; an error is what it throws. -/
def Snowflake.nextID (s : Snowflake) :
    List Int64 → Option (Except String Int64 × Snowflake × List Int64)
  | [] => none
  | now :: rest =>
    if now < s.lastTime then some (.error "clock moved backwards", s, rest)
    else if now = s.lastTime then
      let s : Snowflake := { s with sequence := (s.sequence + 1) &&& kSequenceMask }
      if s.sequence = 0 then
        (waitWhile s.lastTime now rest).map fun (now, rest) =>
          (.ok (s.issue now).1, (s.issue now).2, rest)
      else some (.ok (s.issue now).1, (s.issue now).2, rest)
    else
      let s := { s with sequence := 0 }
      some (.ok (s.issue now).1, (s.issue now).2, rest)

end Cpp

/-! ## Successive calls -/

/-- What the first `n` calls of `next` return, as far as the readings go. -/
def calls {σ : Type*} (next : σ → List Int64 → Option (Except String Int64 × σ × List Int64)) :
    ℕ → σ → List Int64 → List (Except String Int64)
  | 0, _, _ => []
  | n + 1, s, readings =>
    match next s readings with
    | none => []
    | some (r, s', rest) => r :: calls next n s' rest

/-- The ids among the results. -/
def ids (results : List (Except String Int64)) : List Int64 := results.filterMap Except.toOption

/-- 41 bits hold the milliseconds since the epoch. -/
def InRange (now : Int64) : Prop :=
  defaultEpoch.toInt ≤ now.toInt ∧ now.toInt < defaultEpoch.toInt + 2 ^ 41

instance (now : Int64) : Decidable (InRange now) := inferInstanceAs (Decidable (_ ∧ _))

/-! ## Fields in a word -/

/-- The bits of a number that is not negative. -/
theorem toNat_toBitVec {x : Int64} (hx : 0 ≤ x.toInt) : (x.toBitVec.toNat : ℤ) = x.toInt := by
  have hint : x.toInt = x.toBitVec.toInt := rfl
  rw [hint, BitVec.toInt_eq_toNat_cond] at hx ⊢
  split_ifs at hx ⊢
  · rfl
  · have hlt := x.toBitVec.isLt
    omega

/-- Three fields that fit side by side do not get in each other's way. -/
theorem toInt_fields {time node sequence : Int64} (htime : 0 ≤ time.toInt ∧ time.toInt < 2 ^ 41)
    (hnode : 0 ≤ node.toInt ∧ node.toInt < 2 ^ 10)
    (hsequence : 0 ≤ sequence.toInt ∧ sequence.toInt < 2 ^ 12) :
    (time <<< timeShift ||| node <<< nodeShift ||| sequence).toInt =
      time.toInt * 2 ^ 22 + node.toInt * 2 ^ 12 + sequence.toInt := by
  have ht := toNat_toBitVec htime.1
  have hn := toNat_toBitVec hnode.1
  have hs := toNat_toBitVec hsequence.1
  -- each field stays below the next, so that the disjunctions are sums
  have hbits : (time <<< timeShift ||| node <<< nodeShift ||| sequence).toBitVec.toNat =
      time.toBitVec.toNat * 2 ^ 22 + node.toBitVec.toNat * 2 ^ 12 + sequence.toBitVec.toNat := by
    have hlow : node.toBitVec.toNat <<< 12 ||| sequence.toBitVec.toNat =
        node.toBitVec.toNat * 2 ^ 12 + sequence.toBitVec.toNat := by
      rw [← Nat.shiftLeft_add_eq_or_of_lt (by omega), Nat.shiftLeft_eq]
    have hshift : (timeShift.toBitVec.smod 64).toNat = 22 := by decide
    have hshift' : (nodeShift.toBitVec.smod 64).toNat = 12 := by decide
    rw [Int64.toBitVec_or, Int64.toBitVec_or, Int64.toBitVec_shiftLeft, Int64.toBitVec_shiftLeft,
      BitVec.toNat_or, BitVec.toNat_or, BitVec.shiftLeft_eq', BitVec.toNat_shiftLeft,
      BitVec.shiftLeft_eq', BitVec.toNat_shiftLeft, hshift, hshift', Nat.mod_eq_of_lt,
      Nat.mod_eq_of_lt, Nat.or_assoc, hlow, ← Nat.shiftLeft_add_eq_or_of_lt, Nat.shiftLeft_eq,
      Nat.add_assoc]
    · omega
    · rw [Nat.shiftLeft_eq]
      omega
    · rw [Nat.shiftLeft_eq]
      omega
  have hword := toNat_toBitVec (x := time <<< timeShift ||| node <<< nodeShift ||| sequence)
  have hint : (time <<< timeShift ||| node <<< nodeShift ||| sequence).toInt =
      (time <<< timeShift ||| node <<< nodeShift ||| sequence).toBitVec.toInt := rfl
  rw [hint, BitVec.toInt_eq_toNat_of_lt (by omega), hbits]
  push_cast
  rw [ht, hn, hs]

/-! ## One call -/

/-- A moment, in units of which a millisecond has 4096. -/
def Snowflake.moment (s : Snowflake) : ℤ := s.lastTime.toInt * 2 ^ 12 + s.sequence.toInt

/-- The id of a moment at a node. -/
def idOf (nodeID : Int64) (time sequence : ℤ) : ℤ :=
  (time - defaultEpoch.toInt) * 2 ^ 22 + nodeID.toInt * 2 ^ 12 + sequence

structure Snowflake.Valid (s : Snowflake) : Prop where
  epoch : s.epoch = defaultEpoch
  nodeID : 0 ≤ s.nodeID.toInt ∧ s.nodeID.toInt < 2 ^ 10
  sequence : 0 ≤ s.sequence.toInt ∧ s.sequence.toInt < 2 ^ 12

variable {s s' : Snowflake} {now : Int64} {readings rest : List Int64} {r : Except String Int64}

theorem toInt_issue (h : s.Valid) (hnow : InRange now) :
    (s.issue now).1.toInt = idOf s.nodeID now.toInt s.sequence.toInt := by
  have htime : (now - s.epoch).toInt = now.toInt - defaultEpoch.toInt := by
    rw [h.epoch, Int64.toInt_sub]
    have hepoch : defaultEpoch.toInt = 1704067200000 := by decide
    unfold InRange at hnow
    rw [hepoch] at hnow ⊢
    rw [Int.bmod_eq_of_le]
    · omega
    · omega
  unfold InRange at hnow
  rw [Snowflake.issue]
  dsimp only
  rw [toInt_fields (by omega) h.nodeID h.sequence, htime, idOf]

/-- The sequence number goes round. -/
theorem toInt_next_sequence {sequence : Int64}
    (h : 0 ≤ sequence.toInt ∧ sequence.toInt < 2 ^ 12) :
    ((sequence + 1) &&& sequenceMask).toInt = (sequence.toInt + 1) % 2 ^ 12 := by
  have hs := toNat_toBitVec h.1
  have hmask : sequenceMask.toBitVec.toNat = 2 ^ 12 - 1 := by decide
  have hone : (1 : Int64).toBitVec.toNat = 1 := by decide
  have hint : ((sequence + 1) &&& sequenceMask).toInt =
      ((sequence + 1) &&& sequenceMask).toBitVec.toInt := rfl
  have hbits : ((sequence + 1) &&& sequenceMask).toBitVec.toNat =
      (sequence.toBitVec.toNat + 1) % 2 ^ 12 := by
    rw [Int64.toBitVec_and, Int64.toBitVec_add, BitVec.toNat_and, BitVec.toNat_add, hmask, hone,
      Nat.and_two_pow_sub_one_eq_mod, Nat.mod_mod_of_dvd _ (by norm_num)]
  rw [hint, BitVec.toInt_eq_toNat_of_lt (by omega), hbits, ← hs]
  push_cast
  rfl

/-- The wait ends with a reading that is past the last one. -/
theorem waitNext_cases {lastTime : Int64} (h : waitNext lastTime readings = some (now, rest)) :
    lastTime < now ∧ now ∈ readings ∧ rest <:+ readings := by
  induction readings with
  | nil => cases h
  | cons next readings ih =>
    rw [waitNext] at h
    split_ifs at h with hle
    · rcases ih h with ⟨hlt, hmem, hsuffix⟩
      exact ⟨hlt, List.mem_cons_of_mem _ hmem, hsuffix.trans (List.suffix_cons _ _)⟩
    · cases h
      exact ⟨Int64.not_le.mp hle, List.mem_cons_self, List.suffix_cons _ _⟩

/-- A call that fails has changed nothing. -/
theorem Snowflake.nextID_error {e : String} (h : s.nextID readings = some (.error e, s', rest)) :
    s' = s := by
  cases readings with
  | nil => cases h
  | cons now readings =>
    rw [nextID] at h
    dsimp only at h
    split_ifs at h
    · cases h
      rfl
    · rcases Option.map_eq_some_iff.mp h with ⟨read, -, heq⟩
      cases heq
    · cases h
    · cases h

/-- What a generator is like after a call that gave out `id`, which was of a moment later than
the last one. -/
structure Snowflake.Issued (s s' : Snowflake) (readings : List Int64) (id : Int64) : Prop where
  valid : s'.Valid
  nodeID : s'.nodeID = s.nodeID
  lastTime : s'.lastTime ∈ readings
  later : s.moment < s'.moment
  id : id = (s'.issue s'.lastTime).1

/-- An id in a new millisecond has the sequence number 0, and others count up. -/
theorem Snowflake.issued (hs : s.Valid) (hnow : now ∈ readings) {sequence : Int64}
    (hlater : s.lastTime < now ∧ sequence = 0 ∨
      s.lastTime = now ∧ sequence = (s.sequence + 1) &&& sequenceMask ∧ sequence ≠ 0) :
    s.Issued ({ s with sequence := sequence }.issue now).2 readings
      ({ s with sequence := sequence }.issue now).1 := by
  have hnext := toInt_next_sequence hs.sequence
  have hzero : (0 : Int64).toInt = 0 := by decide
  have hrange : 0 ≤ sequence.toInt ∧ sequence.toInt < 2 ^ 12 := by
    rcases hlater with ⟨-, rfl⟩ | ⟨-, rfl, -⟩
    · rw [hzero]
      norm_num
    · rw [hnext]
      omega
  refine ⟨⟨hs.epoch, hs.nodeID, hrange⟩, rfl, hnow, ?_, rfl⟩
  have hold := hs.sequence
  simp only [moment, issue]
  rcases hlater with ⟨hlt, rfl⟩ | ⟨rfl, rfl, hne⟩
  · rw [Int64.lt_iff_toInt_lt] at hlt
    rw [hzero]
    omega
  · have hne' : ((s.sequence + 1) &&& sequenceMask).toInt ≠ 0 := by
      intro heq
      exact hne (Int64.toInt_inj.mp (heq.trans hzero.symm))
    rw [hnext] at hne' ⊢
    omega

/-- All that a call can do. -/
theorem Snowflake.nextID_cases (hs : s.Valid) (h : s.nextID readings = some (r, s', rest)) :
    rest <:+ readings ∧
      ((r = .error "clock moved backwards" ∧ s' = s) ∨
        ∃ id, r = .ok id ∧ s.Issued s' readings id) := by
  cases readings with
  | nil => cases h
  | cons now readings =>
    rw [nextID] at h
    dsimp only at h
    split_ifs at h with hback hsame hwrap
    -- the clock went back
    · cases h
      exact ⟨List.suffix_cons _ _, Or.inl ⟨rfl, rfl⟩⟩
    -- the sequence numbers of the millisecond are used up
    · rcases Option.map_eq_some_iff.mp h with ⟨⟨now', rest'⟩, hwait, heq⟩
      cases heq
      rcases waitNext_cases hwait with ⟨hlt, hmem, hsuffix⟩
      refine ⟨hsuffix.trans (List.suffix_cons _ _), Or.inr ⟨_, rfl, ?_⟩⟩
      exact issued hs (List.mem_cons_of_mem _ hmem) (Or.inl ⟨hlt, hwrap⟩)
    · cases h
      refine ⟨List.suffix_cons _ _, Or.inr ⟨_, rfl, ?_⟩⟩
      exact issued hs List.mem_cons_self (Or.inr ⟨hsame.symm, rfl, hwrap⟩)
    · cases h
      have hlt : s.lastTime < now :=
        Int64.lt_of_le_of_ne (Int64.not_lt.mp hback) (Ne.symm hsame)
      refine ⟨List.suffix_cons _ _, Or.inr ⟨_, rfl, ?_⟩⟩
      exact issued hs List.mem_cons_self (Or.inl ⟨hlt, rfl⟩)

/-! ## Runs -/

/-- An id of the node, of a moment after the state's. -/
def IdAfter (s : Snowflake) (id : Int64) : Prop :=
  ∃ time sequence : ℤ, 0 ≤ sequence ∧ sequence < 2 ^ 12 ∧
    s.moment < time * 2 ^ 12 + sequence ∧ id.toInt = idOf s.nodeID time sequence

theorem Snowflake.Issued.idAfter {id : Int64} (h : s.Issued s' readings id)
    (hrange : ∀ now ∈ readings, InRange now) : IdAfter s id := by
  refine ⟨s'.lastTime.toInt, s'.sequence.toInt, h.valid.sequence.1, h.valid.sequence.2, h.later, ?_⟩
  rw [h.id, toInt_issue h.valid (hrange _ h.lastTime), h.nodeID]

/-- What comes after a later state comes after an earlier one. -/
theorem IdAfter.of_issued {id id' : Int64} (h : IdAfter s' id') (hissued : s.Issued s' readings id) :
    IdAfter s id' := by
  rcases h with ⟨time, sequence, hlow, hhigh, hlater, hid⟩
  refine ⟨time, sequence, hlow, hhigh, hissued.later.trans hlater, ?_⟩
  rw [hid, hissued.nodeID]

/-- Ids are ordered as their moments are: the sequence numbers stay below a millisecond's worth. -/
theorem Snowflake.Issued.lt {id id' : Int64} (h : s.Issued s' readings id)
    (hrange : ∀ now ∈ readings, InRange now) (hlater : IdAfter s' id') : id < id' := by
  -- at one node an id is the moment, spread out
  rcases hlater with ⟨time, sequence, hlow, hhigh, hmoment, hid⟩
  have hseq := h.valid.sequence
  rw [Int64.lt_iff_toInt_lt, hid, h.id, toInt_issue h.valid (hrange _ h.lastTime), idOf, idOf]
  rw [moment] at hmoment
  omega

/-- The ids of a run come after the state it began in, each after the one before. -/
theorem pairwise_ids (n : ℕ) (hs : s.Valid) (hrange : ∀ now ∈ readings, InRange now) :
    (ids (calls Snowflake.nextID n s readings)).Pairwise (· < ·) ∧
      ∀ id ∈ ids (calls Snowflake.nextID n s readings), IdAfter s id := by
  -- by the calls, with any state to begin in: what the rest gives out comes after that state
  induction n generalizing s readings with
  | zero =>
    constructor
    · exact List.Pairwise.nil
    · intro id hid
      cases hid
  | succ n ih =>
    rw [calls]
    split
    · constructor
      · exact List.Pairwise.nil
      · intro id hid
        cases hid
    · rename_i r s' rest hcall
      rcases Snowflake.nextID_cases hs hcall with ⟨hsuffix, hcases⟩
      have hrest : ∀ now ∈ rest, InRange now := fun now hnow => hrange now (hsuffix.subset hnow)
      rcases hcases with ⟨rfl, rfl⟩ | ⟨id, rfl, hissued⟩
      · exact ih hs hrest
      · rcases ih hissued.valid hrest with ⟨hpairwise, hafter⟩
        have hids : ids (.ok id :: calls Snowflake.nextID n s' rest) =
            id :: ids (calls Snowflake.nextID n s' rest) := rfl
        rw [hids]
        constructor
        · refine List.Pairwise.cons ?_ hpairwise
          intro id' hid'
          exact hissued.lt hrange (hafter id' hid')
        · intro id' hid'
          rcases List.mem_cons.mp hid' with rfl | htail
          · exact hissued.idAfter hrange
          · exact (hafter id' htail).of_issued hissued

/-- A new generator is at no moment of its range yet. -/
theorem valid_of_newSnowflake {nodeID : Int64} (h : newSnowflake nodeID = .ok s) :
    s.Valid ∧ s.nodeID = nodeID := by
  have hzero : (0 : Int64).toInt = 0 := by decide
  have hmax : nodeMax.toInt = 1023 := by decide
  unfold newSnowflake at h
  split_ifs at h with hout
  cases h
  rw [not_or, Int64.not_lt, Int64.not_lt, Int64.le_iff_toInt_le, Int64.le_iff_toInt_le, hzero,
    hmax] at hout
  refine ⟨⟨rfl, ⟨hout.1, ?_⟩, ?_⟩, rfl⟩
  · exact lt_of_le_of_lt hout.2 (by norm_num)
  · rw [hzero]
    norm_num

/-- The field of the node tells two ids apart. -/
theorem IdAfter.ne {t : Snowflake} {id id' : Int64} (hs : s.Valid) (ht : t.Valid)
    (hne : s.nodeID ≠ t.nodeID) (h : IdAfter s id) (h' : IdAfter t id') : id ≠ id' := by
  rintro rfl
  rcases h with ⟨time, sequence, hlow, hhigh, -, hid⟩
  rcases h' with ⟨time', sequence', hlow', hhigh', -, hid'⟩
  have hnode := hs.nodeID
  have hnode' := ht.nodeID
  rw [hid, idOf, idOf] at hid'
  apply hne
  rw [← Int64.toInt_inj]
  omega

/-! ## The two generators -/

/-- The state in Go that a state in C++ stands for. -/
def Cpp.Snowflake.toGo (s : Cpp.Snowflake) : Idgen.Snowflake :=
  { epoch := defaultEpoch, nodeID := s.nodeId, sequence := s.sequence, lastTime := s.lastTime }

/-- The loop in C++ looks at a reading before it asks for the next. -/
theorem waitWhile_eq (lastTime now : Int64) (readings : List Int64) :
    Cpp.waitWhile lastTime now readings = waitNext lastTime (now :: readings) := by
  induction readings generalizing now with
  | nil => rfl
  | cons next readings ih => rw [Cpp.waitWhile, waitNext, ih]

theorem waitWhile_self (lastTime : Int64) (readings : List Int64) :
    Cpp.waitWhile lastTime lastTime readings = waitNext lastTime readings := by
  rw [waitWhile_eq, waitNext, if_pos (Int64.le_refl lastTime)]

/-- A call in C++ is a call in Go. -/
theorem nextID_toGo (s : Cpp.Snowflake) (readings : List Int64) :
    s.toGo.nextID readings = (s.nextID readings).map fun (r, s', rest) => (r, s'.toGo, rest) := by
  cases readings with
  | nil => rfl
  | cons now readings =>
    have hlast : s.toGo.lastTime = s.lastTime := rfl
    have hsequence : s.toGo.sequence = s.sequence := rfl
    have hmask : Cpp.kSequenceMask = sequenceMask := by decide
    rw [Snowflake.nextID, Cpp.Snowflake.nextID]
    dsimp only
    simp only [hlast, hsequence, hmask]
    split_ifs with hback hsame hwrap
    · rfl
    · rw [hsame, waitWhile_self, Option.map_map]
      rfl
    · rfl
    · rfl

theorem calls_toGo (n : ℕ) (s : Cpp.Snowflake) (readings : List Int64) :
    calls Snowflake.nextID n s.toGo readings = calls Cpp.Snowflake.nextID n s readings := by
  induction n generalizing s readings with
  | zero => rfl
  | succ n ih =>
    rw [calls, calls, nextID_toGo]
    cases s.nextID readings with
    | none => rfl
    | some call =>
      rcases call with ⟨r, s', rest⟩
      exact congrArg (r :: ·) (ih s' rest)

theorem newSnowflake_toGo (nodeID : Int64) :
    newSnowflake nodeID = (Cpp.newSnowflake nodeID).map Cpp.Snowflake.toGo := by
  have hmax : Cpp.kNodeMax = nodeMax := by decide
  unfold newSnowflake Cpp.newSnowflake
  rw [hmax]
  split_ifs
  · rfl
  · rfl

theorem Cpp.Snowflake.nextID_error {s s' : Cpp.Snowflake} {e : String} {readings rest : List Int64}
    (h : s.nextID readings = some (.error e, s', rest)) : s' = s := by
  have hgo : s.toGo.nextID readings = some (.error e, s'.toGo, rest) := by
    rw [nextID_toGo, h]
    rfl
  have heq := Idgen.Snowflake.nextID_error hgo
  cases s
  cases s'
  cases heq
  rfl

/-! ## Ids do not repeat -/

/-- Let two generators be made, for any nodes, and let the clock of each show anything within the
range. The ids that one gives out in `n` calls rise strictly; they are not those of the other,
unless it is of the same node; a call that fails has changed nothing; and a generator in C++
returns what the one in Go does. -/
theorem nextID_unique {node node' : Int64} {s s' : Snowflake} {readings readings' : List Int64}
    (hs : newSnowflake node = .ok s) (hs' : newSnowflake node' = .ok s')
    (hrange : ∀ now ∈ readings, InRange now) (hrange' : ∀ now ∈ readings', InRange now) :
    (∀ n, (ids (calls Snowflake.nextID n s readings)).Pairwise (· < ·)) ∧
      (node ≠ node' → ∀ n n', ∀ id ∈ ids (calls Snowflake.nextID n s readings),
        ∀ id' ∈ ids (calls Snowflake.nextID n' s' readings'), id ≠ id') ∧
      ((∀ (t t' : Snowflake) (e : String) (input rest : List Int64),
        t.nextID input = some (.error e, t', rest) → t' = t) ∧
        ∀ (t t' : Cpp.Snowflake) (e : String) (input rest : List Int64),
          t.nextID input = some (.error e, t', rest) → t' = t) ∧
      ∃ t, Cpp.newSnowflake node = .ok t ∧
        ∀ n, calls Cpp.Snowflake.nextID n t readings = calls Snowflake.nextID n s readings := by
  rcases valid_of_newSnowflake hs with ⟨hvalid, hnode⟩
  rcases valid_of_newSnowflake hs' with ⟨hvalid', hnode'⟩
  refine ⟨?_, ?_, ⟨?_, ?_⟩, ?_⟩
  · intro n
    exact (pairwise_ids n hvalid hrange).1
  · intro hne n n' id hid id' hid'
    rw [← hnode, ← hnode'] at hne
    exact ((pairwise_ids n hvalid hrange).2 id hid).ne hvalid hvalid' hne
      ((pairwise_ids n' hvalid' hrange').2 id' hid')
  · intro t t' e input rest h
    exact Snowflake.nextID_error h
  · intro t t' e input rest h
    exact Cpp.Snowflake.nextID_error h
  · rw [newSnowflake_toGo] at hs
    cases hcpp : Cpp.newSnowflake node with
    | error e =>
      rw [hcpp] at hs
      cases hs
    | ok t =>
      rw [hcpp] at hs
      cases hs
      refine ⟨t, rfl, ?_⟩
      intro n
      exact (calls_toGo n t readings).symm

/-- Two nodes on one clock, which stands, goes back and goes on. -/
theorem nextID_unique_standing :
    let clock := [1704067200005, 1704067200005, 1704067200004, 1704067200009]
    ∃ s s', newSnowflake 1 = .ok s ∧ newSnowflake 2 = .ok s' ∧
      (ids (calls Snowflake.nextID 4 s clock)).Pairwise (· < ·) ∧
      ∀ id ∈ ids (calls Snowflake.nextID 4 s clock),
        ∀ id' ∈ ids (calls Snowflake.nextID 4 s' clock), id ≠ id' := by
  intro clock
  have hrange : ∀ now ∈ clock, InRange now := by
    simp [clock, InRange, defaultEpoch]
  obtain ⟨s, hs⟩ : ∃ s, newSnowflake 1 = .ok s := ⟨_, rfl⟩
  obtain ⟨s', hs'⟩ : ∃ s, newSnowflake 2 = .ok s := ⟨_, rfl⟩
  have h := nextID_unique hs hs' hrange hrange
  exact ⟨s, s', hs, hs', h.1 4, h.2.1 (by decide) 4 4⟩

end Gmaker.Idgen
