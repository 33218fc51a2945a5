import Gmaker.Matching.Records

/-!
# Gmaker.Matching.DriveForward — a match is taken to its end

`driveForward` is a loop around the states of a match: it goes on until the state is a
terminal one, and each round is to bring it nearer. What decides that it ends is the state
and the number of retries it begins with. From the tick loop these are a confirmed match and
none; after a restart they are whatever the server's hash says.

The steps of the settlement loop are taken one after another here. Other steps of the service
touch neither the loop nor the match it has.
-/

namespace Gmaker.Matching

open Gmaker.Lib

/-! ## The loop by itself -/

/-- The step of the settlement loop that is next. -/
def settlementEvent : SettlementLoop → Option Event
  | .waiting => none
  | .driving _ => some .drive
  | .settling _ => some .settleTicket
  | .rollingBack _ => some .releaseTickets
  | .requeuing _ none => some .rollbackGet
  | .requeuing _ (some _) => some .rollbackEnqueue

/-- The calls of `createRoom` in the next step: one, where the room is to be made. -/
def State.roomCalls (s : State) : ℕ :=
  match s.settlementLoop with
  | .driving place => if (s.records[place]?).any fun m => m.state = .roomPrep then 1 else 0
  | _ => 0

section DriveForward

variable (S : SortSlice) (room : Match → Option UInt64)

/-- `driveForward`: what it leaves and the number of its calls of `createRoom`; none where the
steps do not suffice. -/
def driveForward : ℕ → State → Option (State × ℕ)
  | 0, _ => none
  | fuel + 1, s =>
    match settlementEvent s.settlementLoop with
    | none => some (s, 0)
    | some e => (nextSettlement S room s e).bind fun s' =>
        (driveForward fuel s').map fun r => (r.1, r.2 + s.roomCalls)

/-- With steps enough it returns. -/
def Returns (s t : State) (calls : ℕ) : Prop :=
  ∃ fuel, driveForward S room fuel s = some (t, calls)

/-- It returns, with the match in a terminal state and after no more calls than a first one and
the retries. -/
def DriveEnds (s : State) (place : ℕ) : Prop :=
  ∃ t calls, Returns S room s t calls ∧
    (∃ m, t.records[place]? = some m ∧ m.state.isTerminal = true) ∧ (calls : ℤ) ≤ maxRetries + 1

variable {S room} {s s' t : State} {place calls fuel : ℕ} {m : Match} {uids : List UInt64}

/-- One step, and the rest. -/
theorem Returns.step {e : Event} (he : settlementEvent s.settlementLoop = some e)
    (hnext : nextSettlement S room s e = some s') (h : Returns S room s' t calls) :
    Returns S room s t (calls + s.roomCalls) := by
  obtain ⟨fuel, hfuel⟩ := h
  refine ⟨fuel + 1, ?_⟩
  rw [driveForward, he]
  simp only [hnext, Option.bind_some, hfuel, Option.map_some]

/-- A round of the loop. -/
theorem driveForward_drive (hloop : s.settlementLoop = .driving place)
    (hm : s.records[place]? = some m) :
    driveForward S room (fuel + 1) s =
      (driveForward S room fuel (s.drive room place m)).map fun r =>
        (r.1, r.2 + if m.state = .roomPrep then 1 else 0) := by
  have hcalls : s.roomCalls = if m.state = .roomPrep then 1 else 0 := by
    simp only [State.roomCalls, hloop, hm, Option.any_some, decide_eq_true_eq]
  have hnext : nextSettlement S room s .drive = some (s.drive room place m) := by
    unfold nextSettlement
    simp only [hloop, hm, Option.map_some]
  rw [driveForward, hloop]
  simp only [settlementEvent, hnext, Option.bind_some, hcalls]

theorem Returns.drive (hloop : s.settlementLoop = .driving place)
    (hm : s.records[place]? = some m) (h : Returns S room (s.drive room place m) t calls) :
    Returns S room s t (calls + if m.state = .roomPrep then 1 else 0) := by
  obtain ⟨fuel, hfuel⟩ := h
  refine ⟨fuel + 1, ?_⟩
  rw [driveForward_drive hloop hm, hfuel]
  rfl

/-! ## After the last round -/

variable (S room)

theorem returns_of_waiting (hloop : s.settlementLoop = .waiting) : Returns S room s s 0 := by
  refine ⟨1, ?_⟩
  rw [driveForward, hloop]
  rfl

/-- The players of a complete match are settled one after another. -/
theorem returns_of_settle (hloop : s.settlementLoop = State.settle uids) :
    ∃ t, Returns S room s t 0 ∧ t.records = s.records := by
  induction uids generalizing s with
  | nil => exact ⟨s, returns_of_waiting S room hloop, rfl⟩
  | cons uid uids ih =>
    have hsettling : s.settlementLoop = .settling (uid :: uids) := hloop
    obtain ⟨t, ht, hrecords⟩ := @ih (s.settleTicket uid uids) rfl
    have hnext : nextSettlement S room s .settleTicket = some (s.settleTicket uid uids) := by
      unfold nextSettlement
      simp only [hsettling]
    have hcalls : s.roomCalls = 0 := by simp only [State.roomCalls, hsettling]
    refine ⟨t, ?_, hrecords⟩
    have hall := ht.step (s := s) (by rw [hsettling]; rfl) hnext
    rwa [hcalls] at hall

/-- The players of a match that is rolled back go back to the pool one after another. -/
theorem returns_of_requeue (hloop : s.settlementLoop = State.requeue uids) :
    ∃ t, Returns S room s t 0 ∧ t.records = s.records := by
  induction uids generalizing s with
  | nil => exact ⟨s, returns_of_waiting S room hloop, rfl⟩
  | cons uid uids ih =>
    have hrequeuing : s.settlementLoop = .requeuing (uid :: uids) none := hloop
    have hnext : nextSettlement S room s .rollbackGet = some (s.rollbackGet uid uids) := by
      unfold nextSettlement
      simp only [hrequeuing]
    have hcalls : s.roomCalls = 0 := by simp only [State.roomCalls, hrequeuing]
    have hrest : ∃ t, Returns S room (s.rollbackGet uid uids) t 0 ∧ t.records = s.records := by
      cases hget : s.mem.getTicket uid with
      | none => exact ih (by simp only [State.rollbackGet, hget])
      | some p =>
        have hfound : (s.rollbackGet uid uids).settlementLoop = .requeuing (uid :: uids) (some p) := by
          simp only [State.rollbackGet, hget]
        obtain ⟨t, ht, hrecords⟩ := @ih ((s.rollbackGet uid uids).rollbackEnqueue S p uids) rfl
        have hput : nextSettlement S room (s.rollbackGet uid uids) .rollbackEnqueue =
            some ((s.rollbackGet uid uids).rollbackEnqueue S p uids) := by
          unfold nextSettlement
          simp only [hfound]
        have hnone : (s.rollbackGet uid uids).roomCalls = 0 := by
          simp only [State.roomCalls, hfound]
        have hall := ht.step (by rw [hfound]; rfl) hput
        rw [hnone] at hall
        exact ⟨t, hall, hrecords⟩
    obtain ⟨t, ht, hrecords⟩ := hrest
    have hall := ht.step (s := s) (by rw [hrequeuing]; rfl) hnext
    rw [hcalls] at hall
    exact ⟨t, hall, hrecords⟩

/-! ## Rounds -/

/-- The match itself is taken to the state, whatever the table has under its number. -/
theorem getElem?_matchTo (hm : s.records[place]? = some m) (target : MatchState)
    (f : Match → Match) :
    (s.matchTo place m target f).records[place]? = some (f { m with state := target }) := by
  change ((s.mem.updateMatchState s.records m.id target).modify place _)[place]? = _
  have hstored : ∃ state, (s.mem.updateMatchState s.records m.id target)[place]? =
      some { m with state } := by
    unfold MemoryStore.updateMatchState
    cases s.mem.matchById.lookup m.id with
    | none => exact ⟨m.state, hm⟩
    | some stored =>
      simp only [List.getElem?_modify, hm, Option.map_eq_map, Option.map_some]
      by_cases hstored : stored = place
      · rw [if_pos hstored]
        by_cases hcan : m.state.canTransitionTo target = true
        · exact ⟨target, by simp [hcan]⟩
        · exact ⟨m.state, by simp [hcan]⟩
      · exact ⟨m.state, by simp [hstored]⟩
  obtain ⟨state, hstored⟩ := hstored
  rw [List.getElem?_modify, hstored]
  simp

theorem matchTo_settlementLoop (s : State) (place : ℕ) (m : Match) (target : MatchState)
    (f : Match → Match) : (s.matchTo place m target f).settlementLoop = s.settlementLoop := rfl

/-- The loop ends with a terminal state at its head. -/
theorem ends_of_terminal (hloop : s.settlementLoop = .driving place)
    (hm : s.records[place]? = some m) (hterminal : m.state.isTerminal = true) :
    ∃ t, Returns S room s t 0 ∧ ∃ m, t.records[place]? = some m ∧ m.state.isTerminal = true := by
  have hdrive : s.drive room place m = { s with settlementLoop := .waiting } := by
    unfold State.drive
    cases hstate : m.state with
    | complete | aborted | rollback | matchPartial => rfl
    | draft | confirmed | roomPrep | retry | notifying =>
      rw [hstate] at hterminal
      cases hterminal
  have hcalls : (if m.state = .roomPrep then 1 else 0) = 0 := by
    refine if_neg fun hstate => ?_
    rw [hstate] at hterminal
    cases hterminal
  have hrest := returns_of_waiting S room (s := { s with settlementLoop := .waiting }) rfl
  rw [← hdrive] at hrest
  have hall := hrest.drive hloop hm
  rw [hcalls] at hall
  exact ⟨_, hall, m, by rw [hdrive]; exact hm, hterminal⟩

/-- The players are told, and the match is complete. -/
theorem ends_of_notifying (hloop : s.settlementLoop = .driving place)
    (hm : s.records[place]? = some m) (hstate : m.state = .notifying) :
    ∃ t, Returns S room s t 0 ∧ ∃ m, t.records[place]? = some m ∧ m.state.isTerminal = true := by
  have hdrive : s.drive room place m =
      { s.matchTo place m .complete id with settlementLoop := State.settle m.allUIDs } := by
    rw [State.drive, hstate]
  have hloop' : (s.drive room place m).settlementLoop = State.settle m.allUIDs := by rw [hdrive]
  obtain ⟨t, ht, hrecords⟩ := returns_of_settle S room hloop'
  have hall := ht.drive hloop hm
  rw [hstate, if_neg (by decide)] at hall
  refine ⟨t, hall, { m with state := .complete }, ?_, rfl⟩
  rw [hrecords, hdrive]
  exact getElem?_matchTo hm .complete id

/-- With no retry left the match is rolled back. -/
theorem ends_of_retry_max (hloop : s.settlementLoop = .driving place)
    (hm : s.records[place]? = some m) (hstate : m.state = .retry)
    (hmax : maxRetries ≤ m.retries) :
    ∃ t, Returns S room s t 0 ∧ ∃ m, t.records[place]? = some m ∧ m.state.isTerminal = true := by
  have hdrive : s.drive room place m =
      { s.matchTo place m .rollback id with settlementLoop := .rollingBack place } := by
    rw [State.drive, hstate]
    exact if_pos hmax
  have hrolled := getElem?_matchTo hm .rollback id
  obtain ⟨t, ht, hrecords⟩ := returns_of_requeue S room
    (s := (s.drive room place m).releaseTickets { m with state := .rollback }) rfl
  have hloop' : (s.drive room place m).settlementLoop = .rollingBack place := by rw [hdrive]
  have hm' : (s.drive room place m).records[place]? = some { m with state := .rollback } := by
    rw [hdrive]
    exact hrolled
  have hnext : nextSettlement S room (s.drive room place m) .releaseTickets =
      some ((s.drive room place m).releaseTickets { m with state := .rollback }) := by
    unfold nextSettlement
    simp only [hloop', hm', Option.map_some]
  have hcalls : (s.drive room place m).roomCalls = 0 := by simp only [State.roomCalls, hloop']
  have hrest := ht.step (by rw [hloop']; rfl) hnext
  rw [hcalls] at hrest
  have hall := hrest.drive hloop hm
  rw [hstate, if_neg (by decide)] at hall
  exact ⟨t, hall, { m with state := .rollback }, by rw [hrecords]; exact hm', rfl⟩

/-- A match that is to get its room gets it, or one retry more. -/
theorem ends_of_roomPrep {n : ℕ} (hloop : s.settlementLoop = .driving place)
    (hm : s.records[place]? = some m) (hstate : m.state = .roomPrep)
    (hretry : ∀ s m', s.settlementLoop = .driving place → s.records[place]? = some m' →
      m'.state = .retry → m'.retries = m.retries + 1 →
      ∃ t calls, Returns S room s t calls ∧
        (∃ m, t.records[place]? = some m ∧ m.state.isTerminal = true) ∧ calls ≤ n) :
    ∃ t calls, Returns S room s t calls ∧
      (∃ m, t.records[place]? = some m ∧ m.state.isTerminal = true) ∧ calls ≤ n + 1 := by
  have hdrive : s.drive room place m = s.roomPrep room place m := by rw [State.drive, hstate]
  cases hroom : room m with
  | some roomId =>
    have hto : s.drive room place m = s.matchTo place m .notifying fun m => { m with roomId } := by
      rw [hdrive, State.roomPrep, hroom]
    have hnotifying := getElem?_matchTo hm .notifying fun m => { m with roomId }
    obtain ⟨t, ht, hend⟩ := ends_of_notifying S room
      ((matchTo_settlementLoop s place m .notifying _).trans hloop) hnotifying rfl
    rw [← hto] at ht
    have hall := ht.drive hloop hm
    rw [hstate, if_pos rfl] at hall
    exact ⟨t, 1, hall, hend, by omega⟩
  | none =>
    have hto : s.drive room place m =
        s.matchTo place m .retry fun m => { m with retries := m.retries + 1 } := by
      rw [hdrive, State.roomPrep, hroom]
    have hagain := getElem?_matchTo hm .retry fun m => { m with retries := m.retries + 1 }
    obtain ⟨t, calls, ht, hend, hle⟩ := hretry _ _
      ((matchTo_settlementLoop s place m .retry _).trans hloop) hagain rfl rfl
    rw [← hto] at ht
    have hall := ht.drive hloop hm
    rw [hstate, if_pos rfl] at hall
    exact ⟨t, calls + 1, hall, hend, by omega⟩

/-- A match that is to be tried again is tried as often as there are retries left. -/
theorem ends_of_retry (n : ℕ) : ∀ {s : State} {m : Match}, s.settlementLoop = .driving place →
    s.records[place]? = some m → m.state = .retry → maxRetries - m.retries ≤ n →
    ∃ t calls, Returns S room s t calls ∧
      (∃ m, t.records[place]? = some m ∧ m.state.isTerminal = true) ∧ calls ≤ n := by
  induction n with
  | zero =>
    intro s m hloop hm hstate hleft
    have hleft' : maxRetries ≤ m.retries := by omega
    obtain ⟨t, ht, hend⟩ := ends_of_retry_max S room hloop hm hstate hleft'
    exact ⟨t, 0, ht, hend, le_rfl⟩
  | succ n ih =>
    intro s m hloop hm hstate hleft
    by_cases hmax : maxRetries ≤ m.retries
    · obtain ⟨t, ht, hend⟩ := ends_of_retry_max S room hloop hm hstate hmax
      exact ⟨t, 0, ht, hend, by omega⟩
    · have hdrive : s.drive room place m = s.matchTo place m .roomPrep id := by
        rw [State.drive, hstate]
        exact if_neg hmax
      obtain ⟨t, calls, ht, hend, hle⟩ := ends_of_roomPrep S room (n := n)
        ((matchTo_settlementLoop s place m .roomPrep id).trans hloop)
        (getElem?_matchTo hm .roomPrep id) rfl
        fun s m' hloop hm' hstate' hretries => by
          refine ih hloop hm' hstate' ?_
          rw [hretries]
          change maxRetries - (m.retries + 1) ≤ n
          push_cast at hleft
          omega
      rw [← hdrive] at ht
      have hall := ht.drive hloop hm
      rw [hstate, if_neg (by decide)] at hall
      exact ⟨t, calls, hall, hend, hle⟩

/-- The states from which rooms are asked for. -/
def MatchState.asksRoom (state : MatchState) : Prop :=
  state = .confirmed ∨ state = .roomPrep ∨ state = .retry

/-- A match with a known state that has not been tried too seldom ends. -/
theorem driveEnds (hloop : s.settlementLoop = .driving place) (hm : s.records[place]? = some m)
    (hstate : m.state ≠ .draft) (hretries : m.state.asksRoom → -1 ≤ m.retries) :
    DriveEnds S room s place := by
  have hmax : maxRetries = 3 := rfl
  have hfour : ∀ s m, s.settlementLoop = .driving place → s.records[place]? = some m →
      m.state = .roomPrep → -1 ≤ m.retries → ∃ t calls, Returns S room s t calls ∧
        (∃ m, t.records[place]? = some m ∧ m.state.isTerminal = true) ∧ calls ≤ 3 + 1 := by
    intro s m hloop hm hstate hretries
    refine ends_of_roomPrep S room hloop hm hstate fun s m' hloop hm' hstate' hretries' => ?_
    exact ends_of_retry S room 3 hloop hm' hstate' (by push_cast; omega)
  cases hs : m.state with
  | draft => exact absurd hs hstate
  | complete | aborted | rollback | matchPartial =>
    obtain ⟨t, ht, hend⟩ := ends_of_terminal S room hloop hm (by rw [hs]; rfl)
    exact ⟨t, 0, ht, hend, by decide⟩
  | notifying =>
    obtain ⟨t, ht, hend⟩ := ends_of_notifying S room hloop hm hs
    exact ⟨t, 0, ht, hend, by decide⟩
  | roomPrep =>
    obtain ⟨t, calls, ht, hend, hle⟩ := hfour s m hloop hm hs (hretries (.inr (.inl hs)))
    exact ⟨t, calls, ht, hend, by omega⟩
  | retry =>
    have hone := hretries (.inr (.inr hs))
    obtain ⟨t, calls, ht, hend, hle⟩ := ends_of_retry S room 4 hloop hm hs (by push_cast; omega)
    exact ⟨t, calls, ht, hend, by omega⟩
  | confirmed =>
    have hdrive : s.drive room place m = s.matchTo place m .roomPrep id := by rw [State.drive, hs]
    obtain ⟨t, calls, ht, hend, hle⟩ := hfour _ _
      ((matchTo_settlementLoop s place m .roomPrep id).trans hloop)
      (getElem?_matchTo hm .roomPrep id) rfl (hretries (.inl hs))
    rw [← hdrive] at ht
    have hall := ht.drive hloop hm
    rw [hs, if_neg (by decide)] at hall
    exact ⟨t, calls, hall, hend, by omega⟩

/-! ## What does not end -/

/-- No round changes a draft. -/
theorem not_returns_of_draft (hloop : s.settlementLoop = .driving place)
    (hm : s.records[place]? = some m) (hstate : m.state = .draft) :
    driveForward S room fuel s = none := by
  induction fuel with
  | zero => rfl
  | succ fuel ih =>
    have hdrive : s.drive room place m = s := by rw [State.drive, hstate]
    rw [driveForward_drive hloop hm, hdrive, ih]
    rfl

/-- Where no room is ever made, it is asked for until the retries are used up. -/
theorem le_calls_of_no_room : ∀ {s : State} {m : Match}, s.settlementLoop = .driving place →
    s.records[place]? = some m → m.state.asksRoom →
    driveForward S (fun _ => none) fuel s = some (t, calls) → maxRetries - m.retries ≤ calls := by
  induction fuel generalizing calls with
  | zero =>
    intro s m _ _ _ h
    cases h
  | succ fuel ih =>
    intro s m hloop hm hasks h
    rw [driveForward_drive hloop hm] at h
    obtain ⟨⟨t', calls'⟩, hrest, heq⟩ := Option.map_eq_some_iff.mp h
    cases heq
    rcases hasks with hstate | hstate | hstate
    · have hdrive : s.drive (fun _ => none) place m = s.matchTo place m .roomPrep id := by
        rw [State.drive, hstate]
      rw [hdrive] at hrest
      have hle := ih ((matchTo_settlementLoop s place m .roomPrep id).trans hloop)
        (getElem?_matchTo hm .roomPrep id) (.inr (.inl rfl)) hrest
      change maxRetries - m.retries ≤ calls' at hle
      push_cast
      omega
    · have hdrive : s.drive (fun _ => none) place m =
          s.matchTo place m .retry fun m => { m with retries := m.retries + 1 } := by
        rw [State.drive, hstate]
        rfl
      rw [hdrive] at hrest
      have hle := ih ((matchTo_settlementLoop s place m .retry _).trans hloop)
        (getElem?_matchTo hm .retry fun m => { m with retries := m.retries + 1 })
        (.inr (.inr rfl)) hrest
      change maxRetries - (m.retries + 1) ≤ calls' at hle
      rw [if_pos hstate]
      push_cast
      omega
    · by_cases hmax : maxRetries ≤ m.retries
      · push_cast
        omega
      · have hdrive : s.drive (fun _ => none) place m = s.matchTo place m .roomPrep id := by
          rw [State.drive, hstate]
          exact if_neg hmax
        rw [hdrive] at hrest
        have hle := ih ((matchTo_settlementLoop s place m .roomPrep id).trans hloop)
          (getElem?_matchTo hm .roomPrep id) (.inr (.inl rfl)) hrest
        change maxRetries - m.retries ≤ calls' at hle
        push_cast
        omega

/-- The hash of a match in a state this service does not know. -/
def foreignRecord : RecordStore :=
  [(activeKey 7, [("state", "matched"), ("created_at", "1700000000")])]

/-- It is recovered as a draft, and the settlement loop never leaves it. -/
theorem foreignRecord_never_ends :
    ∃ service db' s, recover { redis := some {} } foreignRecord 1700000010000
        (foreignRecord.loadActiveMatches [(activeKey 7, true)]) = some (service, db') ∧
      next .insertion createRoom service .receiveMatch = some s ∧
      ¬ DriveEnds .insertion createRoom s 0 := by
  have hrun : ((recover { redis := some {} } foreignRecord 1700000010000
      (foreignRecord.loadActiveMatches [(activeKey 7, true)])).bind fun r =>
        next .insertion createRoom r.1 .receiveMatch).map
          (fun s => (s.settlementLoop, s.records.map Match.state)) =
      some (.driving 0, [.draft]) := by
    decide
  obtain ⟨s, hs, heq⟩ := Option.map_eq_some_iff.mp hrun
  obtain ⟨⟨service, db'⟩, hrec, hnext⟩ := Option.bind_eq_some_iff.mp hs
  refine ⟨service, db', s, hrec, hnext, ?_⟩
  obtain ⟨hloop, hrecords⟩ := Prod.mk.inj heq
  obtain ⟨m, ms, hms, hdraft, -⟩ := List.map_eq_cons_iff.mp hrecords
  rintro ⟨t, calls, ⟨fuel, hfuel⟩, -⟩
  rw [not_returns_of_draft .insertion createRoom hloop (by rw [hms]; rfl) hdraft] at hfuel
  cases hfuel

/-- `driveForward` ends with every pattern of rooms made and not made, in a terminal state and
after four calls at the most, if and only if the match is no draft and, unless its room is made
already, its retries are not below -1. -/
theorem driveEnds_iff (hloop : s.settlementLoop = .driving place)
    (hm : s.records[place]? = some m) :
    (∀ room, DriveEnds S room s place) ↔
      m.state ≠ .draft ∧ (m.state.asksRoom → -1 ≤ m.retries) := by
  have hmax : maxRetries = 3 := rfl
  constructor
  · intro h
    refine ⟨fun hstate => ?_, fun hasks => ?_⟩
    · obtain ⟨t, calls, ⟨fuel, hfuel⟩, -⟩ := h fun _ => none
      rw [not_returns_of_draft S _ hloop hm hstate] at hfuel
      cases hfuel
    · obtain ⟨t, calls, ⟨fuel, hfuel⟩, -, hle⟩ := h fun _ => none
      have hge := le_calls_of_no_room S hloop hm hasks hfuel
      omega
  · rintro ⟨hstate, hretries⟩ room
    exact driveEnds S room hloop hm hstate hretries

/-- The steps of the settlement loop. -/
def Event.ofSettlement : Event → Bool
  | .receiveMatch | .drive | .settleTicket | .releaseTickets | .rollbackGet | .rollbackEnqueue => true
  | _ => false

/-- Nothing else in the service touches the settlement loop, or a match that is there. -/
theorem settlement_of_step {e : Event} (hstep : Step S room s e s') (he : e.ofSettlement = false) :
    s'.settlementLoop = s.settlementLoop ∧
      ∀ (i : ℕ) (mt : Match), s.records[i]? = some mt → s'.records[i]? = some mt := by
  cases hstep with
  | receiveMatch | drive | settleTicket | releaseTickets | rollbackGet | rollbackEnqueue => cases he
  | putMatch =>
    refine ⟨rfl, fun i mt hm => ?_⟩
    change (s.records ++ [_])[i]? = some mt
    rw [List.getElem?_append_left (List.getElem?_eq_some_iff.mp hm).1, hm]
  | countQueuing | checkTicket =>
    first | unfold State.countQueuing | unfold State.checkTicket
    split_ifs
    · exact ⟨rfl, fun _ _ hm => hm⟩
    · exact ⟨rfl, fun _ _ hm => hm⟩
  | setIdle | poolDequeue | removeFromPool =>
    first | unfold State.setIdle | unfold State.poolDequeue | unfold State.removeFromPool
    split
    · exact ⟨rfl, fun _ _ hm => hm⟩
    · exact ⟨rfl, fun _ _ hm => hm⟩
  | getTicket =>
    unfold State.getTicket
    split
    · exact ⟨rfl, fun _ _ hm => hm⟩
    · split_ifs
      · exact ⟨rfl, fun _ _ hm => hm⟩
      · exact ⟨rfl, fun _ _ hm => hm⟩
  | nextMatchID =>
    unfold State.nextMatchID
    split
    · exact ⟨rfl, fun _ _ hm => hm⟩
    · split
      · exact ⟨rfl, fun _ _ hm => hm⟩
      · exact ⟨rfl, fun _ _ hm => hm⟩
  | _ => exact ⟨rfl, fun _ _ hm => hm⟩

/-- A match as the tick loop hands it over, and no room is ever made. -/
theorem driveEnds_iff_confirmed :
    DriveEnds .insertion (fun _ => none)
      { records := [duelMatch 7 1 2], settlementLoop := .driving 0 } 0 :=
  (driveEnds_iff .insertion (s := { records := [duelMatch 7 1 2], settlementLoop := .driving 0 })
    rfl rfl).mpr ⟨by decide, fun _ => by decide⟩ _

end DriveForward

end Gmaker.Matching
