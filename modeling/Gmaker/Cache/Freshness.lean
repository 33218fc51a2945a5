import Mathlib
import Gmaker.Lib.Machine
import Gmaker.Lib.Threads

/-!
# Gmaker.Cache.Freshness — how old a value from the cache can be

The life of one key: calls of `Get`, `Refresh` and `Delete` and updates of the row, in any order
and with their steps interleaved. Loads are shared: who misses the cache joins the load that is
under way, and a load writes to the cache what it has read a while ago. So a `Delete` or a
`Refresh` clears the cache for good only if no load is under way that is too old for it
(`FreshStep`); in runs where this never happens nobody gets a value that he should not
(`values_fresh`).

The row is its version, the number of updates so far: a row that has been deleted or is not there
yet is a version as well, which loads answer with `ErrNotFound` and the cache keeps as the
placeholder. A clock counts the steps; what was loaded remembers when the loader was called.
-/

namespace Gmaker.Cache

open Gmaker.Lib

/-! ## The key and its callers -/

/-- What a call of the loader has brought: the version it read, and when it was called. -/
structure Loaded where
  version : ℕ
  started : ℕ
deriving DecidableEq

/-- The load that is under way: the function that `singleflight` runs once for all. -/
inductive Flight where
  /-- Before the breaker. -/
  | begun
  /-- The loader has been called. -/
  | loading (started : ℕ)
  /-- It has read the row; nothing has been written to the cache yet. -/
  | loaded (row : Loaded)
  /-- The function has returned; its callers have not been told yet. -/
  | finished (row : Option Loaded)
deriving DecidableEq

/-- What the load has in hand. -/
def Flight.row : Flight → Option Loaded
  | loaded row => some row
  | finished row => row
  | _ => none

/-- When the load called the loader. -/
def Flight.started : Flight → Option ℕ
  | begun => none
  | loading started => some started
  | loaded row => some row.started
  | finished row => row.map Loaded.started

/-- Where a `Get` or a `Refresh` stands. -/
inductive ReaderPc where
  /-- A `Refresh`, before `store.Del`. -/
  | clearing
  /-- Before `store.Get`. -/
  | looking
  /-- It missed; before `sf.Do`. -/
  | joining
  | waiting
  /-- It has returned; `none` is an error other than `ErrNotFound`. -/
  | returned (row : Option Loaded)
deriving DecidableEq

/-- A reader that may still be given what is around. -/
def ReaderPc.Open : ReaderPc → Prop
  | .looking | .joining | .waiting => True
  | _ => False

/-- A `Get` or a `Refresh`: when it was called, and the version that the updates and deletes
before it entitle it to. -/
structure Reader where
  refresh : Bool
  called : ℕ
  due : ℕ
  pc : ReaderPc
deriving DecidableEq

/-- Where a `Delete` stands. -/
inductive DeleterPc where
  | deleting
  /-- The store has deleted the key. -/
  | deleted
  | returned (ok : Bool)
deriving DecidableEq

/-- A `Delete`, and the version of the row when it was called. -/
structure Deleter where
  issued : ℕ
  pc : DeleterPc
deriving DecidableEq

/-- One key: the row, the cache, the load under way, and everybody who is concerned with it.
`due` is the version that a `Get` from now on may expect: the last one that a `Delete` which has
returned came after. -/
structure KeyLife where
  version : ℕ
  cache : Option Loaded
  flight : Option Flight
  readers : List Reader
  deleters : List Deleter
  due : ℕ
  clock : ℕ
deriving DecidableEq

/-- What happens next. -/
inductive KeyEvent where
  /-- An update of the row completes. -/
  | update
  | get
  | refresh
  | delete
  /-- `store.Del` of a `Refresh`; it does not look at the error. -/
  | clear (i : ℕ) (ok : Bool)
  /-- `store.Get` and the decoding; the store may fail. -/
  | look (i : ℕ) (ok : Bool)
  /-- `sf.Do`. -/
  | join (i : ℕ)
  /-- `store.Del` of a `Delete`. -/
  | del (i : ℕ) (ok : Bool)
  /-- A `Delete` returns. -/
  | deleted (i : ℕ)
  /-- The breaker lets the load through, and the loader is called, or it does not. -/
  | admitted (ok : Bool)
  /-- The loader reads the row, or it fails. -/
  | read (ok : Bool)
  /-- The load writes the text or the placeholder to the cache, or nothing: the row does not
  encode, the store fails, or placeholders are off. -/
  | write (ok : Bool)
  /-- The callers of the load are told. -/
  | finish
  /-- The entry of the cache expires. -/
  | expire
deriving DecidableEq

namespace KeyLife

/-- The row at its first version, with nothing in the cache. -/
def new : KeyLife where
  version := 0
  cache := none
  flight := none
  readers := []
  deleters := []
  due := 0
  clock := 0

/-- A reader goes on. -/
def setReader (s : KeyLife) (i : ℕ) (r : Reader) (pc : ReaderPc) : KeyLife :=
  { s with readers := s.readers.set i { r with pc := pc } }

/-- A deleter goes on. -/
def setDeleter (s : KeyLife) (i : ℕ) (d : Deleter) (pc : DeleterPc) : KeyLife :=
  { s with deleters := s.deleters.set i { d with pc := pc } }

/-- `store.Get` of a reader: what is in the cache is returned. -/
def look (s : KeyLife) (i : ℕ) (r : Reader) (ok : Bool) : KeyLife :=
  match ok, s.cache with
  | true, some row => s.setReader i r (.returned (some row))
  | _, _ => s.setReader i r .joining

/-- `sf.Do`: the reader waits for the load under way, and begins one if there is none. -/
def join (s : KeyLife) (i : ℕ) (r : Reader) : KeyLife :=
  { s.setReader i r .waiting with flight := some (s.flight.getD .begun) }

/-- A reader is told what the load has brought. -/
def tell (row : Option Loaded) (r : Reader) : Reader :=
  if r.pc = .waiting then { r with pc := .returned row } else r

/-- One event, without the clock. -/
def step (s : KeyLife) : KeyEvent → Option KeyLife
  | .update => some { s with version := s.version + 1 }
  | .get => some { s with readers := s.readers ++ [⟨false, s.clock, s.due, .looking⟩] }
  | .refresh => some { s with readers := s.readers ++ [⟨true, s.clock, s.due, .clearing⟩] }
  | .delete => some { s with deleters := s.deleters ++ [⟨s.version, .deleting⟩] }
  | .clear i ok => (s.readers[i]?).bind fun r =>
    if r.pc = .clearing then
      some ({ s with cache := if ok then none else s.cache }.setReader i r .looking)
    else none
  | .look i ok => (s.readers[i]?).bind fun r =>
    if r.pc = .looking then some (s.look i r ok) else none
  | .join i => (s.readers[i]?).bind fun r =>
    if r.pc = .joining then some (s.join i r) else none
  | .del i ok => (s.deleters[i]?).bind fun d =>
    if d.pc = .deleting then
      some (if ok then { s with cache := none }.setDeleter i d .deleted
        else s.setDeleter i d (.returned false))
    else none
  | .deleted i => (s.deleters[i]?).bind fun d =>
    if d.pc = .deleted then
      some ({ s with due := max s.due d.issued }.setDeleter i d (.returned true))
    else none
  | .admitted ok =>
    if s.flight = some .begun then
      some { s with flight := some (if ok then .loading s.clock else .finished none) }
    else none
  | .read ok =>
    match s.flight with
    | some (.loading started) =>
      some { s with flight := some (if ok then .loaded ⟨s.version, started⟩ else .finished none) }
    | _ => none
  | .write ok =>
    match s.flight with
    | some (.loaded row) =>
      some { s with
        cache := if ok then some row else s.cache
        flight := some (.finished (some row)) }
    | _ => none
  | .finish =>
    match s.flight with
    | some (.finished row) =>
      some { s with flight := none, readers := s.readers.map (tell row) }
    | _ => none
  | .expire => some { s with cache := none }

/-- One event. -/
def next (s : KeyLife) (e : KeyEvent) : Option KeyLife :=
  (s.step e).map fun t => { t with clock := t.clock + 1 }

/-- What has been returned is as fresh as it should be: a `Get` or `Refresh` has no version from
before an update that was completed when a `Delete` was issued that had returned when it was
called, and what a `Refresh` has was loaded after it was called. -/
def Fresh (s : KeyLife) : Prop :=
  ∀ r ∈ s.readers, ∀ row, r.pc = .returned (some row) →
    r.due ≤ row.version ∧ (r.refresh = true → r.called < row.started)

/-- The condition on a step: when a `Delete` deletes the key, the load under way has not read a
version that was already replaced when the `Delete` was called; when a `Refresh` does, the store
deletes it, and the load under way has not called the loader before the `Refresh` was called. -/
def FreshStep (s : KeyLife) : KeyEvent → Prop
  | .del i true => ∀ d ∈ s.deleters[i]?, ∀ f ∈ s.flight, ∀ row ∈ f.row, d.issued ≤ row.version
  | .clear i ok => ∀ r ∈ s.readers[i]?, ok = true ∧
    ∀ f ∈ s.flight, ∀ started ∈ f.started, r.called < started
  | _ => True

instance (s : KeyLife) (e : KeyEvent) : Decidable (s.FreshStep e) := by
  cases e with
  | del i ok => cases ok <;> (unfold FreshStep; infer_instance)
  | _ => unfold FreshStep; infer_instance

/-! ## What is around -/

variable {s t : KeyLife}

/-- A loaded row that may still be handed out: it is in the cache, or the load has it. -/
def Around (s : KeyLife) (row : Loaded) : Prop :=
  s.cache = some row ∨ ∃ f ∈ s.flight, row ∈ f.row

/-- A call of the loader whose row may still be handed out. -/
def StartedAt (s : KeyLife) (time : ℕ) : Prop :=
  (∃ row ∈ s.cache, row.started = time) ∨ ∃ f ∈ s.flight, time ∈ f.started

theorem Around.startedAt {row : Loaded} (h : Around s row) : StartedAt s row.started := by
  rcases h with hcache | ⟨f, hf, hrow⟩
  · exact .inl ⟨row, hcache, rfl⟩
  · refine .inr ⟨f, hf, ?_⟩
    cases f with
    | begun => cases hrow
    | loading started => cases hrow
    | loaded row' =>
      cases hrow
      rfl
    | finished row' =>
      cases hrow
      rfl

/-! ## The invariant -/

/-- What holds of a reader. -/
structure ReaderOk (s : KeyLife) (r : Reader) : Prop where
  due : r.due ≤ s.due
  called : r.called < s.clock
  /-- Whatever a `Refresh` can be given now was loaded after it was called. -/
  started : r.refresh = true → r.pc.Open → ∀ time, StartedAt s time → r.called < time
  fresh : ∀ row, r.pc = .returned (some row) →
    r.due ≤ row.version ∧ (r.refresh = true → r.called < row.started)

/-- What is around is not older than what anybody may expect. -/
structure Inv (s : KeyLife) : Prop where
  due_le : s.due ≤ s.version
  issued_le : ∀ d ∈ s.deleters, d.issued ≤ s.version
  around : ∀ row, Around s row → s.due ≤ row.version
  deleted : ∀ d ∈ s.deleters, d.pc = .deleted → ∀ row, Around s row → d.issued ≤ row.version
  readers : ∀ r ∈ s.readers, ReaderOk s r

theorem inv_new : Inv new where
  due_le := le_rfl
  issued_le := nofun
  around := by
    rintro row (hcache | ⟨f, hf, -⟩)
    · cases hcache
    · cases hf
  deleted := nofun
  readers := nofun

theorem Inv.fresh (h : Inv s) : Fresh s := fun r hr row hpc => (h.readers r hr).fresh row hpc

/-- A reader is not concerned by a step that lets no older load come up. -/
theorem ReaderOk.mono {r : Reader} (h : ReaderOk s r) (hdue : s.due ≤ t.due)
    (hclock : s.clock ≤ t.clock)
    (hstarted : ∀ time, StartedAt t time → StartedAt s time ∨ s.clock ≤ time) : ReaderOk t r where
  due := h.due.trans hdue
  called := h.called.trans_le hclock
  started := by
    intro hrefresh hopen time htime
    rcases hstarted time htime with hbefore | hlater
    · exact h.started hrefresh hopen time hbefore
    · exact h.called.trans_le hlater
  fresh := h.fresh

/-- A reader that goes on, and is given nothing. -/
theorem ReaderOk.goes {r : Reader} (h : ReaderOk s r) {pc : ReaderPc} (hopen : r.pc.Open)
    (hpc : ∀ row, pc ≠ .returned (some row)) : ReaderOk s { r with pc := pc } where
  due := h.due
  called := h.called
  started := fun hrefresh _ => h.started hrefresh hopen
  fresh := fun row hrow => absurd hrow (hpc row)

/-- A reader that is given what is around. -/
theorem ReaderOk.returns {r : Reader} (h : ReaderOk s r) (hinv : Inv s) (hopen : r.pc.Open)
    {row : Loaded} (hrow : Around s row) : ReaderOk s { r with pc := .returned (some row) } where
  due := h.due
  called := h.called
  started := fun _ hpc => hpc.elim
  fresh := by
    rintro row' heq
    cases heq
    exact ⟨h.due.trans (hinv.around row hrow), fun hrefresh =>
      h.started hrefresh hopen row.started hrow.startedAt⟩

/-! ## The steps -/

/-- A step of the load, of the row or of the cache alone: what comes up is the present version,
and was asked for now or before. -/
theorem Inv.sources (h : Inv s) (hversion : s.version ≤ t.version) (hdue : t.due = s.due)
    (hdeleters : t.deleters = s.deleters) (hreaders : t.readers = s.readers)
    (hclock : s.clock ≤ t.clock)
    (haround : ∀ row, Around t row → Around s row ∨ row.version = s.version)
    (hstarted : ∀ time, StartedAt t time → StartedAt s time ∨ s.clock ≤ time) : Inv t where
  due_le := hdue ▸ h.due_le.trans hversion
  issued_le := fun d hd => (h.issued_le d (hdeleters ▸ hd)).trans hversion
  around := by
    intro row hrow
    rw [hdue]
    rcases haround row hrow with hbefore | hnow
    · exact h.around row hbefore
    · exact hnow ▸ h.due_le
  deleted := by
    intro d hd hpc row hrow
    rw [hdeleters] at hd
    rcases haround row hrow with hbefore | hnow
    · exact h.deleted d hd hpc row hbefore
    · exact hnow ▸ h.issued_le d hd
  readers := fun r hr => (h.readers r (hreaders ▸ hr)).mono hdue.ge hclock hstarted

theorem Inv.tick (h : Inv s) : Inv { s with clock := s.clock + 1 } :=
  h.sources le_rfl rfl rfl rfl (Nat.le_succ _) (fun _ hrow => .inl hrow) fun _ htime => .inl htime

/-- A step of a reader alone. -/
theorem Inv.setReader (h : Inv s) (i : ℕ) {r : Reader} {pc : ReaderPc}
    (hr : ReaderOk s { r with pc := pc }) : Inv (s.setReader i r pc) where
  due_le := h.due_le
  issued_le := h.issued_le
  around := h.around
  deleted := h.deleted
  readers := by
    intro r' hr'
    rcases List.mem_or_eq_of_mem_set hr' with hr' | rfl
    · exact ⟨(h.readers r' hr').due, (h.readers r' hr').called, (h.readers r' hr').started,
        (h.readers r' hr').fresh⟩
    · exact ⟨hr.due, hr.called, hr.started, hr.fresh⟩

/-- A step of a deleter alone. -/
theorem Inv.setDeleter (h : Inv s) (i : ℕ) {d : Deleter} {pc : DeleterPc}
    (hd : d ∈ s.deleters)
    (hpc : pc = .deleted → ∀ row, Around s row → d.issued ≤ row.version) :
    Inv (s.setDeleter i d pc) where
  due_le := h.due_le
  issued_le := by
    intro d' hd'
    rcases List.mem_or_eq_of_mem_set hd' with hd' | rfl
    · exact h.issued_le d' hd'
    · exact h.issued_le d hd
  around := h.around
  deleted := by
    intro d' hd' hpc'
    rcases List.mem_or_eq_of_mem_set hd' with hd' | rfl
    · exact h.deleted d' hd' hpc'
    · exact hpc hpc'
  readers := fun r hr =>
    ⟨(h.readers r hr).due, (h.readers r hr).called, (h.readers r hr).started, (h.readers r hr).fresh⟩

/-- Without the cache only the load has something. -/
theorem Inv.cleared (h : Inv s) : Inv { s with cache := none } := by
  refine h.sources le_rfl rfl rfl rfl le_rfl (fun row hrow => .inl ?_) fun time htime => .inl ?_
  · rcases hrow with hcache | hflight
    · cases hcache
    · exact .inr hflight
  · rcases htime with ⟨row, hcache, -⟩ | hflight
    · cases hcache
    · exact .inr hflight

theorem Inv.look (h : Inv s) {i : ℕ} {r : Reader} (hr : r ∈ s.readers) (hpc : r.pc = .looking)
    (ok : Bool) : Inv (s.look i r ok) := by
  have hopen : r.pc.Open := hpc ▸ trivial
  have hjoins : Inv (s.setReader i r .joining) := h.setReader i ((h.readers r hr).goes hopen nofun)
  unfold KeyLife.look
  cases ok with
  | false => exact hjoins
  | true =>
    cases hcache : s.cache with
    | none => exact hjoins
    | some row => exact h.setReader i ((h.readers r hr).returns h hopen (.inl hcache))

theorem Inv.join (h : Inv s) {i : ℕ} {r : Reader} (hr : r ∈ s.readers) (hpc : r.pc = .joining) :
    Inv (s.join i r) := by
  have hopen : r.pc.Open := hpc ▸ trivial
  have hwaits : Inv (s.setReader i r .waiting) := h.setReader i ((h.readers r hr).goes hopen nofun)
  refine hwaits.sources le_rfl rfl rfl rfl le_rfl (fun row hrow => .inl ?_) fun time htime => .inl ?_
  · rcases hrow with hcache | ⟨f, hf, hrow⟩
    · exact .inl hcache
    · cases hflight : s.flight with
      | none =>
        unfold KeyLife.join at hf
        rw [hflight] at hf
        cases hf
        cases hrow
      | some f' =>
        unfold KeyLife.join at hf
        rw [hflight] at hf
        cases hf
        exact .inr ⟨f', hflight, hrow⟩
  · rcases htime with hcache | ⟨f, hf, htime⟩
    · exact .inl hcache
    · cases hflight : s.flight with
      | none =>
        unfold KeyLife.join at hf
        rw [hflight] at hf
        cases hf
        cases htime
      | some f' =>
        unfold KeyLife.join at hf
        rw [hflight] at hf
        cases hf
        exact .inr ⟨f', hflight, htime⟩

/-- The load goes on: it has what it had, or the present version. -/
theorem Inv.setFlight (h : Inv s) (f : Option Flight) (cache : Option Loaded)
    (hrow : ∀ row, (cache = some row ∨ ∃ g ∈ f, row ∈ g.row) →
      Around s row ∨ row.version = s.version)
    (htime : ∀ time, ((∃ row ∈ cache, row.started = time) ∨ ∃ g ∈ f, time ∈ g.started) →
      StartedAt s time ∨ s.clock ≤ time) :
    Inv { s with flight := f, cache := cache } :=
  h.sources le_rfl rfl rfl rfl le_rfl hrow htime

/-- The callers of a load are told. -/
theorem Inv.finish (h : Inv s) {row : Option Loaded} (hflight : s.flight = some (.finished row)) :
    Inv { s with flight := none, readers := s.readers.map (tell row) } := by
  have hdone : Inv { s with flight := none } := by
    refine h.sources le_rfl rfl rfl rfl le_rfl (fun r hr => .inl ?_) fun time htime => .inl ?_
    · rcases hr with hcache | ⟨f, hf, -⟩
      · exact .inl hcache
      · cases hf
    · rcases htime with hcache | ⟨f, hf, -⟩
      · exact .inl hcache
      · cases hf
  have htold : ∀ r ∈ s.readers, ReaderOk s (tell row r) := by
    intro r hr
    unfold tell
    split_ifs with hpc
    · have hopen : r.pc.Open := hpc ▸ trivial
      cases row with
      | none => exact (h.readers r hr).goes hopen nofun
      | some row => exact (h.readers r hr).returns h hopen (.inr ⟨_, hflight, rfl⟩)
    · exact h.readers r hr
  refine ⟨hdone.due_le, hdone.issued_le, hdone.around, hdone.deleted, fun r hr => ?_⟩
  obtain ⟨r₀, hr₀, rfl⟩ := List.mem_map.mp hr
  refine (htold r₀ hr₀).mono le_rfl le_rfl fun time htime => .inl ?_
  rcases htime with hcache | ⟨f, hf, -⟩
  · exact .inl hcache
  · cases hf

/-- Whoever is called is owed what has been promised so far. -/
theorem Inv.call (h : Inv s) {r : Reader} (hdue : r.due = s.due) (hcalled : r.called = s.clock)
    (hpc : r.refresh = true → ¬ r.pc.Open) (hreturned : ∀ row, r.pc ≠ .returned (some row)) :
    Inv { s with readers := s.readers ++ [r], clock := s.clock + 1 } := by
  refine ⟨h.due_le, h.issued_le, h.around, h.deleted, fun r' hr' => ?_⟩
  rcases List.mem_append.mp hr' with hr' | hr'
  · exact (h.readers r' hr').mono le_rfl (Nat.le_succ _) fun _ htime => .inl htime
  · cases List.mem_singleton.mp hr'
    exact ⟨hdue.le, hcalled.le.trans_lt (Nat.lt_succ_self _),
      fun hrefresh hopen => absurd hopen (hpc hrefresh), fun row hrow => absurd hrow (hreturned row)⟩

/-- Every step keeps the invariant that does not clear the cache under an older load. -/
theorem Inv.next (h : Inv s) {e : KeyEvent} (hfresh : s.FreshStep e) (hnext : s.next e = some t) :
    Inv t := by
  obtain ⟨u, hstep, rfl⟩ := Option.map_eq_some_iff.mp hnext
  cases e with
  | update =>
    cases hstep
    have hnew : Inv { s with version := s.version + 1 } :=
      h.sources (Nat.le_succ _) rfl rfl rfl le_rfl (fun _ hrow => .inl hrow)
        fun _ htime => .inl htime
    exact hnew.tick
  | get =>
    cases hstep
    exact h.call rfl rfl nofun nofun
  | refresh =>
    cases hstep
    exact h.call rfl rfl (fun _ => id) nofun
  | delete =>
    cases hstep
    refine Inv.tick ⟨h.due_le, fun d hd => ?_, h.around, fun d hd hpc => ?_, fun r hr =>
      ⟨(h.readers r hr).due, (h.readers r hr).called, (h.readers r hr).started,
        (h.readers r hr).fresh⟩⟩
    · rcases List.mem_append.mp hd with hd | hd
      · exact h.issued_le d hd
      · cases List.mem_singleton.mp hd
        exact le_rfl
    · rcases List.mem_append.mp hd with hd | hd
      · exact h.deleted d hd hpc
      · cases List.mem_singleton.mp hd
        cases hpc
  | clear i ok =>
    obtain ⟨r, hr, hif⟩ := Option.bind_eq_some_iff.mp hstep
    obtain ⟨rfl, hflight⟩ := hfresh r hr
    simp only [if_true] at hif
    split_ifs at hif with hpc
    cases hif
    have hcleared := h.cleared
    have hold := hcleared.readers r (List.mem_of_getElem? hr)
    have hlooks : ReaderOk { s with cache := none } { r with pc := .looking } := by
      refine ⟨hold.due, hold.called, fun _ _ time htime => ?_, fun _ hrow => by cases hrow⟩
      rcases htime with ⟨row, hcache, -⟩ | ⟨f, hf, htime⟩
      · cases hcache
      · exact hflight f hf time htime
    exact (hcleared.setReader i hlooks).tick
  | look i ok =>
    obtain ⟨r, hr, hif⟩ := Option.bind_eq_some_iff.mp hstep
    split_ifs at hif with hpc
    cases hif
    exact (h.look (List.mem_of_getElem? hr) hpc ok).tick
  | join i =>
    obtain ⟨r, hr, hif⟩ := Option.bind_eq_some_iff.mp hstep
    split_ifs at hif with hpc
    cases hif
    exact (h.join (List.mem_of_getElem? hr) hpc).tick
  | del i ok =>
    obtain ⟨d, hd, hif⟩ := Option.bind_eq_some_iff.mp hstep
    have hmem := List.mem_of_getElem? hd
    by_cases hpc : d.pc = .deleting
    swap
    · rw [if_neg hpc] at hif
      cases hif
    rw [if_pos hpc] at hif
    cases ok with
    | false =>
      cases hif
      have hfails : Inv (s.setDeleter i d (.returned false)) :=
        h.setDeleter i hmem fun hpc => by cases hpc
      exact hfails.tick
    | true =>
      cases hif
      refine (h.cleared.setDeleter i hmem fun _ row hrow => ?_).tick
      rcases hrow with hcache | ⟨f, hf, hrow⟩
      · cases hcache
      · exact hfresh d hd f hf row hrow
  | deleted i =>
    obtain ⟨d, hd, hif⟩ := Option.bind_eq_some_iff.mp hstep
    split_ifs at hif with hpc
    cases hif
    have hmem := List.mem_of_getElem? hd
    -- from now on everybody is owed what the delete came after
    have hdue : Inv { s with due := max s.due d.issued } := by
      refine ⟨max_le h.due_le (h.issued_le d hmem), h.issued_le, fun row hrow => ?_, h.deleted,
        fun r hr => (h.readers r hr).mono (le_max_left _ _) le_rfl fun _ htime => .inl htime⟩
      exact max_le (h.around row hrow) (h.deleted d hmem hpc row hrow)
    have hreturns : Inv ({ s with due := max s.due d.issued }.setDeleter i d (.returned true)) :=
      hdue.setDeleter i hmem fun hpc => by cases hpc
    exact hreturns.tick
  | admitted ok =>
    unfold step at hstep
    by_cases hflight : s.flight = some .begun
    swap
    · simp only [hflight, if_false] at hstep
      cases hstep
    simp only [hflight, if_true] at hstep
    cases hstep
    refine (h.setFlight _ s.cache (fun row hrow => ?_) fun time htime => ?_).tick
    · rcases hrow with hcache | ⟨f, hf, hrow⟩
      · exact .inl (.inl hcache)
      · cases ok <;> cases hf <;> cases hrow
    · rcases htime with hcache | ⟨f, hf, htime⟩
      · exact .inl (.inl hcache)
      · cases ok <;> cases hf <;> cases htime
        exact .inr le_rfl
  | read ok =>
    unfold step at hstep
    simp only at hstep
    split at hstep
    · rename_i started hflight
      cases hstep
      refine (h.setFlight _ s.cache (fun row hrow => ?_) fun time htime => ?_).tick
      · rcases hrow with hcache | ⟨f, hf, hrow⟩
        · exact .inl (.inl hcache)
        · cases ok <;> cases hf <;> cases hrow
          exact .inr rfl
      · rcases htime with hcache | ⟨f, hf, htime⟩
        · exact .inl (.inl hcache)
        · cases ok <;> cases hf <;> cases htime
          exact .inl (.inr ⟨_, hflight, rfl⟩)
    · cases hstep
  | write ok =>
    unfold step at hstep
    simp only at hstep
    split at hstep
    · rename_i row₀ hflight
      cases hstep
      have hhas : Around s row₀ := .inr ⟨_, hflight, rfl⟩
      have hcache : ∀ row, (if ok = true then some row₀ else s.cache) = some row → Around s row := by
        intro row hrow
        split_ifs at hrow
        · cases hrow
          exact hhas
        · exact .inl hrow
      refine (h.setFlight _ _ (fun row hrow => .inl ?_) fun time htime => .inl ?_).tick
      · rcases hrow with hrow | ⟨f, hf, hrow⟩
        · exact hcache row hrow
        · cases hf
          cases hrow
          exact hhas
      · rcases htime with ⟨row, hrow, rfl⟩ | ⟨f, hf, htime⟩
        · exact (hcache row hrow).startedAt
        · cases hf
          cases htime
          exact hhas.startedAt
    · cases hstep
  | finish =>
    unfold step at hstep
    simp only at hstep
    split at hstep
    · rename_i row hflight
      cases hstep
      exact (h.finish hflight).tick
    · cases hstep
  | expire =>
    cases hstep
    exact h.cleared.tick

/-- In every run in which the cache is never cleared under a load that is too old, nobody is
ever given a value that is. -/
theorem values_fresh (es : List KeyEvent) (s : KeyLife) (hrun : run next new es = some s)
    (hfresh : RunOk next FreshStep new es) : s.Fresh :=
  (run_invariant (fun _ _ _ hok h hnext => Inv.next h hok hnext) inv_new hfresh hrun).fresh

/-- A `Get` reads the row, the row is updated and the key deleted, and then the `Get` writes
what it has read. -/
def lateWrite : List KeyEvent :=
  [.get, .look 0 true, .join 0, .admitted true, .read true, .update, .delete, .del 0 true, .deleted 0,
   .write true, .finish, .get, .look 1 true]

/-- The same with the delete after the load. -/
def deleteAfter : List KeyEvent :=
  [.get, .look 0 true, .join 0, .admitted true, .read true, .update, .write true, .finish,
   .delete, .del 0 true, .deleted 0, .refresh, .clear 1 true, .look 1 true, .join 1, .admitted true,
   .read true, .write true, .finish, .get, .look 2 true]

theorem values_fresh_deleteAfter : ∃ s, run next new deleteAfter = some s ∧ s.Fresh := by
  have hrun : (run next new deleteAfter).isSome = true := by decide
  obtain ⟨s, hs⟩ := Option.isSome_iff_exists.mp hrun
  exact ⟨s, hs, values_fresh deleteAfter s hs (by decide)⟩

theorem lateWrite_stale : ¬ ∀ (es : List KeyEvent) (s : KeyLife),
    run next new es = some s → s.Fresh := by
  intro h
  have hrun : (run next new lateWrite).map KeyLife.readers =
      some [⟨false, 0, 0, .returned (some ⟨0, 3⟩)⟩, ⟨false, 11, 1, .returned (some ⟨0, 3⟩)⟩] := by
    decide
  obtain ⟨s, hs, hreaders⟩ := Option.map_eq_some_iff.mp hrun
  have hlast := (h lateWrite s hs ⟨false, 11, 1, .returned (some ⟨0, 3⟩)⟩
    (by rw [hreaders]; exact List.mem_cons_of_mem _ List.mem_cons_self) ⟨0, 3⟩ rfl).1
  exact absurd hlast (by decide)

end KeyLife

end Gmaker.Cache
