import Gmaker.Registry.ClientPool

/-!
# Gmaker.Registry.ClientPoolInv — the invariant of the pool's goroutines

`Good`: who holds the lock excludes the others, nobody asks for it twice, and no goroutine
that is waited for under it is at an operation. A step of one goroutine replaces its entry,
may start others and moves what is shared in one direction; `Good.update` says once what
such a step must be like, and every step is an instance of it (`Good.next`).
-/

namespace Gmaker.Registry.ClientPool

open Gmaker.Lib

/-! ## The invariant -/

/-- Places of operations that close connections. -/
def Pc.stops : Pc → Bool
  | .closing .. => true
  | .stopWaiting => true
  | .stopLocking => true
  | _ => false

/-- Places at the end of a loop. -/
def Pc.ends : Pc → Bool
  | .exiting _ => true
  | .ended => true
  | _ => false

/-- What a goroutine may do, by what it is. -/
structure RoleOk (th : Thread) : Prop where
  exits : ∀ stage, th.pc = .exiting stage → th.conn.isSome = true
  ends : th.pc.ends = true → th.calls = []
  reconnect : th.role = .reconnect → th.calls = [] ∧ th.pc.stops = false
  reader : ∀ c : ℕ, th.role = .reader c →
    (∀ call ∈ th.calls, call.closes = false) ∧ th.pc.stops = false
  writer : ∀ c : ℕ, th.role = .writer c → th.busy = false

/-- What holds of a goroutine and what is shared. -/
structure ThreadOk (sh : Shared) (th : Thread) : Prop where
  relock : th.pc ≠ .relock
  role : RoleOk th
  inside : ∀ (c : ℕ) (stage : Stage), th.shutting = some (c, stage) →
    stage = .onClose ∨ stage = .leave → (sh.conns c).closed = true
  waits : ∀ c : ℕ, th.shutting = some (c, .wait) → (sh.conns c).onceDone = true
  conn : ∀ c : ℕ, th.conn = some c → c < sh.nextConn
  todo : ∀ todo stage remove, th.pc = .closing todo stage remove → ∀ c ∈ todo, c < sh.nextConn
  stopped : th.pc = .stopWaiting → sh.stopped = true

/-- What holds of what is shared. -/
structure SharedOk (sh : Shared) : Prop where
  once : ∀ c : ℕ, (sh.conns c).onceDone = true → (sh.conns c).closed = true
  clients : ∀ n c : ℕ, (sh.heap n).client = some c → c < sh.nextConn
  fresh : ∀ c : ℕ, sh.nextConn ≤ c → (sh.conns c).closed = false

structure Good (s : State) : Prop where
  excl : ∀ (t u : ℕ) (th uh : Thread), s.threads[t]? = some th → s.threads[u]? = some uh → t ≠ u →
    th.pc.holdsWrite = true → uh.pc.holds = false
  threads : ∀ th ∈ s.threads, ThreadOk s.sh th
  shared : SharedOk s.sh
  quiet : ∀ th ∈ s.threads, ∀ c, Closing s.sh th c → Quiet s c

/-- What is shared only goes one way. -/
structure Shared.Le (sh sh' : Shared) : Prop where
  closed : ∀ c : ℕ, (sh.conns c).closed = true → (sh'.conns c).closed = true
  onceDone : ∀ c : ℕ, (sh.conns c).onceDone = true → (sh'.conns c).onceDone = true
  current : ∀ c : ℕ, c < sh.nextConn → (sh'.conns c).current = true → (sh.conns c).current = true
  nextConn : sh.nextConn ≤ sh'.nextConn
  stopped : sh.stopped = true → sh'.stopped = true

namespace Shared

theorem Le.refl (sh : Shared) : Le sh sh := ⟨fun _ => id, fun _ => id, fun _ _ => id, le_rfl, id⟩

/-- Changes that the connections are not concerned by. -/
theorem Le.of_eq {sh sh' : Shared} (hconns : sh'.conns = sh.conns) (hnext : sh'.nextConn = sh.nextConn)
    (hstopped : sh.stopped = true → sh'.stopped = true) : Le sh sh' where
  closed := by rw [hconns]; exact fun _ => id
  onceDone := by rw [hconns]; exact fun _ => id
  current := by rw [hconns]; exact fun _ _ => id
  nextConn := hnext.ge
  stopped := hstopped

/-- A connection goes one step further. -/
theorem Le.setConn {sh : Shared} {c : ℕ} {conn : Conn}
    (hclosed : (sh.conns c).closed = true → conn.closed = true)
    (honce : (sh.conns c).onceDone = true → conn.onceDone = true)
    (hcurrent : conn.current = true → (sh.conns c).current = true) : Le sh (sh.setConn c conn) where
  closed := by
    intro d hd
    change (Function.update sh.conns c conn d).closed = true
    by_cases hdc : d = c
    · subst hdc
      rw [Function.update_self]
      exact hclosed hd
    · rw [Function.update_of_ne hdc]
      exact hd
  onceDone := by
    intro d hd
    change (Function.update sh.conns c conn d).onceDone = true
    by_cases hdc : d = c
    · subst hdc
      rw [Function.update_self]
      exact honce hd
    · rw [Function.update_of_ne hdc]
      exact hd
  current := by
    intro d _ hd
    change (Function.update sh.conns c conn d).current = true at hd
    by_cases hdc : d = c
    · subst hdc
      rw [Function.update_self] at hd
      exact hcurrent hd
    · rw [Function.update_of_ne hdc] at hd
      exact hd
  nextConn := le_rfl
  stopped := id

end Shared

theorem Shared.Le.trans {sh₁ sh₂ sh₃ : Shared} (h : sh₁.Le sh₂) (h' : sh₂.Le sh₃) : sh₁.Le sh₃ where
  closed := fun c hc => h'.closed c (h.closed c hc)
  onceDone := fun c hc => h'.onceDone c (h.onceDone c hc)
  current := fun c hlt hc => h.current c hlt (h'.current c (hlt.trans_le h.nextConn) hc)
  nextConn := h.nextConn.trans h'.nextConn
  stopped := fun hs => h'.stopped (h.stopped hs)

theorem SharedOk.init : SharedOk {} where
  once := by intro _ h; cases h
  clients := by intro _ _ h; cases h
  fresh := fun _ _ => rfl

/-- Changes that neither the connections nor the clients are concerned by. -/
theorem SharedOk.of_eq {sh sh' : Shared} (h : SharedOk sh) (hconns : sh'.conns = sh.conns)
    (hnext : sh'.nextConn = sh.nextConn)
    (hclients : ∀ n c : ℕ, (sh'.heap n).client = some c → ∃ m, (sh.heap m).client = some c) :
    SharedOk sh' where
  once := by rw [hconns]; exact h.once
  clients := by
    intro n c hc
    obtain ⟨m, hm⟩ := hclients n c hc
    rw [hnext]
    exact h.clients m c hm
  fresh := by rw [hconns, hnext]; exact h.fresh

/-- A connection goes one step further. -/
theorem SharedOk.setConn {sh : Shared} (h : SharedOk sh) {c : ℕ} {conn : Conn} (hlt : c < sh.nextConn)
    (honce : conn.onceDone = true → conn.closed = true) : SharedOk (sh.setConn c conn) where
  once := by
    intro d hd
    change (Function.update sh.conns c conn d).onceDone = true at hd
    change (Function.update sh.conns c conn d).closed = true
    by_cases hdc : d = c
    · subst hdc
      rw [Function.update_self] at hd ⊢
      exact honce hd
    · rw [Function.update_of_ne hdc] at hd ⊢
      exact h.once d hd
  clients := h.clients
  fresh := by
    intro d hd
    change sh.nextConn ≤ d at hd
    change (Function.update sh.conns c conn d).closed = false
    rw [Function.update_of_ne (by omega)]
    exact h.fresh d hd

theorem ThreadOk.mono {sh sh' : Shared} {th : Thread} (h : ThreadOk sh th) (hle : sh.Le sh') :
    ThreadOk sh' th where
  relock := h.relock
  role := h.role
  inside := fun c stage hat hstage => hle.closed c (h.inside c stage hat hstage)
  waits := fun c hat => hle.onceDone c (h.waits c hat)
  conn := fun c hc => (h.conn c hc).trans_le hle.nextConn
  todo := fun todo stage remove hpc c hc => (h.todo todo stage remove hpc c hc).trans_le hle.nextConn
  stopped := fun hpc => hle.stopped (h.stopped hpc)

/-- A connection that another goroutine closes, it was closing before. -/
theorem Closing.mono {sh sh' : Shared} {th : Thread} (hok : ThreadOk sh th) (hle : sh.Le sh') {c : ℕ}
    (h : Closing sh' th c) : Closing sh th c := by
  obtain ⟨todo, stage, remove, hpc, hat⟩ := h
  refine ⟨todo, stage, remove, hpc, hat.imp_right fun hboth => ⟨hboth.1, ?_⟩⟩
  exact hle.current c (hok.todo todo stage remove hpc c hboth.1) hboth.2

theorem Closing.stops {sh : Shared} {th : Thread} {c : ℕ} (h : Closing sh th c) :
    th.pc.stops = true := by
  obtain ⟨todo, stage, remove, hpc, -⟩ := h
  rw [hpc]
  rfl

/-! ## What keeps it -/

section Update

variable {s : State} {t : ℕ} {th th' : Thread} {new : List Thread} {sh' : Shared}

theorem holds_of_holdsWrite {pc : Pc} (h : pc.holdsWrite = true) : pc.holds = true := by
  cases pc with
  | reading => cases h
  | _ => exact h

theorem canLock_iff : s.canLock = true ↔ ∀ th ∈ s.threads, th.pc.holds = false := by
  unfold State.canLock
  simp

theorem canRLock_iff : s.canRLock = true ↔ ∀ th ∈ s.threads, th.pc.holdsWrite = false := by
  unfold State.canRLock
  simp

theorem canRLock_of_canLock (h : s.canLock = true) : s.canRLock = true := by
  rw [canLock_iff] at h
  rw [canRLock_iff]
  intro th hth
  cases hw : th.pc.holdsWrite with
  | false => rfl
  | true => exact absurd (holds_of_holdsWrite hw) (by rw [h th hth]; exact Bool.false_ne_true)

/-- Who is in the table after a step. -/
theorem mem_update {u : Thread} (hu : u ∈ s.threads.set t th' ++ new) :
    u ∈ s.threads ∨ u = th' ∨ u ∈ new := by
  rcases List.mem_append.mp hu with hu | hu
  · rcases List.mem_or_eq_of_mem_set hu with hu | hu
    · exact .inl hu
    · exact .inr (.inl hu)
  · exact .inr (.inr hu)

theorem getElem?_update (ht : s.threads[t]? = some th) {u : ℕ} {uh : Thread}
    (hu : (s.threads.set t th' ++ new)[u]? = some uh) :
    (u = t ∧ uh = th') ∨ (u ≠ t ∧ s.threads[u]? = some uh) ∨ (s.threads.length ≤ u ∧ uh ∈ new) := by
  by_cases hlt : u < s.threads.length
  · rw [List.getElem?_append_left (by simpa using hlt), getElem?_set_at ht] at hu
    split_ifs at hu with hut
    · cases hu
      exact .inl ⟨hut, rfl⟩
    · exact .inr (.inl ⟨hut, hu⟩)
  · rw [List.getElem?_append_right (by simpa using hlt)] at hu
    exact .inr (.inr ⟨not_lt.mp hlt, List.mem_of_getElem? hu⟩)

/-- A goroutine that has just been started. -/
structure Idle (u : Thread) : Prop where
  pc : u.pc = .ready
  calls : u.calls = []

theorem Idle.busy {u : Thread} (h : Idle u) : u.busy = false := by
  unfold Thread.busy
  rw [h.pc, h.calls]
  rfl

/-- What a step of a goroutine must be like to keep the invariant. -/
theorem Good.update (h : Good s) (ht : s.threads[t]? = some th) (hle : s.sh.Le sh')
    (hsh : SharedOk sh') (hth : ThreadOk sh' th') (hrole : th'.role = th.role)
    (hwrite : th'.pc.holdsWrite = true → th.pc.holdsWrite = true ∨ s.canLock = true)
    (hhold : th'.pc.holds = true → th.pc.holds = true ∨ s.canRLock = true)
    (hbusy : ∀ c, th.role = .reader c → th'.busy = true →
      th.busy = true ∨ ∀ u ∈ s.threads, ¬Closing s.sh u c)
    (hclosing : ∀ c, Closing sh' th' c → Closing s.sh th c ∨ Quiet s c)
    (hnew : ∀ u ∈ new, Idle u ∧ ThreadOk sh' u) :
    Good { threads := s.threads.set t th' ++ new, sh := sh' } := by
  have hmem : th ∈ s.threads := List.mem_of_getElem? ht
  -- the goroutine, before, against another one
  have hbefore : ∀ (u : ℕ) (uh : Thread), u ≠ t → s.threads[u]? = some uh →
      (th'.pc.holdsWrite = true → uh.pc.holds = false) ∧
        (th'.pc.holds = true → uh.pc.holdsWrite = false) := by
    intro u uh hut hu
    have hmemu : uh ∈ s.threads := List.mem_of_getElem? hu
    refine ⟨fun hw => ?_, fun hh => ?_⟩
    · rcases hwrite hw with hw | hlock
      · exact h.excl t u th uh ht hu (Ne.symm hut) hw
      · exact canLock_iff.mp hlock uh hmemu
    · cases hw : uh.pc.holdsWrite with
      | false => rfl
      | true =>
        rcases hhold hh with hh | hlock
        · rw [h.excl u t uh th hu ht hut hw] at hh
          cases hh
        · rw [canRLock_iff.mp hlock uh hmemu] at hw
          cases hw
  have hidle : ∀ u ∈ new, u.pc.holds = false ∧ u.pc.holdsWrite = false := by
    intro u hu
    rw [(hnew u hu).1.pc]
    exact ⟨rfl, rfl⟩
  refine ⟨fun i j ih jh hi hj hij hw => ?_, fun u hu => ?_, hsh, fun u hu c hclose v hv hvrole => ?_⟩
  · rcases getElem?_update ht hi with ⟨rfl, rfl⟩ | ⟨hit, hi'⟩ | ⟨-, hi'⟩
    · rcases getElem?_update ht hj with ⟨rfl, -⟩ | ⟨hjt, hj'⟩ | ⟨-, hj'⟩
      · exact absurd rfl hij
      · exact (hbefore j jh hjt hj').1 hw
      · exact (hidle jh hj').1
    · rcases getElem?_update ht hj with ⟨rfl, rfl⟩ | ⟨hjt, hj'⟩ | ⟨-, hj'⟩
      · cases hh : jh.pc.holds with
        | false => rfl
        | true =>
          rw [(hbefore i ih hit hi').2 hh] at hw
          cases hw
      · exact h.excl i j ih jh hi' hj' hij hw
      · exact (hidle jh hj').1
    · rw [(hidle ih hi').2] at hw
      cases hw
  · rcases mem_update hu with hu' | rfl | hu'
    · exact (h.threads u hu').mono hle
    · exact hth
    · exact (hnew u hu').2
  · rcases mem_update hu with hu' | rfl | hu'
    · -- another goroutine closes: it did before
      have hclose' := Closing.mono (h.threads u hu') hle hclose
      rcases mem_update hv with hv' | rfl | hv'
      · exact h.quiet u hu' c hclose' v hv' hvrole
      · cases hb : v.busy with
        | false => rfl
        | true =>
          rw [hrole] at hvrole
          rcases hbusy c hvrole hb with hthb | hnone
          · rw [h.quiet u hu' c hclose' th hmem hvrole] at hthb
            cases hthb
          · exact absurd hclose' (hnone u hu')
      · exact (hnew v hv').1.busy
    · -- this one closes
      have hquiet : Quiet s c := by
        rcases hclosing c hclose with hbefore' | hquiet
        · exact h.quiet th hmem c hbefore'
        · exact hquiet
      rcases mem_update hv with hv' | rfl | hv'
      · exact hquiet v hv' hvrole
      · have hstops := (hth.role.reader c hvrole).2
        rw [hclose.stops] at hstops
        cases hstops
      · exact (hnew v hv').1.busy
    · have hstops := hclose.stops
      rw [(hnew u hu').1.pc] at hstops
      cases hstops

end Update

/-! ### What is shared, operation by operation -/

section Shared

variable {sh : Shared}

/-- A node keeps its client. -/
theorem SharedOk.setNode (h : SharedOk sh) {n : ℕ} {node : Node}
    (hclient : ∀ c, node.client = some c → c < sh.nextConn) : SharedOk (sh.setNode n node) where
  once := h.once
  clients := by
    intro m c hc
    change (Function.update sh.heap n node m).client = some c at hc
    by_cases hmn : m = n
    · subst hmn
      rw [Function.update_self] at hc
      exact hclient c hc
    · rw [Function.update_of_ne hmn] at hc
      exact h.clients m c hc
  fresh := h.fresh

theorem le_addNode (sh : Shared) (addr : String) : sh.Le (sh.addNode addr) := by
  unfold Shared.addNode
  split
  · exact .refl sh
  · exact .of_eq rfl rfl id

theorem SharedOk.addNode (h : SharedOk sh) (addr : String) : SharedOk (sh.addNode addr) := by
  unfold Shared.addNode
  split
  · exact h
  · have hnode : SharedOk (sh.setNode sh.nextNode { addr }) := h.setNode fun c hc => by cases hc
    exact ⟨hnode.once, hnode.clients, hnode.fresh⟩

theorem le_unlist (sh : Shared) (remove : Option ℕ) : sh.Le (sh.unlist remove) := by
  cases remove with
  | none => exact .refl sh
  | some n => exact .of_eq rfl rfl id

theorem SharedOk.unlist (h : SharedOk sh) (remove : Option ℕ) : SharedOk (sh.unlist remove) := by
  cases remove with
  | none => exact h
  | some n => exact ⟨h.once, h.clients, h.fresh⟩

theorem SharedOk.notConnected (h : SharedOk sh) (n : ℕ) : SharedOk (sh.notConnected n) :=
  h.setNode fun c hc => h.clients n c hc

theorem le_onClose (sh : Shared) (c : ℕ) : sh.Le (sh.onClose c) := by
  have hconn : sh.Le (sh.setConn c { sh.conns c with current := false }) := by
    refine .setConn id id fun hcurrent => ?_
    cases hcurrent
  exact hconn.trans (.of_eq rfl rfl id)

theorem SharedOk.onClose (h : SharedOk sh) {c : ℕ} (hlt : c < sh.nextConn) :
    SharedOk (sh.onClose c) := by
  have hconn : SharedOk (sh.setConn c { sh.conns c with current := false }) :=
    h.setConn hlt (h.once c)
  exact hconn.setNode fun d hd => h.clients (sh.conns c).node d hd

/-- A new connection. -/
theorem le_connected (h : SharedOk sh) (n : ℕ) : sh.Le (sh.connected n) where
  closed := by
    intro c hc
    change (Function.update sh.conns sh.nextConn _ c).closed = true
    by_cases hcn : c = sh.nextConn
    · rw [hcn, h.fresh _ le_rfl] at hc
      cases hc
    · rw [Function.update_of_ne hcn]
      exact hc
  onceDone := by
    intro c hc
    change (Function.update sh.conns sh.nextConn _ c).onceDone = true
    by_cases hcn : c = sh.nextConn
    · have hclosed := h.once c hc
      rw [hcn, h.fresh _ le_rfl] at hclosed
      cases hclosed
    · rw [Function.update_of_ne hcn]
      exact hc
  current := by
    intro c hlt hc
    change (Function.update sh.conns sh.nextConn _ c).current = true at hc
    rw [Function.update_of_ne hlt.ne] at hc
    exact hc
  nextConn := Nat.le_succ _
  stopped := id

theorem SharedOk.connected (h : SharedOk sh) (n : ℕ) : SharedOk (sh.connected n) where
  once := by
    intro c hc
    change (Function.update sh.conns sh.nextConn _ c).onceDone = true at hc
    change (Function.update sh.conns sh.nextConn _ c).closed = true
    by_cases hcn : c = sh.nextConn
    · subst hcn
      rw [Function.update_self] at hc
      cases hc
    · rw [Function.update_of_ne hcn] at hc ⊢
      exact h.once c hc
  clients := by
    intro m c hc
    change (Function.update sh.heap n _ m).client = some c at hc
    change c < sh.nextConn + 1
    by_cases hmn : m = n
    · subst hmn
      rw [Function.update_self] at hc
      cases hc
      exact Nat.lt_succ_self _
    · rw [Function.update_of_ne hmn] at hc
      exact (h.clients m c hc).trans (Nat.lt_succ_self _)
  fresh := by
    intro c hc
    change sh.nextConn + 1 ≤ c at hc
    change (Function.update sh.conns sh.nextConn _ c).closed = false
    rw [Function.update_of_ne (by omega)]
    exact h.fresh c (by omega)

end Shared

/-! ### Goroutines, place by place -/

/-- Places where a goroutine neither closes connections nor ends. -/
def Pc.plain : Pc → Bool
  | .ready => true
  | .connecting .. => true
  | .started => true
  | .waking => true
  | .counting => true
  | .reading => true
  | _ => false

theorem Pc.plain_stops {pc : Pc} (h : pc.plain = true) : pc.stops = false := by
  cases pc with
  | closing => cases h
  | stopWaiting => cases h
  | stopLocking => cases h
  | _ => rfl

section Threads

variable {sh : Shared} {th : Thread} {pc : Pc} {calls : List Call}

theorem not_closing_of_plain (h : th.pc.plain = true) {c : ℕ} : ¬Closing sh th c := by
  intro hclose
  have hstops := hclose.stops
  rw [Pc.plain_stops h] at hstops
  cases hstops

/-- A goroutine at an operation goes on with it. -/
theorem ThreadOk.go (h : ThreadOk sh th) (hbusy : th.busy = true) (hpc : pc.plain = true)
    (hcalls : ∀ call ∈ calls, call ∈ th.calls ∨ call.closes = false)
    (hnil : th.calls = [] → calls = []) : ThreadOk sh { th with pc, calls } := by
  have hshutting : ({ th with pc, calls } : Thread).shutting = none := by
    cases pc with
    | closing => cases hpc
    | exiting => cases hpc
    | _ => rfl
  refine ⟨?_, ⟨?_, ?_, ?_, ?_, ?_⟩, ?_, ?_, h.conn, ?_, ?_⟩
  · rintro rfl
    cases hpc
  · rintro stage rfl
    cases hpc
  · intro hends
    cases pc with
    | exiting => cases hpc
    | ended => cases hpc
    | _ => cases hends
  · intro hrole
    exact ⟨hnil (h.role.reconnect hrole).1, Pc.plain_stops hpc⟩
  · intro c hrole
    refine ⟨fun call hcall => ?_, Pc.plain_stops hpc⟩
    rcases hcalls call hcall with hold | hcloses
    · exact (h.role.reader c hrole).1 call hold
    · exact hcloses
  · intro c hrole
    rw [h.role.writer c hrole] at hbusy
    cases hbusy
  · intro c stage hat
    rw [hshutting] at hat
    cases hat
  · intro c hat
    rw [hshutting] at hat
    cases hat
  · rintro todo stage remove rfl
    cases hpc
  · rintro rfl
    cases hpc

/-- Only an operation from outside closes connections. -/
theorem RoleOk.caller (h : RoleOk th) (hbusy : th.busy = true)
    (hcloses : th.pc.stops = true ∨ ∃ call ∈ th.calls, call.closes = true) : th.role = .caller := by
  cases hrole : th.role with
  | caller => rfl
  | reconnect =>
    obtain ⟨hcalls, hstops⟩ := h.reconnect hrole
    rcases hcloses with hpc | ⟨call, hcall, -⟩
    · rw [hstops] at hpc
      cases hpc
    · rw [hcalls] at hcall
      cases hcall
  | reader c =>
    obtain ⟨hcalls, hstops⟩ := h.reader c hrole
    rcases hcloses with hpc | ⟨call, hcall, hclose⟩
    · rw [hstops] at hpc
      cases hpc
    · rw [hcalls call hcall] at hclose
      cases hclose
  | writer c =>
    rw [h.writer c hrole] at hbusy
    cases hbusy

theorem RoleOk.of_caller (hrole : th.role = .caller) (hpc : th.pc.ends = false) : RoleOk th where
  exits := by
    intro stage h
    rw [h] at hpc
    cases hpc
  ends := by
    intro h
    rw [hpc] at h
    cases h
  reconnect := by
    intro h
    rw [hrole] at h
    cases h
  reader := by
    intro c h
    rw [hrole] at h
    cases h
  writer := by
    intro c h
    rw [hrole] at h
    cases h

/-- A goroutine that closes connections goes on. -/
theorem ThreadOk.close {todo : List ℕ} {stage : Stage} {remove : Option ℕ} (h : ThreadOk sh th)
    (hrole : th.role = .caller) (htodo : ∀ c ∈ todo, c < sh.nextConn)
    (hinside : ∀ c, todo.head? = some c → stage = .onClose ∨ stage = .leave →
      (sh.conns c).closed = true)
    (hwaits : ∀ c, todo.head? = some c → stage = .wait → (sh.conns c).onceDone = true) :
    ThreadOk sh { th with pc := .closing todo stage remove, calls } := by
  have hat : ∀ c stage', ({ th with pc := .closing todo stage remove, calls } : Thread).shutting =
      some (c, stage') → todo.head? = some c ∧ stage = stage' := by
    intro c stage' hat
    cases todo with
    | nil => cases hat
    | cons d todo =>
      cases hat
      exact ⟨rfl, rfl⟩
  refine ⟨fun hpc => ?_, .of_caller hrole rfl, fun c stage' hshut hstage => ?_,
    fun c hshut => ?_, h.conn, fun todo' stage' remove' hpc c hc => ?_, fun hpc => ?_⟩
  · cases hpc
  · obtain ⟨hhead, rfl⟩ := hat c stage' hshut
    exact hinside c hhead hstage
  · obtain ⟨hhead, hstage⟩ := hat c .wait hshut
    exact hwaits c hhead hstage
  · cases hpc
    exact htodo c hc
  · cases hpc

/-- A goroutine that has just been started. -/
theorem Idle.ok {u : Thread} (h : Idle u) (hconn : ∀ c, u.conn = some c → c < sh.nextConn) :
    ThreadOk sh u := by
  have hshutting : u.shutting = none := by
    unfold Thread.shutting
    rw [h.pc]
  refine ⟨?_, ⟨?_, ?_, ?_, ?_, ?_⟩, ?_, ?_, hconn, ?_, ?_⟩
  · rw [h.pc]
    exact fun hpc => by cases hpc
  · intro stage hpc
    rw [h.pc] at hpc
    cases hpc
  · exact fun _ => h.calls
  · exact fun _ => ⟨h.calls, by rw [h.pc]; rfl⟩
  · intro c _
    rw [h.calls, h.pc]
    exact ⟨fun _ hcall => absurd hcall List.not_mem_nil, rfl⟩
  · exact fun _ _ => h.busy
  · intro c stage hat
    rw [hshutting] at hat
    cases hat
  · intro c hat
    rw [hshutting] at hat
    cases hat
  · intro todo stage remove hpc
    rw [h.pc] at hpc
    cases hpc
  · intro hpc
    rw [h.pc] at hpc
    cases hpc

end Threads

/-! ## Every step keeps it -/

section Step

variable {s s' : State} {t : ℕ} {th th' : Thread} {new : List Thread} {sh' : Shared}

/-- A goroutine at an operation goes on with it, and starts nothing. -/
theorem Good.go (h : Good s) (ht : s.threads[t]? = some th) (hbusy : th.busy = true) {pc : Pc}
    {calls : List Call} (hpc : pc.plain = true)
    (hcalls : ∀ call ∈ calls, call ∈ th.calls ∨ call.closes = false)
    (hnil : th.calls = [] → calls = []) (hle : s.sh.Le sh') (hsh : SharedOk sh')
    (hwrite : pc.holdsWrite = true → th.pc.holdsWrite = true ∨ s.canLock = true)
    (hhold : pc.holds = true → th.pc.holds = true ∨ s.canRLock = true)
    (hnew : ∀ u ∈ new, Idle u ∧ ∀ c, u.conn = some c → c < sh'.nextConn) :
    Good { threads := s.threads.set t { th with pc, calls } ++ new, sh := sh' } := by
  have hth := h.threads th (List.mem_of_getElem? ht)
  refine h.update ht hle hsh ((hth.go hbusy hpc hcalls hnil).mono hle) rfl hwrite hhold
    (fun _ _ _ => .inl hbusy) (fun c hclose => ?_) fun u hu => ⟨(hnew u hu).1, (hnew u hu).1.ok (hnew u hu).2⟩
  exact absurd hclose (not_closing_of_plain hpc)

/-- A goroutine goes on closing connections, or begins to. -/
theorem Good.close (h : Good s) (ht : s.threads[t]? = some th) (hbusy : th.busy = true)
    {calls : List Call} {todo : List ℕ} {stage : Stage} {remove : Option ℕ}
    (hcloses : th.pc.stops = true ∨ ∃ call ∈ th.calls, call.closes = true) (hle : s.sh.Le sh')
    (hsh : SharedOk sh') (hlock : th.pc.holdsWrite = true ∨ s.canLock = true)
    (htodo : ∀ c ∈ todo, c < s.sh.nextConn)
    (hinside : ∀ c, todo.head? = some c → stage = .onClose ∨ stage = .leave →
      (sh'.conns c).closed = true)
    (hwaits : ∀ c, todo.head? = some c → stage = .wait → (sh'.conns c).onceDone = true)
    (hclosing : ∀ c, ((stage ≠ .enter ∧ todo.head? = some c) ∨
      (c ∈ todo ∧ (s.sh.conns c).current = true)) → Closing s.sh th c ∨ Quiet s c) :
    Good { threads := s.threads.set t { th with pc := .closing todo stage remove, calls } ++ [], sh := sh' } := by
  have hth := h.threads th (List.mem_of_getElem? ht)
  have hrole := hth.role.caller hbusy hcloses
  have htodo' : ∀ c ∈ todo, c < sh'.nextConn := fun c hc => (htodo c hc).trans_le hle.nextConn
  refine h.update ht hle hsh ((hth.mono hle).close hrole htodo' hinside hwaits) rfl (fun _ => hlock)
    (fun _ => hlock.imp holds_of_holdsWrite canRLock_of_canLock) (fun c hreader => ?_)
    (fun c hclose => ?_) fun u hu => ?_
  · rw [hrole] at hreader
    cases hreader
  · obtain ⟨todo', stage', remove', hpc, hat⟩ := hclose
    cases hpc
    exact hclosing c (hat.imp_right fun hboth =>
      ⟨hboth.1, hle.current c (htodo c hboth.1) hboth.2⟩)
  · cases hu

/-- A loop goes on to its end. -/
theorem Good.exit (h : Good s) (ht : s.threads[t]? = some th) {pc : Pc} (hcalls : th.calls = [])
    (hpc : (∃ stage, pc = .exiting stage ∧ th.conn.isSome = true) ∨ pc = .ended)
    (hle : s.sh.Le sh') (hsh : SharedOk sh')
    (hinside : ∀ c, th.conn = some c → pc = .exiting .onClose ∨ pc = .exiting .leave →
      (sh'.conns c).closed = true)
    (hwaits : ∀ c, th.conn = some c → pc = .exiting .wait → (sh'.conns c).onceDone = true) :
    Good { threads := s.threads.set t { th with pc } ++ [], sh := sh' } := by
  have hth := h.threads th (List.mem_of_getElem? ht)
  have hidle : ({ th with pc } : Thread).busy = false := by
    unfold Thread.busy
    rcases hpc with ⟨stage, rfl, -⟩ | rfl
    · simp [hcalls]
    · simp [hcalls]
  have hstops : pc.stops = false := by
    rcases hpc with ⟨stage, rfl, -⟩ | rfl
    · rfl
    · rfl
  have hholds : pc.holds = false := by
    rcases hpc with ⟨stage, rfl, -⟩ | rfl
    · rfl
    · rfl
  have hshut : ∀ c stage, ({ th with pc } : Thread).shutting = some (c, stage) →
      th.conn = some c ∧ pc = .exiting stage := by
    intro c stage hat
    rcases hpc with ⟨stage', rfl, -⟩ | rfl
    · obtain ⟨d, hd, heq⟩ := Option.map_eq_some_iff.mp hat
      cases heq
      exact ⟨hd, rfl⟩
    · cases hat
  refine h.update ht hle hsh ⟨?_, ⟨?_, ?_, ?_, ?_, ?_⟩, ?_, ?_, ?_, ?_, ?_⟩ rfl (fun hw => ?_) (fun hh => ?_)
    (fun _ _ hb => ?_) (fun c hclose => ?_) fun u hu => ?_
  · rintro rfl
    rcases hpc with ⟨stage, hpc, -⟩ | hpc
    · cases hpc
    · cases hpc
  · rintro stage rfl
    rcases hpc with ⟨stage, -, hconn⟩ | hpc
    · exact hconn
    · cases hpc
  · exact fun _ => hcalls
  · exact fun _ => ⟨hcalls, hstops⟩
  · intro c hrole
    exact ⟨(hth.role.reader c hrole).1, hstops⟩
  · exact fun _ _ => hidle
  · intro c stage hat hstage
    obtain ⟨hconn, rfl⟩ := hshut c stage hat
    exact hinside c hconn (hstage.imp (congrArg Pc.exiting) (congrArg Pc.exiting))
  · intro c hat
    obtain ⟨hconn, hstage⟩ := hshut c .wait hat
    exact hwaits c hconn hstage
  · exact fun c hconn => (hth.conn c hconn).trans_le hle.nextConn
  · rintro todo stage remove rfl
    cases hstops
  · rintro rfl
    cases hstops
  · rw [show ({ th with pc } : Thread).pc.holdsWrite = pc.holdsWrite from rfl] at hw
    rw [holds_of_holdsWrite hw] at hholds
    cases hholds
  · exact absurd hh (by rw [hholds]; exact Bool.false_ne_true)
  · rw [hidle] at hb
    cases hb
  · have hc := hclose.stops
    exact absurd hc (by rw [hstops]; exact Bool.false_ne_true)
  · cases hu

theorem busy_of_pc (hpc : ({ th with calls := [] } : Thread).busy = true) : th.busy = true := by
  unfold Thread.busy at hpc ⊢
  rw [Bool.or_eq_true] at hpc ⊢
  exact hpc.imp_left fun hfalse => by cases hfalse

theorem busy_of_calls {call : Call} {calls : List Call} (h : th.calls = call :: calls) :
    th.busy = true := by
  unfold Thread.busy
  rw [h]
  rfl

theorem lt_of_mem_clients (hsh : SharedOk s.sh) {nodes : List ℕ} {c : ℕ}
    (hc : c ∈ s.sh.clients nodes) : c < s.sh.nextConn := by
  obtain ⟨n, -, hn⟩ := List.mem_filterMap.mp hc
  exact hsh.clients n c hn

/-- `RemoveNode` or `Stop` has got the lock. -/
theorem Good.closeNodes (h : Good s) (ht : s.threads[t]? = some th) (hbusy : th.busy = true)
    {calls : List Call} {nodes : List ℕ} {remove : Option ℕ}
    (hcloses : th.pc.stops = true ∨ ∃ call ∈ th.calls, call.closes = true) (hlock : s.canLock = true)
    (hquiet : QuietNodes s nodes) :
    Good {
      threads := s.threads.set t
        { th with pc := .closing (s.sh.clients nodes) .enter remove, calls } ++ []
      sh := s.sh } := by
  refine h.close ht hbusy hcloses (.refl _) h.shared (.inr hlock)
    (fun c hc => lt_of_mem_clients h.shared hc) (fun c _ hstage => ?_) (fun c _ hstage => ?_)
    fun c hat => ?_
  · rcases hstage with hstage | hstage
    · cases hstage
    · cases hstage
  · cases hstage
  · rcases hat with ⟨hstage, -⟩ | ⟨hmem, hcurrent⟩
    · exact absurd rfl hstage
    · exact .inr (hquiet c hmem hcurrent)

/-- An operation begins. -/
theorem Good.begin (h : Good s) (ht : s.threads[t]? = some th) (hpc : th.pc = .ready) {call : Call}
    {calls : List Call} (hcalls : th.calls = call :: calls)
    (hok : ∀ addr, call = .removeNode addr → ∀ n, s.sh.find addr = some n → QuietNodes s [n])
    {r : Thread × Shared} (hstep : ClientPool.begin s th calls call = some r) :
    Good { threads := s.threads.set t r.1 ++ [], sh := r.2 } := by
  have hbusy := busy_of_calls hcalls
  have hsub : ∀ c ∈ calls, c ∈ th.calls ∨ c.closes = false := by
    intro c hc
    rw [hcalls]
    exact .inl (List.mem_cons_of_mem call hc)
  have hnil : ∀ l : List Call, th.calls = [] → l = [] := by
    intro l hl
    rw [hcalls] at hl
    cases hl
  have hnone : ∀ u ∈ ([] : List Thread), Idle u ∧ ∀ c, u.conn = some c → c < s.sh.nextConn :=
    fun u hu => absurd hu List.not_mem_nil
  cases call with
  | addNode addr =>
    simp only [ClientPool.begin] at hstep
    split_ifs at hstep with hlock
    cases hstep
    exact h.go ht hbusy (by rw [hpc]; rfl) hsub (hnil _) (le_addNode _ _) (h.shared.addNode _) .inl
      .inl fun u hu => absurd hu List.not_mem_nil
  | setOnData =>
    simp only [ClientPool.begin] at hstep
    split_ifs at hstep with hlock
    cases hstep
    exact h.go ht hbusy (by rw [hpc]; rfl) hsub (hnil _) (.refl _) h.shared .inl .inl hnone
  | removeNode addr =>
    simp only [ClientPool.begin] at hstep
    split_ifs at hstep with hlock
    split at hstep
    · next n hfind =>
      cases hstep
      refine h.closeNodes ht hbusy (.inr ⟨.removeNode addr, ?_, rfl⟩) hlock (hok addr rfl n hfind)
      rw [hcalls]
      exact List.mem_cons_self
    · cases hstep
      exact h.go ht hbusy (by rw [hpc]; rfl) hsub (hnil _) (.refl _) h.shared .inl .inl hnone
  | start =>
    simp only [ClientPool.begin] at hstep
    split_ifs at hstep with hlock
    cases hstep
    exact h.go ht hbusy rfl hsub (hnil _) (.refl _) h.shared (fun _ => .inr hlock)
      (fun _ => .inr (canRLock_of_canLock hlock)) hnone
  | stop =>
    simp only [ClientPool.begin] at hstep
    split_ifs at hstep with hrunning hstopped
    · cases hstep
      exact h.go ht hbusy (by rw [hpc]; rfl) hsub (hnil _) (.of_eq rfl rfl id)
        (h.shared.of_eq rfl rfl fun n c hc => ⟨n, hc⟩) .inl .inl hnone
    · cases hstep
      -- `Stop` waits for `reconnectLoop`: it is called from outside, and closes nothing yet
      have hrole : th.role = .caller := by
        refine (h.threads th (List.mem_of_getElem? ht)).role.caller hbusy (.inr ⟨.stop, ?_, rfl⟩)
        rw [hcalls]
        exact List.mem_cons_self
      have hth := h.threads th (List.mem_of_getElem? ht)
      refine h.update ht (.of_eq rfl rfl fun _ => rfl) (h.shared.of_eq rfl rfl fun n c hc => ⟨n, hc⟩)
        ⟨?_, .of_caller hrole rfl, ?_, ?_, hth.conn, ?_, fun _ => rfl⟩ rfl ?_ ?_ (fun _ _ _ => .inl hbusy)
        (fun c hclose => ?_) fun u hu => absurd hu List.not_mem_nil
      · exact fun hp => by cases hp
      · exact fun _ _ hp => by cases hp
      · exact fun _ hp => by cases hp
      · exact fun _ _ _ hp => by cases hp
      · exact fun hp => by cases hp
      · exact fun hp => by cases hp
      · obtain ⟨_, _, _, hp, -⟩ := hclose
        cases hp
    · cases hstep
      exact h.go ht hbusy (by rw [hpc]; rfl) hsub (hnil _) (.refl _) h.shared .inl .inl hnone
  | read =>
    simp only [ClientPool.begin] at hstep
    split_ifs at hstep with hlock
    cases hstep
    refine h.go ht hbusy rfl hsub (hnil _) (.refl _) h.shared (fun hw => ?_) (fun _ => .inr hlock) hnone
    cases hw
  | watch serviceType =>
    simp only [ClientPool.begin, Option.some.injEq] at hstep
    subst hstep
    refine h.go ht hbusy (by rw [hpc]; rfl) (fun c hc => ?_) (hnil _) (.of_eq rfl rfl id)
      (h.shared.of_eq rfl rfl fun n c hc => ⟨n, hc⟩) .inl .inl hnone
    rcases List.mem_cons.mp hc with rfl | hc
    · exact .inr rfl
    · exact hsub c hc

/-- A loop ends, or begins to. -/
theorem Good.idle (h : Good s) (ht : s.threads[t]? = some th) (hcalls : th.calls = [])
    {th' : Thread} (hstep : ClientPool.idle s th = some th') :
    Good { threads := s.threads.set t th' ++ [], sh := s.sh } := by
  unfold ClientPool.idle at hstep
  have hexit : ∀ c, th.conn = some c →
      Good { threads := s.threads.set t { th with pc := .exiting .enter } ++ [], sh := s.sh } := by
    intro c hc
    refine h.exit ht hcalls (.inl ⟨.enter, rfl, by rw [hc]; rfl⟩) (.refl _) h.shared ?_ ?_
    · rintro _ - (hpc | hpc)
      · cases hpc
      · cases hpc
    · intro _ _ hpc
      cases hpc
  split at hstep
  · cases hstep
  · split_ifs at hstep
    cases hstep
    refine h.exit ht hcalls (.inr rfl) (.refl _) h.shared ?_ ?_
    · rintro _ - (hpc | hpc)
      · cases hpc
      · cases hpc
    · intro _ _ hpc
      cases hpc
  · next c hrole =>
    split_ifs at hstep
    cases hstep
    exact hexit c (by rw [Thread.conn, hrole])
  · next c hrole =>
    split_ifs at hstep
    cases hstep
    exact hexit c (by rw [Thread.conn, hrole])

/-- One step of a `shutdown`, by what it leaves. -/
theorem shutdownStep_cases (hsh : SharedOk s.sh) {c : ℕ} {stage : Stage} {r : Stage × Shared}
    (hlt : c < s.sh.nextConn) (hinside : stage = .onClose ∨ stage = .leave → (s.sh.conns c).closed = true)
    (hstep : shutdownStep s c stage = some r) :
    s.sh.Le r.2 ∧ SharedOk r.2 ∧ r.1 ≠ .enter ∧
      (r.1 = .onClose ∨ r.1 = .leave → (r.2.conns c).closed = true) ∧
      (r.1 = .wait → (r.2.conns c).onceDone = true) := by
  cases stage with
  | enter =>
    simp only [shutdownStep] at hstep
    split_ifs at hstep with honce hin
    · cases hstep
      refine ⟨.refl _, hsh, Stage.noConfusion, fun hstage => ?_, fun _ => honce⟩
      rcases hstage with hstage | hstage
      · cases hstage
      · cases hstage
    · cases hstep
      refine ⟨.setConn (fun _ => rfl) id id, hsh.setConn hlt fun _ => rfl, Stage.noConfusion, fun _ => ?_,
        Stage.noConfusion⟩
      change (Function.update s.sh.conns c _ c).closed = true
      rw [Function.update_self]
  | onClose =>
    simp only [shutdownStep, Option.some.injEq] at hstep
    subst hstep
    refine ⟨le_onClose _ _, hsh.onClose hlt, Stage.noConfusion, fun _ => ?_, Stage.noConfusion⟩
    exact (le_onClose s.sh c).closed c (hinside (.inl rfl))
  | leave =>
    simp only [shutdownStep, Option.some.injEq] at hstep
    subst hstep
    have hclosed := hinside (.inr rfl)
    refine ⟨.setConn id (fun _ => rfl) id, hsh.setConn hlt fun _ => hclosed, Stage.noConfusion,
      fun hstage => ?_, fun _ => ?_⟩
    · rcases hstage with hstage | hstage
      · cases hstage
      · cases hstage
    · change (Function.update s.sh.conns c _ c).onceDone = true
      rw [Function.update_self]
  | wait => cases hstep

/-- `RemoveNode` or `Stop` goes on. -/
theorem Good.closing (h : Good s) (ht : s.threads[t]? = some th) {todo : List ℕ} {stage : Stage}
    {remove : Option ℕ} (hpc : th.pc = .closing todo stage remove) {dialed : Bool}
    {r : Thread × List Thread × Shared} (hstep : stepThread s th dialed = some r) :
    Good { threads := s.threads.set t r.1 ++ r.2.1, sh := r.2.2 } := by
  have hth := h.threads th (List.mem_of_getElem? ht)
  have hbusy : th.busy = true := busy_of_pc (by rw [Thread.busy, hpc]; rfl)
  have hcloses : th.pc.stops = true ∨ ∃ call ∈ th.calls, call.closes = true :=
    .inl (by rw [hpc]; rfl)
  have hwrite : th.pc.holdsWrite = true ∨ s.canLock = true := .inl (by rw [hpc]; rfl)
  unfold stepThread at hstep
  simp only [hpc] at hstep
  cases todo with
  | nil =>
    cases hstep
    refine h.go ht hbusy rfl (fun c hc => .inl hc) id (le_unlist _ _) (h.shared.unlist _)
      (fun hw => ?_) (fun hh => ?_) fun u hu => absurd hu List.not_mem_nil
    · cases hw
    · cases hh
  | cons c todo =>
    have hlt : ∀ d ∈ c :: todo, d < s.sh.nextConn := hth.todo _ _ _ hpc
    -- what is to do after this connection was to do before
    have hrest : ∀ d, d ∈ todo ∧ (s.sh.conns d).current = true → Closing s.sh th d := by
      intro d hd
      exact ⟨_, _, _, hpc, .inr ⟨List.mem_cons_of_mem c hd.1, hd.2⟩⟩
    have hskip : ∀ sh', s.sh.Le sh' → SharedOk sh' →
        Good { threads := s.threads.set t { th with pc := .closing todo .enter remove } ++ [], sh := sh' } := by
      intro sh' hle hsh
      refine h.close ht hbusy hcloses hle hsh hwrite (fun d hd => hlt d (List.mem_cons_of_mem c hd))
        (fun d _ hstage => ?_) (fun d _ hstage => ?_) fun d hat => ?_
      · rcases hstage with hstage | hstage
        · cases hstage
        · cases hstage
      · cases hstage
      · rcases hat with ⟨hstage, -⟩ | hboth
        · exact absurd rfl hstage
        · exact .inl (hrest d hboth)
    simp only at hstep
    split_ifs at hstep with hgone hwait hdone
    · cases hstep
      exact hskip s.sh (.refl _) h.shared
    · cases hstep
      refine hskip _ (.setConn id id fun hcurrent => ?_)
        (h.shared.setConn (hlt c List.mem_cons_self) (h.shared.once c))
      cases hcurrent
    · obtain ⟨r', hr', rfl⟩ := Option.map_eq_some_iff.mp hstep
      have hshut : th.shutting = some (c, stage) := by
        unfold Thread.shutting
        rw [hpc]
      obtain ⟨hle, hsh, hstage, hinside, hwaits⟩ := shutdownStep_cases h.shared
        (hlt c List.mem_cons_self) (hth.inside c stage hshut) hr'
      refine h.close ht hbusy hcloses hle hsh hwrite hlt (fun d hd => ?_) (fun d hd => ?_) fun d hat => ?_
      · cases hd
        exact hinside
      · cases hd
        exact hwaits
      · rcases hat with ⟨-, hd⟩ | hboth
        · cases hd
          -- this connection was still the client's, or the shutdown had begun
          refine .inl ⟨_, _, _, hpc, ?_⟩
          by_cases henter : stage = .enter
          · refine .inr ⟨List.mem_cons_self, ?_⟩
            cases hcurrent : (s.sh.conns c).current with
            | true => rfl
            | false => exact absurd ⟨henter, hcurrent⟩ hgone
          · exact .inl ⟨henter, rfl⟩
        · exact .inl ⟨_, _, _, hpc, .inr hboth⟩

/-- A loop goes on with its `shutdown`. -/
theorem Good.exiting (h : Good s) (ht : s.threads[t]? = some th) {stage : Stage} (hpc : th.pc = .exiting stage) {dialed : Bool}
    {r : Thread × List Thread × Shared} (hstep : stepThread s th dialed = some r) :
    Good { threads := s.threads.set t r.1 ++ r.2.1, sh := r.2.2 } := by
  have hth := h.threads th (List.mem_of_getElem? ht)
  have hcalls := hth.role.ends (by rw [hpc]; rfl)
  obtain ⟨c, hc⟩ := Option.isSome_iff_exists.mp (hth.role.exits stage hpc)
  have hshut : th.shutting = some (c, stage) := by
    unfold Thread.shutting
    rw [hpc, hc]
    rfl
  have hgo : ∀ r', shutdownStep s c stage = some r' →
      Good { threads := s.threads.set t { th with pc := .exiting r'.1 } ++ [], sh := r'.2 } := by
    intro r' hr'
    obtain ⟨hle, hsh, -, hinside, hwaits⟩ :=
      shutdownStep_cases h.shared (hth.conn c hc) (hth.inside c stage hshut) hr'
    refine h.exit ht hcalls (.inl ⟨r'.1, rfl, by rw [hc]; rfl⟩) hle hsh (fun d hd hstage => ?_)
      fun d hd hstage => ?_
    · cases hc.symm.trans hd
      exact hinside (hstage.imp Pc.exiting.inj Pc.exiting.inj)
    · cases hc.symm.trans hd
      exact hwaits (Pc.exiting.inj hstage)
  unfold stepThread at hstep
  simp only [hpc] at hstep
  cases stage with
  | wait =>
    cases hstep
    refine h.exit ht hcalls (.inr rfl) (.refl _) h.shared ?_ ?_
    · rintro _ - (hp | hp)
      · cases hp
      · cases hp
    · intro _ _ hp
      cases hp
  | _ =>
    simp only [hc] at hstep
    obtain ⟨r', hr', rfl⟩ := Option.map_eq_some_iff.mp hstep
    exact hgo r' hr'

/-- A goroutine that connects nodes. -/
theorem Good.connecting (h : Good s) (ht : s.threads[t]? = some th) {rest : List ℕ} {all any : Bool}
    (hpc : th.pc = .connecting rest all any) {dialed : Bool}
    (hok : rest ≠ [] → dialed = true → s.sh.watchTypes = []) {r : Thread × List Thread × Shared}
    (hstep : stepThread s th dialed = some r) :
    Good { threads := s.threads.set t r.1 ++ r.2.1, sh := r.2.2 } := by
  have hbusy : th.busy = true := busy_of_pc (by rw [Thread.busy, hpc]; rfl)
  have hwrite : th.pc.holdsWrite = true := by rw [hpc]; rfl
  have hhold : th.pc.holds = true := by rw [hpc]; rfl
  unfold stepThread at hstep
  simp only [hpc] at hstep
  cases rest with
  | nil =>
    cases hstep
    refine h.go ht hbusy ?_ (fun c hc => .inl hc) id (.refl _) h.shared (fun _ => .inl hwrite)
      (fun _ => .inl hhold) fun u hu => absurd hu List.not_mem_nil
    split_ifs
    · rfl
    · rfl
    · rfl
  | cons n rest =>
    simp only at hstep
    split_ifs at hstep with hunhealthy hdialed hwatched
    · cases hstep
      refine h.go ht hbusy rfl (fun c hc => .inl hc) id (le_connected h.shared n)
        (h.shared.connected n) (fun _ => .inl hwrite) (fun _ => .inl hhold) fun u hu => ?_
      have hnew : ∀ c, c = s.sh.nextConn → c < (s.sh.connected n).nextConn := by
        rintro c rfl
        exact Nat.lt_succ_self _
      rcases List.mem_cons.mp hu with rfl | hu
      · exact ⟨⟨rfl, rfl⟩, fun c hc => hnew c (Option.some.inj hc).symm⟩
      · rw [List.mem_singleton.mp hu]
        exact ⟨⟨rfl, rfl⟩, fun c hc => hnew c (Option.some.inj hc).symm⟩
    · -- a service type is watched: this does not happen here
      exact absurd (hok (List.cons_ne_nil n rest) hdialed) hwatched
    · cases hstep
      exact h.go ht hbusy rfl (fun c hc => .inl hc) id (.of_eq rfl rfl id) (h.shared.notConnected n)
        (fun _ => .inl hwrite) (fun _ => .inl hhold) fun u hu => absurd hu List.not_mem_nil
    · cases hstep
      exact h.go ht hbusy rfl (fun c hc => .inl hc) id (.refl _) h.shared (fun _ => .inl hwrite)
        (fun _ => .inl hhold) fun u hu => absurd hu List.not_mem_nil

/-- One step of a goroutine. -/
theorem Good.stepThread (h : Good s) (ht : s.threads[t]? = some th) {dialed : Bool}
    (hok : Ok s (.step t dialed)) {r : Thread × List Thread × Shared}
    (hstep : ClientPool.stepThread s th dialed = some r) :
    Good { threads := s.threads.set t r.1 ++ r.2.1, sh := r.2.2 } := by
  have hok := hok th ht
  have hth := h.threads th (List.mem_of_getElem? ht)
  have hnone : ∀ u ∈ ([] : List Thread), Idle u ∧ ∀ c, u.conn = some c → c < s.sh.nextConn :=
    fun u hu => absurd hu List.not_mem_nil
  cases hpc : th.pc with
  | ready =>
    simp only [hpc] at hok
    unfold ClientPool.stepThread at hstep
    simp only [hpc] at hstep
    cases hcalls : th.calls with
    | nil =>
      simp only [hcalls] at hstep
      obtain ⟨th', hth', rfl⟩ := Option.map_eq_some_iff.mp hstep
      exact h.idle ht hcalls hth'
    | cons call calls =>
      simp only [hcalls] at hstep hok
      obtain ⟨r', hr', rfl⟩ := Option.map_eq_some_iff.mp hstep
      refine h.begin ht hpc hcalls ?_ hr'
      rintro addr rfl
      exact hok
  | connecting rest all any =>
    refine h.connecting ht hpc (fun hne hdialed => ?_) hstep
    simp only [hpc] at hok
    obtain ⟨n, rest', rfl⟩ := List.exists_cons_of_ne_nil hne
    exact hok hdialed
  | relock => exact absurd hpc hth.relock
  | started =>
    unfold ClientPool.stepThread at hstep
    simp only [hpc] at hstep
    cases hstep
    refine h.go ht (busy_of_pc (by rw [Thread.busy, hpc]; rfl)) rfl (fun c hc => .inl hc) id
      (.of_eq rfl rfl id) (h.shared.of_eq rfl rfl fun n c hc => ⟨n, hc⟩) (fun hw => ?_) (fun hh => ?_)
      fun u hu => ?_
    · cases hw
    · cases hh
    · rw [List.mem_singleton.mp hu]
      exact ⟨⟨rfl, rfl⟩, fun c hc => by cases hc⟩
  | waking =>
    unfold ClientPool.stepThread at hstep
    simp only [hpc] at hstep
    split_ifs at hstep with hlock
    cases hstep
    exact h.go ht (busy_of_pc (by rw [Thread.busy, hpc]; rfl)) rfl (fun c hc => .inl hc) id (.refl _)
      h.shared (fun _ => .inr hlock) (fun _ => .inr (canRLock_of_canLock hlock)) hnone
  | counting =>
    unfold ClientPool.stepThread at hstep
    simp only [hpc] at hstep
    split_ifs at hstep with hlock
    cases hstep
    refine h.go ht (busy_of_pc (by rw [Thread.busy, hpc]; rfl)) rfl (fun c hc => .inl hc) id (.refl _)
      h.shared (fun hw => ?_) (fun _ => .inr hlock) hnone
    cases hw
  | reading =>
    unfold ClientPool.stepThread at hstep
    simp only [hpc] at hstep
    cases hstep
    refine h.go ht (busy_of_pc (by rw [Thread.busy, hpc]; rfl)) rfl (fun c hc => .inl hc) id (.refl _)
      h.shared (fun hw => ?_) (fun hh => ?_) hnone
    · cases hw
    · cases hh
  | closing todo stage remove => exact h.closing ht hpc hstep
  | stopWaiting =>
    unfold ClientPool.stepThread at hstep
    simp only [hpc] at hstep
    split_ifs at hstep
    cases hstep
    have hbusy : th.busy = true := busy_of_pc (by rw [Thread.busy, hpc]; rfl)
    have hrole := hth.role.caller hbusy (.inl (by rw [hpc]; rfl))
    refine h.update ht (.refl _) h.shared
      ⟨?_, .of_caller hrole rfl, ?_, ?_, hth.conn, ?_, ?_⟩ rfl ?_ ?_ (fun _ _ _ => .inl hbusy)
      (fun c hclose => ?_) fun u hu => absurd hu List.not_mem_nil
    · exact fun hp => by cases hp
    · exact fun _ _ hp => by cases hp
    · exact fun _ hp => by cases hp
    · exact fun _ _ _ hp => by cases hp
    · exact fun hp => by cases hp
    · exact fun hp => by cases hp
    · exact fun hp => by cases hp
    · obtain ⟨_, _, _, hp, -⟩ := hclose
      cases hp
  | stopLocking =>
    simp only [hpc] at hok
    unfold ClientPool.stepThread at hstep
    simp only [hpc] at hstep
    split_ifs at hstep with hlock
    cases hstep
    exact h.closeNodes ht (busy_of_pc (by rw [Thread.busy, hpc]; rfl)) (.inl (by rw [hpc]; rfl)) hlock hok
  | exiting stage => exact h.exiting ht hpc hstep
  | ended =>
    unfold ClientPool.stepThread at hstep
    simp only [hpc] at hstep
    cases hstep

/-- One step. -/
theorem Good.next (h : Good s) {l : Label} (hok : Ok s l) (hstep : ClientPool.next s l = some s') :
    Good s' := by
  unfold ClientPool.next at hstep
  split_ifs at hstep
  cases l with
  | spawn calls =>
    cases hstep
    -- a caller without anything to do, that is given something to do
    refine ⟨fun i j ih jh hi hj hij hw => ?_, fun u hu => ?_, h.shared, fun u hu c hclose v hv hrole => ?_⟩
    · rw [getElem?_append_singleton] at hi hj
      split_ifs at hi hj with hilast hjlast
      · exact absurd (hilast.trans hjlast.symm) hij
      · cases hi
        cases hw
      · cases hj
        rfl
      · exact h.excl i j ih jh hi hj hij hw
    · rcases List.mem_append.mp hu with hu | hu
      · exact h.threads u hu
      · rw [List.mem_singleton.mp hu]
        refine ⟨?_, .of_caller rfl rfl, ?_, ?_, ?_, ?_, ?_⟩
        · exact fun hp => by cases hp
        · exact fun _ _ hp => by cases hp
        · exact fun _ hp => by cases hp
        · exact fun _ hp => by cases hp
        · exact fun _ _ _ hp => by cases hp
        · exact fun hp => by cases hp
    · have hclose' : Closing s.sh u c ∧ u ∈ s.threads := by
        rcases List.mem_append.mp hu with hu | hu
        · exact ⟨hclose, hu⟩
        · rw [List.mem_singleton.mp hu] at hclose
          exact absurd hclose (not_closing_of_plain rfl)
      rcases List.mem_append.mp hv with hv | hv
      · exact h.quiet u hclose'.2 c hclose'.1 v hv hrole
      · rw [List.mem_singleton.mp hv] at hrole
        cases hrole
  | step t dialed =>
    simp only at hstep
    split at hstep
    · next th ht =>
      obtain ⟨r, hr, rfl⟩ := Option.map_eq_some_iff.mp hstep
      exact h.stepThread ht hok hr
    · cases hstep
  | tick t =>
    simp only at hstep
    split at hstep
    · next th ht =>
      split_ifs at hstep with hguard
      cases hstep
      obtain ⟨hrole, hpc⟩ := hguard
      have hth := h.threads th (List.mem_of_getElem? ht)
      rw [← List.append_nil (s.threads.set t _)]
      refine h.update ht (.refl _) h.shared ⟨?_, ⟨?_, ?_, ?_, ?_, ?_⟩, ?_, ?_, hth.conn, ?_, ?_⟩ rfl ?_ ?_
        (fun c hreader _ => ?_) (fun c hclose => absurd hclose (not_closing_of_plain rfl))
        fun u hu => absurd hu List.not_mem_nil
      · exact fun hp => by cases hp
      · exact fun _ hp => by cases hp
      · exact fun hp => by cases hp
      · exact fun _ => ⟨(hth.role.reconnect hrole).1, rfl⟩
      · intro c hreader
        rw [show th.role = .reader c from hreader] at hrole
        cases hrole
      · intro c hwriter
        rw [show th.role = .writer c from hwriter] at hrole
        cases hrole
      · exact fun _ _ hp => by cases hp
      · exact fun _ hp => by cases hp
      · exact fun _ _ _ hp => by cases hp
      · exact fun hp => by cases hp
      · exact fun hp => by cases hp
      · exact fun hp => by cases hp
      · rw [hreader] at hrole
        cases hrole
    · cases hstep
  | packet t calls =>
    simp only at hstep
    split at hstep
    · next th ht =>
      split at hstep
      · next c hrole =>
        split_ifs at hstep with hguard
        cases hstep
        obtain ⟨hpc, hcalls⟩ := hguard
        have hth := h.threads th (List.mem_of_getElem? ht)
        have hplain : th.pc.plain = true := by rw [hpc]; rfl
        rw [← List.append_nil (s.threads.set t _)]
        refine h.update ht (.refl _) h.shared
          ⟨hth.relock, ⟨?_, ?_, ?_, ?_, ?_⟩, hth.inside, hth.waits, hth.conn, hth.todo, hth.stopped⟩ rfl .inl
          .inl (fun d hd hbusy => ?_) (fun d hclose => ?_) fun u hu => absurd hu List.not_mem_nil
        · intro stage hp
          rw [show th.pc = _ from hp] at hpc
          cases hpc
        · intro hends
          rw [show th.pc = _ from hpc] at hends
          cases hends
        · intro hr
          rw [hrole] at hr
          cases hr
        · intro d hd
          refine ⟨fun call hcall => ?_, (hth.role.reader c hrole).2⟩
          exact (hok th c ht hrole (List.ne_nil_of_mem hcall)).1 call hcall
        · intro d hd
          rw [hrole] at hd
          cases hd
        · -- an event callback that makes operations: nobody is closing its connection
          cases hrole.symm.trans hd
          refine .inr (hok th c ht hrole ?_).2
          rintro rfl
          unfold Thread.busy at hbusy
          rw [hpc] at hbusy
          cases hbusy
        · have hplain' : ({ th with calls } : Thread).pc.plain = true := hplain
          exact absurd hclose (not_closing_of_plain hplain')
      · cases hstep
    · cases hstep
  | fail t =>
    simp only at hstep
    split at hstep
    · next th ht =>
      split_ifs at hstep with hguard
      cases hstep
      obtain ⟨hconn, hpc, hcalls⟩ := hguard
      rw [← List.append_nil (s.threads.set t _)]
      refine h.exit ht hcalls (.inl ⟨.enter, rfl, hconn⟩) (.refl _) h.shared ?_ ?_
      · rintro _ - (hp | hp)
        · cases hp
        · cases hp
      · intro _ _ hp
        cases hp
    · cases hstep

end Step

end Gmaker.Registry.ClientPool
