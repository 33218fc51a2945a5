import Gmaker.Lib.Inevitable
import Gmaker.Lib.Threads
import Gmaker.Lib.Trap

/-!
# Gmaker.Net.UpstreamNode — a node of an upstream pool and its connections

`tryConnectLocked` dials, keeps the new client and marks the node healthy. The goroutines of the
connection are running from the moment it is made: it may be closed at any point after that, and
the close callback then clears `c.conn` and marks the node unhealthy. The reconnect loop tries a
node that is neither healthy nor connecting.

When all threads have come to rest, a healthy node is connected, and a node that is not connected
is tried again, exactly if the node was marked healthy before the close callback of the same
connection had marked it unhealthy (`Node.good_iff`); and they do come to rest.
-/

namespace Gmaker.Net.Upstream

open Gmaker.Lib

/-! ## A node -/

/-- How far `shutdown` of a connection has come. -/
inductive Closing where
  | isOpen
  /-- `closed` is set, the callback has not begun. -/
  | shut
  /-- The callback has cleared `c.conn`. -/
  | forgotten
  /-- The callback has marked the node unhealthy. -/
  | told
deriving DecidableEq

/-- A `TCPClient` and the one connection that it made. -/
structure TCPClient where
  /-- `c.conn` is not nil. -/
  conn : Bool
  closing : Closing
deriving DecidableEq

/-- Where the thread is that holds the lock of the pool, with the client that it has made. -/
inductive Stage where
  | idle
  | dialing
  /-- `Connect` has failed, the node is marked unhealthy. -/
  | failed
  /-- `NewTCPConn` has returned. -/
  | connected (k : ℕ)
  /-- `c.conn` is set. -/
  | assigned (k : ℕ)
  /-- `n.Client` is set. -/
  | stored (k : ℕ)
  /-- `n.Healthy` is set. -/
  | marked (k : ℕ)
deriving DecidableEq

/-- A `Node`, the clients that were made for it, and the thread that connects it. -/
structure Node where
  healthy : Bool
  connecting : Bool
  client : Option ℕ
  clients : List TCPClient
  stage : Stage
deriving DecidableEq

inductive NodeLabel where
  /-- `Start` or the reconnect loop tries the node. -/
  | tryConnect
  /-- `DialTimeout` returns, with a connection or an error. -/
  | dialed (ok : Bool)
  | assign
  | storeClient
  | storeHealthy
  /-- `n.Connecting.Store(false)`. -/
  | finish
  /-- The peer has gone, or somebody closes the connection. -/
  | shutdown (i : ℕ)
  | forget (i : ℕ)
  | tell (i : ℕ)
  /-- `TCPClient.Close` clears `c.conn` when the connection is closed. -/
  | clear (i : ℕ)
deriving DecidableEq

namespace Node

/-- `&Node{Addr: addr}`. -/
def new : Node := ⟨false, false, none, [], .idle⟩

/-- A client changes. -/
def setClient (n : Node) (i : ℕ) (c : TCPClient) : Node :=
  { n with clients := n.clients.set i c }

def next (n : Node) : NodeLabel → Option Node
  | .tryConnect =>
    if n.stage = .idle ∧ n.healthy = false ∧ n.connecting = false then
      some { n with connecting := true, stage := .dialing }
    else none
  | .dialed ok =>
    if n.stage = .dialing then
      if ok then
        some { n with clients := n.clients ++ [⟨false, .isOpen⟩], stage := .connected n.clients.length }
      else some { n with healthy := false, stage := .failed }
    else none
  | .assign => match n.stage with
    | .connected k => (n.clients[k]?).bind fun c =>
      some { n.setClient k { c with conn := true } with stage := .assigned k }
    | _ => none
  | .storeClient => match n.stage with
    | .assigned k => some { n with client := some k, stage := .stored k }
    | _ => none
  | .storeHealthy => match n.stage with
    | .stored k => some { n with healthy := true, stage := .marked k }
    | _ => none
  | .finish => match n.stage with
    | .marked _ | .failed => some { n with connecting := false, stage := .idle }
    | _ => none
  | .shutdown i => (n.clients[i]?).bind fun c =>
    if c.closing = .isOpen then some (n.setClient i { c with closing := .shut }) else none
  | .forget i => (n.clients[i]?).bind fun c =>
    if c.closing = .shut then some (n.setClient i ⟨false, .forgotten⟩) else none
  | .tell i => (n.clients[i]?).bind fun c =>
    if c.closing = .forgotten then
      some { n.setClient i { c with closing := .told } with healthy := false }
    else none
  | .clear i => (n.clients[i]?).bind fun c =>
    if c.closing = .told then some (n.setClient i { c with conn := false }) else none

/-- The current connection of the node is there and is not closed. -/
def Connected (n : Node) : Prop :=
  ∃ k ∈ n.client, ∃ c ∈ n.clients[k]?, c.conn = true ∧ c.closing = .isOpen

/-- The reconnect loop does not skip the node. -/
def Eligible (n : Node) : Prop := n.healthy = false ∧ n.connecting = false

/-- Nobody tries to connect the node, and no close callback is under way. -/
def Quiescent (n : Node) : Prop :=
  n.stage = .idle ∧ ∀ c ∈ n.clients, c.closing = .isOpen ∨ c.closing = .told

instance (n : Node) : Decidable n.Quiescent :=
  inferInstanceAs (Decidable (_ ∧ ∀ c ∈ n.clients, _))

/-- A healthy node is connected, and one that is not is tried again. -/
def Good (n : Node) : Prop :=
  (n.healthy = true → n.Connected) ∧ (¬ n.Connected → n.Eligible)

/-- The condition: the node is marked healthy when the callback of the connection has not yet
marked it unhealthy. -/
def Keeps (n : Node) : NodeLabel → Prop
  | .storeHealthy => ∀ k, n.stage = .stored k → ∀ c ∈ n.clients[k]?, c.closing ≠ .told
  | _ => True

/-- What threads that are under way do. -/
def Internal : NodeLabel → Prop
  | .tryConnect | .shutdown _ | .clear _ => False
  | _ => True

/-! ## The steps -/

/-- What a step does. -/
inductive Step (n : Node) : NodeLabel → Node → Prop
  | tryConnect (hidle : n.stage = .idle) (hhealthy : n.healthy = false) :
      Step n .tryConnect { n with connecting := true, stage := .dialing }
  | dialed (hdialing : n.stage = .dialing) :
      Step n (.dialed true)
        { n with clients := n.clients ++ [⟨false, .isOpen⟩], stage := .connected n.clients.length }
  | failed (hdialing : n.stage = .dialing) :
      Step n (.dialed false) { n with healthy := false, stage := .failed }
  | assign {k : ℕ} {c : TCPClient} (hstage : n.stage = .connected k) (hc : n.clients[k]? = some c) :
      Step n .assign { n.setClient k { c with conn := true } with stage := .assigned k }
  | storeClient {k : ℕ} (hstage : n.stage = .assigned k) :
      Step n .storeClient { n with client := some k, stage := .stored k }
  | storeHealthy {k : ℕ} (hstage : n.stage = .stored k) :
      Step n .storeHealthy { n with healthy := true, stage := .marked k }
  | finish (hstage : n.stage = .failed ∨ ∃ k, n.stage = .marked k) :
      Step n .finish { n with connecting := false, stage := .idle }
  | shutdown {i : ℕ} {c : TCPClient} (hc : n.clients[i]? = some c) (hopen : c.closing = .isOpen) :
      Step n (.shutdown i) (n.setClient i { c with closing := .shut })
  | forget {i : ℕ} {c : TCPClient} (hc : n.clients[i]? = some c) (hshut : c.closing = .shut) :
      Step n (.forget i) (n.setClient i ⟨false, .forgotten⟩)
  | tell {i : ℕ} {c : TCPClient} (hc : n.clients[i]? = some c) (hforgotten : c.closing = .forgotten) :
      Step n (.tell i) { n.setClient i { c with closing := .told } with healthy := false }
  | clear {i : ℕ} {c : TCPClient} (hc : n.clients[i]? = some c) (htold : c.closing = .told) :
      Step n (.clear i) (n.setClient i { c with conn := false })

variable {n n' : Node} {l : NodeLabel} {i k : ℕ} {c : TCPClient}

theorem step_of_next (h : n.next l = some n') : Step n l n' := by
  cases l with
  | tryConnect =>
    obtain ⟨⟨hidle, hhealthy, -⟩, heq⟩ := Option.ite_none_right_eq_some.mp h
    cases heq
    exact .tryConnect hidle hhealthy
  | dialed ok =>
    obtain ⟨hdialing, heq⟩ := Option.ite_none_right_eq_some.mp h
    cases ok with
    | true =>
      cases heq
      exact .dialed hdialing
    | false =>
      cases heq
      exact .failed hdialing
  | assign =>
    simp only [next] at h
    split at h
    · next k hstage =>
      obtain ⟨c, hc, heq⟩ := Option.bind_eq_some_iff.mp h
      cases heq
      exact .assign hstage hc
    · cases h
  | storeClient =>
    simp only [next] at h
    split at h
    · next k hstage =>
      cases h
      exact .storeClient hstage
    · cases h
  | storeHealthy =>
    simp only [next] at h
    split at h
    · next k hstage =>
      cases h
      exact .storeHealthy hstage
    · cases h
  | finish =>
    simp only [next] at h
    split at h
    · next k hstage =>
      cases h
      exact .finish (.inr ⟨k, hstage⟩)
    · next hstage =>
      cases h
      exact .finish (.inl hstage)
    · cases h
  | shutdown i =>
    obtain ⟨c, hc, hif⟩ := Option.bind_eq_some_iff.mp h
    obtain ⟨hopen, heq⟩ := Option.ite_none_right_eq_some.mp hif
    cases heq
    exact .shutdown hc hopen
  | forget i =>
    obtain ⟨c, hc, hif⟩ := Option.bind_eq_some_iff.mp h
    obtain ⟨hshut, heq⟩ := Option.ite_none_right_eq_some.mp hif
    cases heq
    exact .forget hc hshut
  | tell i =>
    obtain ⟨c, hc, hif⟩ := Option.bind_eq_some_iff.mp h
    obtain ⟨hforgotten, heq⟩ := Option.ite_none_right_eq_some.mp hif
    cases heq
    exact .tell hc hforgotten
  | clear i =>
    obtain ⟨c, hc, hif⟩ := Option.bind_eq_some_iff.mp h
    obtain ⟨htold, heq⟩ := Option.ite_none_right_eq_some.mp hif
    cases heq
    exact .clear hc htold

/-! ## Threads come to rest -/

/-- How many steps the thread of the pool has left. -/
def stepsLeft : Stage → ℕ
  | .idle => 0
  | .failed | .marked _ => 1
  | .stored _ => 2
  | .assigned _ => 3
  | .connected _ => 4
  | .dialing => 5

/-- How many steps `shutdown` of a connection has left. -/
def callbackLeft (c : TCPClient) : ℕ :=
  match c.closing with
  | .isOpen | .told => 0
  | .shut => 2
  | .forgotten => 1

/-- How many steps the threads have left that are under way. -/
def work (n : Node) : ℕ := stepsLeft n.stage + (n.clients.map callbackLeft).sum

/-- Every step of a thread that is under way makes what is left smaller. -/
theorem work_lt (hinternal : Internal l) (hs : Step n l n') : n'.work < n.work := by
  unfold work
  cases hs with
  | tryConnect => exact absurd hinternal id
  | dialed hdialing =>
    rw [hdialing, sum_map_append]
    exact Nat.add_lt_add_right (by decide : 4 < 5) _
  | failed hdialing =>
    rw [hdialing]
    exact Nat.add_lt_add_right (by decide : 1 < 5) _
  | @assign k c hstage hc =>
    have hsum := sum_map_set callbackLeft (y := { c with conn := true }) hc
    have hsame : callbackLeft { c with conn := true } = callbackLeft c := rfl
    rw [hstage]
    show 3 + ((n.clients.set k _).map callbackLeft).sum < 4 + _
    omega
  | storeClient hstage =>
    rw [hstage]
    exact Nat.add_lt_add_right (by decide : 2 < 3) _
  | storeHealthy hstage =>
    rw [hstage]
    exact Nat.add_lt_add_right (by decide : 1 < 2) _
  | finish hstage =>
    have hleft : stepsLeft n.stage = 1 := by
      rcases hstage with h | ⟨k, h⟩
      · rw [h]
        rfl
      · rw [h]
        rfl
    rw [hleft]
    exact Nat.add_lt_add_right (by decide : 0 < 1) _
  | shutdown => exact absurd hinternal id
  | @forget i c hc hshut =>
    have hsum := sum_map_set callbackLeft (y := ⟨false, .forgotten⟩) hc
    have hold : callbackLeft c = 2 := by
      unfold callbackLeft
      rw [hshut]
    have hnew : callbackLeft ⟨false, .forgotten⟩ = 1 := rfl
    show stepsLeft n.stage + ((n.clients.set i _).map callbackLeft).sum < stepsLeft n.stage + _
    omega
  | @tell i c hc hforgotten =>
    have hsum := sum_map_set callbackLeft (y := { c with closing := .told }) hc
    have hold : callbackLeft c = 1 := by
      unfold callbackLeft
      rw [hforgotten]
    have hnew : callbackLeft { c with closing := .told } = 0 := rfl
    show stepsLeft n.stage + ((n.clients.set i _).map callbackLeft).sum < stepsLeft n.stage + _
    omega
  | clear => exact absurd hinternal id

/-- The connection that was just made is in the table. -/
def Placed (n : Node) : Prop := ∀ k, n.stage = .connected k → k < n.clients.length

theorem Placed.step (h : Placed n) (hs : Step n l n') : Placed n' := by
  have hset (i : ℕ) (c : TCPClient) : Placed (n.setClient i c) := by
    intro k hk
    show k < (n.clients.set i c).length
    rw [List.length_set]
    exact h k hk
  cases hs with
  | dialed =>
    rintro _ ⟨⟩
    show n.clients.length < (n.clients ++ [_]).length
    rw [List.length_append]
    exact Nat.lt_succ_self _
  | shutdown | forget | tell | clear => exact hset _ _
  | _ =>
    rintro k ⟨⟩

/-- As long as the work is not done some thread can go on. -/
theorem exists_internal (hplaced : n.Placed) :
    n.Quiescent ∨ ∃ l n', Internal l ∧ n.next l = some n' := by
  by_cases hclients : ∀ c ∈ n.clients, c.closing = .isOpen ∨ c.closing = .told
  · have hthread (l : NodeLabel) {m : Node} (hl : Internal l) (h : n.next l = some m) :
        n.Quiescent ∨ ∃ l n', Internal l ∧ n.next l = some n' := .inr ⟨l, m, hl, h⟩
    cases hstage : n.stage with
    | idle => exact .inl ⟨hstage, hclients⟩
    | dialing =>
      refine hthread (.dialed false) trivial (m := { n with healthy := false, stage := .failed }) ?_
      simp [next, hstage]
    | failed =>
      refine hthread .finish trivial (m := { n with connecting := false, stage := .idle }) ?_
      simp [next, hstage]
    | connected k =>
      have hc : n.clients[k]? = some _ := List.getElem?_eq_getElem (hplaced k hstage)
      refine hthread .assign trivial
        (m := { n.setClient k { n.clients.get ⟨k, hplaced k hstage⟩ with conn := true } with
          stage := .assigned k }) ?_
      simp [next, hstage, hc]
    | assigned k =>
      refine hthread .storeClient trivial (m := { n with client := some k, stage := .stored k }) ?_
      simp [next, hstage]
    | stored k =>
      refine hthread .storeHealthy trivial (m := { n with healthy := true, stage := .marked k }) ?_
      simp [next, hstage]
    | marked k =>
      refine hthread .finish trivial (m := { n with connecting := false, stage := .idle }) ?_
      simp [next, hstage]
  · -- a callback is under way
    simp only [not_forall, not_or] at hclients
    obtain ⟨c, hc, hopen, htold⟩ := hclients
    obtain ⟨i, hi⟩ := List.mem_iff_getElem?.mp hc
    cases hclosing : c.closing with
    | isOpen => exact absurd hclosing hopen
    | shut =>
      refine .inr ⟨.forget i, n.setClient i ⟨false, .forgotten⟩, trivial, ?_⟩
      simp [next, hi, hclosing]
    | forgotten =>
      refine .inr ⟨.tell i, { n.setClient i { c with closing := .told } with healthy := false },
        trivial, ?_⟩
      simp [next, hi, hclosing]
    | told => exact absurd hclosing htold

/-! ## Healthy nodes -/

/-- The connection that matters: that of the attempt under way, or that of a healthy node. -/
def cur (n : Node) : Option ℕ :=
  match n.stage with
  | .idle => if n.healthy then n.client else none
  | .dialing | .failed => none
  | .connected k | .assigned k | .stored k | .marked k => some k

/-- What holds as long as the condition is met. -/
structure Inv (n : Node) : Prop where
  connecting : n.connecting = true ↔ n.stage ≠ .idle
  valid : ∀ k, n.cur = some k → ∃ c, n.clients[k]? = some c
  others : ∀ j c, n.clients[j]? = some c → n.cur ≠ some j → c.closing = .told
  conn : ∀ j c, n.clients[j]? = some c → n.cur = some j → n.stage ≠ .connected j →
    c.closing = .isOpen → c.conn = true
  healthy : n.healthy = true → (n.stage = .idle ∨ ∃ k, n.stage = .marked k) ∧
    ∃ k, n.client = some k ∧ n.cur = some k ∧ ∀ c, n.clients[k]? = some c → c.closing ≠ .told
  client : ∀ k, n.stage = .stored k ∨ n.stage = .marked k → n.client = some k
  marked : ∀ j c, n.clients[j]? = some c → n.stage = .marked j → n.healthy = false →
    c.closing = .told

/-- What is left of a node that is healthy for ever: all its connections are closed. -/
structure Stuck (n : Node) : Prop where
  healthy : n.healthy = true
  told : ∀ c ∈ n.clients, c.closing = .told
  stage : n.stage = .idle ∨ ∃ k, n.stage = .marked k

theorem new_inv : Inv new where
  connecting := by decide
  valid := by
    intro k hk
    cases hk
  others := by
    intro j c hj
    cases hj
  conn := by
    intro j c hj
    cases hj
  healthy := by
    intro h
    cases h
  client := by
    rintro k (h | h)
    · cases h
    · cases h
  marked := by
    intro j c hj
    cases hj

/-- A connection whose callback is not through is the one that matters. -/
theorem Inv.cur_of_ne_told (h : Inv n) (hc : n.clients[i]? = some c) (hne : c.closing ≠ .told) :
    n.cur = some i := by
  by_contra hcur
  exact hne (h.others i c hc hcur)

/-- A client goes on without marking the node. -/
theorem Inv.setClient (h : Inv n) (hc : n.clients[i]? = some c) {c' : TCPClient}
    (htold : c'.closing = .told ↔ c.closing = .told) (hopen : c'.closing ≠ .isOpen) :
    Inv (n.setClient i c') where
  connecting := h.connecting
  valid := by
    intro k hk
    obtain ⟨d, hd⟩ := h.valid k hk
    show ∃ c, (n.clients.set i c')[k]? = some c
    rw [getElem?_set_at hc]
    split_ifs
    · exact ⟨c', rfl⟩
    · exact ⟨d, hd⟩
  others := forall_set hc (fun hcur => htold.mpr (h.others i c hc hcur)) h.others
  conn := forall_set hc (fun _ _ hopen' => absurd hopen' hopen) h.conn
  healthy := by
    intro hhealthy
    obtain ⟨hstage, k, hclient, hcur, hk⟩ := h.healthy hhealthy
    refine ⟨hstage, k, hclient, hcur, fun d hd => ?_⟩
    rw [show (n.setClient i c').clients = n.clients.set i c' from rfl, getElem?_set_at hc] at hd
    split_ifs at hd with hki
    · cases hd
      subst hki
      exact fun hd => hk c hc (htold.mp hd)
    · exact hk d hd
  client := h.client
  marked := forall_set hc (fun hstage hhealthy => htold.mpr (h.marked i c hc hstage hhealthy))
    h.marked

/-- A node that is marked unhealthy has no other connection that matters. -/
theorem cur_of_unhealthy (h : n'.cur = some k) (hstage : n'.stage = n.stage)
    (hhealthy : n'.healthy = false) : n.cur = some k := by
  unfold cur at h ⊢
  rw [hstage, hhealthy] at h
  cases hs : n.stage with
  | idle =>
    rw [hs] at h
    cases h
  | _ =>
    rw [hs] at h
    exact h

/-- The callback marks the node unhealthy. -/
theorem Inv.tell (h : Inv n) (hc : n.clients[i]? = some c) (hforgotten : c.closing = .forgotten) :
    Inv { n.setClient i { c with closing := .told } with healthy := false } := by
  have hcur : n.cur = some i := h.cur_of_ne_told hc (by rw [hforgotten]; exact Closing.noConfusion)
  -- no callback is left to run
  have htold : ∀ (j : ℕ) (d : TCPClient), (n.clients.set i { c with closing := .told })[j]? = some d →
      d.closing = .told := by
    intro j d hd
    rw [getElem?_set_at hc] at hd
    split_ifs at hd with hji
    · cases hd
      rfl
    · refine h.others j d hd fun hj => hji ?_
      exact Option.some.inj (hj.symm.trans hcur)
  refine ⟨h.connecting, fun k hk => ?_, fun j d hd _ => htold j d hd, fun j d hd _ _ hopen => ?_,
    fun hhealthy => Bool.noConfusion hhealthy, h.client, fun j d hd _ _ => htold j d hd⟩
  · obtain ⟨d, hd⟩ := h.valid k (cur_of_unhealthy hk rfl rfl)
    show ∃ c', (n.clients.set i _)[k]? = some c'
    rw [getElem?_set_at hc]
    split_ifs
    · exact ⟨_, rfl⟩
    · exact ⟨d, hd⟩
  · rw [htold j d hd] at hopen
    cases hopen

/-- `c.conn` is set. -/
theorem Inv.assign (h : Inv n) (hstage : n.stage = .connected k) (hc : n.clients[k]? = some c) :
    Inv { n.setClient k { c with conn := true } with stage := .assigned k } := by
  have hcur : n.cur = some k := by
    unfold cur
    rw [hstage]
  have hidle : n.stage ≠ .idle := by
    rw [hstage]
    exact Stage.noConfusion
  refine ⟨iff_of_true (h.connecting.mpr hidle) Stage.noConfusion, ?_, ?_, ?_, ?_, ?_, ?_⟩
  · rintro _ ⟨⟩
    exact ⟨_, by
      show (n.clients.set k _)[k]? = _
      rw [getElem?_set_at hc, if_pos rfl]⟩
  · refine forall_set hc (fun hne => absurd rfl hne) fun j d hd hne => ?_
    exact h.others j d hd (by rw [hcur]; exact hne)
  · intro j d hd hj _ _
    cases hj
    rw [show ({ n.setClient k { c with conn := true } with stage := .assigned k } : Node).clients =
      n.clients.set k { c with conn := true } from rfl, getElem?_set_at hc, if_pos rfl] at hd
    cases hd
    rfl
  · intro hhealthy
    rcases (h.healthy hhealthy).1 with hs | ⟨j, hs⟩
    · exact absurd hs hidle
    · rw [hstage] at hs
      cases hs
  · rintro j (hs | hs)
    · cases hs
    · cases hs
  · intro j d _ hs
    cases hs

/-- A connection is made. -/
theorem Inv.dialed (h : Inv n) (hdialing : n.stage = .dialing) :
    Inv { n with clients := n.clients ++ [⟨false, .isOpen⟩],
                 stage := .connected n.clients.length } := by
  have hcur : n.cur = none := by
    unfold cur
    rw [hdialing]
  have hidle : n.stage ≠ .idle := by
    rw [hdialing]
    exact Stage.noConfusion
  have hlast : (n.clients ++ [(⟨false, .isOpen⟩ : TCPClient)])[n.clients.length]? =
      some ⟨false, .isOpen⟩ := by
    rw [getElem?_append_singleton, if_pos rfl]
  refine ⟨iff_of_true (h.connecting.mpr hidle) Stage.noConfusion, ?_, ?_, ?_, ?_, ?_, ?_⟩
  · rintro _ ⟨⟩
    exact ⟨_, hlast⟩
  · refine forall_append (fun hne => absurd rfl hne) fun j d hd _ => ?_
    refine h.others j d hd ?_
    rw [hcur]
    exact (Option.some_ne_none j).symm
  · rintro j d - ⟨⟩ hstage
    exact absurd rfl hstage
  · intro hhealthy
    rcases (h.healthy hhealthy).1 with hs | ⟨j, hs⟩
    · exact absurd hs hidle
    · rw [hdialing] at hs
      cases hs
  · rintro j (hs | hs)
    · cases hs
    · cases hs
  · intro j d _ hs
    cases hs

/-- The thread of the pool goes on with the connection that it has made. -/
theorem Inv.advance (h : Inv n) (hcur : n.cur = some k) (hunconnected : n.stage ≠ .connected k)
    (hconnecting : n.connecting = true) {stage : Stage} {healthy : Bool} (hstage : stage = .stored k ∨ stage = .marked k)
    (hnew : stage = .marked k → healthy = true)
    (hkeep : healthy = true → stage = .marked k ∧ ∀ c ∈ n.clients[k]?, c.closing ≠ .told) :
    Inv { n with client := some k, stage := stage, healthy := healthy } := by
  have hcur' : ({ n with client := some k, stage := stage, healthy := healthy } : Node).cur
      = some k := by
    rcases hstage with rfl | rfl
    · rfl
    · rfl
  have hidle : stage ≠ .idle := by
    rcases hstage with rfl | rfl
    · exact Stage.noConfusion
    · exact Stage.noConfusion
  refine ⟨iff_of_true hconnecting hidle, fun j hj => ?_, fun j d hd hne => ?_,
    fun j d hd hj _ hopen => ?_, fun hh => ?_, fun j hs => ?_, fun j d hd hs hh => ?_⟩
  · exact h.valid j (hcur.trans (hcur'.symm.trans hj))
  · exact h.others j d hd (by rw [hcur, ← hcur']; exact hne)
  · cases hcur'.symm.trans hj
    exact h.conn k d hd hcur hunconnected hopen
  · obtain ⟨hmarked, hk⟩ := hkeep hh
    exact ⟨.inr ⟨k, hmarked⟩, k, rfl, hcur', hk⟩
  · rcases hstage with rfl | rfl
    · rcases hs with hs | hs
      · cases hs
        rfl
      · cases hs
    · rcases hs with hs | hs
      · cases hs
      · cases hs
        rfl
  · have hmarked : stage = .marked k := by
      rcases hstage with rfl | rfl
      · cases hs
      · rfl
    rw [hnew hmarked] at hh
    cases hh

/-- The thread of the pool is done. -/
theorem Inv.finish (h : Inv n) (hstage : n.stage = .failed ∨ ∃ k, n.stage = .marked k) :
    Inv { n with connecting := false, stage := .idle } := by
  refine ⟨iff_of_false Bool.false_ne_true (fun hne => hne rfl), fun j hj => ?_, fun j d hd hne => ?_,
    fun j d hd hj _ hopen => ?_, fun hh => ?_, fun j hs => ?_, fun j d hd hs => ?_⟩
  · obtain ⟨hh, hclient⟩ := Option.ite_none_right_eq_some.mp hj
    obtain ⟨-, k, hk, hcur, -⟩ := h.healthy hh
    cases hk.symm.trans hclient
    exact h.valid j hcur
  · by_cases hcur : n.cur = some j
    · -- if the node is unhealthy, the callback of its connection is through
      rcases hstage with hs | ⟨k, hs⟩
      · unfold cur at hcur
        rw [hs] at hcur
        cases hcur
      · have hkj : k = j := by
          unfold cur at hcur
          rw [hs] at hcur
          exact Option.some.inj hcur
        subst hkj
        cases hh : n.healthy with
        | false => exact h.marked k d hd hs hh
        | true =>
          refine absurd ?_ hne
          show (if n.healthy then n.client else none) = some k
          rw [hh, if_pos rfl]
          exact h.client k (.inr hs)
    · exact h.others j d hd hcur
  · obtain ⟨hh, hclient⟩ := Option.ite_none_right_eq_some.mp hj
    obtain ⟨hs, k, hk, hcur, -⟩ := h.healthy hh
    cases hk.symm.trans hclient
    refine h.conn j d hd hcur ?_ hopen
    rcases hs with hs | ⟨m, hs⟩
    · rw [hs]
      exact Stage.noConfusion
    · rw [hs]
      exact Stage.noConfusion
  · obtain ⟨-, k, hk, -, htold⟩ := h.healthy hh
    refine ⟨.inl rfl, k, hk, ?_, htold⟩
    show (if n.healthy then n.client else none) = some k
    rw [if_pos hh, hk]
  · rcases hs with hs | hs
    · cases hs
    · cases hs
  · cases hs

/-- Every step that meets the condition keeps the invariant. -/
theorem Inv.step (h : Inv n) (hkeeps : n.Keeps l) (hs : Step n l n') : Inv n' := by
  cases hs with
  | tryConnect hidle hhealthy =>
    have hcur : n.cur = none := by
      unfold cur
      rw [hidle, hhealthy]
      rfl
    refine ⟨iff_of_true rfl Stage.noConfusion, ?_, fun j d hd _ => ?_, ?_, fun hh => ?_, ?_, ?_⟩
    · rintro j ⟨⟩
    · refine h.others j d hd ?_
      rw [hcur]
      exact (Option.some_ne_none j).symm
    · rintro j d - ⟨⟩
    · rw [hhealthy] at hh
      cases hh
    · rintro j (hs | hs)
      · cases hs
      · cases hs
    · rintro j d - ⟨⟩
  | dialed hdialing => exact h.dialed hdialing
  | failed hdialing =>
    have hcur : n.cur = none := by
      unfold cur
      rw [hdialing]
    have hidle : n.stage ≠ .idle := by
      rw [hdialing]
      exact Stage.noConfusion
    refine ⟨iff_of_true (h.connecting.mpr hidle) Stage.noConfusion, ?_, fun j d hd _ => ?_, ?_,
      Bool.noConfusion, ?_, ?_⟩
    · rintro j ⟨⟩
    · refine h.others j d hd ?_
      rw [hcur]
      exact (Option.some_ne_none j).symm
    · rintro j d - ⟨⟩
    · rintro j (hs | hs)
      · cases hs
      · cases hs
    · rintro j d - ⟨⟩
  | assign hstage hc => exact h.assign hstage hc
  | @storeClient k hstage =>
    have hcur : n.cur = some k := by
      unfold cur
      rw [hstage]
    have hidle : n.stage ≠ .idle := by
      rw [hstage]
      exact Stage.noConfusion
    have hhealthy : n.healthy ≠ true := by
      intro hh
      rcases (h.healthy hh).1 with hs | ⟨j, hs⟩
      · exact hidle hs
      · rw [hstage] at hs
        cases hs
    refine h.advance hcur ?_ (h.connecting.mpr hidle) (.inl rfl) Stage.noConfusion
      fun hh => absurd hh hhealthy
    rw [hstage]
    exact Stage.noConfusion
  | @storeHealthy k hstage =>
    have hcur : n.cur = some k := by
      unfold cur
      rw [hstage]
    have hidle : n.stage ≠ .idle := by
      rw [hstage]
      exact Stage.noConfusion
    have hnew := h.advance hcur (by rw [hstage]; exact Stage.noConfusion)
      (h.connecting.mpr hidle) (.inr rfl) (fun _ => rfl) fun _ => ⟨rfl, hkeeps k hstage⟩
    rw [← h.client k (.inl hstage)] at hnew
    exact hnew
  | finish hstage => exact h.finish hstage
  | shutdown hc hopen =>
    refine h.setClient hc ?_ Closing.noConfusion
    rw [hopen]
    exact iff_of_false Closing.noConfusion Closing.noConfusion
  | forget hc hshut =>
    refine h.setClient hc ?_ Closing.noConfusion
    rw [hshut]
    exact iff_of_false Closing.noConfusion Closing.noConfusion
  | tell hc hforgotten => exact h.tell hc hforgotten
  | clear hc htold =>
    refine h.setClient hc Iff.rfl ?_
    show _ ≠ _
    rw [htold]
    exact Closing.noConfusion

/-- A step that does not meet the condition leaves the node healthy for ever. -/
theorem Inv.stuck (h : Inv n) (hno : ¬ n.Keeps l) (hs : Step n l n') : Stuck n' := by
  cases hs with
  | @storeHealthy k hstage =>
    refine ⟨rfl, fun d hd => ?_, .inr ⟨k, rfl⟩⟩
    obtain ⟨j, hj⟩ := List.mem_iff_getElem?.mp hd
    by_cases hjk : j = k
    · -- its own callback is through
      subst hjk
      by_contra hne
      refine hno fun i hi c hc => ?_
      rw [hstage] at hi
      cases hi
      cases hj.symm.trans hc
      exact hne
    · refine h.others j d hj fun hcur => hjk ?_
      unfold cur at hcur
      rw [hstage] at hcur
      exact (Option.some.inj hcur).symm
  | _ => exact absurd trivial hno

theorem Stuck.step (h : Stuck n) (hs : Step n l n') : Stuck n' := by
  have hidle : ∀ {stage : Stage}, n.stage = stage → stage = .idle ∨ ∃ k, stage = .marked k := by
    rintro _ rfl
    exact h.stage
  cases hs with
  | tryConnect _ hhealthy =>
    rw [h.healthy] at hhealthy
    cases hhealthy
  | dialed hdialing =>
    rcases hidle hdialing with hs | ⟨k, hs⟩
    · cases hs
    · cases hs
  | failed hdialing =>
    rcases hidle hdialing with hs | ⟨k, hs⟩
    · cases hs
    · cases hs
  | assign hstage _ =>
    rcases hidle hstage with hs | ⟨k, hs⟩
    · cases hs
    · cases hs
  | storeClient hstage =>
    rcases hidle hstage with hs | ⟨k, hs⟩
    · cases hs
    · cases hs
  | storeHealthy hstage =>
    rcases hidle hstage with hs | ⟨k, hs⟩
    · cases hs
    · cases hs
  | finish _ => exact ⟨h.healthy, h.told, .inl rfl⟩
  | shutdown hc hopen =>
    rw [h.told _ (List.mem_of_getElem? hc)] at hopen
    cases hopen
  | forget hc hshut =>
    rw [h.told _ (List.mem_of_getElem? hc)] at hshut
    cases hshut
  | tell hc hforgotten =>
    rw [h.told _ (List.mem_of_getElem? hc)] at hforgotten
    cases hforgotten
  | clear hc htold =>
    refine ⟨h.healthy, fun d hd => ?_, h.stage⟩
    rcases List.mem_or_eq_of_mem_set hd with hd | rfl
    · exact h.told d hd
    · exact htold

/-! ## At rest -/

theorem Inv.good (h : Inv n) (hquiet : n.Quiescent) : n.Good := by
  have hconnected : n.healthy = true → n.Connected := by
    intro hh
    obtain ⟨-, k, hclient, hcur, htold⟩ := h.healthy hh
    obtain ⟨c, hc⟩ := h.valid k hcur
    have hopen : c.closing = .isOpen :=
      (hquiet.2 c (List.mem_of_getElem? hc)).resolve_right (htold c hc)
    refine ⟨k, hclient, c, hc, h.conn k c hc hcur ?_ hopen, hopen⟩
    rw [hquiet.1]
    exact Stage.noConfusion
  refine ⟨hconnected, fun hno => ⟨?_, ?_⟩⟩
  · exact Bool.eq_false_iff.mpr fun hh => hno (hconnected hh)
  · exact Bool.eq_false_iff.mpr fun hc => h.connecting.mp hc hquiet.1

theorem Stuck.not_good (h : Stuck n) : ¬ n.Good := by
  rintro ⟨hconnected, -⟩
  obtain ⟨k, -, c, hc, -, hopen⟩ := hconnected h.healthy
  rw [h.told c (List.mem_of_getElem? hc)] at hopen
  cases hopen

/-- All threads come to rest, and then a healthy node is connected and one that is not is tried
again, exactly if every step of the run met the condition. -/
theorem good_iff {ls : List NodeLabel} (hrun : run next new ls = some n) :
    Inevitably next (fun _ l => Internal l) Quiescent n ∧
      (n.Quiescent → (RunOk next Keeps new ls ↔ n.Good)) := by
  constructor
  · have hplaced : n.Placed := by
      refine run_invariant_all (fun s l s' h hs => h.step (step_of_next hs)) ?_ hrun
      intro k hk
      cases hk
    refine inevitably_of_measure Nat.lt_wfRel.wf work (I := Placed) ?_ ?_ ?_ hplaced
    · exact fun s l s' h _ hs => h.step (step_of_next hs)
    · exact fun s h => exists_internal h
    · exact fun s l s' _ hinternal hs => work_lt hinternal (step_of_next hs)
  · intro hquiet
    refine runOk_iff_of_trap (I := Inv) (B := Stuck) ?_ ?_ ?_ new_inv hrun
      (fun h => h.good hquiet) Stuck.not_good
    · exact fun s l s' h hkeeps hs => h.step hkeeps (step_of_next hs)
    · exact fun s l s' h hno hs => h.stuck hno (step_of_next hs)
    · exact fun s l s' h hs => h.step (step_of_next hs)

/-- A node is connected and stays so. -/
def plainConnect : List NodeLabel :=
  [.tryConnect, .dialed true, .assign, .storeClient, .storeHealthy, .finish]

theorem good_plainConnect :
    RunOk next Keeps new plainConnect ↔ Good ⟨true, false, some 0, [⟨true, .isOpen⟩], .idle⟩ :=
  (good_iff (n := ⟨true, false, some 0, [⟨true, .isOpen⟩], .idle⟩) rfl).2 (by decide)

/-- The peer goes at once: the callback is through before the node is marked healthy. -/
def earlyClose : List NodeLabel :=
  [.tryConnect, .dialed true, .shutdown 0, .forget 0, .tell 0, .assign, .storeClient,
    .storeHealthy, .finish]

/-- All is at rest, and the node is healthy with a closed connection. -/
theorem not_good_earlyClose : ∃ n, run next new earlyClose = some n ∧ n.Quiescent ∧ ¬ n.Good := by
  refine ⟨⟨true, false, some 0, [⟨true, .told⟩], .idle⟩, rfl, by decide, fun hgood => ?_⟩
  obtain ⟨k, hk, c, hc, -, hopen⟩ := hgood.1 rfl
  cases hk
  cases hc
  cases hopen

end Node

end Gmaker.Net.Upstream
