import Gmaker.Gateway.Players
import Gmaker.Lib.Machine
import Gmaker.Lib.Threads
import Gmaker.Net.Packet

/-!
# Gmaker.Gateway.Bind — binding a player to a connection

A client sends a `PlayerBindReq`; the gateway notes it as pending and forwards it;
Biz checks the token and answers; on code 0 the gateway binds the player *that is
pending for the connection*. A pending bind is found again by its sequence number,
and that is the client's choice.

The machine has one thread for each request, with one label for each critical
section of `HandlePlayerBind`, for Biz's answer and for the two critical sections of
`OnUpstreamPacket`. A connection's packets are handled one after the other, and the
answers come in any order.

`Authenticated` says that every binding was approved: some request of the connection
that named the player was answered with code 0. It holds in every run in which no
request replaces one for another player under the same number while the answer to
that one is still to come (`Separate`), and only in these (`authenticated_exact`).
-/

namespace Gmaker.Gateway

open Gmaker.Lib Gmaker.Net

/-! ## Messages -/

/-- `protocol::PlayerBindReq`. -/
structure PlayerBindReq where
  playerId : UInt64 := 0
  token : Bytes := []
deriving DecidableEq

/-- `protocol::PlayerBindRes`. -/
structure PlayerBindRes where
  code : UInt32 := 0
  msg : Bytes := []
deriving DecidableEq

/-- `ParseFromArray` of the two messages. -/
structure BindCodec where
  parseReq : Bytes → Option PlayerBindReq
  parseRes : Bytes → Option PlayerBindRes

/-- `gs::errors`. -/
def invalidParam : UInt32 := 2
def serviceUnavailable : UInt32 := 201

/-- What the gateway sends to a client on its own account. -/
inductive Reply where
  /-- `SendErrorAndClose` -/
  | errorAndClose (conn : UInt64) (seqId : UInt32) (code : UInt32) (msg : String)
  /-- `KickConnection` -/
  | kick (conn : UInt64) (reason : String)
  /-- the answer of Biz, before the connection is closed -/
  | responseAndClose (conn : UInt64) (seqId : UInt32) (payload : Bytes)
deriving DecidableEq

/-! ## Requests -/

/-- Where a request is. -/
inductive BindPc where
  /-- `HandlePlayerBind` has been called -/
  | received
  /-- not bound, and the fields are there: about to note it as pending -/
  | ready
  /-- noted as pending: about to be forwarded -/
  | stored
  /-- at Biz -/
  | sent
  /-- answered: the answer is on its way -/
  | answered
  /-- the answer has been matched: about to bind the player -/
  | binding (playerId : UInt64)
  | done
deriving DecidableEq

/-- A `PlayerBindReq` packet of a client, and Biz's answer to it. -/
structure BindCall where
  conn : UInt64
  seqId : UInt32
  payload : Bytes
  pc : BindPc := .received
  answer : Option Bytes := none
deriving DecidableEq

/-- The gateway's binding, with a log of the calls of `BindPlayer`. -/
structure Binding where
  players : Players UInt64 := {}
  calls : List BindCall := []
  closed : List UInt64 := []
  outbox : List Reply := []
  /-- log: player and connection -/
  bound : List (UInt64 × UInt64) := []

/-- What can happen. -/
inductive BindEvent where
  | receive (conn : UInt64) (seqId : UInt32) (payload : Bytes)
  | check (i : ℕ)
  | store (i : ℕ) (now : ℤ)
  /-- `RouteToPool` finds no pool -/
  | unrouted (i : ℕ)
  /-- `SendPacket`, and whether it succeeds -/
  | send (i : ℕ) (ok : Bool)
  /-- Biz answers with these bytes -/
  | answer (i : ℕ) (payload : Bytes)
  /-- the answer arrives -/
  | deliver (i : ℕ)
  | bind (i : ℕ)
  | close (conn : UInt64)
  | heartbeat (now : ℤ)
deriving DecidableEq

namespace Binding

variable (codec : BindCodec)

/-- What `OnUpstreamPacket` does after its first critical section. -/
inductive Outcome where
  /-- `return` -/
  | dropped
  | bind (playerId : UInt64)
  | refuse
  /-- the answer is passed on, nothing else -/
  | pass
deriving DecidableEq

/-- The first critical section of `OnUpstreamPacket` on a `CMD_GW_PLAYER_BIND`
packet. -/
def onBindRes (p : Players UInt64) (seqId : UInt32) (payload : Bytes) :
    Players UInt64 × Outcome :=
  if 8 ≤ payload.length then
    let conn := readU64BE payload 0
    match codec.parseRes (payload.drop 8) with
    | some res =>
      match p.takePending conn seqId with
      | (p, none) => (p, .dropped)
      | (p, some playerId) =>
        if res.code = 0 ∧ 0 < playerId then (p, .bind playerId)
        else if res.code ≠ 0 then (p, .refuse)
        else (p, .pass)
    | none => ((p.takePending conn seqId).1, .dropped)
  else (p.erasePendingSeq seqId, .dropped)

/-- Change a call. -/
def setCall (s : Binding) (i : ℕ) (call : BindCall) : Binding :=
  { s with calls := s.calls.set i call }

/-- The calls of the connection that `HandlePlayerBind` is still busy with. -/
def busy (s : Binding) (conn : UInt64) : Bool :=
  s.calls.any fun call => call.conn = conn ∧ call.pc ∈ [.received, .ready, .stored]

/-- A step of request `i`, if it is at `pc`. -/
def callStep (s : Binding) (i : ℕ) (pc : BindPc) (f : BindCall → Option Binding) :
    Option Binding :=
  s.calls[i]?.bind fun call => if call.pc = pc then f call else none

/-- The request is refused by `HandlePlayerBind`. -/
def reject (s : Binding) (i : ℕ) (call : BindCall) (code : UInt32) (msg : String) : Binding :=
  { s.setCall i { call with pc := .done } with
    outbox := s.outbox ++ [.errorAndClose call.conn call.seqId code msg] }

/-- The checks of `HandlePlayerBind`. -/
def check (s : Binding) (i : ℕ) (call : BindCall) : Binding :=
  if s.players.isPlayerBound call.conn then s.reject i call invalidParam "already bound"
  else
    match codec.parseReq call.payload with
    | none => s.reject i call invalidParam "invalid bind request"
    | some req =>
      if req.playerId = 0 ∨ req.token = [] then s.reject i call invalidParam "invalid bind request"
      else s.setCall i { call with pc := .ready }

/-- What follows the first critical section of `OnUpstreamPacket`; the payload of the
answer begins with the connection. -/
def deliver (s : Binding) (i : ℕ) (call : BindCall) (answer : Bytes) : Binding :=
  match onBindRes codec s.players call.seqId (writeU64BE call.conn ++ answer) with
  | (players, .bind playerId) => { s.setCall i { call with pc := .binding playerId } with players }
  | (players, .refuse) =>
    { s.setCall i { call with pc := .done } with
      players
      outbox := s.outbox ++ [.responseAndClose call.conn call.seqId answer] }
  | (players, _) => { s.setCall i { call with pc := .done } with players }

/-- `BindPlayer`, and the kick of the connection the player had before; 0 stands for
none. -/
def bindPlayer (s : Binding) (playerId conn : UInt64) : Binding :=
  let (players, oldConn) := s.players.bindPlayer playerId conn
  let kicks :=
    match oldConn with
    | some old => if old ≠ 0 then [Reply.kick old "account login elsewhere"] else []
    | none => []
  { s with players, outbox := s.outbox ++ kicks, bound := s.bound ++ [(playerId, conn)] }

/-- One step. -/
def next (s : Binding) : BindEvent → Option Binding
  | .receive conn seqId payload =>
    if conn ∈ s.closed ∨ s.busy conn then none
    else some { s with calls := s.calls ++ [{ conn, seqId, payload }] }
  | .check i => s.callStep i .received fun call => some (s.check codec i call)
  | .store i now =>
    s.callStep i .ready fun call => do
      let req ← codec.parseReq call.payload
      let b : PendingBind := { playerId := req.playerId, seqId := call.seqId, createdAt := now }
      some { s.setCall i { call with pc := .stored } with
        players := s.players.setPending call.conn b }
  | .unrouted i =>
    s.callStep i .stored fun call =>
      some { s.reject i call serviceUnavailable "bind service unavailable" with
        players := (s.players.takePending call.conn call.seqId).1 }
  | .send i ok =>
    s.callStep i .stored fun call =>
      if ok then some (s.setCall i { call with pc := .sent })
      else some { s.setCall i { call with pc := .done } with
        players := s.players.erasePending call.conn }
  | .answer i payload =>
    s.callStep i .sent fun call =>
      if (codec.parseRes payload).isSome then
        some (s.setCall i { call with pc := .answered, answer := some payload })
      else none
  | .deliver i =>
    s.callStep i .answered fun call => do
      let answer ← call.answer
      some (s.deliver codec i call answer)
  | .bind i => do
    let call ← s.calls[i]?
    match call.pc with
    | .binding playerId =>
      some ((s.setCall i { call with pc := .done }).bindPlayer playerId call.conn)
    | _ => none
  | .close conn =>
    if conn ∈ s.closed ∨ s.busy conn then none
    else some { s with closed := conn :: s.closed, players := s.players.cleanupPlayerState conn }
  | .heartbeat now => some { s with players := s.players.expirePending now }

/-! ## Approval -/

/-- The player that the request names. -/
def names (call : BindCall) : Option UInt64 := (codec.parseReq call.payload).map (·.playerId)

/-- The code that Biz has answered with. -/
def answerCode (call : BindCall) : Option UInt32 :=
  (call.answer.bind codec.parseRes).map (·.code)

/-- Some request of the connection that named the player was answered with code 0. -/
def Approved (s : Binding) (playerId conn : UInt64) : Prop :=
  ∃ call ∈ s.calls, call.conn = conn ∧ names codec call = some playerId ∧
    answerCode codec call = some 0

/-- Every player that was bound to a connection was approved for it. -/
def Authenticated (s : Binding) : Prop :=
  ∀ b ∈ s.bound, s.Approved codec b.1 b.2

end Binding

/-- The request may still be matched with a pending bind: it was noted, and its
answer has not arrived. -/
def BindPc.outstanding : BindPc → Bool
  | .stored | .sent | .answered => true
  | _ => false

/-- Biz has not answered yet. -/
def BindPc.unanswered : BindPc → Bool
  | .received | .ready | .stored | .sent => true
  | _ => false

namespace Binding

variable (codec : BindCodec)

/-- Biz has answered with another code than 0. -/
def refused (call : BindCall) : Bool :=
  match answerCode codec call with
  | some code => code ≠ 0
  | none => false

/-- A request that is noted as pending keeps apart from the earlier ones of its
connection: one under the same number whose answer is still to come names the same
player, or is refused, or else the player has been approved already. -/
def Separate (s : Binding) : BindEvent → Prop
  | .store i _ =>
    match s.calls[i]? with
    | none => True
    | some call =>
      ∀ other ∈ s.calls, other.conn = call.conn → other.seqId = call.seqId →
        other.pc.outstanding →
          names codec other = names codec call ∨ refused codec other ∨
            ∃ p, names codec call = some p ∧ s.Approved codec p call.conn
  | _ => True

/-! ## The invariant -/

/-- What holds of a request by where it is. -/
structure Good (call : BindCall) : Prop where
  unanswered : call.pc.unanswered → call.answer = none
  ready : call.pc = .ready → ∃ req, codec.parseReq call.payload = some req ∧ req.playerId ≠ 0
  answered : call.pc = .answered → ∃ code, answerCode codec call = some code

/-- A pending bind only waits for answers that approve it; what is about to be bound
is approved, and so is what was bound. -/
structure Inv (s : Binding) : Prop where
  pending : ∀ c b, s.players.pendingBinds c = some b → ∀ other ∈ s.calls, other.conn = c →
    other.seqId = b.seqId → other.pc.outstanding →
      names codec other = some b.playerId ∨ refused codec other ∨ s.Approved codec b.playerId c
  good : ∀ call ∈ s.calls, Good codec call
  binding : ∀ call ∈ s.calls, ∀ p, call.pc = .binding p → s.Approved codec p call.conn
  authenticated : s.Authenticated codec

section Inv

variable {codec : BindCodec} {s s' : Binding} {i : ℕ} {call call' : BindCall}

theorem callStep_eq_some {pc : BindPc} {f : BindCall → Option Binding} :
    s.callStep i pc f = some s' ↔ ∃ call, s.calls[i]? = some call ∧ call.pc = pc ∧ f call = some s' := by
  unfold callStep
  rw [Option.bind_eq_some_iff]
  constructor
  · rintro ⟨call, hcall, hstep⟩
    split_ifs at hstep with hpc
    exact ⟨call, hcall, hpc, hstep⟩
  · rintro ⟨call, hcall, hpc, hstep⟩
    exact ⟨call, hcall, by rw [if_pos hpc]; exact hstep⟩

/-- The request is the same; its answer may be new. -/
structure Keeps (call call' : BindCall) : Prop where
  conn : call'.conn = call.conn
  seqId : call'.seqId = call.seqId
  payload : call'.payload = call.payload
  answer : call.answer = none ∨ call'.answer = call.answer

theorem Keeps.names (h : Keeps call call') : names codec call' = names codec call := by
  unfold Binding.names
  rw [h.payload]

theorem Keeps.answerCode (h : Keeps call call') {code : UInt32}
    (hcode : answerCode codec call = some code) : answerCode codec call' = some code := by
  rcases h.answer with hnone | hsame
  · unfold Binding.answerCode at hcode
    rw [hnone] at hcode
    cases hcode
  · unfold Binding.answerCode at hcode ⊢
    rw [hsame]
    exact hcode

theorem Keeps.refused (h : Keeps call call') (href : refused codec call = true) :
    refused codec call' = true := by
  unfold Binding.refused at href ⊢
  cases hcode : Binding.answerCode codec call with
  | none =>
    rw [hcode] at href
    cases href
  | some code =>
    rw [hcode] at href
    rw [h.answerCode hcode]
    exact href

/-- An approval stays when a request moves on. -/
theorem Approved.setCall {playerId conn : UInt64} (h : s.Approved codec playerId conn)
    (hcall : s.calls[i]? = some call) (hkeeps : Keeps call call') (hcalls : s'.calls = s.calls.set i call') :
    s'.Approved codec playerId conn := by
  obtain ⟨a, ha, hconn, hnames, hcode⟩ := h
  obtain ⟨j, hj⟩ := List.mem_iff_getElem?.mp ha
  have hget := getElem?_set_at (y := call') (j := j) hcall
  by_cases hij : j = i
  · -- it is this request
    subst hij
    rw [hcall] at hj
    cases hj
    rw [if_pos rfl] at hget
    refine ⟨call', ?_, hkeeps.conn.trans hconn, hkeeps.names.trans hnames, hkeeps.answerCode hcode⟩
    rw [hcalls]
    exact List.mem_of_getElem? hget
  · rw [if_neg hij, hj] at hget
    refine ⟨a, ?_, hconn, hnames, hcode⟩
    rw [hcalls]
    exact List.mem_of_getElem? hget

/-- The requests after one has moved on: that one, and the others as they were. -/
theorem mem_calls_set {other : BindCall} (hmem : other ∈ s.calls.set i call') :
    other = call' ∨ other ∈ s.calls :=
  (List.mem_or_eq_of_mem_set hmem).symm

/-- A request moves on, and at most some pending binds go. -/
theorem Inv.move (h : Inv codec s) (hcall : s.calls[i]? = some call) (call' : BindCall)
    (hkeeps : Keeps call call')
    (hcalls : s'.calls = s.calls.set i call') (hbound : s'.bound = s.bound)
    (hpending : ∀ c b, s'.players.pendingBinds c = some b → s.players.pendingBinds c = some b)
    (hout : call'.pc.outstanding → call.pc.outstanding)
    (hgood : Good codec call')
    (hbinding : ∀ p, call'.pc = .binding p → s.Approved codec p call.conn) : Inv codec s' := by
  have hmem : call ∈ s.calls := List.mem_of_getElem? hcall
  have happroved : ∀ p c, s.Approved codec p c → s'.Approved codec p c :=
    fun p c ha => ha.setCall hcall hkeeps hcalls
  constructor
  · intro c b hb other hother hconn hseq houtstanding
    have hb' := hpending c b hb
    rw [hcalls] at hother
    rcases mem_calls_set hother with rfl | hold
    · rcases h.pending c b hb' call hmem (hkeeps.conn.symm.trans hconn)
        (hkeeps.seqId.symm.trans hseq) (hout houtstanding) with hnames | href | ha
      · exact Or.inl (hkeeps.names.trans hnames)
      · exact Or.inr (Or.inl (hkeeps.refused href))
      · exact Or.inr (Or.inr (happroved _ _ ha))
    · rcases h.pending c b hb' other hold hconn hseq houtstanding with hnames | href | ha
      · exact Or.inl hnames
      · exact Or.inr (Or.inl href)
      · exact Or.inr (Or.inr (happroved _ _ ha))
  · intro other hother
    rw [hcalls] at hother
    rcases mem_calls_set hother with rfl | hold
    · exact hgood
    · exact h.good other hold
  · intro other hother p hpc
    rw [hcalls] at hother
    rcases mem_calls_set hother with rfl | hold
    · rw [hkeeps.conn]
      exact happroved _ _ (hbinding p hpc)
    · exact happroved _ _ (h.binding other hold p hpc)
  · intro b hb
    rw [hbound] at hb
    exact happroved _ _ (h.authenticated b hb)

/-- Only pending binds go. -/
theorem Inv.forget (h : Inv codec s) (hcalls : s'.calls = s.calls) (hbound : s'.bound = s.bound)
    (hpending : ∀ c b, s'.players.pendingBinds c = some b → s.players.pendingBinds c = some b) :
    Inv codec s' := by
  have happroved : ∀ p c, s'.Approved codec p c ↔ s.Approved codec p c := by
    intro p c
    unfold Approved
    rw [hcalls]
  constructor
  · intro c b hb other hother hconn hseq hout
    rw [hcalls] at hother
    rw [happroved]
    exact h.pending c b (hpending c b hb) other hother hconn hseq hout
  · rw [hcalls]
    exact h.good
  · intro call hcall p hpc
    rw [hcalls] at hcall
    rw [happroved]
    exact h.binding call hcall p hpc
  · intro b hb
    rw [hbound] at hb
    rw [happroved]
    exact h.authenticated b hb

theorem good_done (call : BindCall) : Good codec { call with pc := .done } :=
  ⟨fun hun => (by cases hun), fun hready => (by cases hready), fun hans => by cases hans⟩

theorem good_binding (call : BindCall) (playerId : UInt64) :
    Good codec { call with pc := .binding playerId } :=
  ⟨fun hun => (by cases hun), fun hready => (by cases hready), fun hans => by cases hans⟩

theorem inv_init : Inv codec {} := by
  constructor
  · intro c b hb
    cases hb
  · intro call hcall
    cases hcall
  · intro call hcall
    cases hcall
  · intro b hb
    cases hb

/-! ## One step -/

theorem Inv.receive (h : Inv codec s) {conn : UInt64} {seqId : UInt32} {payload : Bytes} :
    Inv codec { s with calls := s.calls ++ [{ conn, seqId, payload }] } := by
  have happroved : ∀ p c, s.Approved codec p c →
      Approved codec { s with calls := s.calls ++ [{ conn, seqId, payload }] } p c := by
    rintro p c ⟨a, ha, hrest⟩
    exact ⟨a, List.mem_append_left _ ha, hrest⟩
  constructor
  · intro c b hb other hother hconn hseq hout
    rcases List.mem_append.mp hother with hold | hnew
    · rcases h.pending c b hb other hold hconn hseq hout with hnames | href | ha
      · exact Or.inl hnames
      · exact Or.inr (Or.inl href)
      · exact Or.inr (Or.inr (happroved _ _ ha))
    · -- the new request is not noted yet
      rw [List.mem_singleton.mp hnew] at hout
      cases hout
  · intro call hcall
    rcases List.mem_append.mp hcall with hold | hnew
    · exact h.good call hold
    · rw [List.mem_singleton.mp hnew]
      exact ⟨fun _ => rfl, fun hready => (by cases hready), fun hans => by cases hans⟩
  · intro call hcall p hpc
    rcases List.mem_append.mp hcall with hold | hnew
    · exact happroved _ _ (h.binding call hold p hpc)
    · rw [List.mem_singleton.mp hnew] at hpc
      cases hpc
  · intro b hb
    exact happroved _ _ (h.authenticated b hb)

/-- A request is refused by the gateway. -/
theorem Inv.reject (h : Inv codec s) (hcall : s.calls[i]? = some call) (code : UInt32)
    (msg : String) : Inv codec (s.reject i call code msg) := by
  refine h.move hcall { call with pc := .done } ⟨rfl, rfl, rfl, Or.inr rfl⟩ rfl rfl
    (fun _ _ hb => hb) (fun hout => by cases hout) (good_done call) ?_
  intro p hpc
  cases hpc

theorem Inv.check (h : Inv codec s) (hcall : s.calls[i]? = some call) (hpc : call.pc = .received) :
    Inv codec (s.check codec i call) := by
  unfold Binding.check
  split_ifs
  · exact h.reject hcall _ _
  · cases hreq : codec.parseReq call.payload with
    | none => exact h.reject hcall _ _
    | some req =>
      simp only
      split_ifs with hfields
      · exact h.reject hcall _ _
      · have hmem : call ∈ s.calls := List.mem_of_getElem? hcall
        have hnone : call.answer = none := (h.good call hmem).unanswered (by rw [hpc]; rfl)
        have hgood : Good codec { call with pc := .ready } :=
          ⟨fun _ => hnone, fun _ => ⟨req, hreq, fun hzero => hfields (Or.inl hzero)⟩,
            fun hans => by cases hans⟩
        refine h.move hcall { call with pc := .ready } ⟨rfl, rfl, rfl, Or.inr rfl⟩ rfl
          rfl (fun _ _ hb => hb) (fun hout => by cases hout) hgood ?_
        intro p hpc
        cases hpc

/-- A request is noted as pending, in place of an earlier one of its connection. -/
theorem Inv.store (h : Inv codec s) (hcall : s.calls[i]? = some call) {req : PlayerBindReq}
    (hreq : codec.parseReq call.payload = some req) (hpc : call.pc = .ready) {now : ℤ}
    (hsep : Separate codec s (.store i now)) :
    Inv codec { s.setCall i { call with pc := .stored } with
      players := s.players.setPending call.conn
        { playerId := req.playerId, seqId := call.seqId, createdAt := now } } := by
  have hmem : call ∈ s.calls := List.mem_of_getElem? hcall
  have hkeeps : Keeps call { call with pc := .stored } := ⟨rfl, rfl, rfl, Or.inr rfl⟩
  have hnames : names codec call = some req.playerId := by
    unfold names
    rw [hreq]
    rfl
  have happroved : ∀ p c, s.Approved codec p c →
      Approved codec { s.setCall i { call with pc := .stored } with
        players := s.players.setPending call.conn
          { playerId := req.playerId, seqId := call.seqId, createdAt := now } } p c :=
    fun p c ha => ha.setCall hcall hkeeps rfl
  simp only [Separate, hcall] at hsep
  constructor
  · intro c b hb other hother hconn hseq hout
    rw [Players.setPending_pendingBinds] at hb
    split_ifs at hb with hc
    · -- the new pending bind
      subst hc
      cases hb
      rcases mem_calls_set hother with rfl | hold
      · exact Or.inl (hkeeps.names.trans hnames)
      · rcases hsep other hold hconn hseq hout with hsame | href | ⟨p, hp, ha⟩
        · exact Or.inl (hsame.trans hnames)
        · exact Or.inr (Or.inl href)
        · rw [hnames] at hp
          cases hp
          exact Or.inr (Or.inr (happroved _ _ ha))
    · rcases mem_calls_set hother with rfl | hold
      · exact absurd hconn.symm hc
      · rcases h.pending c b hb other hold hconn hseq hout with hsame | href | ha
        · exact Or.inl hsame
        · exact Or.inr (Or.inl href)
        · exact Or.inr (Or.inr (happroved _ _ ha))
  · intro other hother
    rcases mem_calls_set hother with rfl | hold
    · exact ⟨fun _ => (h.good call hmem).unanswered (by rw [hpc]; rfl),
        fun hready => (by cases hready), fun hans => by cases hans⟩
    · exact h.good other hold
  · intro other hother p hp
    rcases mem_calls_set hother with rfl | hold
    · cases hp
    · exact happroved _ _ (h.binding other hold p hp)
  · intro b hb
    exact happroved _ _ (h.authenticated b hb)

/-- The answer to a request: it matches at most the pending bind of its connection
with its number, and binds only on code 0. -/
theorem onBindRes_cases (p : Players UInt64) (conn : UInt64) (seqId : UInt32) (answer : Bytes) :
    (∀ c b, (onBindRes codec p seqId (writeU64BE conn ++ answer)).1.pendingBinds c = some b →
        p.pendingBinds c = some b) ∧
      ∀ playerId, (onBindRes codec p seqId (writeU64BE conn ++ answer)).2 = .bind playerId →
        ∃ b res, p.pendingBinds conn = some b ∧ b.seqId = seqId ∧ b.playerId = playerId ∧
          codec.parseRes answer = some res ∧ res.code = 0 := by
  have hconn : readU64BE (writeU64BE conn ++ answer) 0 = conn :=
    readU64BE_writeU64BE (b := []) (a := answer) conn rfl
  have hdrop : (writeU64BE conn ++ answer).drop 8 = answer :=
    List.drop_left' (length_writeU64BE conn)
  have hlen : 8 ≤ (writeU64BE conn ++ answer).length := by
    rw [List.length_append, length_writeU64BE]
    omega
  unfold onBindRes
  rw [if_pos hlen, hconn, hdrop]
  simp only
  have htake : ∀ c b, (p.takePending conn seqId).1.pendingBinds c = some b →
      p.pendingBinds c = some b := fun c b hb => Players.pendingBinds_of_takePending hb
  cases hres : codec.parseRes answer with
  | none =>
    refine ⟨htake, ?_⟩
    intro playerId hout
    cases hout
  | some res =>
    rcases hp : p.takePending conn seqId with ⟨p', _ | playerId⟩
    · rw [hp] at htake
      refine ⟨htake, ?_⟩
      intro playerId hout
      cases hout
    · rw [hp] at htake
      have htaken : (p.takePending conn seqId).2 = some playerId := by rw [hp]
      obtain ⟨b, hb, hseq, hplayer⟩ := Players.takePending_eq_some htaken
      simp only
      split_ifs with hzero hcode
      · refine ⟨htake, ?_⟩
        intro q hout
        cases hout
        exact ⟨b, res, hb, hseq, hplayer, rfl, hzero.1⟩
      · refine ⟨htake, ?_⟩
        intro q hout
        cases hout
      · refine ⟨htake, ?_⟩
        intro q hout
        cases hout

theorem Inv.deliver (h : Inv codec s) (hcall : s.calls[i]? = some call) (hpc : call.pc = .answered)
    {answer : Bytes} (hanswer : call.answer = some answer) :
    Inv codec (s.deliver codec i call answer) := by
  have hmem : call ∈ s.calls := List.mem_of_getElem? hcall
  obtain ⟨hpending, hbind⟩ :=
    @onBindRes_cases codec s.players call.conn call.seqId answer
  unfold Binding.deliver
  rcases hres : onBindRes codec s.players call.seqId (writeU64BE call.conn ++ answer) with
    ⟨players, outcome⟩
  rw [hres] at hpending hbind
  -- the request is done, whatever is sent
  have hdone : ∀ outbox, Inv codec { s.setCall i { call with pc := .done } with players, outbox } := by
    intro outbox
    refine h.move hcall { call with pc := .done } ⟨rfl, rfl, rfl, Or.inr rfl⟩ rfl rfl hpending
      (fun hout => by cases hout) (good_done call) ?_
    intro p hp
    cases hp
  cases outcome with
  | dropped => exact hdone _
  | refuse => exact hdone _
  | pass => exact hdone _
  | bind playerId =>
    refine h.move hcall { call with pc := .binding playerId } ⟨rfl, rfl, rfl, Or.inr rfl⟩ rfl rfl
      hpending (fun hout => by cases hout) (good_binding call playerId) ?_
    intro p hp
    cases hp
    obtain ⟨b, res, hb, hseq, hplayer, hparse, hcode⟩ := hbind playerId rfl
    have hzero : answerCode codec call = some 0 := by
      unfold answerCode
      rw [hanswer, Option.bind_some, hparse, Option.map_some, hcode]
    rcases h.pending call.conn b hb call hmem rfl hseq.symm (by rw [hpc]; rfl) with
      hnames | href | ha
    · -- this request named the player that was pending
      rw [← hplayer]
      exact ⟨call, hmem, rfl, hnames, hzero⟩
    · unfold refused at href
      rw [hzero] at href
      cases href
    · rw [← hplayer]
      exact ha

theorem Inv.bind (h : Inv codec s) (hcall : s.calls[i]? = some call) {playerId : UInt64}
    (hpc : call.pc = .binding playerId) :
    Inv codec ((s.setCall i { call with pc := .done }).bindPlayer playerId call.conn) := by
  have hmem : call ∈ s.calls := List.mem_of_getElem? hcall
  have hdone : Inv codec (s.setCall i { call with pc := .done }) := by
    refine h.move hcall { call with pc := .done } ⟨rfl, rfl, rfl, Or.inr rfl⟩ rfl rfl
      (fun _ _ hb => hb) (fun hout => by cases hout) (good_done call) ?_
    intro p hp
    cases hp
  have hkeeps : Keeps call { call with pc := .done } := ⟨rfl, rfl, rfl, Or.inr rfl⟩
  have happroved : Approved codec (s.setCall i { call with pc := .done }) playerId call.conn :=
    (h.binding call hmem playerId hpc).setCall hcall hkeeps rfl
  constructor
  · intro c b hb
    have hb' : (s.setCall i { call with pc := .done }).players.pendingBinds c = some b := by
      rw [← Players.bindPlayer_pendingBinds _ playerId call.conn]
      exact hb
    exact hdone.pending c b hb'
  · exact hdone.good
  · exact hdone.binding
  · intro b hb
    rcases List.mem_append.mp hb with hold | hnew
    · exact hdone.authenticated b hold
    · rw [List.mem_singleton.mp hnew]
      exact happroved

/-- A step that meets the condition keeps the invariant. -/
theorem Inv.next (h : Inv codec s) {e : BindEvent} (hsep : Separate codec s e)
    (hstep : Binding.next codec s e = some s') : Inv codec s' := by
  cases e with
  | receive conn seqId payload =>
    simp only [Binding.next] at hstep
    split_ifs at hstep
    cases hstep
    exact h.receive
  | check i =>
    obtain ⟨call, hcall, hpc, heq⟩ := callStep_eq_some.mp hstep
    cases heq
    exact h.check hcall hpc
  | store i now =>
    obtain ⟨call, hcall, hpc, heq⟩ := callStep_eq_some.mp hstep
    obtain ⟨req, hreq, heq⟩ := Option.bind_eq_some_iff.mp heq
    cases heq
    exact h.store hcall hreq hpc hsep
  | unrouted i =>
    obtain ⟨call, hcall, hpc, heq⟩ := callStep_eq_some.mp hstep
    cases heq
    have hreject := h.reject hcall serviceUnavailable "bind service unavailable"
    exact hreject.forget rfl rfl fun _ _ hb => Players.pendingBinds_of_takePending hb
  | send i ok =>
    obtain ⟨call, hcall, hpc, heq⟩ := callStep_eq_some.mp hstep
    have hmem : call ∈ s.calls := List.mem_of_getElem? hcall
    cases ok with
    | true =>
      cases heq
      have hgood : Good codec { call with pc := .sent } :=
        ⟨fun _ => (h.good call hmem).unanswered (by rw [hpc]; rfl),
          fun hready => (by cases hready), fun hans => by cases hans⟩
      refine h.move hcall { call with pc := .sent } ⟨rfl, rfl, rfl, Or.inr rfl⟩ rfl rfl
        (fun _ _ hb => hb) (fun _ => by rw [hpc]; rfl) hgood ?_
      intro p hp
      cases hp
    | false =>
      cases heq
      refine h.move hcall { call with pc := .done } ⟨rfl, rfl, rfl, Or.inr rfl⟩ rfl rfl
        (fun _ _ hb => Players.pendingBinds_of_erasePending hb) (fun hout => by cases hout)
        (good_done call) ?_
      intro p hp
      cases hp
  | answer i payload =>
    obtain ⟨call, hcall, hpc, heq⟩ := callStep_eq_some.mp hstep
    have hmem : call ∈ s.calls := List.mem_of_getElem? hcall
    have hnone : call.answer = none := (h.good call hmem).unanswered (by rw [hpc]; rfl)
    split_ifs at heq with hparse
    cases heq
    obtain ⟨res, hres⟩ := Option.isSome_iff_exists.mp hparse
    have hgood : Good codec { call with pc := .answered, answer := some payload } :=
      ⟨fun hun => (by cases hun), fun hready => (by cases hready),
        fun _ => ⟨res.code, by unfold answerCode; simp [hres]⟩⟩
    refine h.move hcall { call with pc := .answered, answer := some payload }
      ⟨rfl, rfl, rfl, Or.inl hnone⟩ rfl rfl (fun _ _ hb => hb) (fun _ => by rw [hpc]; rfl)
      hgood ?_
    intro p hp
    cases hp
  | deliver i =>
    obtain ⟨call, hcall, hpc, heq⟩ := callStep_eq_some.mp hstep
    obtain ⟨answer, hanswer, heq⟩ := Option.bind_eq_some_iff.mp heq
    cases heq
    exact h.deliver hcall hpc hanswer
  | bind i =>
    obtain ⟨call, hcall, heq⟩ := Option.bind_eq_some_iff.mp hstep
    cases hpc : call.pc with
    | binding playerId =>
      rw [hpc] at heq
      cases heq
      exact h.bind hcall hpc
    | _ =>
      rw [hpc] at heq
      cases heq
  | close conn =>
    simp only [Binding.next] at hstep
    split_ifs at hstep
    cases hstep
    exact h.forget rfl rfl fun _ _ hb => Players.pendingBinds_of_cleanupPlayerState hb
  | heartbeat now =>
    cases hstep
    exact h.forget rfl rfl fun _ _ hb => Players.pendingBinds_of_expirePending hb

end Inv

/-! ## Where a request does not keep apart -/

section Converse

variable {codec : BindCodec} {s s' t : Binding} {i j : ℕ} {call call' other : BindCall}
  {playerId conn : UInt64} {b : PendingBind}

/-- An approval is not new unless the request that moved on gives it. -/
theorem Approved.of_set (h : s'.Approved codec playerId conn)
    (hcalls : s'.calls = s.calls.set i call')
    (hnot : names codec call' ≠ some playerId ∨ answerCode codec call' ≠ some 0) :
    s.Approved codec playerId conn := by
  obtain ⟨a, ha, hconn, hnames, hcode⟩ := h
  rw [hcalls] at ha
  rcases mem_calls_set ha with rfl | hold
  · rcases hnot with hnot | hnot
    · exact absurd hnames hnot
    · exact absurd hcode hnot
  · exact ⟨a, hold, hconn, hnames, hcode⟩

/-- An answer with code 0 binds the player that is pending under its number. -/
theorem onBindRes_bind {p : Players UInt64} {answer : Bytes} {res : PlayerBindRes}
    (hb : p.pendingBinds conn = some b) (hres : codec.parseRes answer = some res)
    (hcode : res.code = 0) (hpos : 0 < b.playerId) :
    (onBindRes codec p b.seqId (writeU64BE conn ++ answer)).2 = .bind b.playerId := by
  have hconn : readU64BE (writeU64BE conn ++ answer) 0 = conn :=
    readU64BE_writeU64BE (b := []) (a := answer) conn rfl
  have hdrop : (writeU64BE conn ++ answer).drop 8 = answer :=
    List.drop_left' (length_writeU64BE conn)
  have hlen : 8 ≤ (writeU64BE conn ++ answer).length := by
    rw [List.length_append, length_writeU64BE]
    omega
  have htake := Players.takePending_of_pending hb
  unfold onBindRes
  rw [if_pos hlen, hconn, hdrop]
  simp only
  rw [hres]
  rcases hp : p.takePending conn b.seqId with ⟨p', _ | q⟩
  · rw [hp] at htake
    cases htake
  · rw [hp] at htake
    cases htake
    simp only
    rw [if_pos ⟨hcode, hpos⟩]

/-- The answer with code 0 to a request arrives while another player is pending under
its number, who is not approved: that player is bound. -/
theorem unauthenticated_of_answered (hother : s.calls[j]? = some other) (hpc : other.pc = .answered)
    (hcode : answerCode codec other = some 0) (hb : s.players.pendingBinds other.conn = some b)
    (hseq : b.seqId = other.seqId) (hpos : 0 < b.playerId)
    (hnot : ¬ s.Approved codec b.playerId other.conn) :
    ∃ t, run (next codec) s [.deliver j, .bind j] = some t ∧ ¬ t.Authenticated codec := by
  obtain ⟨answer, hanswer⟩ : ∃ answer, other.answer = some answer := by
    cases hans : other.answer with
    | none =>
      unfold answerCode at hcode
      rw [hans] at hcode
      cases hcode
    | some answer => exact ⟨answer, rfl⟩
  obtain ⟨res, hres, hzero⟩ : ∃ res, codec.parseRes answer = some res ∧ res.code = 0 := by
    unfold answerCode at hcode
    rw [hanswer, Option.bind_some] at hcode
    exact Option.map_eq_some_iff.mp hcode
  have hout := onBindRes_bind hb hres hzero hpos
  -- the answer is matched
  obtain ⟨players, hdeliver⟩ : ∃ players, next codec s (.deliver j) =
      some { s.setCall j { other with pc := .binding b.playerId } with players } := by
    rcases hres : onBindRes codec s.players b.seqId (writeU64BE other.conn ++ answer) with
      ⟨players, outcome⟩
    rw [hres] at hout
    have houtcome : outcome = .bind b.playerId := hout
    have hres' : onBindRes codec s.players other.seqId (writeU64BE other.conn ++ answer) =
        (players, .bind b.playerId) := by
      rw [← hseq, hres, houtcome]
    refine ⟨players, callStep_eq_some.mpr ⟨other, hother, hpc,
      Option.bind_eq_some_iff.mpr ⟨answer, hanswer, ?_⟩⟩⟩
    unfold Binding.deliver
    rw [hres']
  -- and the player is bound
  have hget : (s.calls.set j { other with pc := .binding b.playerId })[j]? =
      some { other with pc := .binding b.playerId } := by
    rw [getElem?_set_at hother, if_pos rfl]
  refine ⟨_, run_cons_eq_some.mpr ⟨_, hdeliver, run_cons_eq_some.mpr ⟨_,
    Option.bind_eq_some_iff.mpr ⟨_, hget, rfl⟩, rfl⟩⟩, ?_⟩
  intro hauth
  have happroved := hauth (b.playerId, other.conn) (List.mem_append_right _ List.mem_cons_self)
  refine hnot ?_
  obtain ⟨a, ha, hconn, hnames, hcode'⟩ := happroved
  have hmem : other ∈ s.calls := List.mem_of_getElem? hother
  rcases mem_calls_set ha with rfl | hold
  · exact ⟨other, hmem, hconn, hnames, hcode'⟩
  · rcases mem_calls_set hold with rfl | hold
    · exact ⟨other, hmem, hconn, hnames, hcode'⟩
    · exact ⟨a, hold, hconn, hnames, hcode'⟩

/-- So it is when Biz has not answered yet and then approves. -/
theorem unauthenticated_of_sent (happrove : codec.parseRes [] = some {})
    (hother : s.calls[j]? = some other) (hpc : other.pc = .sent)
    (hnames : names codec other ≠ some b.playerId)
    (hb : s.players.pendingBinds other.conn = some b) (hseq : b.seqId = other.seqId)
    (hpos : 0 < b.playerId) (hnot : ¬ s.Approved codec b.playerId other.conn) :
    ∃ t, run (next codec) s [.answer j [], .deliver j, .bind j] = some t ∧
      ¬ t.Authenticated codec := by
  have hanswer : next codec s (.answer j []) =
      some (s.setCall j { other with pc := .answered, answer := some [] }) := by
    refine callStep_eq_some.mpr ⟨other, hother, hpc, ?_⟩
    rw [happrove]
    rfl
  have hget : (s.setCall j { other with pc := .answered, answer := some [] }).calls[j]? =
      some { other with pc := .answered, answer := some [] } := by
    unfold setCall
    rw [getElem?_set_at hother, if_pos rfl]
  have hcode : answerCode codec { other with pc := .answered, answer := some [] } = some 0 := by
    unfold answerCode
    simp only [Option.bind_some]
    rw [happrove]
    rfl
  obtain ⟨t, hrun, ht⟩ := unauthenticated_of_answered hget rfl hcode hb hseq hpos
    fun ha => hnot (ha.of_set rfl (Or.inl hnames))
  exact ⟨t, run_cons_eq_some.mpr ⟨_, hanswer, hrun⟩, ht⟩

/-- A step that does not keep apart can be continued to a binding that was never
approved. -/
theorem exists_unauthenticated (happrove : codec.parseRes [] = some {}) (h : Inv codec s)
    {e : BindEvent} (hsep : ¬ Separate codec s e) (hstep : next codec s e = some s') :
    ∃ es t, run (next codec) s' es = some t ∧ ¬ t.Authenticated codec := by
  cases e with
  | store i now =>
    obtain ⟨call, hcall, hpc, heq⟩ := callStep_eq_some.mp hstep
    obtain ⟨req, hreq, heq⟩ := Option.bind_eq_some_iff.mp heq
    have hmem : call ∈ s.calls := List.mem_of_getElem? hcall
    have hgood := h.good call hmem
    have hnames : names codec call = some req.playerId := by
      unfold names
      rw [hreq]
      rfl
    have hpos : 0 < req.playerId := by
      obtain ⟨req', hreq', hne⟩ := hgood.ready hpc
      rw [hreq] at hreq'
      cases hreq'
      exact UInt64.pos_iff_ne_zero.mpr hne
    simp only [Separate, hcall] at hsep
    push Not at hsep
    obtain ⟨other, hother, hconn, hseq, hout, hdiff, href, hnot⟩ := hsep
    obtain ⟨j, hj⟩ := List.mem_iff_getElem?.mp hother
    have hij : j ≠ i := by
      intro hij
      rw [hij, hcall] at hj
      cases hj
      rw [hpc] at hout
      cases hout
    have hget : s'.calls[j]? = some other := by
      cases heq
      rw [setCall, getElem?_set_at hcall, if_neg hij, hj]
    have hb : s'.players.pendingBinds other.conn =
        some { playerId := req.playerId, seqId := call.seqId, createdAt := now } := by
      cases heq
      rw [Players.setPending_pendingBinds, if_pos hconn]
    have hnone : answerCode codec { call with pc := .stored } ≠ some 0 := by
      unfold answerCode
      simp only
      rw [hgood.unanswered (by rw [hpc]; rfl)]
      simp
    have hnot' : ¬ s'.Approved codec req.playerId other.conn := by
      intro ha
      rw [hconn] at ha
      refine hnot req.playerId hnames ?_
      cases heq
      exact ha.of_set rfl (Or.inr hnone)
    rw [hnames] at hdiff
    cases hopc : other.pc with
    | stored =>
      -- it is forwarded first
      have hsend : next codec s' (.send j true) = some (s'.setCall j { other with pc := .sent }) :=
        callStep_eq_some.mpr ⟨other, hget, hopc, rfl⟩
      have hget' : (s'.setCall j { other with pc := .sent }).calls[j]? =
          some { other with pc := .sent } := by
        rw [setCall, getElem?_set_at hget, if_pos rfl]
      have hnot'' : ¬ (s'.setCall j { other with pc := .sent }).Approved codec req.playerId
          other.conn :=
        fun ha => hnot' (ha.of_set rfl (Or.inl hdiff))
      obtain ⟨t, hrun, ht⟩ := unauthenticated_of_sent (b := ⟨req.playerId, call.seqId, now⟩)
        happrove hget' rfl hdiff hb hseq.symm hpos hnot''
      exact ⟨_, t, run_cons_eq_some.mpr ⟨_, hsend, hrun⟩, ht⟩
    | sent =>
      obtain ⟨t, hrun, ht⟩ :=
        unauthenticated_of_sent happrove hget hopc hdiff hb hseq.symm hpos hnot'
      exact ⟨_, t, hrun, ht⟩
    | answered =>
      obtain ⟨code, hcode⟩ := (h.good other hother).answered hopc
      have hzero : code = 0 := by
        unfold refused at href
        rw [hcode] at href
        simpa using href
      rw [hzero] at hcode
      obtain ⟨t, hrun, ht⟩ :=
        unauthenticated_of_answered hget hopc hcode hb hseq.symm hpos hnot'
      exact ⟨_, t, hrun, ht⟩
    | _ =>
      rw [hopc] at hout
      cases hout
  | _ => exact absurd trivial hsep

end Converse

/-! ## Exactly when bindings are authenticated -/

instance decidableApproved (s : Binding) (playerId conn : UInt64) :
    Decidable (s.Approved codec playerId conn) :=
  inferInstanceAs (Decidable (∃ call ∈ s.calls, _))

instance decidableAuthenticated (s : Binding) : Decidable (s.Authenticated codec) :=
  inferInstanceAs (Decidable (∀ b ∈ s.bound, _))

instance decidableSeparate (s : Binding) : ∀ e, Decidable (Separate codec s e)
  | .store i _ =>
    match h : s.calls[i]? with
    | none => isTrue (by simp only [Separate, h])
    | some call =>
      have (name : Option UInt64) (conn : UInt64) :
          Decidable (∃ p, name = some p ∧ s.Approved codec p conn) :=
        match name with
        | none => isFalse (by simp)
        | some p => decidable_of_iff (s.Approved codec p conn) (by simp)
      decidable_of_iff
        (∀ other ∈ s.calls, other.conn = call.conn → other.seqId = call.seqId →
          other.pc.outstanding →
            names codec other = names codec call ∨ refused codec other ∨
              ∃ p, names codec call = some p ∧ s.Approved codec p call.conn)
        (by simp only [Separate, h])
  | .receive .. | .check .. | .unrouted .. | .send .. | .answer .. | .deliver .. | .bind ..
  | .close .. | .heartbeat .. => isTrue trivial

/-- Every binding is approved in every state of a run of requests that keep apart; and
any request that does not can be continued to a binding that was never approved. An
empty answer is one with code 0. -/
theorem authenticated_exact (happrove : codec.parseRes [] = some {}) :
    (∀ es s, RunOk (next codec) (Separate codec) {} es → run (next codec) {} es = some s →
      s.Authenticated codec) ∧
    (∀ es s e s', RunOk (next codec) (Separate codec) {} es → run (next codec) {} es = some s →
      ¬ Separate codec s e → next codec s e = some s' →
        ∃ es' t, run (next codec) s' es' = some t ∧ ¬ t.Authenticated codec) := by
  have hinv : ∀ es s, RunOk (next codec) (Separate codec) {} es →
      run (next codec) {} es = some s → Inv codec s := by
    intro es s hok hrun
    exact run_invariant (fun s e s' hsep h hstep => h.next hsep hstep) inv_init hok hrun
  constructor
  · intro es s hok hrun
    exact (hinv es s hok hrun).authenticated
  · intro es s e s' hok hrun hsep hstep
    exact exists_unauthenticated happrove (hinv es s hok hrun) hsep hstep

/-- The wire format of small messages: field 1 is a varint of one byte, field 2 a
string of less than 128 bytes. -/
def smallCodec : BindCodec where
  parseReq
    | 0x08 :: playerId :: 0x12 :: length :: token =>
      if playerId < 128 ∧ length < 128 ∧ token.length = length.toNat then
        some { playerId := playerId.toUInt64, token }
      else none
    | _ => none
  parseRes
    | [] => some {}
    | [0x08, code] => if code < 128 then some { code := code.toUInt32 } else none
    | _ => none

/-- A request of connection 1 that names the player, with the token `t`. -/
def bindReq (playerId : UInt8) : Bytes := [0x08, playerId, 0x12, 1, 0x74]

/-- Connection 1 asks for player 7 under number 5; the request is forwarded. -/
def askSeven : List BindEvent :=
  [.receive 1 5 (bindReq 7), .check 0, .store 0 0, .send 0 true]

/-- The same for player 9, under a number of its own choice. -/
def askNine (seqId : UInt32) : List BindEvent :=
  [.receive 1 seqId (bindReq 9), .check 1, .store 1 0, .send 1 true]

/-- Under a new number the second request is separate: the answer to the first is
stale, and nobody is bound until the second is answered. Under the same number it is
not. -/
theorem authenticated_exact_twoRequests :
    (∃ s, run (next smallCodec) {} (askSeven ++ askNine 6 ++
        [.answer 0 [], .deliver 0, .answer 1 [], .deliver 1, .bind 1]) = some s ∧
      s.Authenticated smallCodec ∧ s.bound = [(9, 1)]) ∧
    ∃ s s', run (next smallCodec) {} (askSeven ++ [.receive 1 5 (bindReq 9), .check 1]) = some s ∧
      next smallCodec s (.store 1 0) = some s' ∧
        ∃ es t, run (next smallCodec) s' es = some t ∧ ¬ t.Authenticated smallCodec := by
  constructor
  · refine ⟨_, rfl, ?_, rfl⟩
    exact (@authenticated_exact smallCodec rfl).1 (askSeven ++ askNine 6 ++
      [.answer 0 [], .deliver 0, .answer 1 [], .deliver 1, .bind 1]) _ (by decide) rfl
  · refine ⟨_, _, rfl, rfl, ?_⟩
    exact (@authenticated_exact smallCodec rfl).2
      (askSeven ++ [.receive 1 5 (bindReq 9), .check 1]) _ (.store 1 0) _ (by decide) rfl
      (by decide) rfl

/-- Player 9 is bound to connection 1 though Biz was only ever asked to approve, and
approved, player 7: the answer to the first request matches what the second has left
pending. -/
theorem askNine_bound_unapproved :
    ∃ s, run (next smallCodec) {} (askSeven ++ askNine 5 ++ [.answer 0 [], .deliver 0, .bind 0]) =
        some s ∧
      s.bound = [(9, 1)] ∧ s.players.playerConn 9 = some 1 ∧
      s.Approved smallCodec 7 1 ∧ ¬ s.Approved smallCodec 9 1 ∧ ¬ s.Authenticated smallCodec := by
  have hnot (s : Binding) (hbound : s.bound = [(9, 1)]) (hnine : ¬ s.Approved smallCodec 9 1) :
      ¬ s.Approved smallCodec 9 1 ∧ ¬ s.Authenticated smallCodec := by
    refine ⟨hnine, fun hauth => hnine (hauth (9, 1) ?_)⟩
    rw [hbound]
    exact List.mem_singleton_self _
  exact ⟨_, rfl, rfl, rfl, by decide, hnot _ rfl (by decide)⟩

end Binding

end Gmaker.Gateway
