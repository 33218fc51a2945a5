import Gmaker.Biz.PlayerService
import Gmaker.Gateway.Connections
import Gmaker.Lib.Machine

/-!
# Gmaker.Biz.OwnRows — whose rows a client's packets write

The gateway and Biz together. The gateway knows which player a connection is bound to,
and puts the connection's ID before the payload of what it forwards; Biz takes the player
from the body. A connection writes its own player's row only if and only if every body of
its packets that is written from names that player (`ownRows_exact`).
-/

namespace Gmaker.Biz

open Gmaker.Lib Gmaker.Net Gmaker.Gateway

/-- The gateway, and what Biz has done. -/
structure World where
  gateway : State UInt64 := {}
  /-- log: for each forwarded request the player that its connection was bound to -/
  boundTo : List (Option UInt64) := []
  /-- the requests that Biz has handled -/
  handled : List ℕ := []
  /-- log: the calls to the database, with the request they come from -/
  calls : List (ℕ × DbCall) := []
  replies : List BizReply := []

inductive WorldEvent where
  | gateway (e : GatewayEvent)
  /-- Biz handles the forwarded request `j` -/
  | biz (j : ℕ) (env : BizEnv)

namespace World

/-- The payload of a request on its way to Biz: `OnClientPacket` puts the connection's ID
first. -/
def extendedPayload (r : Request UInt64) : Bytes := writeU64BE r.id ++ r.payload

variable (bindCodec : BindCodec) (codec : BizCodec)

/-- The gateway has moved on; what it has forwarded since was sent by players bound as
before. -/
def forwarded (w : World) (g : State UInt64) : World :=
  { w with
    gateway := g
    boundTo := w.boundTo ++ (g.requests.drop w.boundTo.length).map fun r =>
      w.gateway.players.connPlayer r.id }

/-- Biz handles a request. -/
def handle (w : World) (j : ℕ) (r : Request UInt64) (env : BizEnv) : World :=
  let done := handleBizPacket codec env r.cmdId r.seqId (extendedPayload r)
  { w with
    handled := j :: w.handled
    calls := w.calls ++ done.calls.map fun call => (j, call)
    replies := w.replies ++ done.reply.toList }

def next (w : World) : WorldEvent → Option World
  | .gateway e => (State.next bindCodec State.connId w.gateway e).map w.forwarded
  | .biz j env =>
    if j ∈ w.handled then none
    else (w.gateway.requests[j]?).map fun r => w.handle codec j r env

/-! ## The property and its condition -/

/-- What was written because of a request of a bound connection names the row of the
player that it was bound to. -/
def OwnRows (w : World) : Prop :=
  ∀ j req player, (j, .exec req) ∈ w.calls → w.boundTo[j]? = some (some player) →
    writtenRow req = some (formatUint player)

/-- Biz handles a request that writes nothing, or whose body names the player that the
connection was bound to. -/
def NamesOwn (w : World) : WorldEvent → Prop
  | .gateway _ => True
  | .biz j env =>
    j ∉ w.handled → ∀ r ∈ w.gateway.requests[j]?, ∀ player ∈ (w.boundTo[j]?).join,
      ∀ named ∈ namedProfile codec env r.cmdId r.payload, named = player

instance (w : World) (e : WorldEvent) : Decidable (NamesOwn codec w e) := by
  cases e <;> (unfold NamesOwn; infer_instance)

/-! ## Steps -/

section Steps

variable {bindCodec} {codec} {w w' : World} {j : ℕ} {env : BizEnv}

/-- Calls come from requests that the gateway has forwarded, and for these it is known
whose they were. -/
structure Inv (w : World) : Prop where
  known : w.gateway.requests.length ≤ w.boundTo.length
  called : ∀ j call, (j, call) ∈ w.calls → j < w.boundTo.length

theorem inv_init : Inv {} := ⟨le_rfl, nofun⟩

/-- A forwarded request is that of its player for good. -/
theorem boundTo_forwarded (g : State UInt64) (h : j < w.boundTo.length) :
    (w.forwarded g).boundTo[j]? = w.boundTo[j]? :=
  List.getElem?_append_left h

theorem Inv.forwarded (h : Inv w) (g : State UInt64) : Inv (w.forwarded g) := by
  have hlen : (w.forwarded g).boundTo.length =
      w.boundTo.length + (g.requests.length - w.boundTo.length) := by
    unfold World.forwarded
    rw [List.length_append, List.length_map, List.length_drop]
  constructor
  · change g.requests.length ≤ _
    omega
  · intro j call hcall
    have hold := h.called j call hcall
    omega

theorem mem_calls_handle {r : Request UInt64} {k : ℕ} {call : DbCall} :
    (k, call) ∈ (w.handle codec j r env).calls ↔ (k, call) ∈ w.calls ∨
      (k = j ∧ call ∈ (handleBizPacket codec env r.cmdId r.seqId (extendedPayload r)).calls) := by
  unfold World.handle
  simp only [List.mem_append, List.mem_map, Prod.mk.injEq]
  constructor
  · rintro (hold | ⟨_, hcall, rfl, rfl⟩)
    · exact .inl hold
    · exact .inr ⟨rfl, hcall⟩
  · rintro (hold | ⟨rfl, hcall⟩)
    · exact .inl hold
    · exact .inr ⟨call, hcall, rfl, rfl⟩

theorem Inv.handle (h : Inv w) {r : Request UInt64} (hr : w.gateway.requests[j]? = some r) :
    Inv (w.handle codec j r env) := by
  refine ⟨h.known, fun k call hcall => ?_⟩
  rcases mem_calls_handle.mp hcall with hold | ⟨rfl, -⟩
  · exact h.called k call hold
  · exact (List.getElem?_eq_some_iff.mp hr).1.trans_le h.known

theorem next_biz_eq_some (h : next bindCodec codec w (.biz j env) = some w') :
    j ∉ w.handled ∧ ∃ r, w.gateway.requests[j]? = some r ∧ w' = w.handle codec j r env := by
  unfold next at h
  simp only at h
  split_ifs at h with hnew
  obtain ⟨r, hr, rfl⟩ := Option.map_eq_some_iff.mp h
  exact ⟨hnew, r, hr, rfl⟩

theorem Inv.next (h : Inv w) {e : WorldEvent} (hstep : next bindCodec codec w e = some w') :
    Inv w' := by
  cases e with
  | gateway e =>
    obtain ⟨g, -, rfl⟩ := Option.map_eq_some_iff.mp hstep
    exact h.forwarded g
  | biz j env =>
    obtain ⟨-, r, hr, rfl⟩ := next_biz_eq_some hstep
    exact h.handle hr

theorem Inv.ownRows_forwarded (h : Inv w) (g : State UInt64) :
    OwnRows (w.forwarded g) ↔ OwnRows w := by
  have hsame : ∀ j req, (j, DbCall.exec req) ∈ w.calls →
      (w.forwarded g).boundTo[j]? = w.boundTo[j]? :=
    fun j req hcall => boundTo_forwarded g (h.called j _ hcall)
  constructor
  · intro hown j req player hcall hbound
    exact hown j req player hcall ((hsame j req hcall).trans hbound)
  · intro hown j req player hcall hbound
    exact hown j req player hcall ((hsame j req hcall).symm.trans hbound)

/-- Handling a request keeps the property if and only if its body names its player, or
nobody is written. -/
theorem ownRows_handle (h : OwnRows w) {r : Request UInt64} :
    OwnRows (w.handle codec j r env) ↔ ∀ player ∈ (w.boundTo[j]?).join,
      ∀ named ∈ namedProfile codec env r.cmdId r.payload, named = player := by
  constructor
  · intro hown player hbound named hnamed
    obtain ⟨req, hcall, hrow⟩ := (handleBizPacket_execs codec env r.cmdId r.seqId r.id r.payload
      (some (formatUint named))).mpr ⟨named, hnamed, rfl⟩
    have hown' := hown j req player (mem_calls_handle.mpr (.inr ⟨rfl, hcall⟩))
      (Option.join_eq_some_iff.mp hbound)
    rw [hrow, Option.some.injEq] at hown'
    exact formatUint_inj.mp hown'
  · intro hnames k req player hcall hbound
    rcases mem_calls_handle.mp hcall with hold | ⟨rfl, hnew⟩
    · exact h k req player hold hbound
    · obtain ⟨named, hnamed, hrow⟩ := (handleBizPacket_execs codec env r.cmdId r.seqId r.id
        r.payload (writtenRow req)).mp ⟨req, hnew, rfl⟩
      rw [hrow, hnames player (Option.join_eq_some_iff.mpr hbound) named hnamed]

end Steps

/-! ## Every run -/

section Runs

variable {bindCodec} {codec}

theorem next_ownRows {w w' : World} {e : WorldEvent} (h : Inv w ∧ OwnRows w)
    (hstep : next bindCodec codec w e = some w') :
    Inv w' ∧ OwnRows w' ↔ NamesOwn codec w e := by
  obtain ⟨hinv, hown⟩ := h
  rw [and_iff_right (hinv.next hstep)]
  cases e with
  | gateway e =>
    obtain ⟨g, -, rfl⟩ := Option.map_eq_some_iff.mp hstep
    rw [hinv.ownRows_forwarded g]
    exact iff_of_true hown trivial
  | biz j env =>
    obtain ⟨hnew, r, hr, rfl⟩ := next_biz_eq_some hstep
    rw [ownRows_handle hown]
    unfold NamesOwn
    simp only [hnew, not_false_eq_true, forall_const, hr, Option.mem_some, forall_eq']

/-- Every player's row is written by its own connections only, in every state of a run, if
and only if every body that Biz writes from names the player that the connection was bound
to. -/
theorem ownRows_exact (bindCodec : BindCodec) (codec : BizCodec) (es : List WorldEvent) :
    (∀ ms w, ms <+: es → run (next bindCodec codec) {} ms = some w → OwnRows w) ↔
      RunOk (next bindCodec codec) (NamesOwn codec) {} es := by
  have hnone : ∀ w e, next bindCodec codec w e = none → NamesOwn codec w e := by
    intro w e hnext
    cases e with
    | gateway e => trivial
    | biz j env =>
      intro hnew r hr
      unfold next at hnext
      simp only [if_neg hnew, Option.map_eq_none_iff] at hnext
      rw [hnext] at hr
      cases hr
  refine (runOk_iff_of_implies (I := fun w => Inv w ∧ OwnRows w) hnone (fun w h => h.2) ?_ ?_
    ⟨inv_init, nofun⟩).symm
  · intro w e w' h hnames hstep
    exact (next_ownRows h hstep).mpr hnames
  · intro w e w' h hstep hown
    exact (next_ownRows h hstep).mp ⟨h.1.next hstep, hown⟩

/-! ## A packet for another player's row -/

/-- The wire format of small messages: field 1, a player, and field 3 of an update, the
coins, are varints of one byte. -/
def smallCodec : BizCodec where
  parseGetPlayer
    | [0x08, playerId] => if playerId < 128 then some playerId.toUInt64 else none
    | _ => none
  parseUpdatePlayer
    | [0x08, playerId, 0x18, coin] =>
      if playerId < 128 ∧ coin < 128 then
        some { playerId := playerId.toUInt64, coin := coin.toUInt64 }
      else none
    | _ => none
  parseGetPlayerRooms
    | [0x08, playerId] => if playerId < 128 then some playerId.toUInt64 else none
    | _ => none
  parsePing
    | [0x08, clientTime] => if clientTime < 128 then some clientTime.toUInt64 else none
    | _ => none
  parsePlayerBind _ := none
  parseChatRoomInfo _ := none

/-- A TCP connection is bound to player 7. -/
def boundToSeven : List WorldEvent :=
  [.accept .tcp, .connect 0, .handshake 0 [1],
    .packet 0 cmdGwPlayerBind 5 (Binding.bindReq 7) .sent, .bindStore 0 0, .bindSend 0 .sent,
    .bindRes 0 [], .bindPlayer 0].map .gateway

/-- It sends an update of player 9's profile, 100 coins, which Biz handles. -/
def updateNine : List WorldEvent :=
  [.gateway (.packet 0 cmdUpdatePlayerReq 6 [0x08, 9, 0x18, 100] .sent),
    .biz 1 { exec := some true }]

/-- Player 7's connection writes player 9's row. -/
theorem updateNine_not_ownRows :
    ¬ ∀ (bindCodec : BindCodec) (codec : BizCodec) (es : List WorldEvent) (w : World),
      run (next bindCodec codec) {} es = some w → OwnRows w := by
  intro h
  have hrun : (run (next Binding.smallCodec smallCodec) {} (boundToSeven ++ updateNine)).map
      (fun w => (w.calls, w.boundTo)) =
        some ([(1, .exec (updatePlayerReq { exec := some true } 9 "" 100 0))], [none, some 7]) := by
    decide +kernel
  obtain ⟨w, hw, heq⟩ := Option.map_eq_some_iff.mp hrun
  obtain ⟨hcalls, hbound⟩ := Prod.mk.inj heq
  have hown := h _ _ _ w hw 1 (updatePlayerReq { exec := some true } 9 "" 100 0) 7
    (by rw [hcalls]; exact List.mem_singleton_self _) (by rw [hbound]; rfl)
  rw [writtenRow_updatePlayerReq, Option.some.injEq, formatUint_inj] at hown
  exact absurd hown (by decide)

end Runs

end World

end Gmaker.Biz
