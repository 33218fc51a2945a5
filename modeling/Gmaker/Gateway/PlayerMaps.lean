import Gmaker.Gateway.Bind
import Gmaker.Lib.Inverse

/-!
# Gmaker.Gateway.PlayerMaps — one player, one connection

The maps from players to connections and back, in the machine of `Gateway.Bind`. They
are each other's inverse in every run (`inverse_run`). That they only mention
connections that have not been closed is another matter: the answer to a bind request
takes the pending entry in one critical section and binds in a second one, and a close
in between has cleaned up too early. It holds if and only if no player is bound to a
connection after its close (`open_exact`).
-/

namespace Gmaker.Gateway

open Gmaker.Lib Gmaker.Net

/-! ## The maps -/

namespace Players

variable {κ : Type} [DecidableEq κ] {p : Players κ} {conn : κ} {playerId : UInt64}

omit [DecidableEq κ] in
/-- `player_conn_` and `conn_player_` are inverse to each other. -/
def Paired (p : Players κ) : Prop := Inverse p.playerConn p.connPlayer

theorem Paired.unbind (h : p.Paired) (hplayer : p.connPlayer conn = some playerId) :
    (p.unbind conn playerId).Paired := by
  have hconn := (h playerId conn).mpr hplayer
  unfold Players.unbind
  rw [if_pos hconn]
  exact Inverse.erase h hconn

/-- The connection has the player or none. -/
theorem Paired.unbindOther (h : p.Paired) (playerId : UInt64) (conn : κ) :
    (p.unbindOther playerId conn).Paired ∧
      ((p.unbindOther playerId conn).connPlayer conn = none ∨
        (p.unbindOther playerId conn).connPlayer conn = some playerId) := by
  unfold Players.unbindOther
  cases hplayer : p.connPlayer conn with
  | none => exact ⟨h, Or.inl hplayer⟩
  | some old =>
    simp only
    split_ifs with hold
    · refine ⟨h.unbind hplayer, Or.inl ?_⟩
      exact Function.update_self _ _ _
    · rw [ne_eq, not_not] at hold
      exact ⟨h, Or.inr (by rw [hplayer, hold])⟩

/-- The player's connection before is taken out, and the new entry put in. -/
theorem Paired.bindNew (h : p.Paired)
    (hconn : p.connPlayer conn = none ∨ p.connPlayer conn = some playerId) :
    (p.bindNew playerId conn).Paired := by
  have hidem : ∀ o : Option κ,
      Function.update (Function.update p.playerConn playerId o) playerId (some conn) =
        Function.update p.playerConn playerId (some conn) :=
    fun o => Function.update_idem _ _ _
  unfold Players.bindNew Paired
  cases hother : p.otherConn playerId conn with
  | some old =>
    obtain ⟨hold, hne⟩ := Option.filter_eq_some_iff.mp hother
    have hne' : conn ≠ old := fun heq => by simp [heq] at hne
    have herased := Inverse.erase h hold
    -- the connection is not the player's: it has no player
    have hnone : p.connPlayer conn = none := by
      rcases hconn with hnone | hsome
      · exact hnone
      · have hback := (h playerId conn).mpr hsome
        rw [hold] at hback
        exact absurd (Option.some.inj hback).symm hne'
    have hins := herased.insert (a := playerId) (b := conn) (Function.update_self _ _ _)
      (by rw [Function.update_of_ne hne', hnone])
    rwa [hidem] at hins
  | none =>
    simp only
    cases hplayer : p.playerConn playerId with
    | none =>
      refine Inverse.insert h hplayer ?_
      rcases hconn with hnone | hsome
      · exact hnone
      · rw [(h playerId conn).mpr hsome] at hplayer
        cases hplayer
    | some old =>
      -- bound already
      have hsame : old = conn := by
        by_contra hne
        have hfilter : p.otherConn playerId conn = some old := by
          unfold otherConn
          rw [hplayer]
          simp [Option.filter, hne]
        rw [hother] at hfilter
        cases hfilter
      subst hsame
      have hins := (Inverse.erase h hplayer).insert (a := playerId) (b := old)
        (Function.update_self _ _ _) (Function.update_self _ _ _)
      rwa [hidem, Function.update_idem] at hins

theorem Paired.bindPlayer (h : p.Paired) (playerId : UInt64) (conn : κ) :
    (p.bindPlayer playerId conn).1.Paired := by
  obtain ⟨hpaired, hconn⟩ := h.unbindOther playerId conn
  exact hpaired.bindNew hconn

theorem Paired.cleanupPlayerState (h : p.Paired) (conn : κ) :
    (p.cleanupPlayerState conn).Paired := by
  have herase : (p.erasePending conn).Paired := h
  unfold Players.cleanupPlayerState
  cases hplayer : (p.erasePending conn).connPlayer conn with
  | none =>
    simp only [hplayer]
    exact herase
  | some playerId =>
    simp only [hplayer]
    exact herase.unbind hplayer

/-! ### Who has a player -/

variable {c : κ}

theorem connPlayer_unbind : (p.unbind conn playerId).connPlayer c =
    if c = conn then none else p.connPlayer c := Function.update_apply _ _ _ _

theorem connPlayer_cleanupPlayerState : (p.cleanupPlayerState conn).connPlayer c =
    if c = conn then none else p.connPlayer c := by
  unfold Players.cleanupPlayerState
  cases hplayer : (p.erasePending conn).connPlayer conn with
  | none =>
    simp only [hplayer]
    split_ifs with hc
    · rw [hc]
      exact hplayer
    · rfl
  | some playerId =>
    simp only [hplayer]
    exact connPlayer_unbind

theorem connPlayer_bindPlayer_self :
    (p.bindPlayer playerId conn).1.connPlayer conn = some playerId := Function.update_self _ _ _

/-- No other connection gets a player. -/
theorem connPlayer_bindPlayer_of_ne (hc : c ≠ conn) (hnone : p.connPlayer c = none) :
    (p.bindPlayer playerId conn).1.connPlayer c = none := by
  have hother : (p.unbindOther playerId conn).connPlayer c = none := by
    unfold Players.unbindOther
    cases p.connPlayer conn with
    | none => exact hnone
    | some old =>
      simp only
      split_ifs
      · rw [connPlayer_unbind, if_neg hc]
        exact hnone
      · exact hnone
  change (Players.bindNew _ _ _).connPlayer c = none
  unfold Players.bindNew
  simp only
  rw [Function.update_of_ne hc]
  cases (p.unbindOther playerId conn).otherConn playerId conn with
  | none => exact hother
  | some old =>
    simp only [Function.update_apply]
    split_ifs
    · rfl
    · exact hother

end Players

/-! ## The machine -/

namespace Binding

variable {codec : BindCodec} {s s' : Binding}

/-- The maps are inverse to each other and mention no connection that was closed. -/
structure Consistent (s : Binding) : Prop where
  paired : s.players.Paired
  open_ : ∀ conn ∈ s.closed, s.players.connPlayer conn = none

/-- No player is bound to a connection that was closed. -/
def BindsOpen (s : Binding) : BindEvent → Prop
  | .bind i => ∀ call playerId, s.calls[i]? = some call → call.pc = .binding playerId →
      call.conn ∉ s.closed
  | _ => True

/-- The maps and the closed connections are the same. -/
structure SameMaps (s s' : Binding) : Prop where
  playerConn : s'.players.playerConn = s.players.playerConn
  connPlayer : s'.players.connPlayer = s.players.connPlayer
  closed : s'.closed = s.closed

theorem SameMaps.consistent (h : SameMaps s s') : s'.Consistent ↔ s.Consistent := by
  have hpaired : s'.players.Paired ↔ s.players.Paired := by
    unfold Players.Paired
    rw [h.playerConn, h.connPlayer]
  constructor
  · intro hc
    refine ⟨hpaired.mp hc.paired, fun conn hconn => ?_⟩
    rw [← h.connPlayer]
    exact hc.open_ conn (h.closed ▸ hconn)
  · intro hc
    refine ⟨hpaired.mpr hc.paired, fun conn hconn => ?_⟩
    rw [h.connPlayer]
    exact hc.open_ conn (h.closed ▸ hconn)

section Frames

variable {p : Players UInt64} {i : ℕ} {call : BindCall}

theorem takePending_maps (p : Players UInt64) (conn : UInt64) (seqId : UInt32) :
    (p.takePending conn seqId).1.playerConn = p.playerConn ∧
      (p.takePending conn seqId).1.connPlayer = p.connPlayer := by
  unfold Players.takePending
  cases p.pendingBinds conn with
  | none => exact ⟨rfl, rfl⟩
  | some b =>
    simp only
    split_ifs
    · exact ⟨rfl, rfl⟩
    · exact ⟨rfl, rfl⟩

/-- The first critical section of the answer only takes the pending entry. -/
theorem onBindRes_maps (codec : BindCodec) (p : Players UInt64) (seqId : UInt32) (payload : Bytes) :
    (onBindRes codec p seqId payload).1.playerConn = p.playerConn ∧
      (onBindRes codec p seqId payload).1.connPlayer = p.connPlayer := by
  unfold onBindRes
  split_ifs
  · have htake := takePending_maps p (readU64BE payload 0) seqId
    simp only
    cases codec.parseRes (payload.drop 8) with
    | none => exact htake
    | some res =>
      simp only
      rcases hres : p.takePending (readU64BE payload 0) seqId with ⟨q, _ | playerId⟩
      · rw [hres] at htake
        exact htake
      · rw [hres] at htake
        simp only
        split_ifs <;> exact htake
  · exact ⟨rfl, rfl⟩

theorem sameMaps_check (s : Binding) (i : ℕ) (call : BindCall) :
    SameMaps s (s.check codec i call) := by
  unfold check
  split_ifs
  · exact ⟨rfl, rfl, rfl⟩
  · cases codec.parseReq call.payload with
    | none => exact ⟨rfl, rfl, rfl⟩
    | some req =>
      simp only
      split_ifs
      · exact ⟨rfl, rfl, rfl⟩
      · exact ⟨rfl, rfl, rfl⟩

theorem sameMaps_deliver (s : Binding) (i : ℕ) (call : BindCall) (answer : Bytes) :
    SameMaps s (s.deliver codec i call answer) := by
  obtain ⟨hplayer, hconn⟩ := onBindRes_maps codec s.players call.seqId
    (writeU64BE call.conn ++ answer)
  unfold deliver
  rcases hres : onBindRes codec s.players call.seqId (writeU64BE call.conn ++ answer) with
    ⟨q, outcome⟩
  rw [hres] at hplayer hconn
  cases outcome with
  | dropped => exact ⟨hplayer, hconn, rfl⟩
  | bind playerId => exact ⟨hplayer, hconn, rfl⟩
  | refuse => exact ⟨hplayer, hconn, rfl⟩
  | pass => exact ⟨hplayer, hconn, rfl⟩

end Frames

/-- What a step does to the maps: nothing, a cleanup, or a bind. -/
inductive MapStep (s s' : Binding) : BindEvent → Prop where
  | same {e : BindEvent} (h : SameMaps s s') (hb : s.BindsOpen e) : MapStep s s' e
  | close (conn : UInt64) (hplayers : s'.players = s.players.cleanupPlayerState conn)
      (hclosed : s'.closed = conn :: s.closed) : MapStep s s' (.close conn)
  | bind (i : ℕ) (call : BindCall) (playerId : UInt64) (hcall : s.calls[i]? = some call)
      (hpc : call.pc = .binding playerId)
      (hplayers : s'.players = (s.players.bindPlayer playerId call.conn).1)
      (hclosed : s'.closed = s.closed) : MapStep s s' (.bind i)

theorem mapStep {e : BindEvent} (hstep : next codec s e = some s') : MapStep s s' e := by
  cases e with
  | receive conn seqId payload =>
    simp only [next] at hstep
    split_ifs at hstep
    cases hstep
    exact .same ⟨rfl, rfl, rfl⟩ trivial
  | check i =>
    obtain ⟨call, -, -, hf⟩ := callStep_eq_some.mp hstep
    cases hf
    exact .same (sameMaps_check s i call) trivial
  | store i now =>
    obtain ⟨call, -, -, hf⟩ := callStep_eq_some.mp hstep
    obtain ⟨req, -, hreq⟩ := Option.bind_eq_some_iff.mp hf
    cases hreq
    exact .same ⟨rfl, rfl, rfl⟩ trivial
  | unrouted i =>
    obtain ⟨call, -, -, hf⟩ := callStep_eq_some.mp hstep
    cases hf
    have htake := takePending_maps s.players call.conn call.seqId
    exact .same ⟨htake.1, htake.2, rfl⟩ trivial
  | send i ok =>
    obtain ⟨call, -, -, hf⟩ := callStep_eq_some.mp hstep
    split_ifs at hf
    · cases hf
      exact .same ⟨rfl, rfl, rfl⟩ trivial
    · cases hf
      exact .same ⟨rfl, rfl, rfl⟩ trivial
  | answer i payload =>
    obtain ⟨call, -, -, hf⟩ := callStep_eq_some.mp hstep
    split_ifs at hf
    cases hf
    exact .same ⟨rfl, rfl, rfl⟩ trivial
  | deliver i =>
    obtain ⟨call, -, -, hf⟩ := callStep_eq_some.mp hstep
    obtain ⟨answer, -, hanswer⟩ := Option.bind_eq_some_iff.mp hf
    cases hanswer
    exact .same (sameMaps_deliver s i call answer) trivial
  | bind i =>
    obtain ⟨call, hcall, hf⟩ := Option.bind_eq_some_iff.mp hstep
    split at hf
    · next playerId hpc =>
      cases hf
      exact .bind i call playerId hcall hpc rfl rfl
    · cases hf
  | close conn =>
    simp only [next] at hstep
    split_ifs at hstep
    cases hstep
    exact .close conn rfl rfl
  | heartbeat now =>
    cases hstep
    exact .same ⟨rfl, rfl, rfl⟩ trivial

/-- Each step keeps the maps inverse to each other. -/
theorem paired_step {e : BindEvent} (h : s.players.Paired) (hstep : next codec s e = some s') :
    s'.players.Paired := by
  cases mapStep hstep with
  | same hsame _ =>
    unfold Players.Paired
    rw [hsame.playerConn, hsame.connPlayer]
    exact h
  | close conn hplayers _ =>
    rw [hplayers]
    exact h.cleanupPlayerState conn
  | bind i call playerId _ _ hplayers _ =>
    rw [hplayers]
    exact h.bindPlayer playerId call.conn

theorem inverse_run {events : List BindEvent} (hrun : run (next codec) {} events = some s) :
    s.players.Paired := by
  have hinit : ({} : Binding).players.Paired := Inverse.empty
  exact run_invariant_all (I := fun s => s.players.Paired)
    (fun _ _ _ h hstep => paired_step h hstep) hinit hrun

/-- Player 7 comes back on connection 2. -/
theorem inverse_run_moved :
    ∃ s, run (next smallCodec) {} (askSeven ++ [.answer 0 [], .deliver 0, .bind 0,
        .receive 2 6 (bindReq 7), .check 1, .store 1 0, .send 1 true, .answer 1 [], .deliver 1,
        .bind 1]) = some s ∧ s.players.playerConn 7 = some 2 ∧ s.players.Paired := by
  refine ⟨_, rfl, rfl, ?_⟩
  exact @inverse_run smallCodec _ (askSeven ++ [.answer 0 [], .deliver 0, .bind 0,
    .receive 2 6 (bindReq 7), .check 1, .store 1 0, .send 1 true, .answer 1 [], .deliver 1,
    .bind 1]) rfl

/-- A step keeps the closed connections out of the maps if and only if it binds no
player to one. -/
theorem consistent_step {e : BindEvent} (h : s.Consistent) (hstep : next codec s e = some s') :
    s'.Consistent ↔ s.BindsOpen e := by
  have hpaired := paired_step h.paired hstep
  cases mapStep hstep with
  | same hsame hb => exact ⟨fun _ => hb, fun _ => hsame.consistent.mpr h⟩
  | close conn hplayers hclosed =>
    refine ⟨fun _ => trivial, fun _ => ⟨hpaired, fun c hc => ?_⟩⟩
    rw [hplayers, Players.connPlayer_cleanupPlayerState]
    split_ifs with heq
    · rfl
    · rw [hclosed, List.mem_cons] at hc
      exact h.open_ c (hc.resolve_left heq)
  | bind i call playerId hcall hpc hplayers hclosed =>
    constructor
    · intro h' call' playerId' hcall' _ hmem
      rw [hcall] at hcall'
      cases hcall'
      have hnone := h'.open_ call.conn (hclosed ▸ hmem)
      rw [hplayers, Players.connPlayer_bindPlayer_self] at hnone
      cases hnone
    · intro hok
      have hopen := hok call playerId hcall hpc
      refine ⟨hpaired, fun c hc => ?_⟩
      rw [hclosed] at hc
      rw [hplayers]
      exact Players.connPlayer_bindPlayer_of_ne (fun heq => hopen (heq ▸ hc)) (h.open_ c hc)

theorem bindsOpen_of_none {e : BindEvent} (hnone : next codec s e = none) : s.BindsOpen e := by
  cases e with
  | bind i =>
    intro call playerId hcall hpc
    simp only [next, hcall, Option.bind_eq_bind, Option.bind_some, hpc] at hnone
    cases hnone
  | _ => trivial

/-- In every run the maps are inverse to each other and only mention connections that
have not been closed, all along, if and only if no answer binds a player to a
connection after its close. -/
theorem open_exact (codec : BindCodec) (events : List BindEvent) :
    (∀ front s, front <+: events → run (next codec) {} front = some s → s.Consistent) ↔
      RunOk (next codec) BindsOpen {} events := by
  refine (runOk_iff ?_ ?_ ?_).symm
  · exact fun s e hnone => bindsOpen_of_none hnone
  · exact fun s e s' h hstep => consistent_step h hstep
  · exact ⟨Inverse.empty, fun conn hconn => by cases hconn⟩

/-- Connection 1 is closed between the two critical sections of the answer: player 7 is
bound to it, and stays so. -/
theorem askSeven_bound_closed :
    ∃ s, run (next smallCodec) {} (askSeven ++ [.answer 0 [], .deliver 0, .close 1, .bind 0]) =
        some s ∧
      s.players.playerConn 7 = some 1 ∧ 1 ∈ s.closed ∧ ¬ s.Consistent := by
  have hnot (s : Binding) (hclosed : 1 ∈ s.closed) (hplayer : s.players.connPlayer 1 = some 7) :
      ¬ s.Consistent := by
    intro h
    have hnone := h.open_ 1 hclosed
    rw [hplayer] at hnone
    cases hnone
  exact ⟨_, rfl, rfl, by decide, hnot _ (by decide) rfl⟩

end Binding

end Gmaker.Gateway
