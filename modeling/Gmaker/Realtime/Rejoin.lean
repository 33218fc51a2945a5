import Gmaker.Realtime.BattleRoom

/-!
# Gmaker.Realtime.Rejoin — players that come back

A player that reconnects should play on: the engine takes the player's inputs in and
waits for them (`TakesPart`), until the player disconnects or leaves.

Before the battle it is enough that the player is connected again, since the countdown
ends with the connected players (`SetPlayers`). During the battle `PlayerReconnected`
only puts back a player of that list, so whoever was away when the countdown ended
stays outside for good (`rejoins_exact`).
-/

namespace Gmaker.Realtime

open Gmaker.Lib

/-! ## Taking part -/

namespace LockstepEngine

/-- The engine has the player in its list, and the player is not marked as
disconnected. -/
def TakesPart (e : LockstepEngine) (playerId : UInt64) : Prop :=
  playerId ∈ e.allPlayers ∧ playerId ∈ e.activePlayers

instance (e : LockstepEngine) (playerId : UInt64) : Decidable (e.TakesPart playerId) := by
  unfold TakesPart
  infer_instance

section TakesPart

variable {e : LockstepEngine} {playerId : UInt64}

/-- The input of a player that takes part is in the current frame. -/
theorem TakesPart.submitInput_frame (h : e.TakesPart playerId) (input : PlayerInput) :
    ∃ fi, (e.submitInput playerId input).2.frameBuffer e.currentFrame = some fi ∧
      fi.playerInputs playerId = some input := by
  unfold submitInput
  rw [if_neg (not_not_intro h.1)]
  exact ⟨_, Function.update_self .., Function.update_self ..⟩

/-- No frame is ready that has no input of a player that takes part. -/
theorem TakesPart.not_isFrameReady (h : e.TakesPart playerId) {frame : UInt32} {fi : FrameInputs}
    (hbuf : e.frameBuffer frame = some fi) (hnone : fi.playerInputs playerId = none) :
    e.isFrameReady frame = false := by
  have hmem : playerId ∈ e.activePlayers.filter fun pid => fi.playerInputs pid = none :=
    Finset.mem_filter.mpr ⟨h.2, hnone⟩
  simp only [isFrameReady, hbuf]
  exact decide_eq_false (Finset.ne_empty_of_mem hmem)

theorem takesPart_setPlayers {playerIds : List UInt64} (h : playerId ∈ playerIds) :
    (e.setPlayers playerIds).TakesPart playerId := by
  have hmem : playerId ∈ playerIds.toFinset := List.mem_toFinset.mpr h
  exact ⟨hmem, hmem⟩

theorem takesPart_playerReconnected (h : playerId ∈ e.allPlayers) :
    (e.playerReconnected playerId).TakesPart playerId := by
  unfold playerReconnected
  rw [if_pos h]
  exact ⟨h, Finset.mem_insert_self ..⟩

theorem playerReconnected_allPlayers (other : UInt64) :
    (e.playerReconnected other).allPlayers = e.allPlayers := by
  unfold playerReconnected
  split_ifs <;> rfl

theorem TakesPart.playerReconnected (h : e.TakesPart playerId) (other : UInt64) :
    (e.playerReconnected other).TakesPart playerId := by
  refine ⟨by rw [playerReconnected_allPlayers]; exact h.1, ?_⟩
  unfold LockstepEngine.playerReconnected
  split_ifs
  · exact Finset.mem_insert_of_mem h.2
  · exact h.2

/-- The disconnect of another player. -/
theorem TakesPart.playerDisconnected (h : e.TakesPart playerId) {other : UInt64}
    (hne : playerId ≠ other) : (e.playerDisconnected other).TakesPart playerId :=
  ⟨h.1, Finset.mem_erase_of_ne_of_mem hne h.2⟩

/-- Both lists of players are what a disconnect, a reconnect and `SetPlayers` make
them: nothing else changes them. -/
structure SamePlayers (e e' : LockstepEngine) : Prop where
  allPlayers : e'.allPlayers = e.allPlayers
  activePlayers : e'.activePlayers = e.activePlayers

theorem SamePlayers.trans {e' e'' : LockstepEngine} (h : SamePlayers e e')
    (h' : SamePlayers e' e'') : SamePlayers e e'' :=
  ⟨h'.allPlayers.trans h.allPlayers, h'.activePlayers.trans h.activePlayers⟩

theorem TakesPart.samePlayers {e' : LockstepEngine} (h : e.TakesPart playerId)
    (hsame : SamePlayers e e') : e'.TakesPart playerId :=
  ⟨hsame.allPlayers ▸ h.1, hsame.activePlayers ▸ h.2⟩

theorem samePlayers_submitInput {pid : UInt64} {input : PlayerInput} :
    SamePlayers e (e.submitInput pid input).2 := by
  unfold submitInput
  split_ifs <;> exact ⟨rfl, rfl⟩

theorem samePlayers_setCurrentFrame {frame : UInt32} : SamePlayers e (e.setCurrentFrame frame) := by
  unfold setCurrentFrame
  split_ifs <;> exact ⟨rfl, rfl⟩

theorem samePlayers_eraseHistory {frame : UInt32} : SamePlayers e (e.eraseHistory frame) := by
  unfold eraseHistory
  split_ifs <;> exact ⟨rfl, rfl⟩

theorem samePlayers_checkPass {frame : UInt32} : SamePlayers e (e.checkPass frame).1 := by
  rcases checkPass_cases e frame with ⟨-, heq⟩ | ⟨-, fi, -, heq⟩ | ⟨-, -, heq⟩
  · rw [heq]
    exact ⟨rfl, rfl⟩
  · rw [heq]
    have hput : SamePlayers e ((e.putFrame frame (e.frameAt frame)).putFrame frame fi) := ⟨rfl, rfl⟩
    exact hput.trans samePlayers_eraseHistory
  · rw [heq]
    exact ⟨rfl, rfl⟩

theorem samePlayers_advanceLoop {fuel : ℕ} {e e' : LockstepEngine} {frame : UInt32}
    {out confirmed : List FrameInputs} (h : advanceLoop fuel e frame out = some (e', confirmed)) :
    SamePlayers e e' := by
  induction fuel generalizing e frame out with
  | zero => cases h
  | succ fuel ih =>
    have hpass : SamePlayers e (e.checkPass frame).1 := samePlayers_checkPass
    unfold advanceLoop at h
    split_ifs at h
    · split at h
      · next e₁ heq =>
        rw [heq] at hpass
        cases h
        exact hpass
      · next e₁ heq =>
        rw [heq] at hpass
        exact hpass.trans (ih h)
      · next e₁ fi heq =>
        rw [heq] at hpass
        exact hpass.trans (ih h)
    · cases h
      exact ⟨rfl, rfl⟩

end TakesPart

end LockstepEngine

namespace BattleRoom

/-! ## One event -/

/-- The battle has begun. -/
def Begun (r : BattleRoom) : Prop :=
  r.battleState = .fighting ∨ r.battleState = .paused ∨ r.battleState = .finished

/-- The player has an entry, and is connected. -/
def Connected (r : BattleRoom) (playerId : UInt64) : Prop :=
  ∃ info ∈ r.players, info.playerId = playerId ∧ info.isConnected = true

/-- What the player needs in order to play: to be connected when the countdown ends,
and to take part from then on. -/
structure Plays (r : BattleRoom) (playerId : UInt64) : Prop where
  connected : ¬ r.Begun → r.Connected playerId
  takesPart : r.battleState = .fighting → r.lockstep.TakesPart playerId

/-- The event takes the player away. -/
def isDeparture (playerId : UInt64) : Event → Bool
  | .playerDisconnect pid => pid = playerId
  | .playerLeave pid => pid = playerId
  | _ => false

section Plays

variable {cfg : BattleRoomConfig} {r r' : BattleRoom} {playerId pid connId : UInt64}

theorem mem_players_of_findPlayer {info : PlayerInfo} (h : r.findPlayer playerId = some info) :
    info ∈ r.players ∧ info.playerId = playerId :=
  ⟨List.mem_of_find?_eq_some h, by simpa using List.find?_some h⟩

/-- The entries of the other players are kept. -/
theorem Connected.removePlayer (h : r.Connected playerId) (hne : playerId ≠ pid) :
    (r.removePlayer pid).Connected playerId := by
  obtain ⟨info, hmem, hid, hconn⟩ := h
  have hkeep : info ∈ r.players.filter fun info => info.playerId ≠ pid :=
    List.mem_filter.mpr ⟨hmem, by simpa [hid] using hne⟩
  unfold BattleRoom.removePlayer
  cases r.findPlayer pid with
  | none => exact ⟨info, hmem, hid, hconn⟩
  | some gone =>
    simp only
    split_ifs
    · exact ⟨info, hkeep, hid, hconn⟩
    · exact ⟨info, hkeep, hid, hconn⟩

/-- A change of one player's entry that keeps the player, and the connection of the
player in question. -/
theorem Connected.modifyPlayer (h : r.Connected playerId) {f : PlayerInfo → PlayerInfo}
    (hid : ∀ info, (f info).playerId = info.playerId)
    (hconn : playerId = pid → ∀ info, info.isConnected = true → (f info).isConnected = true) :
    (r.modifyPlayer pid f).Connected playerId := by
  obtain ⟨info, hmem, hpid, hinfo⟩ := h
  refine ⟨_, List.mem_map.mpr ⟨info, hmem, rfl⟩, ?_, ?_⟩
  · split_ifs
    · rw [hid, hpid]
    · exact hpid
  · split_ifs with heq
    · exact hconn (hpid.symm.trans heq) info hinfo
    · exact hinfo

theorem Connected.onPlayerEnter (h : r.Connected playerId) :
    (r.onPlayerEnter cfg pid connId).Connected playerId := by
  obtain ⟨info, hmem, hid, hconn⟩ := h
  -- an entry of the entering player itself gives way to a new one
  have hadd : ∀ team, (r.addPlayerToTeam pid connId team).Connected playerId := by
    intro team
    have hnew : ∃ new ∈ (r.players.filter fun info => info.playerId ≠ pid) ++
        [{ playerId := pid, connId, team }], new.playerId = playerId ∧ new.isConnected = true := by
      by_cases heq : pid = playerId
      · exact ⟨_, List.mem_append_right _ (List.mem_singleton_self _), heq, rfl⟩
      · refine ⟨info, List.mem_append_left _ (List.mem_filter.mpr ⟨hmem, ?_⟩), hid, hconn⟩
        simpa [hid] using Ne.symm heq
    unfold addPlayerToTeam
    simp only
    split_ifs
    · exact hnew
    · exact hnew
  unfold BattleRoom.onPlayerEnter
  split_ifs
  · exact ⟨info, hmem, hid, hconn⟩
  · exact hadd _
  · exact hadd _

/-- Neither the state of the battle nor the engine changes, and the player is still
connected. -/
theorem Plays.of_same (h : r.Plays playerId) (hstate : r'.battleState = r.battleState)
    (hlock : LockstepEngine.SamePlayers r.lockstep r'.lockstep)
    (hconn : r.Connected playerId → r'.Connected playerId) : r'.Plays playerId := by
  have hbegun : r'.Begun ↔ r.Begun := by unfold Begun; rw [hstate]
  refine ⟨fun hnot => hconn (h.connected fun hb => hnot (hbegun.mpr hb)), fun hf => ?_⟩
  exact (h.takesPart (hstate.symm.trans hf)).samePlayers hlock

theorem Plays.removePlayer (h : r.Plays playerId) (hne : playerId ≠ pid) :
    (r.removePlayer pid).Plays playerId := by
  have hsame : SameEngine r (r.removePlayer pid) := sameEngine_removePlayer
  refine h.of_same hsame.battleState ?_ fun hc => hc.removePlayer hne
  rw [hsame.lockstep]
  exact ⟨rfl, rfl⟩

/-- Someone else disconnects. -/
theorem Plays.markDisconnected (h : r.Plays playerId) (hne : playerId ≠ pid) :
    (r.markDisconnected pid).Plays playerId := by
  unfold BattleRoom.markDisconnected
  cases r.findPlayer pid with
  | none => exact h
  | some info =>
    refine ⟨fun hnot => ?_, fun hf => (h.takesPart hf).playerDisconnected hne⟩
    exact (h.connected hnot).modifyPlayer (fun _ => rfl) fun heq => absurd heq hne

/-- Anyone reconnects. -/
theorem Plays.handleReconnect (h : r.Plays playerId) :
    (r.handleReconnect pid connId).Plays playerId := by
  unfold BattleRoom.handleReconnect
  cases r.findPlayer pid with
  | none => exact h
  | some info =>
    refine ⟨fun hnot => ?_, fun hf => (h.takesPart hf).playerReconnected pid⟩
    exact (h.connected hnot).modifyPlayer (fun _ => rfl) fun _ _ _ => rfl

theorem Plays.onHero (h : r.Plays playerId) (msg : HeroMsg) : (r.onHero msg).Plays playerId := by
  unfold BattleRoom.onHero
  split_ifs
  · exact h.of_same rfl LockstepEngine.samePlayers_submitInput id
  · exact h

/-! ## A tick -/

theorem Plays.tickCountdown (h : r.Plays playerId) (hstate : r.battleState = .countdown)
    (frame : UInt32) : (r.tickCountdown frame).Plays playerId := by
  have hnot : ¬ r.Begun := by simp [Begun, hstate]
  obtain ⟨info, hmem, hid, hconn⟩ := h.connected hnot
  -- the room after the decrement differs in the count alone
  have hcount : ∀ a : BattleRoom, a.players = r.players → a.battleState = r.battleState →
      (if a.countdownRemainingSec = 0 then
        BattleRoom.changeState { a with
          battleStartFrame := frame
          lockstep := a.lockstep.setPlayers
            ((a.players.filter fun info => info.isConnected).map fun info => info.playerId) }
          .fighting
      else a).Plays playerId := by
    intro a hplayers hsame
    split_ifs
    · refine ⟨fun hb => absurd (.inl rfl) hb, fun _ => ?_⟩
      refine LockstepEngine.takesPart_setPlayers (List.mem_map.mpr ⟨info, ?_, hid⟩)
      exact List.mem_filter.mpr ⟨hplayers ▸ hmem, by simpa using hconn⟩
    · refine ⟨fun _ => ⟨info, hplayers ▸ hmem, hid, hconn⟩, fun hf => ?_⟩
      rw [hsame, hstate] at hf
      cases hf
  unfold BattleRoom.tickCountdown
  split_ifs
  · exact hcount _ rfl rfl
  · exact hcount _ rfl rfl

theorem Plays.tickFighting (h : r.Plays playerId) (hstate : r.battleState = .fighting)
    {frame : UInt32} {passes : ℕ} {won : Bool}
    (hstep : r.tickFighting cfg frame passes won = some r') : r'.Plays playerId := by
  unfold BattleRoom.tickFighting at hstep
  obtain ⟨⟨e, confirmed⟩, hadvance, heq⟩ := Option.bind_eq_some_iff.mp hstep
  have hsame : LockstepEngine.SamePlayers r.lockstep e :=
    LockstepEngine.samePlayers_setCurrentFrame.trans
      (LockstepEngine.samePlayers_advanceLoop hadvance)
  have htakes : e.TakesPart playerId := (h.takesPart hstate).samePlayers hsame
  cases heq
  -- what follows the engine leaves it alone, and the battle does not go back
  have hdrop : ∀ a : BattleRoom, a.Begun → a.lockstep = e →
      (a.dropDisconnected cfg frame).Plays playerId := by
    intro a hbegun hlock
    have hd : SameEngine a (a.dropDisconnected cfg frame) := sameEngine_dropDisconnected
    refine ⟨fun hnot => absurd ?_ hnot, fun _ => ?_⟩
    · unfold Begun
      rw [hd.battleState]
      exact hbegun
    · rw [hd.lockstep, hlock]
      exact htakes
  cases won with
  | false => exact hdrop _ (.inl hstate) rfl
  | true => exact hdrop _ (.inr (.inr rfl)) rfl

theorem Plays.tickState (h : r.Plays playerId) {frame : UInt32} {passes : ℕ} {won : Bool}
    (hstep : r.tickState cfg frame passes won = some r') : r'.Plays playerId := by
  have hbefore : ∀ s, r.battleState = s → s ≠ .fighting → s ≠ .paused → s ≠ .finished → ¬ r.Begun := by
    intro s hs h₁ h₂ h₃ hb
    rcases hb with hb | hb | hb
    · exact h₁ (hs.symm.trans hb)
    · exact h₂ (hs.symm.trans hb)
    · exact h₃ (hs.symm.trans hb)
  -- a state before the battle gives way to another one before the battle
  have hwait : ∀ {a : BattleRoom} {s : BattleState}, r.Connected playerId → a.players = r.players →
      (a.changeState s).battleState = s → s ≠ .fighting → (a.changeState s).Plays playerId := by
    intro a s hconn hplayers hs h₁
    refine ⟨fun _ => ?_, fun hf => absurd (hs.symm.trans hf) h₁⟩
    unfold Connected changeState
    rw [hplayers]
    exact hconn
  unfold BattleRoom.tickState at hstep
  cases hstate : r.battleState with
  | waiting =>
    rw [hstate] at hstep
    cases hstep
    unfold BattleRoom.tickWaiting
    split_ifs
    · exact hwait (h.connected (hbefore _ hstate (by decide) (by decide) (by decide))) rfl rfl
        (by decide)
    · exact h
  | loading =>
    rw [hstate] at hstep
    cases hstep
    unfold BattleRoom.tickLoading
    split_ifs
    · exact hwait (h.connected (hbefore _ hstate (by decide) (by decide) (by decide))) rfl rfl
        (by decide)
    · exact h
  | countdown =>
    rw [hstate] at hstep
    cases hstep
    exact h.tickCountdown hstate frame
  | fighting =>
    rw [hstate] at hstep
    exact h.tickFighting hstate hstep
  | paused =>
    rw [hstate] at hstep
    cases hstep
    exact h
  | finished =>
    rw [hstate] at hstep
    cases hstep
    exact h

/-- A player that plays goes on playing, whatever comes but the player's departure. -/
theorem Plays.next (h : r.Plays playerId) {e : Event} (hstay : isDeparture playerId e = false)
    (hstep : BattleRoom.next cfg r e = some r') : r'.Plays playerId := by
  cases e with
  | playerEnter pid connId =>
    cases hstep
    have hsame : SameEngine r (r.onPlayerEnter cfg pid connId) := sameEngine_onPlayerEnter
    refine h.of_same hsame.battleState ?_ Connected.onPlayerEnter
    rw [hsame.lockstep]
    exact ⟨rfl, rfl⟩
  | playerLeave pid =>
    cases hstep
    have hne : playerId ≠ pid := by
      rintro rfl
      simp [isDeparture] at hstay
    unfold onPlayerLeave
    split_ifs
    · exact h.markDisconnected hne
    · exact h.removePlayer hne
  | playerDisconnect pid =>
    cases hstep
    refine h.markDisconnected ?_
    rintro rfl
    simp [isDeparture] at hstay
  | playerReconnect pid connId =>
    cases hstep
    exact h.handleReconnect
  | battleReady pid =>
    cases hstep
    exact ⟨fun hnot => (h.connected hnot).modifyPlayer (fun _ => rfl) fun _ _ hc => hc, h.takesPart⟩
  | hero msg =>
    cases hstep
    exact h.onHero msg
  | tick passes won =>
    have hcount : Plays { r with
        battleFrame := r.battleFrame + 1, lockstep := r.lockstep.tickFrameCounter } playerId :=
      h.of_same rfl ⟨rfl, rfl⟩ id
    exact hcount.tickState hstep

theorem Plays.run {es : List Event} (h : r.Plays playerId)
    (hstay : ∀ e ∈ es, isDeparture playerId e = false) (hrun : Lib.run (BattleRoom.next cfg) r es = some r') :
    r'.Plays playerId := by
  have hstep : ∀ r e r', isDeparture playerId e = false → r.Plays playerId →
      BattleRoom.next cfg r e = some r' → r'.Plays playerId :=
    fun _ _ _ hs hp hnext => hp.next hs hnext
  exact run_invariant hstep h (runOk_of_forall hstay) hrun

end Plays

/-! ## A reconnect -/

/-- A reconnect that succeeds during the battle is one of a player that the engine
has: one that was connected when the countdown ended. -/
def ReconnectsKnown (r : BattleRoom) : Event → Prop
  | .playerReconnect playerId _ =>
    r.battleState = .fighting → r.findPlayer playerId ≠ none → playerId ∈ r.lockstep.allPlayers
  | _ => True

instance (r : BattleRoom) (e : Event) : Decidable (r.ReconnectsKnown e) :=
  match e with
  | .playerReconnect playerId _ =>
    inferInstanceAs (Decidable (r.battleState = .fighting → r.findPlayer playerId ≠ none →
      playerId ∈ r.lockstep.allPlayers))
  | .playerEnter _ _ | .playerLeave _ | .playerDisconnect _ | .battleReady _ | .hero _ | .tick _ _ =>
    .isTrue trivial

/-- In the run, a player that has reconnected takes part in the battle for as long as
the player neither disconnects nor leaves. -/
def Rejoins (cfg : BattleRoomConfig) (es : List Event) : Prop :=
  ∀ (before between : List Event) (playerId connId : UInt64) (s r : BattleRoom),
    before ++ .playerReconnect playerId connId :: between <+: es →
    run (next cfg) (new cfg) before = some s → s.findPlayer playerId ≠ none →
    (∀ e ∈ between, isDeparture playerId e = false) →
    run (next cfg) s (.playerReconnect playerId connId :: between) = some r →
    r.battleState = .fighting → r.lockstep.TakesPart playerId

section Reconnect

variable {cfg : BattleRoomConfig} {r : BattleRoom} {playerId connId : UInt64}

theorem handleReconnect_battleState :
    (r.handleReconnect playerId connId).battleState = r.battleState := by
  unfold handleReconnect
  cases r.findPlayer playerId <;> rfl

theorem handleReconnect_allPlayers :
    (r.handleReconnect playerId connId).lockstep.allPlayers = r.lockstep.allPlayers := by
  unfold handleReconnect
  cases r.findPlayer playerId with
  | none => rfl
  | some info => exact LockstepEngine.playerReconnected_allPlayers playerId

/-- Before the battle a reconnected player plays; during it, if the engine has the
player. -/
theorem plays_handleReconnect (hfind : r.findPlayer playerId ≠ none)
    (hknown : r.battleState = .fighting → playerId ∈ r.lockstep.allPlayers) :
    (r.handleReconnect playerId connId).Plays playerId := by
  obtain ⟨info, hinfo⟩ := Option.ne_none_iff_exists'.mp hfind
  obtain ⟨hmem, hid⟩ := mem_players_of_findPlayer hinfo
  unfold handleReconnect
  rw [hinfo]
  refine ⟨fun _ => ?_, fun hf => LockstepEngine.takesPart_playerReconnected (hknown hf)⟩
  exact ⟨_, List.mem_map.mpr ⟨info, hmem, rfl⟩, by rw [if_pos hid]; exact hid, by rw [if_pos hid]⟩

/-- One a side: the first player is away while the countdown ends, and back in the
battle after it. -/
def awayAtStart : List Event :=
  [.playerEnter 1 11, .playerEnter 2 12, .tick 34 false, .battleReady 1, .battleReady 2,
    .tick 34 false, .playerDisconnect 1, .tick 34 false, .tick 34 false, .tick 34 false]

/-- The engine does not take that player's inputs in. -/
theorem awayAtStart_not_rejoins :
    ¬ ∀ (cfg : BattleRoomConfig) (es : List Event), Rejoins cfg es := by
  intro h
  have htakes := h { teamSize := 1 } (awayAtStart ++ [.playerReconnect 1 13]) awayAtStart [] 1 13
    _ _ (List.prefix_refl _) rfl (by decide) (by simp) rfl rfl
  revert htakes
  decide

/-- Reconnected players take part exactly as long as every reconnect of the battle is
one of a player that was counted in. -/
theorem rejoins_exact (cfg : BattleRoomConfig) (es : List Event) :
    RunOk (next cfg) ReconnectsKnown (new cfg) es ↔ Rejoins cfg es := by
  constructor
  · intro hok before between playerId connId s r hpre hbefore hfind hstay hrun hfight
    obtain ⟨rest, rfl⟩ := hpre
    rw [List.append_assoc] at hok
    have hknown := ((runOk_append.mp hok).2 s hbefore).1
    obtain ⟨s', hs', hrest⟩ := run_cons_eq_some.mp hrun
    cases hs'
    have hplays : (s.handleReconnect playerId connId).Plays playerId :=
      plays_handleReconnect hfind fun hf => hknown hf hfind
    exact (hplays.run hstay hrest).takesPart hfight
  · intro h
    induction es using List.reverseRecOn with
    | nil => trivial
    | append_singleton es e ih =>
      refine runOk_append.mpr ⟨ih fun before between playerId connId s r hpre =>
        h before between playerId connId s r (hpre.trans (List.prefix_append es [e])), ?_⟩
      intro s hs
      refine ⟨?_, fun _ _ => trivial⟩
      cases e with
      | playerReconnect playerId connId =>
        intro hfight hfind
        -- nothing follows: the player has to take part at once
        have htakes := h es [] playerId connId s _ (List.prefix_refl _) hs hfind (by simp) rfl
          (handleReconnect_battleState.trans hfight)
        have hlock : (s.handleReconnect playerId connId).lockstep.allPlayers =
            s.lockstep.allPlayers := handleReconnect_allPlayers
        exact hlock ▸ htakes.1
      | _ => trivial

end Reconnect

end BattleRoom

end Gmaker.Realtime
