import Gmaker.Realtime.Battle

/-!
# Gmaker.Realtime.Reconnect — what a player gets who comes back

A player who comes back needs the latest checkpoint and the frames since. `HandleReconnect`
puts both into a message and then sends another one, which has no payload: whatever the
battle has been, a player who comes back gets nothing to go on from
(`reconnectComplete_iff`).
-/

namespace Gmaker.Realtime

open Gmaker.Lib
open Gmaker.Net (Bytes)

namespace Battle

variable {F : Type} [FloatOps F]

/-- The payloads that go to one connection. -/
def payloadsTo (connId : UInt64) (sent : List (RoomSnapshot × List UInt64)) : List Bytes :=
  (sent.filter fun p => connId ∈ p.2).map fun p => p.1.rawPayload

/-- The payloads hold the checkpoint and the frames behind it, as `SerializeReconnectAck`
writes them. -/
def Carries (payloads : List Bytes) (cp : BattleCheckpoint F) (frames : List ConfirmedInputs) :
    Prop :=
  ∃ before after, payloads.flatten = before ++ snapshotBytes cp ++ replayBytes F frames ++ after

/-- What `HandleReconnect` sends carries the latest checkpoint, if there is one, and the
confirmed frames since, each once and in order. -/
def ReconnectComplete (b : Battle F) (playerId connId : UInt64) : Prop :=
  b.room.findPlayer playerId ≠ none → ∀ cp, b.latest = some cp →
    ∃ frames : List FrameInputs,
      frames.map (fun fi => fi.frame.toNat) = List.range' (cp.frame.toNat + 1)
        (b.room.lockstep.currentFrame.toNat - cp.frame.toNat) ∧
      (∀ fi ∈ frames, fi ∈ b.room.returned) ∧
      Carries (payloadsTo connId ((b.handleReconnect playerId connId).sent.drop b.sent.length)) cp
        (frames.map (orderedInputs b.room.lockstep.allPlayers))

section Sent

variable {cfg : BattleConfig F} {b b' : Battle F} {playerId connId : UInt64}

theorem length_snapshotBytes (cp : BattleCheckpoint F) : 8 ≤ (snapshotBytes cp).length := by
  unfold snapshotBytes
  rw [List.length_append, List.length_append, Gmaker.Net.length_writeU32BE,
    Gmaker.Net.length_writeU32BE]
  omega

/-- Empty payloads carry nothing. -/
theorem not_carries {payloads : List Bytes} (h : ∀ payload ∈ payloads, payload = [])
    (cp : BattleCheckpoint F) (frames : List ConfirmedInputs) : ¬ Carries payloads cp frames := by
  rintro ⟨before, after, hbytes⟩
  have hlen := length_snapshotBytes cp
  have hempty : payloads.flatten = [] := List.flatten_eq_nil_iff.mpr h
  have hsum := congrArg List.length (hempty.symm.trans hbytes)
  simp only [List.length_append, List.length_nil] at hsum
  omega

/-- Nothing that has been sent has a payload. -/
def Blank (sent : List (RoomSnapshot × List UInt64)) : Prop := ∀ p ∈ sent, p.1.rawPayload = []

theorem sendAck_sent :
    ∃ more, Blank more ∧ (b.sendAck connId).sent = b.sent ++ more := by
  have hnone : ∃ more, Blank more ∧ b.sent = b.sent ++ more :=
    ⟨[], nofun, (List.append_nil _).symm⟩
  unfold sendAck
  cases b.latest with
  | none => exact hnone
  | some cp =>
    simp only []
    split_ifs
    · refine ⟨_, fun p hp => ?_, rfl⟩
      rw [List.mem_singleton.mp hp]
    · exact hnone

/-- What `HandleReconnect` sends has no payload. -/
theorem handleReconnect_sent :
    ∃ more, Blank more ∧ (b.handleReconnect playerId connId).sent = b.sent ++ more := by
  unfold handleReconnect
  cases b.room.findPlayer playerId with
  | none => exact ⟨[], nofun, (List.append_nil _).symm⟩
  | some info => exact sendAck_sent

theorem not_reconnectComplete (hplayer : b.room.findPlayer playerId ≠ none)
    (hlatest : b.latest ≠ none) : ¬ b.ReconnectComplete playerId connId := by
  intro h
  obtain ⟨cp, hcp⟩ := Option.ne_none_iff_exists'.mp hlatest
  obtain ⟨frames, -, -, hcarries⟩ := h hplayer cp hcp
  obtain ⟨more, hblank, hsent⟩ :
      ∃ more, Blank more ∧ (b.handleReconnect playerId connId).sent = b.sent ++ more :=
    handleReconnect_sent
  rw [hsent, List.drop_left] at hcarries
  refine not_carries (fun payload hmem => ?_) cp _ hcarries
  obtain ⟨p, hp, rfl⟩ := List.mem_map.mp hmem
  exact hblank p (List.mem_of_mem_filter hp)

/-- A match of two, a checkpoint each frame, and the battle has begun. -/
def opening : List BattleEvent :=
  [.playerEnter 1 11, .playerEnter 2 12, .battleReady 1, .battleReady 2] ++
    List.replicate 6 (.tick 40 ⟨.asIs, .asIs⟩) ++ [.playerDisconnect 1]

/-- A player of that match who comes back gets nothing. -/
theorem opening_not_reconnectComplete :
    ∃ b : Battle ℚ, run (next { teamSize := 1, checkpointIntervalFrames := 1 })
      (new { teamSize := 1, checkpointIntervalFrames := 1 } 7 true) opening = some b ∧
        ¬ b.ReconnectComplete 1 21 := by
  have hrun : (run (next { teamSize := 1, checkpointIntervalFrames := 1 })
      (new { teamSize := 1, checkpointIntervalFrames := 1 } 7 true : Battle ℚ) opening).map
        (fun b => ((b.room.findPlayer 1).isSome, b.latest.isSome)) = some (true, true) := by
    decide +kernel
  obtain ⟨b, hb, hfacts⟩ := Option.map_eq_some_iff.mp hrun
  obtain ⟨hplayer, hlatest⟩ := Prod.mk.inj hfacts
  exact ⟨b, hb, not_reconnectComplete (Option.isSome_iff_ne_none.mp hplayer)
    (Option.isSome_iff_ne_none.mp hlatest)⟩

/-- A player who comes back gets what is needed only where nothing is: there is no
checkpoint, or the player is not of the match. -/
theorem reconnectComplete_iff (b : Battle F) (playerId connId : UInt64) :
    b.ReconnectComplete playerId connId ↔
      b.room.findPlayer playerId = none ∨ b.latest = none := by
  constructor
  · intro h
    by_contra hnot
    push Not at hnot
    exact not_reconnectComplete hnot.1 hnot.2 h
  · rintro (hnone | hnone) hplayer cp hcp
    · exact absurd hnone hplayer
    · rw [hnone] at hcp
      cases hcp

end Sent

end Battle

end Gmaker.Realtime
